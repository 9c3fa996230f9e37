import IsoTransport.Assembly.Run
import IsoTransport.Control.Header
import IsoTransport.Session.Run
import IsoTransport.Settings.Store
import IsoTransport.Proofs.Assembly.Counting
import IsoTransport.Proofs.Assembly.Course
import IsoTransport.Proofs.Assembly.Feeding
import IsoTransport.Proofs.Assembly.History
import IsoTransport.Proofs.Assembly.Invariant
import IsoTransport.Proofs.Assembly.Channels
import IsoTransport.Proofs.Assembly.Arrival
import IsoTransport.Proofs.Assembly.Order
import IsoTransport.Proofs.Assembly.Ledger
import IsoTransport.Proofs.Assembly.Holes
import IsoTransport.Proofs.Assembly.Replay
import IsoTransport.Proofs.Assembly.Isolation
import IsoTransport.Proofs.Control.Forms
import IsoTransport.Proofs.Session.Traffic
import IsoTransport.Proofs.Session.Walk
import IsoTransport.Proofs.Assembly.Owner
import IsoTransport.Proofs.Session.Exchange
import IsoTransport.Proofs.Assembly.Life
import IsoTransport.Proofs.Assembly.WellFormed
import IsoTransport.Proofs.Assembly.Limit
import IsoTransport.Proofs.Control.Exact
import IsoTransport.Delivery.Run
import IsoTransport.Proofs.Session.Erasure
import IsoTransport.Proofs.Assembly.Loss
import IsoTransport.Proofs.Delivery.Conservation
import IsoTransport.Proofs.Settings.Document
import IsoTransport.Proofs.Session.Accounts
import IsoTransport.Proofs.Control.Ranges
import IsoTransport.Proofs.Session.Ranges
import IsoTransport.Proofs.Addressing
import IsoTransport.Proofs.Settings.Store
import IsoTransport.Proofs.Control.Extension
import IsoTransport.Proofs.Session.AddressFields
import IsoTransport.Proofs.Assembly.Gathering
import IsoTransport.Proofs.Assembly.Verdicts
import IsoTransport.Proofs.Settings.Selection
import IsoTransport.Proofs.Session.Cycle
import IsoTransport.Proofs.Session.Padding
import IsoTransport.Proofs.Settings.Notation
import IsoTransport.Proofs.Settings.MappingRows
import IsoTransport.Proofs.Settings.PduRows
import IsoTransport.Proofs.Session.Reset
import IsoTransport.Proofs.Assembly.Reports

import IsoTransport.Text.Hex
import IsoTransport.Json.Fault

/-!
What can be wrong with a frame, a transfer or a settings document. A fault keeps its cause as
data; `Fault.message` words it.
-/

namespace IsoTransport

inductive HeaderField where
  | control | singleLength | firstLength | escapedLength | blockSize | separationTime
  | acknowledgment | payload
  deriving DecidableEq

def HeaderField.title : HeaderField → String
  | control => "PCI"
  | singleLength => "single frame length"
  | firstLength => "first frame length"
  | escapedLength => "first frame escaped length"
  | blockSize => "block size"
  | separationTime => "separation time"
  | acknowledgment => "acknowledgment"
  | payload => "payload"

inductive AddressRole where
  | source | target | ecu
  deriving DecidableEq

inductive SettingFault where
  /-- A part of an identifier list that is neither a number nor an ascending range. -/
  | invalidRange (part : String)
  | addressWidth (bytes : UInt8)
  | noMask
  | bothMasks
  | loneMask
  | wideMask (role : AddressRole) (mask : UInt32) (extended : Bool)
  | sizeAndValue (role : AddressRole)
  | ecuWithOther (pdu : UInt32)
  | loneAddress (pdu : UInt32)
  | standardId (id : UInt32)
  | extendedId (id : UInt32)
  | flexRayWidth
  | duplicatePdu (row : Nat) (pdu : UInt32)
  deriving DecidableEq

namespace SettingFault

private def maskRole : AddressRole → String
  | .source => "source"
  | .target => "target"
  | .ecu => "ECU"

private def fieldRole : AddressRole → String
  | .source => "source"
  | .target => "target"
  | .ecu => "ecu"

def reason : SettingFault → String
  | invalidRange part => "invalid id range `" ++ part ++ "`"
  | addressWidth bytes => "address size must be 0, 1 or 2 bytes, got " ++ toString bytes.toNat
  | noMask => "define the ECU address mask or the source/target address masks"
  | bothMasks => "use either the source/target address masks or the ECU address mask, not both"
  | loneMask => "source and target address masks can only be used in combination"
  | wideMask role mask extended =>
      maskRole role ++ " address mask " ++ Text.hex mask.toNat ++ " covers bits not allowed for "
        ++ (if extended then "extended ids (29bit)" else "standard ids (11bit)")
  | sizeAndValue role =>
      "set either the size of the " ++ fieldRole role ++ " address or a fixed value, not both"
  | ecuWithOther pdu =>
      "PDU " ++ Text.hex pdu.toNat
        ++ ": an ecu address cannot be combined with a source or target address"
  | loneAddress pdu =>
      "PDU " ++ Text.hex pdu.toNat ++ ": source and target address must be configured together"
  | standardId id => "standard CAN id " ++ Text.hex id.toNat ++ " exceeds 0x7ff"
  | extendedId id => "extended CAN id " ++ Text.hex id.toNat ++ " exceeds 0x1fffffff"
  | flexRayWidth => "FlexRay addressing must be 1 or 2 bytes"
  | duplicatePdu _ pdu => "PDU " ++ Text.hex pdu.toNat ++ " is configured more than once"

/-- The reason and where it belongs: a list of identifiers speaks for itself, a repeated PDU names
its row. -/
def message (f : SettingFault) : String :=
  match f with
  | invalidRange _ => f.reason
  | duplicatePdu row _ => "configuration row " ++ toString row ++ ": " ++ f.reason
  | _ => "configuration error: " ++ f.reason

end SettingFault

inductive Fault where
  | badMessageType (value : UInt8)
  | truncated (field : HeaderField) (needed available : Nat)
  | fragmentOverflow (transfer : UInt32) (number : UInt8)
  | setting (cause : SettingFault)
  | document (cause : Json.Fault SettingFault)
  | parity (pid : UInt8)
  deriving DecidableEq

namespace Fault

def isMalformedFrame : Fault → Bool
  | badMessageType _ | truncated .. => true
  | _ => false

def message : Fault → String
  | badMessageType value => "bad message type value " ++ toString value.toNat ++ " (expected <= 7)"
  | truncated field needed available =>
      "frame truncated: " ++ field.title ++ " needs " ++ toString needed ++ " bytes, "
        ++ toString available ++ " available"
  | fragmentOverflow transfer number =>
      "message " ++ toString transfer.toNat ++ " exceeds 4096 segments (sequence number "
        ++ Text.hex number.toNat ++ " wrapped 255 times)"
  | setting cause => cause.message
  | document cause => "invalid configuration document: " ++ cause.message SettingFault.message
  | parity pid => "LIN protected identifier " ++ Text.hexByte pid ++ " has bad parity"

end Fault

end IsoTransport

import Mathlib.Data.List.SplitLengths
import IsoTransport.Proofs.Addressing
import IsoTransport.Proofs.Control.Limit
import IsoTransport.Proofs.Session.Traffic

/-!
The bytes set apart for addresses and the control information behind them. How many bytes are set apart is known
before the data is; the addresses are found exactly in the frames that have all of these bytes, and a frame that
has not is refused for its control information (`address_fields`).
-/

namespace IsoTransport

/-! ### Reading from the first bytes -/

theorem slice?_take {data : Bytes} {start width n : Nat} (inside : start + width ≤ n) :
    Bytes.slice? (data.take n) start width = data.slice? start width := by
  unfold Bytes.slice?
  rw [List.length_take, List.drop_take, List.take_take, Nat.min_eq_left (by omega : width ≤ n - start)]
  by_cases room : start + width ≤ data.length
  · rw [if_pos room, if_pos (by omega)]
  · rw [if_neg room, if_neg (by omega)]

theorem addressAt?_take {data : Bytes} {start width n : Nat} (inside : start + width ≤ n) :
    addressAt? (data.take n) start width = addressAt? data start width := by
  unfold addressAt?
  rw [slice?_take inside]

theorem isSome_addressAt? {data : Bytes} {start width : Nat} :
    (addressAt? data start width).isSome ↔ start + width ≤ data.length := by
  unfold addressAt? Bytes.slice?
  split <;> simp_all

namespace AddressSource

theorem read?_take (source : AddressSource) {data : Bytes} {start n : Nat} (inside : start + source.width ≤ n) :
    source.read? (data.take n) start = source.read? data start := by
  cases source with
  | encoded w => exact addressAt?_take inside
  | fixed a => rfl

theorem width_le (source : AddressSource) : source.width ≤ 2 := by
  cases source with
  | encoded w => cases w <;> decide
  | fixed a => exact Nat.zero_le 2

end AddressSource

namespace Addresses

theorem count_ofSingle? (x : Option UInt32) : 0 < (ofSingle? x).count ↔ x.isSome := by
  cases x <;> simp [ofSingle?, count]

theorem count_ofPair? (x y : Option UInt32) : 0 < (ofPair? x y).count ↔ x.isSome ∧ y.isSome := by
  cases x <;> cases y <;> simp [ofPair?, count]

end Addresses

/-! ### Layouts -/

namespace AddressLayout

theorem locate_length (layout : AddressLayout) (data : Bytes) :
    (layout.locate data).length = (layout.sources.map (·.width)).sum := by
  cases layout <;> simp [locate, sources]

theorem locate_take (layout : AddressLayout) (data : Bytes) {n : Nat} (inside : (layout.locate data).length ≤ n) :
    layout.locate (data.take n) = layout.locate data := by
  cases layout with
  | unaddressed => rfl
  | single e =>
    have only : 0 + e.width ≤ n := by simpa [locate] using inside
    simp only [locate, e.read?_take only]
  | pair s t =>
    have both : s.width + t.width ≤ n := inside
    have first : 0 + s.width ≤ n := by omega
    simp only [locate, s.read?_take first, t.read?_take both]

theorem count_locate (layout : AddressLayout) (data : Bytes) (some_ : 0 < (layout.locate data).length) :
    0 < (layout.locate data).addresses.count ↔ (layout.locate data).length ≤ data.length := by
  cases layout with
  | unaddressed => exact absurd some_ (Nat.lt_irrefl 0)
  | single e =>
    simp only [locate, Addresses.count_ofSingle?]
    cases e with
    | encoded w => simp [AddressSource.read?, isSome_addressAt?, AddressSource.width]
    | fixed a => simp [AddressSource.read?, AddressSource.width]
  | pair s t =>
    simp only [locate, Addresses.count_ofPair?]
    cases s <;> cases t <;>
      simp only [AddressSource.read?, isSome_addressAt?, AddressSource.width, Option.isSome_some, and_true,
        true_and, true_iff] <;> omega

end AddressLayout

/-! ### Formats -/

namespace AddressingFormat

variable {frame other : Frame} {s : Settings} {data : Bytes}

/-- The widths of the address fields in front of the control information. -/
def fields : AddressingFormat → List Nat
  | normal | identifier .. => []
  | extended => [1]
  | sourceTarget width => [width, width]
  | pdu layout => layout.sources.map (·.width)

theorem locate_length (format : AddressingFormat) (data : Bytes) (s : Settings) :
    (format.locate data s).length = format.fields.sum := by
  cases format with
  | normal | extended | identifier => rfl
  | sourceTarget width => simp [locate, fields, Nat.two_mul]
  | pdu layout => exact layout.locate_length data

theorem locate_take (format : AddressingFormat) (data : Bytes) {n : Nat} (inside : format.fields.sum ≤ n) :
    format.locate (data.take n) s = format.locate data s := by
  cases format with
  | normal | identifier => rfl
  | extended =>
    have only : 0 + 1 ≤ n := inside
    simp only [locate, addressAt?_take only]
  | sourceTarget width =>
    have both : width + width ≤ n := by simpa [fields] using inside
    have first : 0 + width ≤ n := by omega
    simp only [locate, addressAt?_take first, addressAt?_take both]
  | pdu layout =>
    apply layout.locate_take
    rw [layout.locate_length]
    exact inside

theorem count_locate (format : AddressingFormat) (some_ : 0 < format.fields.sum) :
    0 < (format.locate data s).addresses.count ↔ format.fields.sum ≤ data.length := by
  cases format with
  | normal | identifier => exact absurd some_ (Nat.lt_irrefl 0)
  | extended => simp [locate, Addresses.count_ofSingle?, isSome_addressAt?, fields]
  | sourceTarget width =>
    simp only [locate, Addresses.count_ofPair?, isSome_addressAt?, fields, List.sum_cons, List.sum_nil]
    omega
  | pdu layout =>
    have length := layout.locate_length data
    have counted := layout.count_locate data (by rw [length]; exact some_)
    rw [length] at counted
    exact counted

theorem sum_fields_le (frame : Frame) (s : Settings) : (ofFrame frame s).fields.sum ≤ 4 := by
  cases format : ofFrame frame s with
  | normal | identifier => exact Nat.zero_le 4
  | extended => decide
  | sourceTarget width =>
    have narrow := width_of_ofFrame format
    simp only [fields, List.sum_cons, List.sum_nil]
    omega
  | pdu layout =>
    cases layout with
    | unaddressed => decide
    | single e =>
      have narrow := e.width_le
      simp only [fields, AddressLayout.sources, List.map_cons, List.map_nil, List.sum_cons, List.sum_nil]
      omega
    | pair x y =>
      have first := x.width_le
      have second := y.width_le
      simp only [fields, AddressLayout.sources, List.map_cons, List.map_nil, List.sum_cons, List.sum_nil]
      omega

theorem ofFrame_congr (medium : other.medium = frame.medium) (id : other.id = frame.id) :
    (ofFrame other s).fields = (ofFrame frame s).fields ∧
      (0 < (ofFrame frame s).fields.sum ∨ other.isExtended = frame.isExtended →
        ofFrame other s = ofFrame frame s) := by
  unfold ofFrame
  rw [medium, id]
  cases frame.medium with
  | can | canFd =>
    cases s.addressing with
    | extended => simp
    | normal =>
      refine ⟨rfl, fun apart => ?_⟩
      rcases apart with some_ | wide
      · exact absurd some_ (Nat.lt_irrefl 0)
      · rw [wide]
  | lin | flexRay | iPduM | pduTransport => simp

end AddressingFormat

/-! ### Frames -/

namespace Frame

variable {frame other : Frame} {s : Settings}

theorem locate_length (frame : Frame) (s : Settings) :
    (frame.locate s).length = (AddressingFormat.ofFrame frame s).fields.sum :=
  AddressingFormat.locate_length _ _ _

/-- The addresses are found from the bytes set apart for them. -/
theorem locate_congr (format : AddressingFormat.ofFrame other s = AddressingFormat.ofFrame frame s)
    (agree : other.data.take (frame.locate s).length = frame.data.take (frame.locate s).length) :
    other.locate s = frame.locate s := by
  rw [frame.locate_length] at agree
  have taken (data : Bytes) := (AddressingFormat.ofFrame frame s).locate_take (s := s) data (Nat.le_refl _)
  rw [locate, locate, format, ← taken other.data, agree, taken]

theorem readControl_short {start : Nat} (short : frame.data.length ≤ start) (limit : Option Nat) :
    frame.readControl start limit = .error (.truncated .control (start + 1) frame.data.length) := by
  have absent : byteAt frame.data start .control =
      .error (.truncated .control (start + 1) frame.data.length) := by
    rw [byteAt, List.getElem?_eq_none short]
  rw [readControl]
  simp only [absent, bind, Except.bind]

/-- The data is cut into the address fields, the byte behind them and the rest. -/
theorem exists_fields {widths : List Nat} {data : Bytes} {pci : UInt8} (found : data[widths.sum]? = some pci) :
    ∃ (fields : List Bytes) (rest : Bytes), data = fields.flatten ++ pci :: rest ∧
      fields.map List.length = widths ∧ fields.flatten.length = widths.sum := by
  obtain ⟨inside, rfl⟩ := List.getElem?_eq_some_iff.mp found
  have taken : (data.take widths.sum).length = widths.sum := List.length_take_of_le (Nat.le_of_lt inside)
  have whole := List.flatten_splitLengths (data.take widths.sum) widths taken.le
  refine ⟨widths.splitLengths (data.take widths.sum), data.drop (widths.sum + 1), ?_, ?_, ?_⟩
  · rw [whole, ← List.drop_eq_getElem_cons inside, List.take_append_drop]
  · exact List.map_splitLengths_length _ _ taken.ge
  · rw [whole, taken]

/-- Control information that was read lies behind all of the address fields. -/
theorem fields_of_readControl {limit : Option Nat} {r : ControlReading}
    (read : frame.readControl (frame.locate s).length limit = .ok r) :
    ∃ (fields : List Bytes) (pci : UInt8) (rest : Bytes), frame.data = fields.flatten ++ pci :: rest ∧
      fields.map List.length = (AddressingFormat.ofFrame frame s).fields ∧
      fields.flatten.length = (frame.locate s).length ∧ FrameKind.ofByte pci = .ok r.kind := by
  obtain ⟨pci, found, known⟩ := kind_of_readControl read
  rw [frame.locate_length] at found ⊢
  obtain ⟨fields, rest, written, wide, total⟩ := exists_fields found
  exact ⟨fields, pci, rest, written, wide, total, known⟩

/-- At most four bytes are set apart for addresses, as many in every frame of the same medium and identifier.
They are all that the addresses are read from. If there are any, the addresses are found exactly in the frames
that have all of them; a frame that has not is cut off, and in a frame that is reported the control information
follows directly on the fields. -/
theorem address_fields (s : Settings) (frame : Frame) :
    let n := (frame.locate s).length
    let widths := (AddressingFormat.ofFrame frame s).fields
    n = widths.sum ∧ n ≤ 4 ∧
      (∀ other : Frame, other.medium = frame.medium → other.id = frame.id →
        (other.locate s).length = n ∧
          (0 < n ∨ other.isExtended = frame.isExtended → other.data.take n = frame.data.take n →
            (other.locate s).addresses = (frame.locate s).addresses)) ∧
      (0 < n → (0 < (frame.locate s).addresses.count ↔ n ≤ frame.data.length)) ∧
      (frame.data.length < n → ∀ limit,
        frame.readControl n limit = .error (.truncated .control (n + 1) frame.data.length)) ∧
      ∀ {σ : Type} (session : Session σ) (index : FrameIndex) (report : Report), session.settings = s →
        (session.observe index frame).1 = .ok (some report) → report.addressLength = n ∧
          (0 < n → 0 < report.addresses.count) ∧
          ∃ (fields : List Bytes) (pci : UInt8) (rest : Bytes), frame.data = fields.flatten ++ pci :: rest ∧
            fields.map List.length = widths ∧ fields.flatten.length = n ∧
            FrameKind.ofByte pci = .ok report.control.kind := by
  intro n widths
  have length : n = widths.sum := frame.locate_length s
  have resolved : 0 < n → (0 < (frame.locate s).addresses.count ↔ n ≤ frame.data.length) := by
    intro some_
    rw [length] at some_ ⊢
    exact AddressingFormat.count_locate _ some_
  refine ⟨length, ?_, ?_, resolved, ?_, ?_⟩
  · rw [length]
    exact AddressingFormat.sum_fields_le frame s
  · intro other medium id
    obtain ⟨same, format⟩ := AddressingFormat.ofFrame_congr (s := s) medium id
    refine ⟨by rw [other.locate_length, same, length], fun apart agree => ?_⟩
    rw [length] at apart
    rw [locate_congr (format apart) agree]
  · intro short limit
    exact readControl_short (Nat.le_of_lt short) limit
  · rintro σ session index report rfl reported
    obtain ⟨read, addresses, same, -⟩ := Session.observe_reported reported
    obtain ⟨fields, pci, rest, written, wide, total, known⟩ := fields_of_readControl read
    refine ⟨same, fun some_ => ?_, fields, pci, rest, written, wide, total, known⟩
    rw [addresses]
    apply (resolved some_).mpr
    rw [written, List.length_append, total]
    exact Nat.le_add_right _ _

/-- A source of two bytes and a target that is given, in a frame that has these bytes and in one that has not. -/
theorem address_fields_mixed :
    let settings : Settings := { pdus := [⟨0x77, .pair (.encoded .two) (.fixed 0x33)⟩] }
    let session : Session Unit := .start settings { memory := () }
    let frame := pduTransport 0x77 [0x01, 0x02, 0x01, 0x3e]
    let short := pduTransport 0x77 [0x01]
    (∃ report, (session.observe 0 frame).1 = .ok (some report) ∧ report.addressLength = 2 ∧
      0 < report.addresses.count) ∧
      (short.locate settings).length = 2 ∧ (short.locate settings).addresses.count = 0 ∧
      short.readControl 2 none = .error (.truncated .control 3 1) := by
  intro settings session frame short
  obtain ⟨-, -, alike, -, -, reported⟩ := address_fields settings frame
  obtain ⟨-, -, -, resolved, cut, -⟩ := address_fields settings short
  have length : (short.locate settings).length = 2 := (alike short rfl rfl).1
  rw [length] at resolved cut
  refine ⟨?_, length, ?_, cut (by decide) none⟩
  · obtain ⟨report, answer⟩ : ∃ report, (session.observe 0 frame).1 = .ok (some report) :=
      ⟨{ index := 0, channel := frame.channel, addresses := .pair 0x102 0x33, addressLength := 2,
         control := { kind := .single, control := .single 1, offset := 3, length := 1 }, segment := [0x3e],
         outcome := none, destination := some .data }, by decide +kernel⟩
    obtain ⟨same, found, -⟩ := reported session 0 report rfl answer
    exact ⟨report, answer, same, found (by decide)⟩
  · have unresolved := (resolved (by decide)).not.mpr (by decide)
    omega

end Frame

end IsoTransport

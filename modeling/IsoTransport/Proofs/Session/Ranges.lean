import IsoTransport.Proofs.Control.Ranges
import IsoTransport.Proofs.Session.Traffic

/-!
No slice that the analysis of a frame takes is outside of its bytes, and no difference is below zero. This is
told by a second analysis that stops where one is, and never does (`observe_in_range`): `placeChecked` is `place`
with its slices and differences checked, and so are the others.
-/

namespace IsoTransport

theorem Bytes.slice?_of_le {data : Bytes} {start width : Nat} (room : start + width ≤ data.length) :
    data.slice? start width = some ((data.drop start).take width) := if_pos room

namespace Transfer

def acceptChecked (t : Transfer) (fragment length : Nat) : Option (Placement × Transfer) := do
  let total := t.accumulated + length
  let last : Bool := t.declared ≤ total
  let kept ← if last then do Nat.psub' length (min (← Nat.psub' total t.declared) length) else some length
  return ({ message := t.id, fragment, length := kept, last, verdict := .accepted },
    { t with
      accumulated := if last then t.declared else total
      highest := max t.highest fragment
      phase := if last then .complete else t.phase })

def placeChecked (t : Transfer) (window : Nat) (number : UInt8) (length : Nat) : Option (Placement × Transfer) :=
  if t.phase = .errored then some (t.unplaced number.toNat length .ignored, t)
  else if t.rounds.get (slot number) = roundLimit then
    some (t.unplaced (slot number + 16 * (roundLimit + 1)) length .overflow, t.fail)
  else
    let fragment := t.expand number
    let t := t.countRound number
    if t.highest + window < fragment then some (t.unplaced fragment length .rejected, t.fail)
    else t.acceptChecked fragment length

theorem acceptChecked_eq (t : Transfer) (fragment length : Nat) :
    t.acceptChecked fragment length = some (t.accept fragment length) := by
  unfold acceptChecked accept
  by_cases reached : t.declared ≤ t.accumulated + length
  · simp [reached, Nat.psub']
  · simp [reached]

theorem placeChecked_eq (t : Transfer) (window : Nat) (number : UInt8) (length : Nat) :
    t.placeChecked window number length = some (t.place window number length) := by
  have round : t.rounds.get (slot number) = t.rounds[slot number] := rfl
  unfold placeChecked place
  dsimp only
  rw [acceptChecked_eq, round]
  split
  · rfl
  · split
    · rfl
    · split <;> rfl

theorem place_length_le (t : Transfer) (window : Nat) (number : UInt8) (length : Nat) :
    (t.place window number length).1.length ≤ length := by
  unfold place
  split
  · exact Nat.le_refl _
  · split
    · exact Nat.le_refl _
    · dsimp only
      split
      · exact Nat.le_refl _
      · unfold accept
        dsimp only
        split
        · exact Nat.sub_le _ _
        · exact Nat.le_refl _

end Transfer

namespace Engine

def storeChecked (e : Engine) (index : FrameIndex) (t : Transfer) (p : Placement) (payload : Bytes) :
    Option (Outcome × Engine) := do
  let e := if p.last then e.unbind t.channel t.id else e
  let kept ← payload.slice? 0 p.length
  let (message, fragments) := e.fragments.add t.id p.fragment index kept (!p.last)
  let e := { e with fragments }
  match message with
  | some m => return (.completed p m.payload t.declared, e)
  | none => return (if p.last then .incomplete p else .buffered p, e)

def feedChecked (e : Engine) (index : FrameIndex) (t : Transfer) (number : UInt8) (payload : Bytes) :
    Option (Except Fault Outcome × Engine) := do
  let (p, t) ← t.placeChecked e.window number payload.length
  let e := e.record index t p
  match p.verdict with
  | .ignored => return (.ok (.discarded p), e)
  | .overflow => return (.error (.fragmentOverflow t.id number), e.drop t.id)
  | .rejected => return (.ok (.errored p), e.drop t.id)
  | .accepted => do
    let (outcome, e) ← e.storeChecked index t p payload
    return (.ok outcome, e)

def pushChecked (e : Engine) (index : FrameIndex) (channel : Channel) (segment : Segment) (payload : Bytes) :
    Option (Except Fault Outcome × Engine) :=
  match e.visited[index]? with
  | some known => some (e.replay index known, e)
  | none =>
    match e.target? index channel segment with
    | (some t, e) => e.feedChecked index t segment.number payload
    | (none, e) => some (.ok .orphaned, { e with visited := e.visited.insert index none })

theorem storeChecked_eq (e : Engine) (index : FrameIndex) (t : Transfer) {p : Placement} {payload : Bytes}
    (short : p.length ≤ payload.length) :
    e.storeChecked index t p payload = some (e.store index t p payload) := by
  have kept : payload.slice? 0 p.length = some (payload.take p.length) := by
    rw [Bytes.slice?_of_le (by omega), List.drop_zero]
  unfold storeChecked store
  rw [kept]
  dsimp only [bind, Option.bind, pure]
  cases ((if p.last then e.unbind t.channel t.id else e).fragments.add t.id p.fragment index
    (payload.take p.length) (!p.last)).1 <;> rfl

theorem feedChecked_eq (e : Engine) (index : FrameIndex) (t : Transfer) (number : UInt8) (payload : Bytes) :
    e.feedChecked index t number payload = some (e.feed index t number payload) := by
  have short := t.place_length_le e.window number payload.length
  unfold feedChecked feed
  rw [Transfer.placeChecked_eq]
  dsimp only [bind, Option.bind, pure]
  rw [storeChecked_eq _ _ _ short]
  cases (t.place e.window number payload.length).1.verdict <;> rfl

theorem pushChecked_eq (e : Engine) (index : FrameIndex) (channel : Channel) (segment : Segment)
    (payload : Bytes) :
    e.pushChecked index channel segment payload = some (e.push index channel segment payload) := by
  unfold pushChecked push
  cases e.visited[index]? with
  | some known => rfl
  | none =>
    rcases e.target? index channel segment with ⟨_ | t, s⟩
    · rfl
    · exact feedChecked_eq ..

theorem push_length_le {e : Engine} {index : FrameIndex} (fresh : e.isVisited index = false) {channel : Channel}
    {segment : Segment} {payload : Bytes} {p : Placement}
    (placed : (e.push index channel segment payload).2.placement? index = some p) :
    p.length ≤ payload.length := by
  have unseen := isVisited_eq_false.mp fresh
  rcases target : e.target? index channel segment with ⟨_ | t, s⟩
  · rw [push_orphan unseen target, placement?] at placed
    simp at placed
  · rw [push_target unseen target, placement?, (feed_frame s index t segment.number payload).2.1] at placed
    obtain rfl : (t.place s.window segment.number payload.length).1 = p := by simpa using placed
    exact t.place_length_le ..

end Engine

namespace Session

variable {σ : Type}

def concludeWith (s : Session σ) (index : FrameIndex) (frame : Frame) (location : Location)
    (control : ControlReading) (segment : Bytes) (outcome : Option Outcome) : Report × Session σ :=
  let (destination, s) := s.deliver (frame.message? location.addresses control.control segment outcome)
  ({ index, channel := frame.channel, addresses := location.addresses, addressLength := location.length,
     control, segment, outcome, destination }, s)

def reassembleChecked (s : Session σ) (index : FrameIndex) (frame : Frame) (segment : Segment)
    (payload : Bytes) : Option (Except Fault Outcome × Session σ) := do
  let (outcome, engine) ← s.engine.pushChecked index frame.channel segment payload
  return (outcome, { s with engine }.count (·.countOutcome outcome))

def continueChecked (s : Session σ) (index : FrameIndex) (frame : Frame) (location : Location)
    (control : ControlReading) : Option (Except Fault Report × Session σ) := do
  let payload ← frame.data.slice? control.offset control.length
  match control.control.segment? with
  | none =>
    let (report, s) := s.concludeWith index frame location control payload none
    return (.ok report, s)
  | some segment =>
    match ← s.reassembleChecked index frame segment payload with
    | (.error fault, s) => return (.error fault, s)
    | (.ok outcome, s) =>
      let (report, s) := s.concludeWith index frame location control payload (some outcome)
      return (.ok report, s)

def observeChecked (s : Session σ) (index : FrameIndex) (frame : Frame) :
    Option (Except Fault (Option Report) × Session σ) :=
  if s.settings.selects frame then do
    let s := s.count (·.countSelected)
    let location := frame.locate s.settings
    match ← frame.readChecked location.length (s.settings.segmentLimit frame.medium) with
    | .error fault => return (.error fault, s.count (·.countMalformed))
    | .ok control =>
      let (report, s) ← (s.count (·.countFrame control.kind)).continueChecked index frame location control
      return (some <$> report, s)
  else return (.ok none, s)

theorem continueChecked_eq (s : Session σ) (index : FrameIndex) {frame : Frame} (location : Location)
    {r : ControlReading} {start : Nat} (inside : r.Within frame.data start) :
    s.continueChecked index frame location r = some (s.continueWith index frame location r) := by
  unfold continueChecked continueWith
  rw [Bytes.slice?_of_le inside.room]
  dsimp only [bind, Option.bind, pure]
  cases r.control.segment? with
  | none => rfl
  | some segment =>
    dsimp only [reassembleChecked, bind, Option.bind, pure]
    rw [Engine.pushChecked_eq]
    dsimp only [reassemble]
    have taken : (frame.data.drop r.offset).take r.length = r.payload frame.data := rfl
    rw [taken]
    cases (s.engine.push index frame.channel segment (r.payload frame.data)).1 <;> rfl

/-- In every frame that is read the payload lies behind the addresses and within the data, what the engine
keeps of a payload is within it, and the analysis comes to its end with every slice and every difference
checked. -/
theorem observe_in_range (s : Session σ) (index : FrameIndex) (frame : Frame) :
    (∀ r, s.settings.reading frame = .ok r →
      (frame.locate s.settings).length < r.offset ∧ r.offset + r.length ≤ frame.data.length) ∧
    (∀ start limit, frame.readChecked start limit = some (frame.readControl start limit)) ∧
    (∀ (e : Engine) (i : FrameIndex) (channel : Channel) (segment : Segment) (payload : Bytes),
      e.pushChecked i channel segment payload = some (e.push i channel segment payload) ∧
      ∀ p, e.isVisited i = false → (e.push i channel segment payload).2.placement? i = some p →
        p.length ≤ payload.length) ∧
    s.observeChecked index frame = some (s.observe index frame) := by
  refine ⟨fun r read => ?_, frame.readChecked_eq,
    fun e i channel segment payload => ⟨e.pushChecked_eq .., ?_⟩, ?_⟩
  · have inside := Frame.readControl_within read
    exact ⟨inside.behind, inside.room⟩
  · intro p fresh placed
    exact Engine.push_length_le fresh placed
  · unfold observeChecked observe
    split
    · dsimp only [count]
      rw [Frame.readChecked_eq]
      dsimp only [bind, Option.bind, pure]
      cases read : frame.readControl (frame.locate s.settings).length (s.settings.segmentLimit frame.medium) with
      | error fault => rfl
      | ok r =>
        dsimp only
        rw [continueChecked_eq _ _ _ (Frame.readControl_within read)]
    · rfl

end Session

end IsoTransport

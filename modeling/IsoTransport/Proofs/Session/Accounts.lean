import IsoTransport.Proofs.Session.Erasure

/-!
The counters of a session add up (`counters_balanced`): the frames are those of each kind and the malformed
ones, the deliveries are the single frames and the completed messages, and every part of a message is counted
by what became of it, unless it was only stored.
-/

namespace IsoTransport

/-! ### Counters -/

namespace Counters

variable {c : Counters} {n : Nat} {kind : FrameKind}

theorem countFrame_single {length : Nat} (known : kind ∈ (Control.single length).kinds) :
    c.countFrame kind = { c with singleFrames := c.singleFrames + 1 } := by
  simp only [Control.kinds, List.mem_cons, List.not_mem_nil, or_false] at known
  rcases known with rfl | rfl <;> rfl

theorem countFrame_flow {f : FlowControl} (known : kind ∈ (Control.flow f).kinds) :
    c.countFrame kind = { c with flowControlFrames := c.flowControlFrames + 1 } ∨
      c.countFrame kind = { c with ackFrames := c.ackFrames + 1 } := by
  simp only [Control.kinds, List.mem_cons, List.not_mem_nil, or_false] at known
  rcases known with rfl | rfl
  · exact .inl rfl
  · exact .inr rfl

theorem countFrame_segmented (segmented : kind.isSegmented = true) :
    c.countFrame kind = { c with firstFrames := c.firstFrames + 1 } ∨
      c.countFrame kind = { c with consecutiveFrames := c.consecutiveFrames + 1 } := by
  cases kind with
  | first | firstExt => exact .inl rfl
  | consecutive | consecutive2 => exact .inr rfl
  | single | singleExt | flowControl | acknowledgment => cases segmented

/-- The sums that the counters keep, where `buffered` parts of messages were stored and no more. -/
structure Balanced (c : Counters) (buffered : Nat) : Prop where
  frames : c.frames = c.singleFrames + c.firstFrames + c.consecutiveFrames + c.flowControlFrames +
    c.ackFrames + c.malformedFrames
  deliveries : c.toDecoder + c.toData = c.singleFrames + c.completed
  parts : c.firstFrames + c.consecutiveFrames = c.orphanedFrames + c.completed + c.incomplete +
    c.errored + c.fragmentsIgnored + buffered

namespace Balanced

theorem new : Balanced {} 0 := ⟨rfl, rfl, rfl⟩

theorem malformed (balanced : c.Balanced n) : c.countSelected.countMalformed.Balanced n := by
  obtain ⟨frames, deliveries, parts⟩ := balanced
  refine ⟨?_, deliveries, parts⟩
  simp only [countSelected, countMalformed]
  omega

theorem single (balanced : c.Balanced n) {length : Nat} (known : kind ∈ (Control.single length).kinds)
    (d : Destination) : ((c.countSelected.countFrame kind).countDestination d).Balanced n := by
  obtain ⟨frames, deliveries, parts⟩ := balanced
  rw [countFrame_single known]
  cases d <;> constructor <;> simp only [countSelected, countDestination] <;> omega

theorem flow (balanced : c.Balanced n) {f : FlowControl} (known : kind ∈ (Control.flow f).kinds) :
    (c.countSelected.countFrame kind).Balanced n := by
  obtain ⟨frames, deliveries, parts⟩ := balanced
  rcases countFrame_flow (c := c.countSelected) known with counted | counted <;> rw [counted] <;>
    constructor <;> simp only [countSelected] <;> omega

theorem buffered (balanced : c.Balanced n) (segmented : kind.isSegmented = true) (p : Placement) :
    ((c.countSelected.countFrame kind).countOutcome (.ok (.buffered p))).Balanced (n + 1) := by
  obtain ⟨frames, deliveries, parts⟩ := balanced
  rcases countFrame_segmented (c := c.countSelected) segmented with counted | counted <;> rw [counted] <;>
    constructor <;> simp only [countSelected, countOutcome] <;> omega

theorem completed (balanced : c.Balanced n) (segmented : kind.isSegmented = true) (p : Placement)
    (payload : Bytes) (declared : Nat) (d : Destination) :
    (((c.countSelected.countFrame kind).countOutcome
      (.ok (.completed p payload declared))).countDestination d).Balanced n := by
  obtain ⟨frames, deliveries, parts⟩ := balanced
  rcases countFrame_segmented (c := c.countSelected) segmented with counted | counted <;> rw [counted] <;>
    cases d <;> constructor <;> simp only [countSelected, countOutcome, countDestination] <;> omega

/-- A part that was not stored, or was stored in vain. -/
theorem ended (balanced : c.Balanced n) (segmented : kind.isSegmented = true) (answer : Except Fault Outcome)
    (stored : ∀ p, answer ≠ .ok (.buffered p))
    (handed : ∀ p payload declared, answer ≠ .ok (.completed p payload declared)) :
    ((c.countSelected.countFrame kind).countOutcome answer).Balanced n := by
  obtain ⟨frames, deliveries, parts⟩ := balanced
  rcases countFrame_segmented (c := c.countSelected) segmented with counted | counted <;> rw [counted]
  all_goals
    rcases answer with fault | outcome
    · constructor <;> simp only [countSelected, countOutcome] <;> omega
    cases outcome with
    | buffered p => exact absurd rfl (stored p)
    | completed p payload declared => exact absurd rfl (handed p payload declared)
    | orphaned | incomplete | errored | discarded =>
      constructor <;> simp only [countSelected, countOutcome] <;> omega

end Balanced

end Counters

namespace Session

variable {σ : Type} {s : Session σ} {n : Nat} {index : FrameIndex} {frame : Frame}

/-! ### One frame -/

theorem message?_part {control : Control} {segment : Segment} (brings : control.segment? = some segment)
    (frame : Frame) (addresses : Addresses) (payload : Bytes) (outcome : Outcome) :
    frame.message? addresses control payload (some outcome) =
      match outcome with
      | .completed p bytes declared =>
        some { payload := bytes, addresses, medium := frame.medium, id := frame.id, declared,
               transfer := some p.message }
      | _ => none := by
  cases control with
  | single | flow => cases brings
  | first | consecutive => cases outcome <;> rfl

/-- An answer to a frame whose part of a message was stored and no more. -/
def saysBuffered : Option (Except Fault (Option Report)) → Bool
  | some (.ok (some report)) => (report.outcome matches some (.buffered _))
  | _ => false

theorem conclude_counters (s : Session σ) (index : FrameIndex) (frame : Frame) (location : Location)
    (r : ControlReading) (outcome : Option Outcome) :
    (s.conclude index frame location r outcome).2.counters =
      match frame.message? location.addresses r.control (r.payload frame.data) outcome with
      | some m => s.counters.countDestination (s.router.deliver m).1
      | none => s.counters := by
  unfold conclude
  dsimp only
  cases frame.message? location.addresses r.control (r.payload frame.data) outcome <;> rfl

theorem observe_balanced (balanced : s.counters.Balanced n) (index : FrameIndex) (frame : Frame) :
    (s.observe index frame).2.counters.Balanced
      (n + [some (s.observe index frame).1].countP saysBuffered) := by
  cases s.settings.found frame with
  | ignored ignored =>
    rw [observe_unselected ignored]
    exact balanced
  | malformed fault selected bad =>
    rw [observe_malformed selected bad]
    exact balanced.malformed
  | whole r selected read plain =>
    have known := (Frame.readControl_within read).kind
    obtain ⟨-, -, -, report⟩ := conclude_frame
      { s with counters := s.counters.countSelected.countFrame r.kind } index frame
      (frame.locate s.settings) r none
    rw [observe_plain selected read plain]
    dsimp only
    rw [conclude_counters, report]
    cases control : r.control with
    | single length =>
      rw [control] at known
      exact balanced.single known _
    | flow f =>
      rw [control] at known
      exact balanced.flow known
    | first | consecutive => rw [control] at plain; cases plain
  | part r segment selected read brings =>
    have segmented : r.kind.isSegmented = true :=
      (Frame.readControl_segmented read).mpr (by simp [brings])
    have counted : (s.pushed index frame r segment).counters =
        (s.counters.countSelected.countFrame r.kind).countOutcome
          (s.engine.push index frame.channel segment (r.payload frame.data)).1 := rfl
    rw [observe_segment selected read brings]
    cases answer : (s.engine.push index frame.channel segment (r.payload frame.data)).1 with
    | error fault =>
      rw [answer] at counted
      dsimp only
      rw [counted]
      exact balanced.ended segmented _ nofun nofun
    | ok outcome =>
      obtain ⟨-, -, -, report⟩ := (s.pushed index frame r segment).conclude_frame index
        frame (frame.locate s.settings) r (some outcome)
      rw [answer] at counted
      dsimp only
      rw [conclude_counters, report, counted, message?_part brings]
      cases outcome with
      | buffered p => exact balanced.buffered segmented p
      | completed p payload declared => exact balanced.completed segmented p payload declared _
      | orphaned | incomplete | errored | discarded => exact balanced.ended segmented _ nofun nofun

/-! ### Runs -/

/-- The answers to the events after the last reset. -/
def sinceReset (s : Session σ) (events : List Event) : List (Option (Except Fault (Option Report))) :=
  ((events.zip (s.answers events)).rtakeWhile (·.1 ≠ .reset)).map Prod.snd

theorem sinceReset_concat (s : Session σ) (events : List Event) (event : Event) :
    s.sinceReset (events ++ [event]) =
      if event = .reset then [] else s.sinceReset events ++ [((s.run events).step event).1] := by
  have last : (s.run events).answers [event] = [((s.run events).step event).1] := rfl
  rw [sinceReset, answers_append, last, List.zip_append (s.length_answers events).symm, List.zip_cons_cons,
    List.zip_nil_left, List.rtakeWhile_concat]
  by_cases reset : event = .reset
  · simp [reset]
  · simp [reset, sinceReset]

/-- After every event the counters add up: a frame that was selected is of one kind or malformed, what was
delivered are the single frames and the completed messages, and the parts of messages that came to no end are
those reported as stored since the last reset. -/
theorem counters_balanced (settings : Settings) (router : Router σ) (events : List Event) :
    ((start settings router).run events).counters.Balanced
      (((start settings router).sinceReset events).countP saysBuffered) := by
  induction events using List.reverseRecOn with
  | nil => exact .new
  | append_singleton events event ih =>
    rw [run_append, sinceReset_concat]
    cases event with
    | reset => exact .new
    | configure settings =>
      rw [if_neg nofun, List.countP_append]
      exact ih
    | observe index frame =>
      rw [if_neg nofun, List.countP_append]
      exact observe_balanced ih index frame

end Session

end IsoTransport

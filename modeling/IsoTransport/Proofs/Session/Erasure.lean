import IsoTransport.Proofs.Assembly.Replay
import IsoTransport.Proofs.Control.Ranges
import IsoTransport.Proofs.Session.Traffic

/-!
Frames that are no parts of segmented messages. Leaving any of them out of a run changes nothing for the
parts that are left and for the engine (`run_without_plain`).
-/

namespace IsoTransport

namespace Frame

/-- The kind of a frame tells whether it brings a segment. -/
theorem readControl_segmented {frame : Frame} {start : Nat} {limit : Option Nat} {r : ControlReading}
    (read : frame.readControl start limit = .ok r) :
    r.kind.isSegmented = true ↔ r.control.segment? ≠ none := by
  have known := (readControl_within read).kind
  cases control : r.control with
  | single | first | consecutive | flow =>
    simp only [control, Control.kinds, List.mem_cons, List.not_mem_nil, or_false] at known
    rcases known with kind | kind <;> simp [kind, FrameKind.isSegmented, Control.segment?]

theorem readControl_malformed {frame : Frame} {start : Nat} {limit : Option Nat} {fault : Fault}
    (failed : frame.readControl start limit = .error fault) : fault.isMalformedFrame = true := by
  rcases readControl_failed failed with ⟨b, -, -, rfl⟩ | ⟨-, field, needed, rfl, -⟩
  · rfl
  · rfl

end Frame

theorem Engine.push_error {e : Engine} {index : FrameIndex} {channel : Channel} {segment : Segment}
    {payload : Bytes} {fault : Fault} (failed : (e.push index channel segment payload).1 = .error fault) :
    fault.isMalformedFrame = false := by
  cases seen : e.visited[index]? with
  | none =>
    obtain ⟨id, rfl⟩ := push_fault seen failed
    rfl
  | some known =>
    rw [push_visited seen] at failed
    unfold replay at failed
    split at failed
    · cases failed
    · split at failed
      · cases failed
      · cases failed
      · obtain rfl := Except.error.inj failed
        rfl
      · split at failed
        · cases failed
        · cases failed

namespace Session

variable {σ : Type} {s : Session σ} {index : FrameIndex} {frame : Frame}

/-! ### Answers -/

/-- An answer to a frame that was not selected, was malformed or carries no part of a segmented message:
a single frame, flow control or an acknowledgment. -/
def Plain : Except Fault (Option Report) → Prop
  | .ok none => True
  | .ok (some r) => r.control.kind.isSegmented = false
  | .error fault => fault.isMalformedFrame = true

/-- What an answer says of reassembly: the outcome for a first or consecutive frame, or the fault. -/
def reassembled (answer : Except Fault (Option Report)) : Except Fault (Option Outcome) :=
  answer.map fun report => report.bind (·.outcome)

theorem observe_reassembled (s : Session σ) (index : FrameIndex) (frame : Frame) :
    reassembled (s.observe index frame).1 =
      match s.settings.segment? frame with
      | some (segment, payload) => (s.engine.push index frame.channel segment payload).1.map some
      | none =>
        if s.settings.selects frame then (s.settings.reading frame).map fun _ => none else .ok none := by
  cases s.settings.found frame with
  | ignored ignored nothing =>
    rw [observe_unselected ignored, nothing, ignored]
    rfl
  | malformed fault selected bad nothing =>
    rw [observe_malformed selected bad, nothing]
    simp [selected, bad, reassembled, Except.map]
  | whole r selected read plain nothing =>
    rw [observe_plain selected read plain, nothing]
    simp [selected, read, reassembled, Except.map, conclude]
  | part r segment selected read brings given =>
    rw [observe_segment selected read brings, given]
    dsimp only
    cases (s.engine.push index frame.channel segment (r.payload frame.data)).1 with
    | error fault => rfl
    | ok outcome => rfl

/-- The frames answered so are those that bring nothing to the engine. -/
theorem plain_iff : Plain (s.observe index frame).1 ↔ s.settings.segment? frame = none := by
  cases s.settings.found frame with
  | ignored ignored nothing =>
    rw [observe_unselected ignored]
    exact iff_of_true trivial nothing
  | malformed fault selected bad nothing =>
    rw [observe_malformed selected bad]
    exact iff_of_true (Frame.readControl_malformed bad) nothing
  | whole r selected read plain nothing =>
    rw [observe_plain selected read plain]
    refine iff_of_true ?_ nothing
    show r.kind.isSegmented = false
    apply Bool.eq_false_iff.mpr
    intro segmented
    exact (Frame.readControl_segmented read).mp segmented plain
  | part r segment selected read brings given =>
    rw [observe_segment selected read brings]
    refine iff_of_false ?_ (by simp [given])
    have segmented : r.kind.isSegmented = true :=
      (Frame.readControl_segmented read).mpr (by simp [brings])
    cases answer : (s.engine.push index frame.channel segment (r.payload frame.data)).1 with
    | error fault =>
      show ¬fault.isMalformedFrame = true
      simp [Engine.push_error answer]
    | ok outcome =>
      show ¬r.kind.isSegmented = false
      simp [segmented]

theorem observe_overflow {transfer : UInt32} {number : UInt8}
    (failed : (s.observe index frame).1 = .error (.fragmentOverflow transfer number)) :
    (s.observe index frame).2.router = s.router := by
  cases s.settings.found frame with
  | ignored ignored => rw [observe_unselected ignored]
  | malformed fault selected bad => rw [observe_malformed selected bad]
  | whole r selected read plain =>
    rw [observe_plain selected read plain] at failed
    cases failed
  | part r segment selected read brings =>
    rw [observe_segment selected read brings] at failed ⊢
    cases answer : (s.engine.push index frame.channel segment (r.payload frame.data)).1 with
    | error fault => rfl
    | ok outcome =>
      rw [answer] at failed
      cases failed

theorem observe_counts_malformed {fault : Fault} (failed : (s.observe index frame).1 = .error fault)
    (malformed : fault.isMalformedFrame = true) :
    (s.observe index frame).2 =
      { s with counters := { s.counters with
          frames := s.counters.frames + 1
          malformedFrames := s.counters.malformedFrames + 1 } } := by
  have nothing : s.settings.segment? frame = none := by
    rw [← plain_iff, failed]
    exact malformed
  cases s.settings.found frame with
  | ignored ignored =>
    rw [observe_unselected ignored] at failed
    cases failed
  | malformed fault selected bad =>
    rw [observe_malformed selected bad]
    rfl
  | whole r selected read plain =>
    rw [observe_plain selected read plain] at failed
    cases failed
  | part r segment selected read brings given =>
    rw [nothing] at given
    cases given

/-! ### Runs -/

/-- Frames of which each is marked to be kept or left out. -/
abbrev Marked := List (Bool × FrameIndex × Frame)

namespace Marked

def all (marked : Marked) : List (FrameIndex × Frame) := marked.map Prod.snd

def kept (marked : Marked) : List (FrameIndex × Frame) := (marked.filter Prod.fst).map Prod.snd

/-- In a run over all of them, each frame that is to be left out is answered as no part of a message. -/
def LeavesOutPlain (marked : Marked) (s : Session σ) : Prop :=
  ∀ before x after, marked = before ++ (false, x) :: after →
    Plain ((s.run ((all before).map Event.ofFrame)).observe x.1 x.2).1

theorem leavesOutPlain_iff {marked : Marked} :
    marked.LeavesOutPlain s ↔ ∀ x, (false, x) ∈ marked → s.settings.segment? x.2 = none := by
  constructor
  · intro plain x member
    obtain ⟨before, after, split⟩ := List.append_of_mem member
    have answered := plain_iff.mp (plain before x after split)
    rwa [run_settings_frames] at answered
  · intro silent before x after split
    apply plain_iff.mpr
    rw [run_settings_frames]
    apply silent
    simp [split]

theorem LeavesOutPlain.left {before after : Marked} (plain : LeavesOutPlain (before ++ after) s) :
    LeavesOutPlain before s := by
  rw [leavesOutPlain_iff] at plain ⊢
  intro x member
  exact plain x (List.mem_append_left after member)

theorem pushes_kept {settings : Settings} {marked : Marked}
    (silent : ∀ x, (false, x) ∈ marked → settings.segment? x.2 = none) :
    settings.pushes marked.kept = settings.pushes marked.all := by
  induction marked with
  | nil => rfl
  | cons m marked ih =>
    obtain ⟨mark, x⟩ := m
    have rest := ih fun y member => silent y (List.mem_cons_of_mem _ member)
    unfold kept all at rest ⊢
    cases mark with
    | true => simp only [List.filter_cons_of_pos, List.map_cons, Settings.pushes_cons, rest]
    | false =>
      have nothing := silent x List.mem_cons_self
      rw [List.map_cons, Settings.pushes_cons, Settings.push?_none nothing, ← rest]
      simp

theorem LeavesOutPlain.engine {marked : Marked} (plain : marked.LeavesOutPlain s) :
    (s.run (marked.kept.map Event.ofFrame)).engine = (s.run (marked.all.map Event.ofFrame)).engine := by
  rw [run_engine_frames, run_engine_frames, pushes_kept (leavesOutPlain_iff.mp plain)]

end Marked

/-- Leaving out frames that are no parts of segmented messages leaves the engine as it is, and what is said of
reassembly on each frame that is kept. A frame that is not selected leaves no trace, a malformed one only two
counts, and a number used too often leaves the decoders alone. -/
theorem run_without_plain (s : Session σ) {marked : Marked} (plain : marked.LeavesOutPlain s) :
    ((s.run (marked.kept.map Event.ofFrame)).engine = (s.run (marked.all.map Event.ofFrame)).engine ∧
      ∀ before x after, marked = before ++ (true, x) :: after →
        reassembled ((s.run ((Marked.kept before).map Event.ofFrame)).observe x.1 x.2).1 =
          reassembled ((s.run ((Marked.all before).map Event.ofFrame)).observe x.1 x.2).1) ∧
      ∀ index frame,
        (s.settings.selects frame = false → s.observe index frame = (.ok none, s)) ∧
        (∀ fault, (s.observe index frame).1 = .error fault → fault.isMalformedFrame = true →
          (s.observe index frame).2 =
            { s with counters := { s.counters with
                frames := s.counters.frames + 1
                malformedFrames := s.counters.malformedFrames + 1 } }) ∧
        (∀ transfer number, (s.observe index frame).1 = .error (.fragmentOverflow transfer number) →
          (s.observe index frame).2.router = s.router) := by
  refine ⟨⟨plain.engine, ?_⟩, fun index frame => ⟨observe_unselected, ?_, ?_⟩⟩
  · intro before x after split
    rw [split] at plain
    have engine := plain.left.engine
    rw [observe_reassembled, observe_reassembled, run_settings_frames, run_settings_frames, engine]
  · intro fault failed malformed
    exact observe_counts_malformed failed malformed
  · intro transfer number failed
    exact observe_overflow failed

/-- A frame of an unknown kind, a single frame, flow control and a frame on a channel that is not selected,
between the two parts of a message. -/
theorem run_without_plain_between :
    let settings : Settings := { canIds := ⟨[⟨7, 7⟩]⟩ }
    let s : Session Unit := start settings { memory := () }
    let before : Marked :=
      [(true, 0, .can 7 [0x10, 3, 1]), (false, 1, .can 7 [0x90]), (false, 2, .can 7 [0x01, 9]),
        (false, 3, .can 7 [0x30, 0, 0]), (false, 4, .can 8 [0x21, 2, 3])]
    let last : FrameIndex × Frame := (5, .can 7 [0x21, 2, 3])
    let marked : Marked := before ++ [(true, last)]
    marked.LeavesOutPlain s ∧
      (s.run (marked.kept.map Event.ofFrame)).engine = (s.run (marked.all.map Event.ofFrame)).engine ∧
      before.kept.length = 1 ∧
      reassembled ((s.run (before.kept.map Event.ofFrame)).observe last.1 last.2).1 =
        .ok (some (.completed ⟨1, 1, 2, true, .accepted⟩ [1, 2, 3] 3)) ∧
      reassembled ((s.run (before.all.map Event.ofFrame)).observe last.1 last.2).1 =
        .ok (some (.completed ⟨1, 1, 2, true, .accepted⟩ [1, 2, 3] 3)) ∧
      (s.observe 1 (.can 7 [0x90])).2.counters.malformedFrames = s.counters.malformedFrames + 1 := by
  intro settings s before last marked
  have plain : marked.LeavesOutPlain s := by
    apply Marked.leavesOutPlain_iff.mpr
    have silent : ∀ m ∈ marked, m.1 = false → settings.segment? m.2.2 = none := by decide +kernel
    intro x member
    exact silent (false, x) member rfl
  obtain ⟨⟨engine, answers⟩, alone⟩ := run_without_plain s plain
  obtain ⟨-, malformed, -⟩ := alone 1 (.can 7 [0x90])
  have first : reassembled ((s.run (before.kept.map Event.ofFrame)).observe last.1 last.2).1 =
      .ok (some (.completed ⟨1, 1, 2, true, .accepted⟩ [1, 2, 3] 3)) := by
    decide +kernel
  have counted := malformed (.badMessageType 9) (by decide +kernel) rfl
  refine ⟨plain, engine, rfl, first, ?_, ?_⟩
  · rw [← answers before last [] rfl]
    exact first
  · rw [counted]

end Session

end IsoTransport

import IsoTransport.Proofs.Session.Traffic

/-!
What a session hands to its decoders: for each frame at most one message, which `message?` tells from the
report on the frame.
-/

namespace IsoTransport.Session

variable {σ : Type} {s : Session σ} {index : FrameIndex} {frame : Frame}

def message? (s : Session σ) (index : FrameIndex) (frame : Frame) : Option Message :=
  match (s.observe index frame).1 with
  | .ok (some r) => frame.message? r.addresses r.control.control r.segment r.outcome
  | _ => none

/-- The messages that frames complete one after the other. -/
def handed (s : Session σ) : List (FrameIndex × Frame) → List Message
  | [] => []
  | x :: feed => (s.message? x.1 x.2).toList ++ (s.observe x.1 x.2).2.handed feed

/-! ### One frame -/

theorem message?_segment {segment : Segment} {payload : Bytes}
    (brings : s.settings.segment? frame = some (segment, payload)) :
    s.message? index frame =
      match (s.engine.push index frame.channel segment payload).1 with
      | .ok (.completed p bytes declared) =>
        some { payload := bytes, addresses := (frame.locate s.settings).addresses, medium := frame.medium,
               id := frame.id, declared, transfer := some p.message }
      | _ => none := by
  obtain ⟨selected, r, read, control, rfl⟩ := Settings.segment?_eq_some.mp brings
  rw [message?, observe_segment selected read control]
  cases answer : (s.engine.push index frame.channel segment (r.payload frame.data)).1 with
  | error fault => rfl
  | ok outcome =>
    obtain ⟨-, -, -, report⟩ := (s.pushed index frame r segment).conclude_frame index frame
      (frame.locate s.settings) r (some outcome)
    dsimp only
    rw [report]
    cases known : r.control with
    | single | flow => rw [known] at control; cases control
    | first | consecutive => cases outcome <;> rfl

theorem observe_report {segment : Segment} {payload : Bytes} {outcome : Outcome}
    (brings : s.settings.segment? frame = some (segment, payload))
    (answer : (s.engine.push index frame.channel segment payload).1 = .ok outcome) :
    ∃ report, (s.observe index frame).1 = .ok (some report) ∧ report.outcome = some outcome ∧
      report.destination = (s.message? index frame).map fun m => (s.router.deliver m).1 := by
  obtain ⟨selected, r, read, control, rfl⟩ := Settings.segment?_eq_some.mp brings
  obtain ⟨-, -, -, report⟩ := (s.pushed index frame r segment).conclude_frame index frame
    (frame.locate s.settings) r (some outcome)
  rw [message?, observe_segment selected read control, answer]
  dsimp only
  rw [report]
  exact ⟨_, rfl, rfl, rfl⟩

theorem observe_handing (s : Session σ) (index : FrameIndex) (frame : Frame) :
    (s.observe index frame).2.router =
        ((s.message? index frame).map fun m => (s.router.deliver m).2).getD s.router ∧
      (s.settings.segment? frame = none → ∀ m, s.message? index frame = some m → m.transfer = none) := by
  unfold message?
  cases s.settings.found frame with
  | ignored ignored =>
    rw [observe_unselected ignored]
    exact ⟨rfl, fun _ m completes => by cases completes⟩
  | malformed fault selected bad =>
    rw [observe_malformed selected bad]
    exact ⟨rfl, fun _ m completes => by cases completes⟩
  | whole r selected read plain =>
    obtain ⟨-, -, router, report⟩ := conclude_frame
      { s with counters := s.counters.countSelected.countFrame r.kind } index frame
      (frame.locate s.settings) r none
    rw [observe_plain selected read plain]
    dsimp only
    rw [router, report]
    refine ⟨rfl, fun _ m completes => ?_⟩
    cases known : r.control with
    | single length =>
      rw [known] at completes
      rw [← Option.some.inj completes]
    | flow => rw [known] at completes; cases completes
    | first | consecutive => rw [known] at plain; cases plain
  | part r segment selected read brings given =>
    rw [observe_segment selected read brings]
    refine ⟨?_, fun plain => by rw [plain] at given; cases given⟩
    cases (s.engine.push index frame.channel segment (r.payload frame.data)).1 with
    | error fault => rfl
    | ok outcome =>
      obtain ⟨-, -, router, report⟩ := (s.pushed index frame r segment).conclude_frame index
        frame (frame.locate s.settings) r (some outcome)
      dsimp only
      rw [router, report]
      rfl

/-! ### Frames one after the other -/

/-- The messages go to the router in their order, and nothing else does. -/
theorem run_router (s : Session σ) (feed : List (FrameIndex × Frame)) :
    (s.run (feed.map Event.ofFrame)).router =
      (s.handed feed).foldl (fun r m => (r.deliver m).2) s.router := by
  induction feed generalizing s with
  | nil => rfl
  | cons x feed ih =>
    have first := (s.observe_handing x.1 x.2).1
    rw [List.map_cons, run_cons, handed, List.foldl_append]
    refine (ih _).trans (congrArg (fun r => List.foldl _ r _) ?_)
    rw [show ((s.step (.ofFrame x)).2.router) = _ from first]
    cases s.message? x.1 x.2 <;> rfl

theorem handed_append (s : Session σ) (before after : List (FrameIndex × Frame)) :
    s.handed (before ++ after) =
      s.handed before ++ (s.run (before.map Event.ofFrame)).handed after := by
  induction before generalizing s with
  | nil => rfl
  | cons x before ih =>
    rw [List.cons_append, handed, ih, handed, List.append_assoc, List.map_cons, run_cons]
    rfl

theorem mem_handed {feed : List (FrameIndex × Frame)} {m : Message} (member : m ∈ s.handed feed) :
    ∃ before x after, feed = before ++ x :: after ∧
      (s.run (before.map Event.ofFrame)).message? x.1 x.2 = some m := by
  induction feed generalizing s with
  | nil => exact absurd member List.not_mem_nil
  | cons x feed ih =>
    rcases List.mem_append.mp member with here | later
    · exact ⟨[], x, feed, rfl, Option.mem_toList.mp here⟩
    · obtain ⟨before, y, after, rfl, completes⟩ := ih later
      exact ⟨x :: before, y, after, rfl, completes⟩

/-- The messages of a feed in which only one frame completes the message `id`. -/
theorem handed_once {feed : List (FrameIndex × Frame)} {last : FrameIndex × Frame} {m : Message}
    {id : MessageId} (distinct : feed.Nodup) (member : last ∈ feed)
    (here : ∀ before after, feed = before ++ last :: after →
      (s.run (before.map Event.ofFrame)).message? last.1 last.2 = some m)
    (named : m.transfer = some id)
    (only : ∀ before x after m', feed = before ++ x :: after →
      (s.run (before.map Event.ofFrame)).message? x.1 x.2 = some m' → m'.transfer = some id → x = last) :
    (s.handed feed).filter (·.transfer = some id) = [m] := by
  obtain ⟨before, after, split⟩ := List.append_of_mem member
  rw [split, List.nodup_append] at distinct
  obtain ⟨-, behind, apart⟩ := distinct
  have sooner : (s.handed before).filter (·.transfer = some id) = [] := by
    refine List.filter_eq_nil_iff.mpr fun m' member' => ?_
    obtain ⟨b, x, a, rfl, completes⟩ := mem_handed member'
    simp only [decide_eq_true_eq]
    intro same
    have again := only b x (a ++ last :: after) m' (by simp [split]) completes same
    exact apart x (by simp) last List.mem_cons_self again
  have later : (((s.run (before.map Event.ofFrame)).observe last.1 last.2).2.handed after).filter
      (·.transfer = some id) = [] := by
    refine List.filter_eq_nil_iff.mpr fun m' member' => ?_
    obtain ⟨b, x, a, rfl, completes⟩ := mem_handed member'
    simp only [decide_eq_true_eq]
    intro same
    have reached : s.run ((before ++ last :: b).map Event.ofFrame) =
        ((s.run (before.map Event.ofFrame)).observe last.1 last.2).2.run (b.map Event.ofFrame) := by
      rw [List.map_append, run_append]
      rfl
    have again := only (before ++ last :: b) x a m' (by simp [split]) (by rw [reached]; exact completes) same
    subst again
    exact (List.nodup_cons.mp behind).1 (by simp)
  have named' : decide (m.transfer = some id) = true := by simpa using named
  rw [split, handed_append, handed, here before after split, List.filter_append, List.filter_append, sooner,
    later, List.append_nil, List.nil_append, Option.toList_some, List.filter_singleton, named']
  rfl

end IsoTransport.Session

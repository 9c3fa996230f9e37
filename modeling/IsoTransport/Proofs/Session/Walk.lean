import IsoTransport.Proofs.Assembly.Replay
import IsoTransport.Proofs.Control.Limit
import IsoTransport.Proofs.Session.Traffic

/-!
Walking a stream again. Single frames and flow control are read anew each time, parts of messages are
told from the record of the engine; so every frame is answered as it was the first time, and the
engine is the one that the first visits left behind (`walk_again`).
-/

namespace IsoTransport

/-! ### Decoders without memory -/

/-- What a decoder answers does not hang on what it remembers. -/
def Router.Stateless {σ : Type} (r : Router σ) : Prop :=
  ∀ (route : Route) (d : Decoder σ), r.decoders[route]? = some d →
    ∀ message s s', (d.decode message s).1 = (d.decode message s').1

namespace Router

variable {σ : Type}

theorem offer_fst {decoders : List (Decoder σ)} {message : Message}
    (stateless : ∀ d ∈ decoders, ∀ s s', (d.decode message s).1 = (d.decode message s').1) (s s' : σ) :
    (offer message decoders s).1 = (offer message decoders s').1 := by
  induction decoders generalizing s s' with
  | nil => rfl
  | cons d rest ih =>
    have same := stateless d List.mem_cons_self s s'
    rw [offer, offer]
    rcases answer : d.decode message s with ⟨_ | _, t⟩
    · rcases answer' : d.decode message s' with ⟨_ | _, t'⟩
      · exact ih (fun d' member => stateless d' (List.mem_cons_of_mem _ member)) t t'
      · rw [answer, answer'] at same
        cases same
    · rcases answer' : d.decode message s' with ⟨_ | _, t'⟩
      · rw [answer, answer'] at same
        cases same
      · rfl

theorem Stateless.deliver {r r' : Router σ} (stateless : r.Stateless)
    (same : r'.decoders = r.decoders) (message : Message) :
    (r'.deliver message).1 = (r.deliver message).1 := by
  have offered : (offer message (r'.candidates message) r'.memory).1 =
      (offer message (r.candidates message) r.memory).1 := by
    rw [candidates, candidates, same]
    refine offer_fst (fun d member => ?_) _ _
    obtain ⟨route, -, found⟩ := List.mem_filterMap.mp member
    exact stateless route d found message
  rw [Router.deliver, Router.deliver]
  dsimp only
  rw [offered]
  split <;> rfl

end Router

/-! ### The record of the engine -/

namespace Engine

variable {e : Engine}

theorem push_isVisited (e : Engine) (index other : FrameIndex) (channel : Channel) (segment : Segment)
    (payload : Bytes) :
    (e.push index channel segment payload).2.isVisited other = true ↔
      index = other ∨ e.isVisited other = true := by
  cases seen : e.visited[index]? with
  | some known =>
    rw [push_visited seen]
    refine ⟨Or.inr, ?_⟩
    rintro (rfl | visited)
    · exact isVisited_iff.mpr ⟨known, seen⟩
    · exact visited
  | none =>
    obtain ⟨placed, inserted⟩ := push_inserts seen channel segment payload
    rw [isVisited, isVisited, inserted, Std.TreeMap.contains_insert]
    simp

theorem run_isVisited {index : FrameIndex} {events : List Event} (keeps : .reset ∉ events)
    (seen : e.isVisited index = true) : (e.run events).isVisited index = true := by
  refine Mealy.run_keeps step (fun e => e.isVisited index = true) (fun event member e seen => ?_) seen
  cases event with
  | reset => exact absurd member keeps
  | setWindow window => exact seen
  | push other channel segment payload => exact (push_isVisited ..).mpr (.inr seen)

end Engine

namespace Settings

theorem segment?_number {s : Settings} {frame : Frame} {segment : Segment} {payload : Bytes}
    (brings : s.segment? frame = some (segment, payload)) : segment.number < 16 := by
  obtain ⟨-, r, read, control, -⟩ := segment?_eq_some.mp brings
  cases known : r.control with
  | single | flow => rw [known] at control; cases control
  | first declared =>
    rw [known] at control
    cases control
    exact (by decide : (0 : UInt8) < 16)
  | consecutive number =>
    rw [known] at control
    cases control
    exact Frame.readControl_number read known

end Settings

namespace Session

variable {σ : Type} {s : Session σ} {n : Nat} {taken : MessageId → List Piece} {index : FrameIndex}
  {frame : Frame}

theorem conclude_fst {s' : Session σ} (stateless : s.router.Stateless)
    (decoders : s'.router.decoders = s.router.decoders) (location : Location) (r : ControlReading)
    (outcome : Option Outcome) :
    (s'.conclude index frame location r outcome).1 = (s.conclude index frame location r outcome).1 := by
  obtain ⟨-, -, -, report⟩ := s.conclude_frame index frame location r outcome
  obtain ⟨-, -, -, report'⟩ := s'.conclude_frame index frame location r outcome
  rw [report, report', funext (stateless.deliver decoders)]

/-- Sessions with the same settings and decoders report alike on a frame whose segment their engines
answer alike. -/
theorem observe_fst {s' : Session σ} (stateless : s.router.Stateless)
    (settings : s'.settings = s.settings) (decoders : s'.router.decoders = s.router.decoders)
    (answers : ∀ segment payload, s.settings.segment? frame = some (segment, payload) →
      (s'.engine.push index frame.channel segment payload).1 =
        (s.engine.push index frame.channel segment payload).1) :
    (s'.observe index frame).1 = (s.observe index frame).1 := by
  cases s.settings.found frame with
  | ignored ignored =>
    rw [observe_unselected ignored, observe_unselected (by rw [settings]; exact ignored)]
  | malformed fault selected bad =>
    rw [observe_malformed selected bad,
      observe_malformed (by rw [settings]; exact selected) (by rw [settings]; exact bad)]
  | whole r selected read plain =>
    rw [observe_plain selected read plain,
      observe_plain (by rw [settings]; exact selected) (by rw [settings]; exact read) plain, settings]
    exact congrArg (Except.ok ∘ some) (conclude_fst (by exact stateless) (by exact decoders) ..)
  | part r segment selected read brings given =>
    rw [observe_segment selected read brings,
      observe_segment (by rw [settings]; exact selected) (by rw [settings]; exact read) brings, settings,
      answers segment _ given]
    cases (s.engine.push index frame.channel segment (r.payload frame.data)).1 with
    | error fault => rfl
    | ok outcome =>
      exact congrArg (Except.ok ∘ some) (conclude_fst (by exact stateless) (by exact decoders) ..)

/-! ### Frames that are known -/

/-- The engine has a record of the frame, if the frame has a segment for it. -/
def Knows (s : Session σ) (index : FrameIndex) (frame : Frame) : Prop :=
  (s.settings.segment? frame).isSome → s.engine.isVisited index = true

theorem observe_knows (s : Session σ) (index : FrameIndex) (frame : Frame) :
    (s.observe index frame).2.Knows index frame := by
  obtain ⟨engine, settings, -⟩ := s.observe_frame index frame
  intro brings
  rw [settings] at brings
  obtain ⟨⟨segment, payload⟩, brings⟩ := Option.isSome_iff_exists.mp brings
  rw [engine, Settings.push?_some brings]
  exact (Engine.push_isVisited ..).mpr (.inl rfl)

theorem Knows.run (knows : s.Knows index frame) (feed : List (FrameIndex × Frame)) :
    (s.run (feed.map Event.ofFrame)).Knows index frame := by
  intro brings
  rw [run_settings_frames] at brings
  rw [run_engine]
  exact Engine.run_isVisited (reset_notMem_frames _ _) (knows brings)

theorem Knows.push?_cases (knows : s.Knows index frame) :
    s.settings.push? index frame = none ∨
      ∃ segment payload known, s.settings.push? index frame = some (.push index frame.channel segment payload) ∧
        s.engine.visited[index]? = some known := by
  cases brings : s.settings.segment? frame with
  | none => exact .inl (Settings.push?_none brings)
  | some x =>
    obtain ⟨known, seen⟩ := Engine.isVisited_iff.mp (knows (by rw [brings]; rfl))
    exact .inr ⟨x.1, x.2, known, Settings.push?_some brings, seen⟩

theorem Knows.engine (knows : s.Knows index frame) : (s.observe index frame).2.engine = s.engine := by
  rw [(s.observe_frame index frame).1]
  obtain none | ⟨segment, payload, known, push, seen⟩ := knows.push?_cases
  · rw [none]
    rfl
  · rw [push]
    show (s.engine.push index frame.channel segment payload).2 = s.engine
    rw [Engine.push_visited seen]

theorem Knows.opened (knows : s.Knows index frame) (n : Nat) :
    s.engine.opened n (s.settings.push? index frame).toList = n := by
  obtain none | ⟨segment, payload, known, push, seen⟩ := knows.push?_cases
  · rw [none]
    rfl
  · rw [push]
    exact Engine.countAfter_again seen ..

/-- What is reported on a frame that the session knows does not change along the frames that follow. -/
theorem Knows.observe_run (knows : s.Knows index frame) (stateless : s.router.Stateless)
    (sound : Engine.Sound n taken s.engine) {feed : List (FrameIndex × Frame)}
    (few : s.engine.opened n (traffic s.settings (feed.map Event.ofFrame)) < UInt32.size) :
    ((s.run (feed.map Event.ofFrame)).observe index frame).1 = (s.observe index frame).1 := by
  refine observe_fst stateless (run_settings_frames s feed) (s.run_decoders _) ?_
  intro segment payload brings
  obtain ⟨known, seen⟩ := Engine.isVisited_iff.mp (knows (by rw [brings]; rfl))
  have recalls : s.engine.Recalls index (s.engine.replay index known) := ⟨known, seen, rfl⟩
  have later := sound.run_recalls recalls (reset_notMem_frames s.settings feed) few
  rw [run_engine, later.push, recalls.push]

theorem observe_twice (stateless : s.router.Stateless) (sound : Engine.Sound n taken s.engine)
    (few : s.engine.opened n (s.settings.push? index frame).toList < UInt32.size) :
    ((s.observe index frame).2.observe index frame).1 = (s.observe index frame).1 := by
  obtain ⟨engine, settings, decoders⟩ := s.observe_frame index frame
  refine observe_fst stateless settings decoders ?_
  intro segment payload brings
  rw [Settings.push?_some brings] at engine few
  have first := sound.push_repeats (Settings.segment?_number brings) few
  rw [engine]
  exact congrArg Prod.fst (first.push ..)

/-! ### Walks -/

/-- Observes the frames at these places of a stream. -/
def visits (frames : FrameIndex → Frame) (indices : List FrameIndex) : List Event :=
  indices.map fun i => .observe i (frames i)

variable {frames : FrameIndex → Frame} {indices : List FrameIndex}

theorem visits_eq : visits frames indices = (indices.map fun i => (i, frames i)).map Event.ofFrame := by
  rw [visits, List.map_map]
  rfl

theorem visits_concat (i : FrameIndex) :
    visits frames (indices ++ [i]) = visits frames indices ++ [.observe i (frames i)] := by
  rw [visits, List.map_append]
  rfl

theorem run_settings_visits (s : Session σ) : (s.run (visits frames indices)).settings = s.settings := by
  rw [visits_eq]
  exact s.run_settings_frames _

theorem answers_visits (stateless : s.router.Stateless) (sound : Engine.Sound n taken s.engine)
    (few : s.engine.opened n (traffic s.settings (visits frames indices)) < UInt32.size) :
    s.answers (visits frames indices) =
      indices.map fun i => some ((s.run (visits frames indices)).observe i (frames i)).1 := by
  induction indices generalizing s n taken with
  | nil => rfl
  | cons i rest ih =>
    obtain ⟨engine, settings, decoders⟩ := s.observe_frame i (frames i)
    have own := reset_notMem_push? s.settings i (frames i)
    have others := reset_notMem_frames s.settings (rest.map fun j => (j, frames j))
    rw [← visits_eq] at others
    -- the engine after this visit, and what is left to it
    rw [visits, List.map_cons, traffic, Engine.opened_append] at few
    simp only [Event.toEngine, Event.settingsAfter] at few
    have first := Nat.lt_of_le_of_lt (Engine.le_opened _ _ others) few
    obtain ⟨taken', sound'⟩ := sound.run own first
    have few' : (s.observe i (frames i)).2.engine.opened (s.engine.opened n (s.settings.push? i (frames i)).toList)
        (traffic (s.observe i (frames i)).2.settings (visits frames rest)) < UInt32.size := by
      rw [engine, settings]
      exact few
    rw [← engine] at sound'
    have stateless' : (s.observe i (frames i)).2.router.Stateless := by
      rw [Router.Stateless, decoders]
      exact stateless
    -- a second visit at once has the same answer, and so has one after the rest of the walk
    have again := observe_twice stateless sound first
    have later := (s.observe_knows i (frames i)).observe_run stateless' sound' (by
      rw [← visits_eq]
      exact few')
    rw [← visits_eq] at later
    have rest' := ih stateless' sound' few'
    have step : s.run (visits frames (i :: rest)) = (s.observe i (frames i)).2.run (visits frames rest) :=
      rfl
    rw [List.map_cons, step, later, again, ← rest']
    rfl

theorem visits_concat_engine (s : Session σ) (frames : FrameIndex → Frame) (n : Nat)
    (indices : List FrameIndex) (i : FrameIndex) :
    let before := s.run (visits frames indices)
    (s.run (visits frames (indices ++ [i]))).engine = (before.observe i (frames i)).2.engine ∧
      s.engine.opened n (traffic s.settings (visits frames (indices ++ [i]))) =
        before.engine.opened (s.engine.opened n (traffic s.settings (visits frames indices)))
          (before.settings.push? i (frames i)).toList := by
  intro before
  have last : traffic before.settings [.observe i (frames i)] =
      (before.settings.push? i (frames i)).toList := by
    rw [traffic, traffic, List.append_nil]
    rfl
  rw [visits_concat, run_append, traffic_append, Engine.opened_append, ← run_engine, last]
  exact ⟨rfl, rfl⟩

/-- What the engine takes in on a walk is what the first visits bring. -/
theorem engine_visits (s : Session σ) (frames : FrameIndex → Frame) (indices : List FrameIndex)
    (n : Nat) :
    (s.run (visits frames indices)).engine = (s.run (visits frames indices.eraseDups)).engine ∧
      s.engine.opened n (traffic s.settings (visits frames indices)) =
        s.engine.opened n (traffic s.settings (visits frames indices.eraseDups)) ∧
      ∀ i ∈ indices, (s.run (visits frames indices)).Knows i (frames i) := by
  induction indices using List.reverseRecOn with
  | nil => exact ⟨rfl, rfl, fun i member => absurd member List.not_mem_nil⟩
  | append_singleton indices j ih =>
    obtain ⟨engine, opened, knows⟩ := ih
    have kept : ∀ i ∈ indices ++ [j], (s.run (visits frames (indices ++ [j]))).Knows i (frames i) := by
      intro i member
      rw [visits_concat, run_append]
      rcases List.mem_append.mp member with old | new
      · exact (knows i old).run [(j, frames j)]
      · rw [List.mem_singleton.mp new]
        exact observe_knows _ j (frames j)
    obtain ⟨engine', opened'⟩ := s.visits_concat_engine frames n indices j
    by_cases seen : j ∈ indices
    · have once : (indices ++ [j]).eraseDups = indices.eraseDups := by
        rw [List.eraseDups_append]
        simp [List.removeAll, seen]
      rw [once, engine', opened', (knows j seen).engine, (knows j seen).opened]
      exact ⟨engine, opened, kept⟩
    · have once : (indices ++ [j]).eraseDups = indices.eraseDups ++ [j] := by
        rw [List.eraseDups_append]
        simp [List.removeAll, seen, List.eraseDups_cons]
      obtain ⟨engine'', opened''⟩ := s.visits_concat_engine frames n indices.eraseDups j
      rw [once, engine', opened', engine'', opened'', (observe_frame ..).1, (observe_frame ..).1, engine,
        opened, run_settings_visits, run_settings_visits]
      exact ⟨rfl, rfl, kept⟩

/-- However often and in whatever order the frames of a stream are visited, each has one answer, and the engine
is left as the first visits leave it. -/
theorem walk_again {settings : Settings} {router : Router σ} (stateless : router.Stateless)
    {history : List Event} (frames : FrameIndex → Frame) (indices : List FrameIndex)
    (few : Engine.opened { window := settings.window.toNat } 0
      (traffic settings (history ++ visits frames indices)) < UInt32.size) :
    let s := (start settings router).run history
    let once := indices.eraseDups
    (∃ answer : FrameIndex → Except Fault (Option Report),
      s.answers (visits frames indices) = indices.map (fun i => some (answer i)) ∧
        s.answers (visits frames once) = once.map (fun i => some (answer i))) ∧
      (s.run (visits frames indices)).engine = (s.run (visits frames once)).engine := by
  intro s once
  have decoders : s.router.decoders = router.decoders := run_decoders _ history
  have stateless' : s.router.Stateless := by
    rw [Router.Stateless, decoders]
    exact stateless
  have keeps := reset_notMem_frames s.settings (indices.map fun i => (i, frames i))
  rw [← visits_eq] at keeps
  obtain ⟨n, taken, sound, few'⟩ := sound_reached (rfl : _ = s) keeps few
  obtain ⟨engine, opened, -⟩ := s.engine_visits frames indices n
  refine ⟨⟨fun i => ((s.run (visits frames indices)).observe i (frames i)).1,
    answers_visits stateless' sound few', ?_⟩, engine⟩
  rw [answers_visits stateless' sound (opened ▸ few')]
  refine List.map_congr_left fun i _ => congrArg some ?_
  -- the answer on one more visit hangs on the engine, which is the same after both walks
  refine observe_fst ?_ ?_ ?_ ?_
  · rw [Router.Stateless, run_decoders]
    exact stateless'
  · rw [run_settings_visits, run_settings_visits]
  · exact (s.run_decoders _).trans (s.run_decoders _).symm
  · intro segment payload _
    rw [engine]

/-- A message and a flow control frame, walked twice, with a decoder that counts what it is offered. -/
theorem walk_again_twice :
    let settings : Settings := { canIds := ⟨[⟨7, 7⟩]⟩ }
    let counting : Decoder Nat := { name := "counting", decode := fun m n => (m.payload = [1, 2, 3], n + 1) }
    let router : Router Nat :=
      { decoders := (∅ : Std.TreeMap Route (Decoder Nat)).insert (.medium .can) counting, memory := 0 }
    let frames (i : FrameIndex) : Frame :=
      .can 7 (if i = 0 then [0x10, 3, 1] else if i = 1 then [0x21, 2, 3] else [0x30, 0, 0])
    let s := (start settings router).run []
    let indices := [0, 1, 2, 1, 0, 2]
    ∃ answer : FrameIndex → Except Fault (Option Report),
      s.answers (visits frames indices) = indices.map (fun i => some (answer i)) ∧
        (answer 1).map (Option.bind · (·.destination)) = .ok (some (.decoder "counting")) ∧
        (s.run (visits frames indices)).engine = (s.run (visits frames [0, 1, 2])).engine ∧
        (s.run (visits frames indices)).router.memory = 2 := by
  intro settings counting router frames s indices
  have stateless : router.Stateless := by
    intro route d found message n n'
    simp only [router, Std.TreeMap.getElem?_insert, Std.TreeMap.getElem?_emptyc] at found
    split at found
    · rw [← Option.some.inj found]
    · cases found
  obtain ⟨⟨answer, all, once⟩, engine⟩ :=
    @walk_again _ settings router stateless [] frames indices (by decide +kernel)
  have first : ((s.answers (visits frames [0, 1, 2]))[1]?.join.map
      (Except.map (Option.bind · (·.destination)))) = some (.ok (some (.decoder "counting"))) := by
    decide +kernel
  rw [show s.answers (visits frames [0, 1, 2]) = _ from once] at first
  refine ⟨answer, all, ?_, engine, by decide +kernel⟩
  exact Option.some.inj first

end Session

end IsoTransport

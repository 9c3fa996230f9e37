import IsoTransport.Session.Run
import IsoTransport.Proofs.Assembly.Channels

/-!
What a session gives to its engine. `run_engine` tells the engine of a session as a run over the traffic of
its events; the rest of a frame's analysis does not touch the engine.
-/

namespace IsoTransport

theorem Engine.push_window (e : Engine) (index : FrameIndex) (channel : Channel) (segment : Segment)
    (payload : Bytes) : (e.push index channel segment payload).2.window = e.window := by
  cases seen : e.visited[index]? with
  | some known => rw [push_visited seen]
  | none =>
    rcases target : e.target? index channel segment with ⟨_ | t, s⟩
    · obtain ⟨-, -, rfl⟩ := target?_none target
      rw [push_orphan seen target]
    · rw [push_target seen target, (feed_frame ..).2.2.1, (target?_frame target).2]

namespace Settings

def reading (s : Settings) (frame : Frame) : Except Fault ControlReading :=
  frame.readControl (frame.locate s).length (s.segmentLimit frame.medium)

/-- The segment that a frame brings to the engine, with its payload. -/
def segment? (s : Settings) (frame : Frame) : Option (Segment × Bytes) :=
  if s.selects frame then
    match s.reading frame with
    | .ok r => r.control.segment?.map fun segment => (segment, r.payload frame.data)
    | .error _ => none
  else none

/-- The push that analysing a frame comes to, if it carries a part of a message. -/
def push? (s : Settings) (index : FrameIndex) (frame : Frame) : Option Engine.Event :=
  (s.segment? frame).map fun x => .push index frame.channel x.1 x.2

/-- What frames that follow each other give to the engine. -/
def pushes (s : Settings) (feed : List (FrameIndex × Frame)) : List Engine.Event :=
  feed.filterMap fun x => s.push? x.1 x.2

theorem pushes_cons (s : Settings) (x : FrameIndex × Frame) (feed : List (FrameIndex × Frame)) :
    s.pushes (x :: feed) = (s.push? x.1 x.2).toList ++ s.pushes feed := by
  rw [pushes, List.filterMap_cons]
  cases s.push? x.1 x.2 <;> rfl

theorem pushes_append (s : Settings) (before after : List (FrameIndex × Frame)) :
    s.pushes (before ++ after) = s.pushes before ++ s.pushes after :=
  List.filterMap_append

theorem segment?_eq_some {s : Settings} {frame : Frame} {segment : Segment} {payload : Bytes} :
    s.segment? frame = some (segment, payload) ↔
      s.selects frame = true ∧ ∃ r, s.reading frame = .ok r ∧ r.control.segment? = some segment ∧
        r.payload frame.data = payload := by
  unfold segment?
  by_cases selected : s.selects frame = true
  · rw [if_pos selected, and_iff_right selected]
    cases s.reading frame with
    | error fault => simp
    | ok r => simp
  · rw [if_neg selected]
    simp [selected]

/-- What there is to find of a frame before the engine is asked. -/
inductive Found (s : Settings) (frame : Frame) : Prop where
  | ignored (ignored : s.selects frame = false) (nothing : s.segment? frame = none)
  | malformed (fault : Fault) (selected : s.selects frame = true) (bad : s.reading frame = .error fault)
      (nothing : s.segment? frame = none)
  | whole (r : ControlReading) (selected : s.selects frame = true) (read : s.reading frame = .ok r)
      (plain : r.control.segment? = none) (nothing : s.segment? frame = none)
  | part (r : ControlReading) (segment : Segment) (selected : s.selects frame = true)
      (read : s.reading frame = .ok r) (brings : r.control.segment? = some segment)
      (given : s.segment? frame = some (segment, r.payload frame.data))

theorem found (s : Settings) (frame : Frame) : s.Found frame := by
  cases selected : s.selects frame with
  | false => exact .ignored selected (by simp [segment?, selected])
  | true =>
    cases read : s.reading frame with
    | error fault => exact .malformed fault selected read (by simp [segment?, selected, read])
    | ok r =>
      cases brings : r.control.segment? with
      | none => exact .whole r selected read brings (by simp [segment?, selected, read, brings])
      | some segment =>
        exact .part r segment selected read brings (by simp [segment?, selected, read, brings])

theorem push?_none {s : Settings} {index : FrameIndex} {frame : Frame} (nothing : s.segment? frame = none) :
    s.push? index frame = none := by
  rw [push?, nothing, Option.map_none]

theorem push?_some {s : Settings} {index : FrameIndex} {frame : Frame} {segment : Segment} {payload : Bytes}
    (given : s.segment? frame = some (segment, payload)) :
    s.push? index frame = some (.push index frame.channel segment payload) := by
  rw [push?, given, Option.map_some]

end Settings

namespace Session

variable {σ : Type} {s : Session σ} {index : FrameIndex} {frame : Frame}

/-! ### One frame -/

theorem deliver_decoders (r : Router σ) (message : Option Message) :
    ((message.map fun m => (r.deliver m).2).getD r).decoders = r.decoders := by
  cases message with
  | none => rfl
  | some m => exact r.deliver_decoders m

theorem deliver_frame (s : Session σ) (message : Option Message) :
    (s.deliver message).2.engine = s.engine ∧ (s.deliver message).2.settings = s.settings ∧
      (s.deliver message).2.router = (message.map fun m => (s.router.deliver m).2).getD s.router ∧
      (s.deliver message).1 = message.map fun m => (s.router.deliver m).1 := by
  cases message <;> exact ⟨rfl, rfl, rfl, rfl⟩

theorem conclude_frame (s : Session σ) (index : FrameIndex) (frame : Frame) (location : Location)
    (r : ControlReading) (outcome : Option Outcome) :
    let message := frame.message? location.addresses r.control (r.payload frame.data) outcome
    let concluded := s.conclude index frame location r outcome
    concluded.2.engine = s.engine ∧ concluded.2.settings = s.settings ∧
      concluded.2.router = (message.map fun m => (s.router.deliver m).2).getD s.router ∧
      concluded.1 =
        { index, channel := frame.channel, addresses := location.addresses,
          addressLength := location.length, control := r, segment := r.payload frame.data, outcome,
          destination := message.map fun m => (s.router.deliver m).1 } := by
  intro message
  obtain ⟨engine, settings, router, destination⟩ := s.deliver_frame message
  refine ⟨engine, settings, router, ?_⟩
  rw [← destination]
  rfl

theorem observe_unselected (ignored : s.settings.selects frame = false) :
    s.observe index frame = (.ok none, s) := by
  rw [observe, ignored]
  rfl

theorem observe_malformed (selected : s.settings.selects frame = true) {fault : Fault}
    (bad : s.settings.reading frame = .error fault) :
    s.observe index frame =
      (.error fault, { s with counters := s.counters.countSelected.countMalformed }) := by
  rw [Settings.reading] at bad
  rw [observe, if_pos selected]
  simp only [count, bad]

/-- The session whose counters have counted a frame, and whose engine has taken its segment. -/
def pushed (s : Session σ) (index : FrameIndex) (frame : Frame) (r : ControlReading)
    (segment : Segment) : Session σ :=
  let (answer, engine) := s.engine.push index frame.channel segment (r.payload frame.data)
  { s with engine, counters := (s.counters.countSelected.countFrame r.kind).countOutcome answer }

theorem observe_plain (selected : s.settings.selects frame = true) {r : ControlReading}
    (read : s.settings.reading frame = .ok r) (plain : r.control.segment? = none) :
    s.observe index frame =
      let counted := { s with counters := s.counters.countSelected.countFrame r.kind }
      let concluded := counted.conclude index frame (frame.locate s.settings) r none
      (.ok (some concluded.1), concluded.2) := by
  rw [Settings.reading] at read
  rw [observe, if_pos selected]
  simp only [count, read, continueWith, plain]
  rfl

theorem observe_segment (selected : s.settings.selects frame = true) {r : ControlReading}
    (read : s.settings.reading frame = .ok r) {segment : Segment}
    (brings : r.control.segment? = some segment) :
    s.observe index frame =
      match (s.engine.push index frame.channel segment (r.payload frame.data)).1 with
      | .error fault => (.error fault, s.pushed index frame r segment)
      | .ok outcome =>
        let concluded := (s.pushed index frame r segment).conclude index frame
          (frame.locate s.settings) r (some outcome)
        (.ok (some concluded.1), concluded.2) := by
  rw [Settings.reading] at read
  rw [observe, if_pos selected, pushed]
  simp only [count, read, continueWith, brings, reassemble]
  cases (s.engine.push index frame.channel segment (r.payload frame.data)).1 <;> rfl

/-- A frame gives its push to the engine and nothing else, and leaves the settings and the decoders. -/
theorem observe_frame (s : Session σ) (index : FrameIndex) (frame : Frame) :
    (s.observe index frame).2.engine = s.engine.run (s.settings.push? index frame).toList ∧
      (s.observe index frame).2.settings = s.settings ∧
      (s.observe index frame).2.router.decoders = s.router.decoders := by
  cases s.settings.found frame with
  | ignored ignored nothing =>
    rw [observe_unselected ignored, Settings.push?_none nothing]
    exact ⟨rfl, rfl, rfl⟩
  | malformed fault selected bad nothing =>
    rw [observe_malformed selected bad, Settings.push?_none nothing]
    exact ⟨rfl, rfl, rfl⟩
  | whole r selected read plain nothing =>
    obtain ⟨engine, settings, router, -⟩ := conclude_frame
      { s with counters := s.counters.countSelected.countFrame r.kind } index frame
      (frame.locate s.settings) r none
    rw [observe_plain selected read plain, Settings.push?_none nothing]
    dsimp only
    rw [engine, settings, router]
    exact ⟨rfl, rfl, deliver_decoders s.router _⟩
  | part r segment selected read brings given =>
    rw [observe_segment selected read brings, Settings.push?_some given]
    cases (s.engine.push index frame.channel segment (r.payload frame.data)).1 with
    | error fault => exact ⟨rfl, rfl, rfl⟩
    | ok outcome =>
      obtain ⟨engine, settings, router, -⟩ := (s.pushed index frame r segment).conclude_frame index
        frame (frame.locate s.settings) r (some outcome)
      dsimp only
      rw [engine, settings, router]
      exact ⟨rfl, rfl, deliver_decoders s.router _⟩

theorem observe_reported {report : Report} (reported : (s.observe index frame).1 = .ok (some report)) :
    s.settings.reading frame = .ok report.control ∧
      report.addresses = (frame.locate s.settings).addresses ∧
      report.addressLength = (frame.locate s.settings).length ∧
      report.segment = report.control.payload frame.data := by
  cases s.settings.found frame with
  | ignored ignored =>
    rw [observe_unselected ignored] at reported
    cases reported
  | malformed fault selected bad =>
    rw [observe_malformed selected bad] at reported
    cases reported
  | whole r selected read plain =>
    rw [observe_plain selected read plain] at reported
    cases reported
    exact ⟨read, rfl, rfl, rfl⟩
  | part r segment selected read brings =>
    rw [observe_segment selected read brings] at reported
    cases answer : (s.engine.push index frame.channel segment (r.payload frame.data)).1 with
    | error fault =>
      rw [answer] at reported
      cases reported
    | ok outcome =>
      rw [answer] at reported
      cases reported
      exact ⟨read, rfl, rfl, rfl⟩

/-! ### Runs -/

namespace Event

/-- What the engine gets of an event. -/
def toEngine (settings : Settings) : Event → List Engine.Event
  | observe index frame => (settings.push? index frame).toList
  | configure settings => [.setWindow settings.window.toNat]
  | reset => [.reset]

def ofFrame (x : FrameIndex × Frame) : Event := .observe x.1 x.2

def settingsAfter (settings : Settings) : Event → Settings
  | configure settings => settings
  | observe .. | reset => settings

end Event

def traffic (settings : Settings) : List Event → List Engine.Event
  | [] => []
  | event :: events => event.toEngine settings ++ traffic (event.settingsAfter settings) events

theorem step_frame (s : Session σ) (event : Event) :
    (s.step event).2.engine = s.engine.run (event.toEngine s.settings) ∧
      (s.step event).2.settings = event.settingsAfter s.settings ∧
      (s.step event).2.router.decoders = s.router.decoders := by
  cases event with
  | observe index frame => exact s.observe_frame index frame
  | configure settings => exact ⟨rfl, rfl, rfl⟩
  | reset => exact ⟨rfl, rfl, rfl⟩

theorem run_engine (s : Session σ) (events : List Event) :
    (s.run events).engine = s.engine.run (traffic s.settings events) := by
  induction events generalizing s with
  | nil => rfl
  | cons event events ih =>
    obtain ⟨engine, settings, -⟩ := s.step_frame event
    rw [run_cons, ih, engine, settings, traffic, Engine.run_append]

theorem run_decoders (s : Session σ) (events : List Event) :
    (s.run events).router.decoders = s.router.decoders := by
  refine Mealy.run_keeps step (fun t => t.router.decoders = s.router.decoders) (fun event _ t same => ?_) rfl
  rw [(t.step_frame event).2.2, same]

theorem traffic_append (s : Session σ) (before after : List Event) :
    traffic s.settings (before ++ after) =
      traffic s.settings before ++ traffic (s.run before).settings after := by
  induction before generalizing s with
  | nil => rfl
  | cons event before ih =>
    have rest := ih (s.step event).2
    rw [(s.step_frame event).2.1] at rest
    rw [List.cons_append, traffic, rest, traffic, List.append_assoc, run_cons]

theorem start_run_engine (settings : Settings) (router : Router σ) (history : List Event) :
    ((start settings router).run history).engine =
      Engine.run { window := settings.window.toNat } (traffic settings history) :=
  run_engine _ history

theorem sound_reached {settings : Settings} {router : Router σ} {history events : List Event}
    (reached : (start settings router).run history = s) (keeps : .reset ∉ traffic s.settings events)
    (few : Engine.opened { window := settings.window.toNat } 0 (traffic settings (history ++ events)) <
      UInt32.size) :
    ∃ n taken, Engine.Sound n taken s.engine ∧
      s.engine.opened n (traffic s.settings events) < UInt32.size := by
  have split := traffic_append (start settings router) history events
  have engine := start_run_engine settings router history
  rw [reached] at split engine
  rw [show traffic settings _ = _ from split, Engine.opened_append] at few
  obtain ⟨taken, sound⟩ := Engine.sound_run settings.window.toNat
    (Nat.lt_of_le_of_lt (Engine.le_opened _ _ keeps) few)
  rw [engine]
  exact ⟨_, taken, sound, few⟩

theorem run_window {s : Session σ} (same : s.engine.window = s.settings.window.toNat)
    (events : List Event) :
    (s.run events).engine.window = (s.run events).settings.window.toNat := by
  refine Mealy.run_keeps step (fun t => t.engine.window = t.settings.window.toNat) (fun event _ t same => ?_) same
  obtain ⟨engine, settings, -⟩ := t.step_frame event
  rw [engine, settings]
  cases event with
  | configure settings => rfl
  | reset => exact same
  | observe index frame =>
    simp only [Event.toEngine, Event.settingsAfter]
    cases given : t.settings.push? index frame with
    | none => exact same
    | some event =>
      obtain ⟨x, -, rfl⟩ := Option.map_eq_some_iff.mp given
      exact (Engine.push_window ..).trans same

/-! ### Frames alone -/

theorem run_settings_frames (s : Session σ) (feed : List (FrameIndex × Frame)) :
    (s.run (feed.map Event.ofFrame)).settings = s.settings := by
  induction feed generalizing s with
  | nil => rfl
  | cons x feed ih =>
    rw [List.map_cons, run_cons, ih]
    exact (s.observe_frame x.1 x.2).2.1

theorem traffic_frames (settings : Settings) (feed : List (FrameIndex × Frame)) :
    traffic settings (feed.map Event.ofFrame) = settings.pushes feed := by
  induction feed with
  | nil => rfl
  | cons x feed ih =>
    rw [List.map_cons, traffic]
    simp only [Event.ofFrame, Event.settingsAfter, Event.toEngine] at ih ⊢
    rw [ih, Settings.pushes_cons]

theorem pushes_isOn (settings : Settings) (channel : Channel) (feed : List (FrameIndex × Frame)) :
    (settings.pushes feed).filter (·.isOn channel) =
      settings.pushes
        (feed.filter fun x => x.2.channel = channel ∧ (settings.segment? x.2).isSome) := by
  induction feed with
  | nil => rfl
  | cons x feed ih =>
    rw [Settings.pushes_cons, List.filter_append, ih, List.filter_cons]
    cases brings : settings.segment? x.2 with
    | none => simp [Settings.push?, brings]
    | some y =>
      by_cases here : x.2.channel = channel
      · simp [Settings.push?, brings, here, Settings.pushes_cons, Engine.Event.isOn]
      · simp [Settings.push?, brings, here, Engine.Event.isOn]

theorem index?_pushes (settings : Settings) (feed : List (FrameIndex × Frame)) :
    ((settings.pushes feed).filterMap Engine.Event.index?).Sublist (feed.map Prod.fst) := by
  induction feed with
  | nil => exact List.Sublist.refl _
  | cons x feed ih =>
    rw [Settings.pushes_cons, List.filterMap_append, List.map_cons, Settings.push?]
    cases settings.segment? x.2 with
    | none => exact ih.cons _
    | some y => exact ih.cons_cons _

theorem run_engine_frames (s : Session σ) (feed : List (FrameIndex × Frame)) :
    (s.run (feed.map Event.ofFrame)).engine = s.engine.run (s.settings.pushes feed) := by
  rw [run_engine, traffic_frames]

theorem reset_notMem_push? (settings : Settings) (index : FrameIndex) (frame : Frame) :
    .reset ∉ (settings.push? index frame).toList := by
  rw [Settings.push?]
  cases settings.segment? frame <;> simp

theorem reset_notMem_frames (settings : Settings) (feed : List (FrameIndex × Frame)) :
    .reset ∉ traffic settings (feed.map Event.ofFrame) := by
  rw [traffic_frames, Settings.pushes]
  intro member
  obtain ⟨x, -, given⟩ := List.mem_filterMap.mp member
  exact reset_notMem_push? settings x.1 x.2 (by rw [given]; exact List.mem_singleton_self _)

end Session

end IsoTransport

import IsoTransport.Proofs.Session.Handing

/-!
Two sessions side by side. Frames that a session does not tell apart, but for what their messages show of them,
are answered alike and leave the sessions alike (`Session.run_twins`). What is shown of a message is a
parameter, `view`.
-/

namespace IsoTransport

variable {σ : Type} {view : Message → Message}

namespace Router

variable {r r' : Router σ} {m m' : Message}

/-- Neither the routes of a message nor its decoders look at more of it than is shown. -/
def LooksAt (view : Message → Message) (r : Router σ) : Prop :=
  ∀ m m', view m' = view m → routes m' = routes m ∧
    ∀ route ∈ routes m, ∀ d, r.decoders[route]? = some d → ∀ memory, d.decode m' memory = d.decode m memory

/-- Routers whose unclaimed messages show the same, and that are equal otherwise. -/
structure Twins (view : Message → Message) (r r' : Router σ) : Prop where
  decoders : r'.decoders = r.decoders
  memory : r'.memory = r.memory
  unclaimed : r'.unclaimed.map view = r.unclaimed.map view

theorem Twins.refl (r : Router σ) : Twins view r r := ⟨rfl, rfl, rfl⟩

theorem looksAt_id (r : Router σ) : r.LooksAt id := by
  rintro m _ rfl
  exact ⟨rfl, fun _ _ _ _ _ => rfl⟩

theorem Twins.eq (twins : Twins id r r') : r' = r := by
  obtain ⟨decoders, memory, unclaimed⟩ := r
  obtain ⟨_, _, _⟩ := r'
  obtain ⟨rfl, rfl, same⟩ := twins
  rw [List.map_id, List.map_id] at same
  exact congrArg (Router.mk _ _) same

theorem offer_congr {decoders : List (Decoder σ)}
    (same : ∀ d ∈ decoders, ∀ memory, d.decode m' memory = d.decode m memory) (memory : σ) :
    offer m' decoders memory = offer m decoders memory := by
  induction decoders generalizing memory with
  | nil => rfl
  | cons d rest ih =>
    rw [offer, offer, same d List.mem_cons_self]
    split
    · rfl
    · exact ih (fun d member => same d (List.mem_cons_of_mem _ member)) _

theorem Twins.deliver (twins : Twins view r r') (looks : r.LooksAt view) (shown : view m' = view m) :
    (r'.deliver m').1 = (r.deliver m).1 ∧ Twins view (r.deliver m).2 (r'.deliver m').2 := by
  obtain ⟨routes, decode⟩ := looks m m' shown
  have candidates : r'.candidates m' = r.candidates m := by
    rw [Router.candidates, Router.candidates, routes, twins.decoders]
  have offered : offer m' (r'.candidates m') r'.memory = offer m (r.candidates m) r.memory := by
    rw [candidates, twins.memory]
    apply offer_congr
    intro d member
    obtain ⟨route, listed, found⟩ := List.mem_filterMap.mp member
    exact decode route listed d found
  unfold Router.deliver
  rw [offered]
  dsimp only
  split
  · exact ⟨rfl, twins.decoders, rfl, twins.unclaimed⟩
  · refine ⟨rfl, twins.decoders, rfl, ?_⟩
    simp only [collect, List.map_append, List.map_singleton, twins.unclaimed, shown]

end Router

/-- Frames of which a session finds the same, and whose messages show the same. -/
structure Settings.Alike (s : Settings) (view : Message → Message) (frame other : Frame) : Prop where
  selects : s.selects other = s.selects frame
  location : other.locate s = frame.locate s
  reading : s.reading other = s.reading frame
  payload : ∀ r, s.reading frame = .ok r → r.payload other.data = r.payload frame.data
  channel : other.channel = frame.channel
  shown : ∀ m : Message,
    view { m with medium := other.medium, id := other.id } = view { m with medium := frame.medium, id := frame.id }

theorem Settings.Alike.refl (s : Settings) (frame : Frame) : s.Alike view frame frame :=
  ⟨rfl, rfl, rfl, fun _ _ => rfl, rfl, fun _ => rfl⟩

theorem Settings.Alike.message? {s : Settings} {frame other : Frame} (alike : s.Alike view frame other)
    (addresses : Addresses) (control : Control) (segment : Bytes) (outcome : Option Outcome) :
    (other.message? addresses control segment outcome).map view =
      (frame.message? addresses control segment outcome).map view := by
  have each (payload : Bytes) (declared : Nat) (transfer : Option MessageId) :=
    alike.shown { payload, addresses, medium := frame.medium, id := frame.id, declared, transfer }
  unfold Frame.message?
  dsimp only
  split
  · exact congrArg some (each ..)
  · exact congrArg some (each ..)
  · rfl

namespace Session

variable {s t : Session σ} {frame other : Frame}

/-- Sessions whose unclaimed messages show the same, and that are equal otherwise. -/
structure Twins (view : Message → Message) (s t : Session σ) : Prop where
  settings : t.settings = s.settings
  engine : t.engine = s.engine
  counters : t.counters = s.counters
  router : s.router.Twins view t.router

theorem Twins.refl (s : Session σ) : Twins view s s := ⟨rfl, rfl, rfl, .refl _⟩

theorem Twins.eq (twins : Twins id s t) : t = s := by
  obtain ⟨settings, engine, router, counters⟩ := s
  obtain ⟨_, _, _, _⟩ := t
  obtain ⟨rfl, rfl, rfl, routers⟩ := twins
  obtain rfl := routers.eq
  rfl

/-! ### One frame -/

theorem Twins.deliver (twins : Twins view s t) (looks : s.router.LooksAt view) {m m' : Option Message}
    (shown : m'.map view = m.map view) :
    (t.deliver m').1 = (s.deliver m).1 ∧ Twins view (s.deliver m).2 (t.deliver m').2 := by
  cases m with
  | none =>
    obtain rfl := Option.map_eq_none_iff.mp shown
    exact ⟨rfl, twins⟩
  | some m =>
    obtain ⟨m', rfl, same⟩ := Option.map_eq_some_iff.mp shown
    obtain ⟨destination, router⟩ := twins.router.deliver looks same
    have counters := congrArg₂ Counters.countDestination twins.counters destination
    exact ⟨congrArg some destination, twins.settings, twins.engine, counters, router⟩

theorem Twins.conclude (twins : Twins view s t) (looks : s.router.LooksAt view) {settings : Settings}
    (alike : settings.Alike view frame other) {r : ControlReading} (read : settings.reading frame = .ok r)
    (index : FrameIndex) (location : Location) (outcome : Option Outcome) :
    (t.conclude index other location r outcome).1 = (s.conclude index frame location r outcome).1 ∧
      Twins view (s.conclude index frame location r outcome).2 (t.conclude index other location r outcome).2 := by
  obtain ⟨destination, after⟩ := twins.deliver looks
    (alike.message? location.addresses r.control (r.payload frame.data) outcome)
  unfold Session.conclude
  rw [alike.channel, alike.payload r read]
  dsimp only
  rw [destination]
  exact ⟨rfl, after⟩

theorem Twins.observe (twins : Twins view s t) (looks : s.router.LooksAt view)
    (alike : s.settings.Alike view frame other) (index : FrameIndex) :
    (t.observe index other).1 = (s.observe index frame).1 ∧
      Twins view (s.observe index frame).2 (t.observe index other).2 := by
  have location : other.locate t.settings = frame.locate s.settings := by rw [twins.settings, alike.location]
  have selects : t.settings.selects other = s.settings.selects frame := by rw [twins.settings, alike.selects]
  have reading : t.settings.reading other = s.settings.reading frame := by rw [twins.settings, alike.reading]
  cases s.settings.found frame with
  | ignored ignored =>
    rw [observe_unselected ignored, observe_unselected (selects.trans ignored)]
    exact ⟨rfl, twins⟩
  | malformed fault selected bad =>
    rw [observe_malformed selected bad, observe_malformed (selects.trans selected) (reading.trans bad),
      twins.counters]
    exact ⟨rfl, twins.settings, twins.engine, rfl, twins.router⟩
  | whole r selected read plain =>
    rw [observe_plain selected read plain, observe_plain (selects.trans selected) (reading.trans read) plain,
      twins.counters, location]
    have counted : Twins view { s with counters := s.counters.countSelected.countFrame r.kind }
        { t with counters := s.counters.countSelected.countFrame r.kind } :=
      ⟨twins.settings, twins.engine, rfl, twins.router⟩
    obtain ⟨report, after⟩ := counted.conclude looks alike read index (frame.locate s.settings) none
    exact ⟨congrArg (Except.ok ∘ some) report, after⟩
  | part r segment selected read brings =>
    have pushed : Twins view (s.pushed index frame r segment) (t.pushed index other r segment) := by
      unfold Session.pushed
      rw [twins.engine, twins.counters, alike.channel, alike.payload r read]
      exact ⟨twins.settings, rfl, rfl, twins.router⟩
    rw [observe_segment selected read brings,
      observe_segment (selects.trans selected) (reading.trans read) brings, twins.engine, alike.channel,
      alike.payload r read, location]
    split
    · exact ⟨rfl, pushed⟩
    · obtain ⟨report, after⟩ := pushed.conclude looks alike read index (frame.locate s.settings) (some _)
      exact ⟨congrArg (Except.ok ∘ some) report, after⟩

theorem Twins.message? (twins : Twins view s t) (looks : s.router.LooksAt view)
    (alike : s.settings.Alike view frame other) (index : FrameIndex) :
    (t.message? index other).map view = (s.message? index frame).map view := by
  unfold Session.message?
  rw [(twins.observe looks alike index).1]
  split
  · exact alike.message? ..
  · rfl

/-! ### Runs -/

/-- The same places of the stream, with frames that are alike. -/
def FeedsAlike (settings : Settings) (view : Message → Message) (feed feed' : List (FrameIndex × Frame)) : Prop :=
  List.Forall₂ (fun x y => y.1 = x.1 ∧ settings.Alike view x.2 y.2) feed feed'

theorem run_twins (twins : Twins view s t) (looks : s.router.LooksAt view)
    {feed feed' : List (FrameIndex × Frame)} (alike : FeedsAlike s.settings view feed feed') :
    t.answers (feed'.map Event.ofFrame) = s.answers (feed.map Event.ofFrame) ∧
      Twins view (s.run (feed.map Event.ofFrame)) (t.run (feed'.map Event.ofFrame)) ∧
      (t.handed feed').map view = (s.handed feed).map view := by
  generalize same : s.settings = settings at alike
  induction alike generalizing s t with
  | nil => exact ⟨rfl, twins, rfl⟩
  | @cons x y feed feed' first _ ih =>
    obtain ⟨i, other⟩ := y
    obtain ⟨_, frame⟩ := x
    obtain ⟨rfl, alike⟩ := first
    dsimp only at alike
    subst same
    obtain ⟨answer, after⟩ := twins.observe looks alike i
    obtain ⟨-, settings, decoders⟩ := s.observe_frame i frame
    have looks' : (s.observe i frame).2.router.LooksAt view := by
      unfold Router.LooksAt
      rw [decoders]
      exact looks
    obtain ⟨answers, last, handed⟩ := ih after looks' settings
    refine ⟨?_, last, ?_⟩
    · exact congrArg₂ List.cons (congrArg some answer) answers
    · have message := congrArg Option.toList (twins.message? looks alike i)
      simp only [Session.handed, List.map_append, handed, ← Option.toList_map, message]

end Session

end IsoTransport

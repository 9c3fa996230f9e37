import IsoTransport.Proofs.Assembly.Invariant

/-!
Messages of different channels do not meet: the answers to the pushes on one channel are those of its
message alone (`answersOn_consecutive`, `answersOn_first`), whatever is pushed on other channels.
-/

namespace IsoTransport

namespace Course

def live (c : Course) : Option Course := if c.transfer.phase = .complete then none else some c

theorem Open.live {c : Course} (opened : c.Open) : c.live = some c := by
  rw [Course.live, if_neg (by rw [opened.phase]; decide)]

/-- Pushes a fragment on a channel that is bound to this message, if to any. -/
def push (bound : Option Course) (window : Nat) (index : FrameIndex) (number : UInt8)
    (payload : Bytes) : Except Fault Outcome × Option Course :=
  match bound with
  | none => (.ok .orphaned, none)
  | some c =>
    let (answer, c) := c.feed window index number payload
    (answer, c.live)

structure Sent where
  index : FrameIndex
  number : UInt8
  payload : Bytes

def answers (window : Nat) (bound : Option Course) : List Sent → List (Option (Except Fault Outcome))
  | [] => []
  | f :: rest =>
    let (answer, bound) := push bound window f.index f.number f.payload
    some answer :: answers window bound rest

theorem answers_none (window : Nat) (frames : List Sent) :
    answers window none frames = List.replicate frames.length (some (.ok .orphaned)) := by
  induction frames with
  | nil => rfl
  | cons f rest ih => simp [answers, push, ih, List.replicate_succ]

end Course

namespace Engine

variable {n : Nat} {taken : MessageId → List Piece} {e : Engine} {channel other : Channel}

def courseOn (e : Engine) (taken : MessageId → List Piece) (channel : Channel) : Option Course :=
  (e.bound? channel).map (course taken)

def fedCourse (e : Engine) (taken : MessageId → List Piece) (index : FrameIndex) (channel : Channel) :
    Segment → Option Course
  | .first declared =>
    some { transfer := { id := e.nextId, channel, firstFrame := index, declared } }
  | .consecutive _ => e.courseOn taken channel

theorem Sound.bound?_congr (sound : Sound n taken e) {e' : Engine}
    (bindings : e'.bindings[other]? = e.bindings[other]?)
    (transfers : ∀ t, e.bound? other = some t → e'.transfers[t.id]? = e.transfers[t.id]?) :
    e'.bound? other = e.bound? other := by
  cases bound : e.bound? other with
  | none =>
    rw [sound.bound?_none] at bound
    simp [bound?, bindings, bound]
  | some t =>
    obtain ⟨present, binding⟩ := sound.bound?_eq.mp bound
    simp [bound?, bindings, binding, transfer?, transfers t bound, present]

theorem Ready.id_ne {t u : Transfer} (ready : e.Ready channel t) (ready' : e.Ready other u)
    (different : other ≠ channel) : t.id ≠ u.id := by
  intro same
  have present := ready.present
  rw [same, ready'.present] at present
  rw [← ready'.on, ← ready.on, Option.some.inj present] at different
  exact different rfl

theorem Sound.courseOn_feed_other (sound : Sound n taken e) {t : Transfer}
    (ready : e.Ready channel t) (different : other ≠ channel) (index : FrameIndex) (number : UInt8)
    (payload : Bytes) (pieces : List Piece) :
    (e.feed index t number payload).2.courseOn (Function.update taken t.id pieces) other =
      e.courseOn taken other := by
  obtain ⟨-, -, transfers, bindings⟩ := sound.feed_maps ready index number payload
  have apart : ∀ u, e.bound? other = some u → t.id ≠ u.id :=
    fun u bound => ready.id_ne (sound.ready bound) different
  have unchanged : (e.feed index t number payload).2.bound? other = e.bound? other := sound.bound?_congr
    (by
      rw [bindings]
      split
      · rw [Std.TreeMap.getElem?_erase, if_neg (by simpa using Ne.symm different)]
      · rfl)
    (by
      intro u bound
      rw [transfers, Std.TreeMap.getElem?_insert, if_neg (by simpa using apart u bound)])
  rw [courseOn, unchanged, courseOn]
  cases bound : e.bound? other with
  | none => rfl
  | some u => simp [course, Function.update_of_ne (apart u bound).symm]

theorem Sound.courseOn_feed_self (sound : Sound n taken e) {t : Transfer}
    (ready : e.Ready channel t) (index : FrameIndex) (number : UInt8) (payload : Bytes) :
    let c' := ((course taken t).feed e.window index number payload).2
    (e.feed index t number payload).2.courseOn (Function.update taken t.id c'.taken) channel =
      c'.live := by
  obtain ⟨id, -, transfers, bindings⟩ := sound.feed_maps ready index number payload
  generalize ((course taken t).feed e.window index number payload).2 = c' at id transfers bindings ⊢
  simp only [courseOn, bound?, bindings, Course.live]
  split
  · simp
  · simp [ready.binding, transfer?, transfers, course, id]

theorem start_frame (e : Engine) (index : FrameIndex) (channel : Channel) (declared : Nat) :
    let s := (e.start index channel declared).2
    s.bindings = e.bindings.insert channel e.nextId ∧
      s.transfers = (e.supersede channel).transfers.insert e.nextId
        { id := e.nextId, channel, firstFrame := index, declared } ∧
      s.visited = e.visited ∧ s.window = e.window := by
  obtain ⟨-, bindings, visited, window⟩ := supersede_frame e channel
  exact ⟨by rw [← bindings]; rfl, rfl, visited, window⟩

theorem Sound.courseOn_target_other (sound : Sound n taken e) {index : FrameIndex} {segment : Segment}
    {t : Transfer} {s : Engine} (target : e.target? index channel segment = (some t, s))
    (few : countWith n segment < UInt32.size) (different : other ≠ channel) :
    s.courseOn taken other = e.courseOn taken other := by
  cases segment with
  | consecutive number =>
    rw [target?, Prod.mk.injEq] at target
    rw [target.2]
  | first declared =>
    rw [target?_first, Prod.mk.injEq] at target
    obtain ⟨-, rfl⟩ := target
    obtain ⟨bindings, transfers, -⟩ := start_frame e index channel declared
    have unused := sound.nextId_unused few
    have kept : ∀ u, e.bound? other = some u →
        (e.supersede channel).transfers[u.id]? = e.transfers[u.id]? := by
      intro u bound
      rcases e.supersede_cases channel with same | ⟨v, bound', -, failed⟩
      · rw [same]
      · have apart := (sound.ready bound').id_ne (sound.ready bound) different
        rw [failed, Std.TreeMap.getElem?_insert, if_neg (by simpa using apart)]
    have unchanged : (e.start index channel declared).2.bound? other = e.bound? other := sound.bound?_congr
      (by rw [bindings, Std.TreeMap.getElem?_insert, if_neg (by simpa using Ne.symm different)])
      (by
        intro u bound
        have apart : e.nextId ≠ u.id := by
          intro same
          have present := (sound.ready bound).present
          rw [← same, unused] at present
          exact absurd present.symm (Option.some_ne_none u)
        rw [transfers, Std.TreeMap.getElem?_insert, if_neg (by simpa using apart), kept u bound])
    rw [courseOn, unchanged, courseOn]

/-! ### Pushes -/

theorem push_target {index : FrameIndex} (fresh : e.visited[index]? = none) {segment : Segment}
    {t : Transfer} {s : Engine} (target : e.target? index channel segment = (some t, s))
    (payload : Bytes) :
    e.push index channel segment payload = s.feed index t segment.number payload := by
  rw [push, fresh]
  simp only [target]

theorem push_orphan {index : FrameIndex} (fresh : e.visited[index]? = none) {segment : Segment}
    {s : Engine} (target : e.target? index channel segment = (none, s)) (payload : Bytes) :
    e.push index channel segment payload =
      (.ok .orphaned, { s with visited := s.visited.insert index none }) := by
  rw [push, fresh]
  simp only [target]

theorem target?_frame {index : FrameIndex} {segment : Segment} {t : Transfer} {s : Engine}
    (target : e.target? index channel segment = (some t, s)) :
    s.visited = e.visited ∧ s.window = e.window := by
  cases segment with
  | first declared =>
    rw [target?_first, Prod.mk.injEq] at target
    rw [← target.2]
    exact (start_frame e index channel declared).2.2
  | consecutive number =>
    rw [target?, Prod.mk.injEq] at target
    rw [target.2]
    exact ⟨rfl, rfl⟩

theorem target?_none {index : FrameIndex} {segment : Segment} {s : Engine}
    (target : e.target? index channel segment = (none, s)) :
    (∃ number, segment = .consecutive number) ∧ e.bound? channel = none ∧ s = e := by
  cases segment with
  | first declared =>
    rw [target?_first, Prod.mk.injEq] at target
    exact absurd target.1 (Option.some_ne_none _)
  | consecutive number =>
    rw [target?, Prod.mk.injEq] at target
    exact ⟨⟨number, rfl⟩, target.1, target.2.symm⟩

theorem push_inserts {index : FrameIndex} (fresh : e.visited[index]? = none) (channel : Channel) (segment : Segment)
    (payload : Bytes) :
    ∃ placed, (e.push index channel segment payload).2.visited = e.visited.insert index placed := by
  rcases target : e.target? index channel segment with ⟨_ | t, s⟩
  · obtain ⟨-, -, rfl⟩ := target?_none target
    rw [push_orphan fresh target]
    exact ⟨none, rfl⟩
  · rw [push_target fresh target, (feed_frame s index t segment.number payload).2.1, (target?_frame target).1]
    exact ⟨_, rfl⟩

theorem Sound.fedCourse_target (sound : Sound n taken e) {index : FrameIndex} {segment : Segment}
    {t : Transfer} {s : Engine} (target : e.target? index channel segment = (some t, s))
    (few : countWith n segment < UInt32.size) :
    e.fedCourse taken index channel segment = some (course taken t) := by
  cases segment with
  | first declared =>
    rw [target?_first, Prod.mk.injEq, Option.some.injEq] at target
    rw [← target.1, fedCourse, course, (sound.unknown (sound.nextId_unused few)).1]
  | consecutive number =>
    rw [target?, Prod.mk.injEq] at target
    rw [fedCourse, courseOn, target.1, Option.map_some]

/-- A frame that was not pushed before goes to the message of its channel alone. -/
theorem Sound.push (sound : Sound n taken e) {index : FrameIndex} (fresh : e.visited[index]? = none)
    {segment : Segment} (few : countWith n segment < UInt32.size) (payload : Bytes) :
    let e' := (e.push index channel segment payload).2
    ∃ taken', Sound (countWith n segment) taken' e' ∧
      ((e.push index channel segment payload).1, e'.courseOn taken' channel) =
        Course.push (e.fedCourse taken index channel segment) e.window index segment.number payload ∧
      (∀ other ≠ channel, e'.courseOn taken' other = e.courseOn taken other) ∧
      e'.window = e.window ∧ ∃ placed, e'.visited = e.visited.insert index placed := by
  rcases target : e.target? index channel segment with ⟨_ | t, s⟩
  · obtain ⟨⟨number, rfl⟩, unbound, rfl⟩ := target?_none target
    rw [push_orphan fresh target]
    refine ⟨taken, ⟨sound.nextId, sound.known, sound.unknown, sound.bound, sound.opened⟩, ?_,
      fun _ _ => rfl, rfl, none, rfl⟩
    have nothing : s.courseOn taken channel = none := by rw [courseOn, unbound]; rfl
    rw [fedCourse, nothing]
    exact Prod.ext rfl nothing
  · obtain ⟨started, ready⟩ := sound.target few target
    obtain ⟨visited, window⟩ := target?_frame target
    obtain ⟨answer, after⟩ := started.feed ready index segment.number payload
    obtain ⟨-, visited', window', -⟩ := feed_frame s index t segment.number payload
    rw [push_target fresh target, sound.fedCourse_target target few, ← window]
    refine ⟨_, after, Prod.ext answer (started.courseOn_feed_self ready index _ payload), ?_, window', _,
      visited ▸ visited'⟩
    intro other different
    exact (started.courseOn_feed_other ready different index _ payload _).trans
      (sound.courseOn_target_other target few different)

/-! ### Runs -/

theorem step_push (e : Engine) (index : FrameIndex) (channel : Channel) (segment : Segment)
    (payload : Bytes) :
    e.step (.push index channel segment payload) =
      (some (e.push index channel segment payload).1, (e.push index channel segment payload).2) :=
  rfl

theorem push_visited {index : FrameIndex} {known : Option Placement}
    (seen : e.visited[index]? = some known) (channel : Channel) (segment : Segment) (payload : Bytes) :
    e.push index channel segment payload = (e.replay index known, e) := by
  rw [push, seen]

theorem countAfter_again {index : FrameIndex} {known : Option Placement}
    (seen : e.visited[index]? = some known) (channel : Channel) (segment : Segment) (payload : Bytes) :
    e.countAfter n (.push index channel segment payload) = n := by
  have again : e.isVisited index = true := isVisited_iff.mpr ⟨known, seen⟩
  cases segment <;> simp [countAfter, opens, again]

theorem step_visited {index : FrameIndex} {known : Option Placement} (seen : e.visited[index]? = some known)
    {event : Event} (keeps : event ≠ .reset) : (e.step event).2.visited[index]? = some known := by
  cases event with
  | reset => exact absurd rfl keeps
  | setWindow => exact seen
  | push other channel segment payload =>
    rw [step_push]
    cases fresh : e.visited[other]? with
    | some again =>
      rw [push_visited fresh]
      exact seen
    | none =>
      obtain ⟨placed, visited⟩ := push_inserts fresh channel segment payload
      have different : other ≠ index := by
        rintro rfl
        rw [seen] at fresh
        exact absurd fresh (Option.some_ne_none known)
      rw [visited, Std.TreeMap.getElem?_insert, if_neg (by simpa using different)]
      exact seen

theorem run_visited {index : FrameIndex} {known : Option Placement} {events : List Event}
    (seen : e.visited[index]? = some known) (keeps : .reset ∉ events) :
    (e.run events).visited[index]? = some known :=
  Mealy.run_keeps step (fun e => e.visited[index]? = some known)
    (fun _ member _ seen => step_visited seen fun reset => keeps (reset ▸ member)) seen

theorem FirstPasses.run {before after : List Event} (first : e.FirstPasses (before ++ after)) :
    (e.run before).FirstPasses after := by
  induction before generalizing e with
  | nil => exact first
  | cons event before ih =>
    obtain ⟨index, channel, segment, payload, rfl⟩ := first.cons_push
    obtain ⟨placed, visited⟩ := push_inserts first.head channel segment payload
    exact ih (first.tail visited)

theorem Sound.step (sound : Sound n taken e) (event : Event)
    (few : e.countAfter n event < UInt32.size) :
    ∃ taken', Sound (e.countAfter n event) taken' (e.step event).2 := by
  cases event with
  | reset => exact ⟨_, sound_new e.window⟩
  | setWindow window => exact ⟨_, sound_setWindow sound window⟩
  | push index channel segment payload =>
    cases seen : e.visited[index]? with
    | none =>
      rw [countAfter_push seen] at few ⊢
      obtain ⟨taken', after, -⟩ := sound.push seen few payload
      exact ⟨taken', after⟩
    | some known =>
      refine ⟨taken, ?_⟩
      rw [countAfter_again seen, step_push, push_visited seen]
      exact sound

theorem Sound.run {events : List Event} (sound : Sound n taken e) (keeps : .reset ∉ events)
    (few : e.opened n events < UInt32.size) :
    ∃ taken', Sound (e.opened n events) taken' (e.run events) := by
  induction events generalizing e n taken with
  | nil => exact ⟨taken, sound⟩
  | cons event events ih =>
    rw [List.mem_cons, not_or] at keeps
    have still := Nat.lt_of_le_of_lt (le_opened _ _ keeps.2) few
    obtain ⟨taken', sound'⟩ := sound.step event still
    exact ih sound' keeps.2 few

theorem sound_run (window : Nat) {events : List Event}
    (few : opened { window } 0 events < UInt32.size) :
    ∃ taken, Sound (opened { window } 0 events) taken (run { window } events) := by
  induction events using List.reverseRecOn with
  | nil => exact ⟨_, sound_new window⟩
  | append_singleton events event ih =>
    rw [opened_concat] at few ⊢
    rw [run_concat]
    by_cases keeps : event = .reset
    · subst keeps
      exact ⟨_, sound_new _⟩
    · obtain ⟨taken, sound⟩ := ih (Nat.lt_of_le_of_lt (le_countAfter _ _ keeps) few)
      exact sound.step event few

/-! ### The pushes on one channel -/

theorem answersOn_other {event : Event} (foreign : event.isOn channel = false) (events : List Event) :
    e.answersOn channel (event :: events) = (e.step event).2.answersOn channel events := by
  rw [answersOn, foreign]
  rfl

theorem answersOn_own {event : Event} (own : event.isOn channel = true) (events : List Event) :
    e.answersOn channel (event :: events) =
      (e.step event).1 :: (e.step event).2.answersOn channel events := by
  rw [answersOn, own]
  rfl

theorem answersOn_append (e : Engine) (channel : Channel) (before after : List Event) :
    e.answersOn channel (before ++ after) =
      e.answersOn channel before ++ (e.run before).answersOn channel after := by
  induction before generalizing e with
  | nil => rfl
  | cons event before ih =>
    have later : e.run (event :: before) = (e.step event).2.run before := rfl
    rw [List.cons_append, answersOn, answersOn, ih, later]
    split <;> rfl

theorem length_answersOn (e : Engine) (channel : Channel) (events : List Event) :
    (e.answersOn channel events).length = (events.filter (·.isOn channel)).length := by
  induction events generalizing e with
  | nil => rfl
  | cons event events ih =>
    rw [answersOn, List.filter_cons]
    split
    · rw [List.length_cons, List.length_cons, ih]
    · exact ih _

/-- The answer to one of the pushes on a channel is found by how many of them came before. -/
theorem answersOn_at {before after : List Event} {event : Event} (own : event.isOn channel = true) :
    (e.answersOn channel (before ++ event :: after))[(before.filter (·.isOn channel)).length]? =
      some ((e.run before).step event).1 := by
  rw [answersOn_append, ← length_answersOn, List.getElem?_append_right (Nat.le_refl _), Nat.sub_self,
    answersOn_own own]
  rfl

theorem Sound.firstPass (sound : Sound n taken e) {index : FrameIndex} {segment : Segment}
    {payload : Bytes} {events : List Event}
    (first : e.FirstPasses (.push index channel segment payload :: events))
    (few : e.opened n (.push index channel segment payload :: events) < UInt32.size) :
    let e' := (e.push index channel segment payload).2
    ∃ taken' n', Sound n' taken' e' ∧ e'.FirstPasses events ∧ e'.opened n' events < UInt32.size ∧
      ((e.push index channel segment payload).1, e'.courseOn taken' channel) =
        Course.push (e.fedCourse taken index channel segment) e.window index segment.number payload ∧
      (∀ other ≠ channel, e'.courseOn taken' other = e.courseOn taken other) ∧
      e'.window = e.window := by
  have fresh := first.head
  rw [Engine.opened, countAfter_push fresh] at few
  have still : countWith n segment < UInt32.size := by
    refine Nat.lt_of_le_of_lt (le_opened _ _ fun member => ?_) few
    exact first.ne_reset (List.mem_cons_of_mem _ member)
  obtain ⟨taken', after, answer, others, window, placed, visited⟩ := sound.push fresh still payload
  exact ⟨taken', _, after, first.tail visited, few, answer, others, window⟩

/-- Consecutive frames are answered as their message alone would answer them. -/
theorem Sound.answersOn_consecutive {events : List Event} {frames : List Course.Sent}
    (sound : Sound n taken e) (first : e.FirstPasses events)
    (few : e.opened n events < UInt32.size)
    (own : events.filter (·.isOn channel) =
      frames.map fun f => .push f.index channel (.consecutive f.number) f.payload) :
    e.answersOn channel events = Course.answers e.window (e.courseOn taken channel) frames := by
  -- a push on another channel leaves the course of this one as it is
  induction events generalizing e n taken frames with
  | nil =>
    obtain rfl := List.map_eq_nil_iff.mp own.symm
    rfl
  | cons event events ih =>
    obtain ⟨index, c, segment, payload, rfl⟩ := first.cons_push
    obtain ⟨taken', n', after, rest, few', answer, others, window⟩ := sound.firstPass first few
    by_cases here : c = channel
    · subst here
      rw [List.filter_cons_of_pos (by simp [Event.isOn])] at own
      cases frames with
      | nil => exact absurd own (List.cons_ne_nil _ _)
      | cons f frames =>
        rw [List.map_cons, List.cons.injEq, Event.push.injEq] at own
        obtain ⟨⟨rfl, -, rfl, rfl⟩, own⟩ := own
        rw [answersOn_own (by simp [Event.isOn]), Course.answers]
        have next := ih after rest few' own
        rw [window, (Prod.mk.inj answer).2] at next
        rw [step_push, (Prod.mk.inj answer).1, next]
        rfl
    · rw [List.filter_cons_of_neg (by simp [Event.isOn, here])] at own
      rw [answersOn_other (by simp [Event.isOn, here])]
      have next := ih after rest few' own
      rw [window, others channel (Ne.symm here)] at next
      exact next

/-- A first frame starts a message, and it alone answers the frames that follow on the channel. -/
theorem Sound.answersOn_first {events : List Event} {index : FrameIndex} {declared : Nat}
    {payload : Bytes} {frames : List Course.Sent} (sound : Sound n taken e)
    (first : e.FirstPasses events) (few : e.opened n events < UInt32.size)
    (own : events.filter (·.isOn channel) =
      .push index channel (.first declared) payload ::
        frames.map fun f => .push f.index channel (.consecutive f.number) f.payload) :
    ∃ id, e.answersOn channel events =
      Course.answers e.window (some { transfer := { id, channel, firstFrame := index, declared } })
        (⟨index, 0, payload⟩ :: frames) := by
  induction events generalizing e n taken with
  | nil => exact absurd own.symm (List.cons_ne_nil _ _)
  | cons event events ih =>
    obtain ⟨index', c, segment, payload', rfl⟩ := first.cons_push
    obtain ⟨taken', n', after, rest, few', answer, others, window⟩ := sound.firstPass first few
    by_cases here : c = channel
    · subst here
      rw [List.filter_cons_of_pos (by simp [Event.isOn]), List.cons.injEq, Event.push.injEq] at own
      obtain ⟨⟨rfl, -, rfl, rfl⟩, own⟩ := own
      have next := after.answersOn_consecutive rest few' own
      rw [window, (Prod.mk.inj answer).2] at next
      refine ⟨e.nextId, ?_⟩
      rw [answersOn_own (by simp [Event.isOn]), step_push, (Prod.mk.inj answer).1, next]
      rfl
    · rw [List.filter_cons_of_neg (by simp [Event.isOn, here])] at own
      rw [answersOn_other (by simp [Event.isOn, here])]
      obtain ⟨id, next⟩ := ih after rest few' own
      rw [window] at next
      exact ⟨id, next⟩

end Engine

end IsoTransport

import IsoTransport.Proofs.Assembly.Arrival
import IsoTransport.Proofs.Assembly.Life
import IsoTransport.Proofs.Assembly.WellFormed

/-!
A message of which a consecutive frame is lost. Its bytes do not make up the declared length, whatever
fragments the others are taken for, so it is never handed over, and the next first frame on its channel fails
it (`lost_never_handed`).
-/

namespace IsoTransport

/-! ### One message -/

theorem Transfer.place_short {t : Transfer} {length : Nat} (unfinished : t.phase ≠ .complete)
    (room : t.accumulated + length < t.declared) (window : Nat) (number : UInt8) :
    let placed := t.place window number length
    placed.1.last = false ∧ placed.2.phase ≠ .complete ∧ placed.2.accumulated ≤ t.accumulated + length := by
  have short : ¬t.declared ≤ t.accumulated + length := Nat.not_le.mpr room
  unfold place
  dsimp only
  split
  · exact ⟨rfl, unfinished, Nat.le_add_right _ _⟩
  split
  · exact ⟨rfl, Phase.noConfusion, Nat.le_add_right _ _⟩
  split
  · exact ⟨rfl, Phase.noConfusion, Nat.le_add_right _ _⟩
  · simp [accept, countRound, short, unfinished]

theorem Course.feed_short {c : Course} {payload : Bytes} (unfinished : c.transfer.phase ≠ .complete)
    (room : c.transfer.accumulated + payload.length < c.transfer.declared) (window : Nat)
    (index : FrameIndex) (number : UInt8) :
    let fed := c.feed window index number payload
    isHandover fed.1 = false ∧ fed.2.transfer.phase ≠ .complete ∧
      fed.2.transfer.accumulated ≤ c.transfer.accumulated + payload.length := by
  obtain ⟨last, phase, accumulated⟩ := Transfer.place_short unfinished room window number
  intro fed
  rw [show fed.2.transfer = _ from feed_transfer c window index number payload]
  refine ⟨?_, phase, accumulated⟩
  show isHandover (c.feed window index number payload).1 = false
  unfold feed accepted
  dsimp only
  repeat' split
  all_goals first
    | rfl
    | simp_all

namespace Chunks

variable {m : Chunks} {n size : Nat} {order : List Nat}

theorem length_joined_le (small : ∀ k ∈ order, (m.bytes k).length ≤ size) :
    (m.joined order).length ≤ order.length * size := by
  induction order with
  | nil => exact Nat.zero_le _
  | cons k order ih =>
    have head := small k List.mem_cons_self
    have rest := ih fun j member => small j (List.mem_cons_of_mem _ member)
    have split : (m.joined (k :: order)).length = (m.bytes k).length + (m.joined order).length := by
      simp [joined]
    rw [split, List.length_cons, Nat.succ_mul]
    omega

theorem length_lt_of_lost (distinct : order.Nodup) (within : ∀ k ∈ order, 1 ≤ k ∧ k ≤ n)
    (lost : ∃ k, 1 ≤ k ∧ k ≤ n ∧ k ∉ order) : order.length < n := by
  obtain ⟨k, above, below, absent⟩ := lost
  have nodup : (k :: order).Nodup := List.nodup_cons.mpr ⟨absent, distinct⟩
  have subset : k :: order ⊆ List.range' 1 n := by
    intro j member
    apply List.mem_range'_1.mpr
    rcases List.mem_cons.mp member with rfl | old
    · omega
    · have bounds := within j old
      omega
  have length := (List.subperm_of_subset nodup subset).length_le
  rw [List.length_cons, List.length_range'] at length
  exact length

theorem joined_lt_of_lost {rest : Nat} (distinct : order.Nodup) (within : ∀ k ∈ order, 1 ≤ k ∧ k ≤ n)
    (lost : ∃ k, 1 ≤ k ∧ k ≤ n ∧ k ∉ order) (positive : 1 ≤ size)
    (small : ∀ k, 1 ≤ k → k ≤ n → (m.bytes k).length ≤ size) (count : n = (rest + (size - 1)) / size) :
    (m.joined order).length < rest := by
  have fewer := length_lt_of_lost distinct within lost
  have bytes := length_joined_le (m := m) fun k member => small k (within k member).1 (within k member).2
  have whole : n * size ≤ rest + (size - 1) := by
    rw [count]
    exact Nat.div_mul_le_self _ _
  have less : (order.length + 1) * size ≤ n * size := Nat.mul_le_mul_right size fewer
  rw [Nat.succ_mul] at less
  omega

end Chunks

namespace Engine

variable {n bytes declared : Nat} {taken : MessageId → List Piece} {e : Engine} {index : FrameIndex}
  {channel : Channel} {segment : Segment} {payload : Bytes} {id : MessageId} {events : List Event}

/-! ### The message on its channel -/

/-- The message is the one that the frames of the channel go to, and has taken in no more than these many
bytes. -/
def Holds (e : Engine) (channel : Channel) (id : MessageId) (declared bytes : Nat) : Prop :=
  ∃ t, e.bound? channel = some t ∧ t.id = id ∧ t.declared = declared ∧ t.accumulated ≤ bytes

theorem bound?_of_courseOn {c : Course} (here : e.courseOn taken channel = some c) :
    e.bound? channel = some c.transfer := by
  obtain ⟨t, bound, rfl⟩ := Option.map_eq_some_iff.mp here
  exact bound

theorem bound?_of_same {e' : Engine} {taken' : MessageId → List Piece}
    (same : e'.courseOn taken' channel = e.courseOn taken channel) : e'.bound? channel = e.bound? channel := by
  have transfers := congrArg (Option.map Course.transfer) same
  simpa [courseOn, Option.map_map, Function.comp_def, course] using transfers

theorem Sound.holds_short (sound : Sound n taken e) (holds : e.Holds channel id declared bytes)
    (room : bytes < declared) :
    ∃ t, e.bound? channel = some t ∧ t.id = id ∧ t.declared = declared ∧ t.accumulated < declared ∧
      (t.phase = .opened ∨ t.phase = .errored) := by
  obtain ⟨t, bound, same, length, accumulated⟩ := holds
  refine ⟨t, bound, same, length, Nat.lt_of_le_of_lt accumulated room, ?_⟩
  cases phase : t.phase with
  | opened => exact .inl rfl
  | errored => exact .inr rfl
  | complete => exact absurd phase (sound.ready bound).unfinished

/-- A push that leaves the message short of its length hands nothing over and keeps it on its channel. -/
theorem Sound.push_short (sound : Sound n taken e) (fresh : e.visited[index]? = none)
    (few : countWith n segment < UInt32.size) {c : Course}
    (fed : e.fedCourse taken index channel segment = some c) (unfinished : c.transfer.phase ≠ .complete)
    (room : c.transfer.accumulated + payload.length < c.transfer.declared) :
    let pushed := e.push index channel segment payload
    (∃ taken', Sound (countWith n segment) taken' pushed.2) ∧
      pushed.2.Holds channel c.transfer.id c.transfer.declared (c.transfer.accumulated + payload.length) ∧
      subject? pushed.1 = some c.transfer.id ∧ isHandover pushed.1 = false := by
  obtain ⟨taken', after, answer, -⟩ := sound.push fresh few payload
  obtain ⟨silent, phase, accumulated⟩ := Course.feed_short unfinished room e.window index segment.number
  obtain ⟨same, -, -, length, -⟩ := Course.place_same c.transfer e.window segment.number payload.length
  rw [← Course.feed_transfer c e.window index] at same length
  have told := Course.feed_subject (c := c) e.window index segment.number payload
  rw [fed, Course.push, Prod.mk.injEq, Course.live, if_neg phase] at answer
  rw [← answer.1] at told silent
  exact ⟨⟨taken', after⟩, ⟨_, bound?_of_courseOn answer.2, same, length, accumulated⟩, told, silent⟩

theorem Sound.first_short (sound : Sound n taken e) (fresh : e.visited[index]? = none)
    (few : n + 1 < UInt32.size) (channel : Channel) (room : payload.length < declared) :
    let pushed := e.push index channel (.first declared) payload
    (∃ taken', Sound (n + 1) taken' pushed.2) ∧
      pushed.2.Holds channel e.nextId declared payload.length ∧ subject? pushed.1 = some e.nextId ∧
      isHandover pushed.1 = false := by
  have short : 0 + payload.length < declared := by rwa [Nat.zero_add]
  have fed : e.fedCourse taken index channel (.first declared) =
      some { transfer := { id := e.nextId, channel, firstFrame := index, declared } } := rfl
  have few' : countWith n (.first declared) < UInt32.size := few
  have pushed := sound.push_short fresh few' fed Phase.noConfusion short
  rwa [Nat.zero_add] at pushed

theorem Sound.consecutive_short (sound : Sound n taken e) (fresh : e.visited[index]? = none)
    (few : n < UInt32.size) (holds : e.Holds channel id declared bytes)
    (room : bytes + payload.length < declared) (number : UInt8) :
    let pushed := e.push index channel (.consecutive number) payload
    (∃ taken', Sound n taken' pushed.2) ∧ pushed.2.Holds channel id declared (bytes + payload.length) ∧
      subject? pushed.1 = some id ∧ isHandover pushed.1 = false := by
  obtain ⟨t, bound, rfl, rfl, accumulated⟩ := holds
  have fed : e.fedCourse taken index channel (.consecutive number) = some (course taken t) := by
    rw [fedCourse, courseOn, bound, Option.map_some]
  have room' : (course taken t).transfer.accumulated + payload.length < (course taken t).transfer.declared :=
    Nat.lt_of_le_of_lt (Nat.add_le_add_right accumulated _) room
  obtain ⟨after, ⟨t', bound', same, length, less⟩, told, silent⟩ :=
    sound.push_short fresh (show countWith n (.consecutive number) < UInt32.size from few) fed
      (sound.ready bound).unfinished room'
  exact ⟨after, ⟨t', bound', same, length, Nat.le_trans less (Nat.add_le_add_right accumulated _)⟩, told, silent⟩

theorem Sound.step_elsewhere (sound : Sound n taken e) {event : Event} (keeps : event ≠ .reset)
    (few : e.countAfter n event < UInt32.size) (foreign : event.isOn channel = false) :
    (∃ taken', Sound (e.countAfter n event) taken' (e.step event).2) ∧
      (e.step event).2.bound? channel = e.bound? channel := by
  refine ⟨sound.step event few, ?_⟩
  cases event with
  | reset => exact absurd rfl keeps
  | setWindow window => rfl
  | push index other segment payload =>
    rw [step_push]
    cases seen : e.visited[index]? with
    | some known => rw [push_visited seen]
    | none =>
      rw [countAfter_push seen] at few
      obtain ⟨taken', -, -, others, -⟩ := sound.push seen few payload
      exact bound?_of_same (others channel (by simpa [Event.isOn, eq_comm] using foreign))

/-! ### Runs -/

/-- Each frame on the channel is one that was not pushed before. -/
def NewOn (e : Engine) (channel : Channel) (events : List Event) : Prop :=
  ∀ before event after, events = before ++ event :: after → event.isOn channel = true →
    ∀ index, event.index? = some index → (e.run before).visited[index]? = none

theorem NewOn.tail {event : Event} (new : e.NewOn channel (event :: events)) :
    (e.step event).2.NewOn channel events := by
  intro before event' after split here index pushed
  exact new (event :: before) event' after (by rw [split, List.cons_append]) here index pushed

theorem NewOn.head {index : FrameIndex}
    (new : e.NewOn channel (.push index channel segment payload :: events)) : e.visited[index]? = none :=
  new [] _ events rfl (by simp [Event.isOn]) index rfl

theorem NewOn.before {before after : List Event} (new : e.NewOn channel (before ++ after)) :
    e.NewOn channel before := by
  intro a event b split
  exact new a event (b ++ after) (by simp [split])

theorem step_unvisited (unseen : e.visited[index]? = none) {event : Event} (different : event.index? ≠ some index) :
    (e.step event).2.visited[index]? = none := by
  cases event with
  | setWindow => exact unseen
  | reset => exact Std.TreeMap.getElem?_emptyc
  | push other channel segment payload =>
    rw [step_push]
    cases seen : e.visited[other]? with
    | some known =>
      rw [push_visited seen]
      exact unseen
    | none =>
      obtain ⟨placed, visited⟩ := push_inserts seen channel segment payload
      have apart : other ≠ index := fun same => different (congrArg some same)
      rw [visited, Std.TreeMap.getElem?_insert, if_neg (by simpa using apart)]
      exact unseen

theorem run_unvisited (unseen : e.visited[index]? = none) (absent : index ∉ events.filterMap Event.index?) :
    (e.run events).visited[index]? = none := by
  refine Mealy.run_keeps step (fun e => e.visited[index]? = none) (fun event member e unseen => ?_) unseen
  exact step_unvisited unseen fun pushed => absent (List.mem_filterMap.mpr ⟨event, member, pushed⟩)

theorem newOn_of_distinct (distinct : (events.filterMap Event.index?).Nodup)
    (unseen : ∀ index ∈ events.filterMap Event.index?, e.visited[index]? = none) : e.NewOn channel events := by
  intro before event after split here index pushed
  rw [split, List.filterMap_append, List.filterMap_cons_some pushed] at distinct unseen
  apply run_unvisited
  · exact unseen index (List.mem_append_right _ List.mem_cons_self)
  · intro member
    exact (List.nodup_append.mp distinct).2.2 index member index List.mem_cons_self rfl

variable {m : Chunks} {order : List Nat}

theorem Sound.run_short (sound : Sound n taken e) (holds : e.Holds channel id declared bytes)
    (keeps : .reset ∉ events) (few : e.opened n events < UInt32.size) (new : e.NewOn channel events)
    (own : events.filter (·.isOn channel) = order.map (m.event channel declared)) (later : 0 ∉ order)
    (room : bytes + (m.joined order).length < declared) :
    (e.run events).Holds channel id declared (bytes + (m.joined order).length) ∧
      ∀ told ∈ e.answersOn channel events, ∃ answer, told = some answer ∧ subject? answer = some id ∧
        isHandover answer = false := by
  induction events generalizing e n taken bytes order with
  | nil =>
    obtain rfl := List.map_eq_nil_iff.mp own.symm
    exact ⟨holds, fun told member => absurd member List.not_mem_nil⟩
  | cons event events ih =>
    rw [List.mem_cons, not_or] at keeps
    have still := Nat.lt_of_le_of_lt (le_opened _ _ keeps.2) few
    cases here : event.isOn channel with
    | false =>
      obtain ⟨⟨taken', sound'⟩, bound⟩ := sound.step_elsewhere (Ne.symm keeps.1) still here
      rw [List.filter_cons_of_neg (by simp [here])] at own
      rw [answersOn_other here]
      exact ih sound' (by rw [Holds, bound]; exact holds) keeps.2 few new.tail own later room
    | true =>
      rw [List.filter_cons_of_pos here] at own
      cases order with
      | nil => exact absurd own (List.cons_ne_nil _ _)
      | cons k order =>
        rw [List.map_cons, List.cons.injEq] at own
        obtain ⟨rfl, own⟩ := own
        rw [List.mem_cons, not_or] at later
        have number : m.event channel declared k =
            .push (m.index k) channel (.consecutive (UInt8.ofNat (k % 16))) (m.bytes k) := by
          rw [Chunks.event, if_neg (Ne.symm later.1)]
        have total : bytes + (m.joined (k :: order)).length =
            bytes + (m.bytes k).length + (m.joined order).length := by
          simp [Chunks.joined, Nat.add_assoc]
        rw [number] at new still few ⊢
        have fresh := new.head
        rw [Engine.opened, countAfter_push fresh] at few
        rw [countAfter_push fresh] at still
        rw [total] at room ⊢
        obtain ⟨⟨taken', sound'⟩, holds', told, silent⟩ :=
          sound.consecutive_short fresh still holds (Nat.lt_of_le_of_lt (Nat.le_add_right _ _) room)
            (UInt8.ofNat (k % 16))
        obtain ⟨last, answers⟩ := ih sound' holds' keeps.2 few new.tail own later.2 room
        refine ⟨last, ?_⟩
        rw [answersOn_own (by simp [Event.isOn])]
        intro answer member
        rcases List.mem_cons.mp member with rfl | rest
        · exact ⟨_, rfl, told, silent⟩
        · exact answers answer rest

/-- A message whose frames do not bring the declared length is not handed over while they come. -/
theorem Sound.sent_short {during : List Event} (sound : Sound n taken e) (keeps : .reset ∉ during)
    (few : e.opened n (m.event channel declared 0 :: during) < UInt32.size)
    (new : e.NewOn channel (m.event channel declared 0 :: during))
    (own : during.filter (·.isOn channel) = order.map (m.event channel declared)) (later : 0 ∉ order)
    (room : (m.bytes 0).length + (m.joined order).length < declared) :
    (e.run (m.event channel declared 0 :: during)).Holds channel e.nextId declared
        ((m.bytes 0).length + (m.joined order).length) ∧
      ∀ told ∈ e.answersOn channel (m.event channel declared 0 :: during), ∃ answer,
        told = some answer ∧ subject? answer = some e.nextId ∧ isHandover answer = false := by
  have first : m.event channel declared 0 = .push (m.index 0) channel (.first declared) (m.bytes 0) := rfl
  rw [first] at few new ⊢
  have fresh := new.head
  rw [Engine.opened, countAfter_push fresh] at few
  have still := Nat.lt_of_le_of_lt (le_opened _ _ keeps) few
  obtain ⟨⟨taken', sound'⟩, holds, told, silent⟩ :=
    sound.first_short fresh still channel (Nat.lt_of_le_of_lt (Nat.le_add_right _ _) room)
  obtain ⟨last, answers⟩ := sound'.run_short holds keeps few new.tail own later room
  refine ⟨last, ?_⟩
  rw [answersOn_own (by simp [Event.isOn])]
  intro answer member
  rcases List.mem_cons.mp member with rfl | rest
  · exact ⟨_, rfl, told, silent⟩
  · exact answers answer rest

/-- All the while the message stays on its channel, short of its length. -/
theorem Sound.bound_short {during before after : List Event} (sound : Sound n taken e) (keeps : .reset ∉ during)
    (few : e.opened n (m.event channel declared 0 :: during) < UInt32.size)
    (new : e.NewOn channel (m.event channel declared 0 :: during))
    (own : during.filter (·.isOn channel) = order.map (m.event channel declared)) (later : 0 ∉ order)
    (room : (m.bytes 0).length + (m.joined order).length < declared) (split : during = before ++ after) :
    ∃ t, (e.run (m.event channel declared 0 :: before)).bound? channel = some t ∧ t.id = e.nextId ∧
      t.declared = declared ∧ t.accumulated < declared ∧ (t.phase = .opened ∨ t.phase = .errored) := by
  have sent : m.event channel declared 0 :: during = (m.event channel declared 0 :: before) ++ after := by
    rw [List.cons_append, ← split]
  have notFirst : .reset ≠ m.event channel declared 0 := nofun
  rw [split, List.mem_append, not_or] at keeps
  rw [sent, opened_append] at few
  have fewer := Nat.lt_of_le_of_lt (le_opened _ _ keeps.2) few
  -- the frames that have come by then are short of the length as well
  rw [split, List.filter_append] at own
  obtain ⟨come, rest, rfl, own', -⟩ := List.append_eq_map_iff.mp own
  have bytes : (m.joined (come ++ rest)).length = (m.joined come).length + (m.joined rest).length := by
    simp [Chunks.joined]
  have room' : (m.bytes 0).length + (m.joined come).length < declared := by omega
  have later' : 0 ∉ come := fun member => later (List.mem_append_left _ member)
  rw [sent] at new
  obtain ⟨taken', sound'⟩ := sound.run (List.not_mem_cons_of_ne_of_not_mem notFirst keeps.1) fewer
  obtain ⟨holds, -⟩ := sound.sent_short keeps.1 fewer new.before own'.symm later' room'
  exact sound'.holds_short holds room'

/-- The next first frame on the channel fails the message, and nothing that it has taken in is left. -/
theorem Sound.next_fails (sound : Sound n taken e) (fresh : e.visited[index]? = none)
    (few : n + 1 < UInt32.size) (holds : e.Holds channel id declared bytes) (declared' : Nat)
    (payload : Bytes) :
    ∃ t, (e.push index channel (.first declared') payload).2.entry id = ⟨some t, none, none⟩ ∧
      t.phase = .errored ∧ t.accumulated ≤ bytes := by
  obtain ⟨t, bound, rfl, -, accumulated⟩ := holds
  have ready := sound.ready bound
  have old : e.nextId ≠ t.id := by
    intro same
    have present := ready.present
    rw [← same, sound.nextId_unused few] at present
    cases present
  rw [push_first_entry fresh channel declared' payload old]
  cases phase : t.phase with
  | complete => exact absurd phase ready.unfinished
  | opened => exact ⟨t.fail, sound.supersede_entry_open bound phase, rfl, accumulated⟩
  | errored =>
    obtain ⟨pending, rebuilt⟩ := sound.failed ready.present phase
    have closed : e.supersede channel = e := by
      apply supersede_closed
      intro u again
      rw [← Option.some.inj (bound.symm.trans again), phase]
      exact Phase.noConfusion
    refine ⟨t, ?_, phase, accumulated⟩
    rw [closed, entry, ready.present, pending, rebuilt]

/-- As long as one of its consecutive frames is lost, a message is not handed over. It stays on its channel
with fewer bytes than declared, in whatever order the others come, and fails with the next first frame. -/
theorem lost_never_handed {window n size declared declared' : Nat} {history during : List Event}
    {channel : Channel} {m : Chunks} {order : List Nat} {index : FrameIndex} {payload : Bytes}
    (keeps : .reset ∉ during)
    (few : opened { window } 0 (history ++ (m.event channel declared 0 :: during ++
      [.push index channel (.first declared') payload])) < UInt32.size)
    (new : (run { window } history).NewOn channel (m.event channel declared 0 :: during ++
      [.push index channel (.first declared') payload]))
    (own : during.filter (·.isOn channel) = order.map (m.event channel declared))
    (distinct : order.Nodup) (within : ∀ k ∈ order, 1 ≤ k ∧ k ≤ n)
    (lost : ∃ k, 1 ≤ k ∧ k ≤ n ∧ k ∉ order) (begun : (m.bytes 0).length < declared) (positive : 1 ≤ size)
    (small : ∀ k, 1 ≤ k → k ≤ n → (m.bytes k).length ≤ size)
    (count : n = (declared - (m.bytes 0).length + (size - 1)) / size) :
    let e := run { window } history
    let sent := m.event channel declared 0 :: during
    ∃ id,
      (∀ told ∈ e.answersOn channel sent, ∃ answer, told = some answer ∧ subject? answer = some id ∧
        isHandover answer = false) ∧
      (∀ before after, during = before ++ after →
        ∃ t, (e.run (m.event channel declared 0 :: before)).bound? channel = some t ∧ t.id = id ∧
          t.declared = declared ∧ t.accumulated < declared ∧ (t.phase = .opened ∨ t.phase = .errored)) ∧
      ∃ t, (e.run (sent ++ [.push index channel (.first declared') payload])).entry id =
          ⟨some t, none, none⟩ ∧
        t.phase = .errored ∧ t.accumulated < declared := by
  intro e sent
  have missing := Chunks.joined_lt_of_lost (m := m) distinct within lost positive small count
  have later : 0 ∉ order := fun member => absurd (within 0 member).1 (by decide)
  have room : (m.bytes 0).length + (m.joined order).length < declared := by omega
  have final : (e.run sent).visited[index]? = none := new sent _ [] rfl (by simp [Event.isOn]) index rfl
  have keeps' : .reset ∉ sent := by simp [sent, Chunks.event, keeps]
  -- the identifiers suffice for the message and for the one that takes its place
  rw [opened_append, opened_concat] at few
  change (e.run sent).countAfter (e.opened _ sent) _ < UInt32.size at few
  rw [countAfter_push final] at few
  have few' : e.opened (opened { window } 0 history) sent < UInt32.size := Nat.lt_of_succ_lt few
  obtain ⟨taken, sound⟩ := sound_run window (Nat.lt_of_le_of_lt (le_opened _ _ keeps') few')
  obtain ⟨holds, answers⟩ := sound.sent_short keeps few' new.before own later room
  refine ⟨e.nextId, answers, ?_, ?_⟩
  · intro before after split
    exact sound.bound_short keeps few' new.before own later room split
  · obtain ⟨taken', sound'⟩ := sound.run keeps' few'
    obtain ⟨t, entry, phase, accumulated⟩ := sound'.next_fails final few holds declared' payload
    rw [run_concat]
    exact ⟨t, entry, phase, Nat.lt_of_le_of_lt accumulated room⟩

/-- Of eighteen consecutive frames the first is lost, and the seventeenth is taken for it. -/
theorem lost_never_handed_round :
    let channel : Channel := { medium := .can, id := 7 }
    let other : Channel := { medium := .can, id := 8 }
    let m : Chunks := { index := fun k => k, bytes := fun k => [UInt8.ofNat k] }
    let during : List Event := .setWindow 2 :: .push 30 other (.first 9) [1] ::
      ((List.range' 2 17).map (m.event channel 19) ++ [.push 31 other (.consecutive 1) [2]])
    let sent := m.event channel 19 0 :: during
    let next : Event := .push 32 channel (.first 4) [5]
    let e : Engine := { window := 8 }
    ((e.run sent).placement? 17).map (·.fragment) = some 1 ∧
      ((e.run sent).bound? channel).map (fun t => (t.accumulated, t.phase)) = some (18, .opened) ∧
      (∀ told ∈ e.answersOn channel sent, ∃ answer, told = some answer ∧ isHandover answer = false) ∧
      ∃ id t, (e.run (sent ++ [next])).entry id = ⟨some t, none, none⟩ ∧ t.phase = .errored := by
  intro channel other m during sent next e
  have new : (run { window := 8 } []).NewOn channel (sent ++ [next]) :=
    newOn_of_distinct (by decide) (by intro index _; exact Std.TreeMap.getElem?_emptyc)
  obtain ⟨id, answers, -, t, entry, phase, -⟩ :=
    @lost_never_handed 8 18 1 19 4 [] during channel m (List.range' 2 17) 32 [5] (by decide)
      (by decide +kernel) new (by decide) (by decide) (by decide) ⟨1, by decide⟩ (by decide) (by decide)
      (fun k _ _ => Nat.le_refl 1) (by decide)
  refine ⟨by decide +kernel, by decide +kernel, ?_, id, t, entry, phase⟩
  intro told member
  obtain ⟨answer, same, -, silent⟩ := answers told member
  exact ⟨answer, same, silent⟩

end Engine

end IsoTransport

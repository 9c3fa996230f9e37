import IsoTransport.Proofs.Assembly.Channels

/-!
What the first push of a frame does to each message. It feeds the one that its answer tells of, a first frame
may supersede another, and all others are left as they are (`Sound.push_moves`). So messages only grow, and
one that is not open any more does not change (`Sound.run_grows`).
-/

namespace IsoTransport

/-- The message that an answer tells of. -/
def subject? : Except Fault Outcome → Option MessageId
  | .ok outcome => outcome.placement?.map (·.message)
  | .error (.fragmentOverflow id _) => some id
  | .error _ => none

/-- The bytes and the fragments of a message do not become fewer. -/
structure Transfer.Grows (t t' : Transfer) : Prop where
  accumulated : t.accumulated ≤ t'.accumulated
  highest : t.highest ≤ t'.highest

theorem Transfer.Grows.refl (t : Transfer) : t.Grows t := ⟨Nat.le_refl _, Nat.le_refl _⟩

theorem Transfer.Grows.trans {t u v : Transfer} (first : t.Grows u) (last : u.Grows v) : t.Grows v :=
  ⟨Nat.le_trans first.accumulated last.accumulated, Nat.le_trans first.highest last.highest⟩

/-- The answers that a message gives in each phase, and the phase after them. -/
inductive Passes : Phase → Except Fault Outcome → Phase → Prop where
  | buffered (p : Placement) : Passes .opened (.ok (.buffered p)) .opened
  | completed (p : Placement) (payload : Bytes) (declared : Nat) :
      Passes .opened (.ok (.completed p payload declared)) .complete
  | incomplete (p : Placement) : Passes .opened (.ok (.incomplete p)) .complete
  | errored (p : Placement) : Passes .opened (.ok (.errored p)) .errored
  | overflow (id : MessageId) (number : UInt8) :
      Passes .opened (.error (.fragmentOverflow id number)) .errored
  | discarded (p : Placement) : Passes .errored (.ok (.discarded p)) .errored

theorem Passes.errored_of_closed {phase phase' : Phase} {answer : Except Fault Outcome}
    (passes : Passes phase answer phase') (closed : phase ≠ .opened) : phase = .errored := by
  cases passes with
  | discarded => rfl
  | _ => exact absurd rfl closed

namespace Course

variable {c : Course} (window : Nat) (index : FrameIndex) (number : UInt8) (payload : Bytes)

theorem feed_subject : subject? (c.feed window index number payload).1 = some c.transfer.id := by
  obtain ⟨id, -, -, -, message⟩ := place_same c.transfer window number payload.length
  unfold feed accepted
  dsimp only
  repeat' split
  all_goals simp [subject?, Outcome.placement?, id, message]

theorem advance_grows (opened : c.Open) (length : Nat) : c.transfer.Grows (c.advance number length) where
  accumulated := by
    rw [advance_accumulated opened]
    exact Nat.le_add_right _ _
  highest := Nat.le_max_left _ _

theorem feed_open (opened : c.Open) :
    let fed := c.feed window index number payload
    Passes .opened fed.1 fed.2.transfer.phase ∧ c.transfer.Grows fed.2.transfer := by
  by_cases worn : Piece.rounds c.taken (number.toNat % 16) = Transfer.roundLimit
  · rw [feed_overflow opened worn]
    exact ⟨.overflow _ _, ⟨Nat.le_refl _, Nat.le_refl _⟩⟩
  rcases Nat.lt_or_ge (Piece.highest c.taken + window) (Transfer.nextFragment c.taken number) with
    ahead | near
  · rw [feed_rejected opened worn ahead]
    exact ⟨.errored _, ⟨Nat.le_refl _, Nat.le_refl _⟩⟩
  · rw [feed_accepted opened worn near]
    refine ⟨?_, advance_grows number opened payload.length⟩
    dsimp only
    rw [advance_phase opened, accepted]
    split
    · split
      · exact .completed _ _ _
      · exact .incomplete _
    · exact .buffered _

theorem feed_failed (phase : c.transfer.phase = .errored) :
    c.feed window index number payload =
      (.ok (.discarded (c.transfer.unplaced number.toNat payload.length .ignored)), c) := by
  rw [feed, Transfer.place_errored phase]
  rfl

end Course

namespace Engine

structure Entry where
  transfer : Option Transfer
  pending : Option Pending
  rebuilt : Option Rebuilt

def entry (e : Engine) (id : MessageId) : Entry where
  transfer := e.transfers[id]?
  pending := e.fragments.pending[id]?
  rebuilt := e.fragments.rebuilt[id]?

variable {n : Nat} {taken : MessageId → List Piece} {e : Engine} {index : FrameIndex} {channel : Channel}
  {segment : Segment} {id : MessageId}

theorem entry_congr {e' : Engine} (transfers : e'.transfers[id]? = e.transfers[id]?)
    (pending : e'.fragments.pending[id]? = e.fragments.pending[id]?)
    (rebuilt : e'.fragments.rebuilt[id]? = e.fragments.rebuilt[id]?) : e'.entry id = e.entry id := by
  rw [entry, transfers, pending, rebuilt]
  rfl

/-- What an answered push does to a message. -/
inductive Moved (e : Engine) (id : MessageId) (answer : Except Fault Outcome) (e' : Engine) : Prop where
  | aside (silent : subject? answer ≠ some id) (entry : e'.entry id = e.entry id)
      (bound : ∀ channel : Channel, e'.bindings[channel]? = some id → e.bindings[channel]? = some id)
  | superseded {t : Transfer} (silent : subject? answer ≠ some id) (present : e.transfers[id]? = some t)
      (phase : t.phase = .opened) (entry : e'.entry id = ⟨some t.fail, none, none⟩)
      (unbound : ∀ channel : Channel, e'.bindings[channel]? ≠ some id)
  | fed {t t' : Transfer} (told : subject? answer = some id)
      (before : (e.transfers[id]? = none ∧ t.phase = .opened) ∨
        (e.transfers[id]? = some t ∧ ∃ channel : Channel, e.bindings[channel]? = some id))
      (passes : Passes t.phase answer t'.phase) (grows : t.Grows t')
      (after : e'.transfers[id]? = some t')
      (frozen : t.phase = .errored → e'.entry id = e.entry id)

theorem Sound.supersede_entry_open (sound : Sound n taken e) {t : Transfer} (bound : e.bound? channel = some t)
    (phase : t.phase = .opened) : (e.supersede channel).entry t.id = ⟨some t.fail, none, none⟩ := by
  obtain ⟨present, -⟩ := sound.bound?_eq.mp bound
  have absent := ((sound.known present).2.2.of_opened phase).2.2
  rw [supersede_open bound phase, entry, Std.TreeMap.getElem?_insert_self, FragmentStore.discard_pending_self,
    FragmentStore.discard_rebuilt, absent]

theorem Sound.supersede_entry (sound : Sound n taken e) (channel : Channel) (id : MessageId) :
    (e.supersede channel).entry id = e.entry id ∨
      ∃ t, e.transfers[id]? = some t ∧ e.bindings[channel]? = some id ∧ t.phase = .opened ∧
        (e.supersede channel).entry id = ⟨some t.fail, none, none⟩ := by
  rcases e.supersede_cases channel with same | ⟨t, bound, phase, failed⟩
  · rw [same]
    exact .inl rfl
  · obtain ⟨present, binding⟩ := sound.bound?_eq.mp bound
    by_cases here : t.id = id
    · subst here
      exact .inr ⟨t, present, binding, phase, sound.supersede_entry_open bound phase⟩
    · rw [failed]
      refine .inl (entry_congr ?_ (FragmentStore.discard_pending_other here) rfl)
      rw [Std.TreeMap.getElem?_insert, if_neg (by simpa using here)]

theorem Sound.binding_unique (sound : Sound n taken e) {other : Channel}
    (bound : e.bindings[channel]? = some id) (bound' : e.bindings[other]? = some id) : channel = other := by
  obtain ⟨t, present, rfl, -⟩ := sound.bound bound
  obtain ⟨u, again, rfl, -⟩ := sound.bound bound'
  rw [Option.some.inj (present.symm.trans again)]

theorem feed_entry_other (e : Engine) (index : FrameIndex) (t : Transfer) (number : UInt8) (payload : Bytes)
    (different : t.id ≠ id) :
    (e.feed index t number payload).2.entry id = e.entry id := by
  obtain ⟨transfers, -⟩ := feed_frame e index t number payload
  obtain ⟨pending, rebuilt⟩ := feed_fragments_other e index t number payload different
  refine entry_congr ?_ pending rebuilt
  rw [transfers, Std.TreeMap.getElem?_insert, if_neg (by simpa using different)]

/-- A first frame does to the messages before it what taking their place on the channel does. -/
theorem push_first_entry (fresh : e.visited[index]? = none) (channel : Channel) (declared : Nat)
    (payload : Bytes) (old : e.nextId ≠ id) :
    (e.push index channel (.first declared) payload).2.entry id = (e.supersede channel).entry id := by
  obtain ⟨-, transfers, -⟩ := start_frame e index channel declared
  rw [push_target fresh (target?_first e index channel declared), feed_entry_other _ _ _ _ _ old]
  refine entry_congr ?_ rfl rfl
  rw [transfers, Std.TreeMap.getElem?_insert, if_neg (by simpa using old)]

theorem Sound.feed_bound (sound : Sound n taken e) {t : Transfer} (ready : e.Ready channel t)
    (number : UInt8) (payload : Bytes) {other : Channel}
    (bound : (e.feed index t number payload).2.bindings[other]? = some id) :
    e.bindings[other]? = some id := by
  obtain ⟨-, -, -, bindings⟩ := sound.feed_maps ready index number payload
  rw [bindings] at bound
  split at bound
  · rw [Std.TreeMap.getElem?_erase] at bound
    split at bound
    · exact absurd bound.symm (Option.some_ne_none _)
    · exact bound
  · exact bound

theorem Sound.feed_entry_self (sound : Sound n taken e) {t : Transfer} (ready : e.Ready channel t)
    (index : FrameIndex) (number : UInt8) (payload : Bytes) :
    ∃ t', subject? (e.feed index t number payload).1 = some t.id ∧
      Passes t.phase (e.feed index t number payload).1 t'.phase ∧ t.Grows t' ∧
      (e.feed index t number payload).2.transfers[t.id]? = some t' ∧
      (t.phase = .errored → (e.feed index t number payload).2.entry t.id = e.entry t.id) := by
  obtain ⟨-, -, transfers, -⟩ := sound.feed_maps ready index number payload
  obtain ⟨answer, -⟩ := sound.feed ready index number payload
  have kept := (sound.known ready.present).2.2
  have told := Course.feed_subject (c := course taken t) e.window index number payload
  refine ⟨((course taken t).feed e.window index number payload).2.transfer, answer ▸ told, ?_⟩
  rw [transfers, Std.TreeMap.getElem?_insert_self]
  cases phase : t.phase with
  | complete => exact absurd phase ready.unfinished
  | opened =>
    obtain ⟨passes, grows⟩ := Course.feed_open e.window index number payload (kept.of_opened phase).1
    rw [answer]
    exact ⟨passes, grows, rfl, fun errored => absurd errored (by decide)⟩
  | errored =>
    have failed := Course.feed_failed (c := course taken t) e.window index number payload phase
    have same := feed_errored (e := e) (c := course taken t) phase index number payload
    rw [answer, failed]
    refine ⟨?_, Transfer.Grows.refl t, rfl, fun _ => ?_⟩
    · rw [show (course taken t).transfer.phase = .errored from phase]
      exact .discarded _
    · rw [show e.feed index t number payload = _ from same]
      refine entry_congr ?_ rfl rfl
      exact (Std.TreeMap.getElem?_insert_self).trans ready.present.symm

/-- A frame that was not pushed before feeds one message, may supersede one, and leaves the others aside. -/
theorem Sound.push_moves (sound : Sound n taken e) (fresh : e.visited[index]? = none)
    (few : countWith n segment < UInt32.size) (channel : Channel) (payload : Bytes) (id : MessageId) :
    Moved e id (e.push index channel segment payload).1 (e.push index channel segment payload).2 := by
  rcases target : e.target? index channel segment with ⟨_ | t, s⟩
  · obtain ⟨-, -, rfl⟩ := target?_none target
    rw [push_orphan fresh target]
    exact .aside (by simp [subject?, Outcome.placement?]) rfl fun _ bound => bound
  obtain ⟨started, ready⟩ := sound.target few target
  obtain ⟨t', told, passes, grows, after, frozen⟩ :=
    started.feed_entry_self ready index segment.number payload
  rw [push_target fresh target]
  cases segment with
  | consecutive number =>
    rw [target?, Prod.mk.injEq] at target
    obtain ⟨-, rfl⟩ := target
    by_cases here : t.id = id
    · subst here
      exact .fed told (.inr ⟨ready.present, channel, ready.binding⟩) passes grows after frozen
    · refine .aside (by rw [told]; simpa using here) (feed_entry_other e index t number payload here) ?_
      exact fun other bound => started.feed_bound ready number payload bound
  | first declared =>
    rw [target?_first, Prod.mk.injEq, Option.some.injEq] at target
    obtain ⟨rfl, rfl⟩ := target
    obtain ⟨bindings, -⟩ := start_frame e index channel declared
    by_cases here : e.nextId = id
    · subst here
      refine .fed told (.inl ⟨sound.nextId_unused few, rfl⟩) passes grows after fun errored => ?_
      exact absurd (show Phase.opened = .errored from errored) (by decide)
    · -- the message is an old one, and superseded if it was open on this channel
      have silent : subject? ((e.start index channel declared).2.feed index
          { id := e.nextId, channel, firstFrame := index, declared } (Segment.first declared).number
          payload).1 ≠ some id := by
        rw [told]
        simpa using here
      have bound : ∀ other, ((e.start index channel declared).2.feed index
          { id := e.nextId, channel, firstFrame := index, declared } (Segment.first declared).number
          payload).2.bindings[other]? = some id → e.bindings[other]? = some id ∧ channel ≠ other := by
        intro other binding
        have earlier := started.feed_bound ready _ payload binding
        rw [bindings] at earlier
        rcases lookup_insert earlier with ⟨-, same⟩ | ⟨apart, old⟩
        · exact absurd same here
        · exact ⟨old, apart⟩
      have entry := push_first_entry fresh channel declared payload here
      rw [push_target fresh (target?_first e index channel declared)] at entry
      rcases sound.supersede_entry channel id with same | ⟨u, present, binding, phase, failed⟩
      · exact .aside silent (entry.trans same) fun other now => (bound other now).1
      · refine .superseded silent present phase (entry.trans failed) fun other now => ?_
        obtain ⟨earlier, apart⟩ := bound other now
        exact apart (sound.binding_unique binding earlier)

/-! ### Later engines -/

/-- The messages are still there and have grown, and those that were not open are as they were. -/
structure Grows (e e' : Engine) : Prop where
  transfer {id : MessageId} {t : Transfer} : e.transfers[id]? = some t →
    ∃ t', e'.transfers[id]? = some t' ∧ t.Grows t'
  frozen {id : MessageId} {t : Transfer} : e.transfers[id]? = some t → t.phase ≠ .opened →
    e'.entry id = e.entry id

theorem grows_of_entry {e' : Engine} (same : ∀ id, e'.entry id = e.entry id) : e.Grows e' where
  transfer {id t} present := ⟨t, (congrArg Entry.transfer (same id)).trans present, .refl t⟩
  frozen _ _ := same _

theorem Grows.refl (e : Engine) : e.Grows e := grows_of_entry fun _ => rfl

theorem Grows.trans {e' e'' : Engine} (first : e.Grows e') (last : e'.Grows e'') : e.Grows e'' where
  transfer present := by
    obtain ⟨t', present', grows⟩ := first.transfer present
    obtain ⟨t'', present'', grows'⟩ := last.transfer present'
    exact ⟨t'', present'', grows.trans grows'⟩
  frozen present closed := by
    have same := first.frozen present closed
    have present' := (congrArg Entry.transfer same).trans present
    exact (last.frozen present' closed).trans same

theorem Moved.grows {answer : Except Fault Outcome} {e' : Engine} {t : Transfer}
    (moved : Moved e id answer e') (present : e.transfers[id]? = some t) :
    (∃ t', e'.transfers[id]? = some t' ∧ t.Grows t') ∧ (t.phase ≠ .opened → e'.entry id = e.entry id) := by
  cases moved with
  | aside _ entry _ => exact ⟨⟨t, (congrArg Entry.transfer entry).trans present, .refl t⟩, fun _ => entry⟩
  | superseded _ present' phase entry _ =>
    obtain rfl := Option.some.inj (present.symm.trans present')
    refine ⟨⟨t.fail, congrArg Entry.transfer entry, ⟨Nat.le_refl _, Nat.le_refl _⟩⟩, fun closed => ?_⟩
    exact absurd phase closed
  | @fed u u' _ before passes grows after frozen =>
    rcases before with ⟨absent, -⟩ | ⟨present', -⟩
    · rw [absent] at present
      exact absurd present.symm (Option.some_ne_none t)
    · obtain rfl := Option.some.inj (present.symm.trans present')
      exact ⟨⟨u', after, grows⟩, fun closed => frozen (passes.errored_of_closed closed)⟩

theorem Sound.step_grows (sound : Sound n taken e) {event : Event} (keeps : event ≠ .reset)
    (few : e.countAfter n event < UInt32.size) : e.Grows (e.step event).2 := by
  cases event with
  | reset => exact absurd rfl keeps
  | setWindow window => exact grows_of_entry fun _ => rfl
  | push index channel segment payload =>
    rw [step_push]
    cases seen : e.visited[index]? with
    | some known =>
      rw [push_visited seen]
      exact .refl e
    | none =>
      rw [countAfter_push seen] at few
      have moved := sound.push_moves seen few channel payload
      exact ⟨fun present => ((moved _).grows present).1, fun present => ((moved _).grows present).2⟩

theorem Sound.run_grows {events : List Event} (sound : Sound n taken e) (keeps : .reset ∉ events)
    (few : e.opened n events < UInt32.size) : e.Grows (e.run events) := by
  induction events generalizing e n taken with
  | nil => exact .refl e
  | cons event events ih =>
    rw [List.mem_cons, not_or] at keeps
    have still := Nat.lt_of_le_of_lt (le_opened _ _ keeps.2) few
    obtain ⟨taken', sound'⟩ := sound.step event still
    exact (sound.step_grows (Ne.symm keeps.1) still).trans (ih sound' keeps.2 few)

end Engine

end IsoTransport

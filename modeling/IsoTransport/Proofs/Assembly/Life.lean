import IsoTransport.Proofs.Assembly.Ledger
import IsoTransport.Proofs.Assembly.Moves

/-!
The life of a message. Its identifier is the number of its first frame; it is answered for as buffered until
one answer ends it, and after that it is not answered for any more, or only to say that its frames are
discarded (`one_life`).
-/

namespace IsoTransport

def isBuffered (answer : Except Fault Outcome) : Bool := answer matches .ok (.buffered _)

def isHandover (answer : Except Fault Outcome) : Bool :=
  answer matches .ok (.completed ..) | .ok (.incomplete _)

def isFailure (answer : Except Fault Outcome) : Bool :=
  answer matches .ok (.errored _) | .error (.fragmentOverflow ..)

def isDiscarded (answer : Except Fault Outcome) : Bool := answer matches .ok (.discarded _)

/-- Buffered any number of times, then at most one ending, and frames are discarded only after a failure. -/
def OneLife (told : List (Except Fault Outcome)) : Prop :=
  ∃ going ending dropped, told = going ++ ending ++ dropped ∧ going.all isBuffered ∧
    ending.length ≤ 1 ∧ ending.all (fun answer => isHandover answer || isFailure answer) ∧
    dropped.all isDiscarded ∧ (dropped ≠ [] → ending.any isFailure)

/-- What has been told of a message that is in this phase, unless another took its place. -/
def Lived (told : List (Except Fault Outcome)) : Phase → Prop
  | .opened => told.all isBuffered
  | .complete => ∃ going ending, told = going ++ [ending] ∧ going.all isBuffered ∧ isHandover ending
  | .errored => ∃ going ending dropped, told = going ++ ending :: dropped ∧ going.all isBuffered ∧
      isFailure ending ∧ dropped.all isDiscarded

theorem oneLife_of_buffered {told : List (Except Fault Outcome)} (going : told.all isBuffered) : OneLife told :=
  ⟨told, [], [], by simp, going, Nat.zero_le _, rfl, rfl, fun dropped => absurd rfl dropped⟩

theorem Lived.oneLife {told : List (Except Fault Outcome)} {phase : Phase} (lived : Lived told phase) :
    OneLife told := by
  cases phase with
  | opened => exact oneLife_of_buffered lived
  | complete =>
    obtain ⟨going, ending, rfl, buffered, handover⟩ := lived
    exact ⟨going, [ending], [], by simp, buffered, Nat.le_refl _, by simp [handover], rfl,
      fun dropped => absurd rfl dropped⟩
  | errored =>
    obtain ⟨going, ending, dropped, rfl, buffered, failure, discarded⟩ := lived
    exact ⟨going, [ending], dropped, by simp, buffered, Nat.le_refl _, by simp [failure], discarded,
      fun _ => by simp [failure]⟩

theorem Lived.passes {told : List (Except Fault Outcome)} {phase phase' : Phase}
    {answer : Except Fault Outcome} (lived : Lived told phase) (passes : Passes phase answer phase') :
    Lived (told ++ [answer]) phase' := by
  cases passes with
  | buffered p =>
    have going : told.all isBuffered := lived
    simp [Lived, going, isBuffered]
  | completed | incomplete => exact ⟨told, _, rfl, lived, rfl⟩
  | errored | overflow => exact ⟨told, _, [], rfl, lived, rfl, rfl⟩
  | discarded p =>
    obtain ⟨going, ending, dropped, rfl, buffered, failure, discarded⟩ := lived
    exact ⟨going, ending, dropped ++ [.ok (.discarded p)], by simp, buffered, failure,
      by simp [discarded, isDiscarded]⟩

namespace Engine

variable {window n : Nat} {taken : MessageId → List Piece} {e : Engine} {index : FrameIndex}
  {channel : Channel} {segment : Segment} {payload : Bytes} {events : List Event}

/-! ### Frames that are pushed once -/

/-- No frame is pushed twice, and nothing is forgotten. -/
structure PushedOnce (events : List Event) : Prop where
  keeps : .reset ∉ events
  distinct : (events.filterMap Event.index?).Nodup

theorem PushedOnce.before {before after : List Event} (once : PushedOnce (before ++ after)) :
    PushedOnce before where
  keeps member := once.keeps (List.mem_append_left _ member)
  distinct := once.distinct.sublist ((List.sublist_append_left before after).filterMap _)

theorem firstArrival?_eq_none {events : List Event} (absent : index ∉ events.filterMap Event.index?) :
    firstArrival? events index = none := by
  rw [firstArrival?, List.findSome?_eq_none_iff]
  intro event member
  cases event with
  | push other channel segment payload =>
    refine if_neg fun same => absent ?_
    exact List.mem_filterMap.mpr ⟨_, member, congrArg some same⟩
  | setWindow => rfl
  | reset => rfl

theorem PushedOnce.fresh {after : List Event}
    (once : PushedOnce (events ++ .push index channel segment payload :: after))
    (few : opened { window } 0 events < UInt32.size) : (run { window } events).visited[index]? = none := by
  obtain ⟨taken, ledger⟩ := ledger_run window once.before.keeps few
  rw [ledger.filed.arrived]
  refine firstArrival?_eq_none fun member => ?_
  have distinct := once.distinct
  rw [List.filterMap_append, filterMap_index?_push] at distinct
  exact (List.nodup_append.mp distinct).2.2 index member index List.mem_cons_self rfl

theorem opened_le {before after : List Event} (once : PushedOnce (before ++ after)) :
    opened { window } 0 before ≤ opened { window } 0 (before ++ after) := by
  rw [opened_append]
  exact le_opened _ _ fun member => once.keeps (List.mem_append_right _ member)

theorem firstFrames_concat (events : List Event) (index : FrameIndex) (channel : Channel) (segment : Segment)
    (payload : Bytes) :
    firstFrames (events ++ [.push index channel segment payload]) = countWith (firstFrames events) segment := by
  cases segment <;> simp [firstFrames, countWith, List.countP_append]

theorem PushedOnce.opened_eq (once : PushedOnce events) (few : opened { window } 0 events < UInt32.size) :
    opened { window } 0 events = firstFrames events := by
  induction events using List.reverseRecOn with
  | nil => rfl
  | append_singleton events event ih =>
    have few' := Nat.lt_of_le_of_lt (opened_le once) few
    have earlier := ih once.before few'
    rw [opened_concat, earlier]
    cases event with
    | reset => exact absurd (by simp) once.keeps
    | setWindow => simp [countAfter, opens, firstFrames, List.countP_append]
    | push index channel segment payload =>
      rw [countAfter_push (once.fresh few'), firstFrames_concat]

/-! ### What is told of a message -/

/-- The answers to the events that tell of a message, in their order. -/
def told (e : Engine) (events : List Event) (id : MessageId) : List (Except Fault Outcome) :=
  (e.answers events).reduceOption.filter (subject? · = some id)

theorem told_concat (e : Engine) (events : List Event) (event : Event) (id : MessageId) :
    e.told (events ++ [event]) id =
      e.told events id ++ ((e.run events).step event).1.toList.filter (subject? · = some id) := by
  have last : (e.run events).answers [event] = [((e.run events).step event).1] := rfl
  simp only [told, answers_append, last, List.reduceOption_append, List.filter_append]
  cases ((e.run events).step event).1 <;>
    simp [List.reduceOption_cons_of_some, List.reduceOption_cons_of_none, List.reduceOption_nil]

/-- What has been told of the messages goes with their phases; a message whose place was taken by another has
no binding any more. -/
structure Lives (e : Engine) (told : MessageId → List (Except Fault Outcome)) : Prop where
  unknown {id : MessageId} : e.transfers[id]? = none → told id = []
  known {id : MessageId} {t : Transfer} : e.transfers[id]? = some t → Lived (told id) t.phase ∨
    ((told id).all isBuffered ∧ t.phase = .errored ∧ ∀ channel : Channel, e.bindings[channel]? ≠ some id)

theorem Lives.oneLife {told : MessageId → List (Except Fault Outcome)} (lives : e.Lives told)
    (id : MessageId) : OneLife (told id) := by
  cases present : e.transfers[id]? with
  | none =>
    rw [lives.unknown present]
    exact oneLife_of_buffered rfl
  | some t =>
    rcases lives.known present with lived | ⟨going, -⟩
    · exact lived.oneLife
    · exact oneLife_of_buffered going

theorem Lives.push {told : MessageId → List (Except Fault Outcome)} (lives : e.Lives told)
    (sound : Sound n taken e) (fresh : e.visited[index]? = none) (few : countWith n segment < UInt32.size)
    (channel : Channel) (payload : Bytes) :
    let answer := (e.push index channel segment payload).1
    (e.push index channel segment payload).2.Lives fun id =>
      told id ++ [answer].filter (subject? · = some id) := by
  intro answer
  have moved := sound.push_moves fresh few channel payload
  refine ⟨fun {id} absent => ?_, fun {id t} present => ?_⟩
  · cases moved id with
    | aside silent entry =>
      rw [lives.unknown ((congrArg Entry.transfer entry).symm.trans absent)]
      simpa [answer] using silent
    | superseded _ _ _ entry =>
      exact absurd ((congrArg Entry.transfer entry).symm.trans absent) (Option.some_ne_none _)
    | fed _ _ _ _ after => exact absurd (after.symm.trans absent) (Option.some_ne_none _)
  · cases moved id with
    | aside silent entry bound =>
      have same : told id ++ [answer].filter (subject? · = some id) = told id := by
        simpa [answer] using silent
      rw [same]
      rcases lives.known ((congrArg Entry.transfer entry).symm.trans present) with
        lived | ⟨going, errored, unbound⟩
      · exact .inl lived
      · exact .inr ⟨going, errored, fun other now => unbound other (bound other now)⟩
    | @superseded u silent before phase entry unbound =>
      have same : told id ++ [answer].filter (subject? · = some id) = told id := by
        simpa [answer] using silent
      obtain rfl := Option.some.inj (present.symm.trans (congrArg Entry.transfer entry))
      rw [same]
      rcases lives.known before with lived | ⟨going, -⟩
      · rw [phase] at lived
        exact .inr ⟨lived, rfl, unbound⟩
      · exact .inr ⟨going, rfl, unbound⟩
    | @fed u u' subject before passes _ after _ =>
      obtain rfl := Option.some.inj (present.symm.trans after)
      have more : [answer].filter (subject? · = some id) = [answer] := by simp [answer, subject]
      rw [more]
      refine .inl (Lived.passes ?_ passes)
      rcases before with ⟨absent, phase⟩ | ⟨found, other, binding⟩
      · rw [lives.unknown absent, phase]
        rfl
      · -- a message whose place was taken is bound nowhere, so it is not fed
        rcases lives.known found with lived | ⟨-, -, unbound⟩
        · exact lived
        · exact absurd binding (unbound other)

theorem lives_run (once : PushedOnce events) (few : opened { window } 0 events < UInt32.size) :
    (run { window } events).Lives (told { window } events) := by
  induction events using List.reverseRecOn with
  | nil => exact ⟨fun _ => rfl, fun present => absurd present (by simp [run, Mealy.run])⟩
  | append_singleton events event ih =>
    have few' := Nat.lt_of_le_of_lt (opened_le once) few
    have lives := ih once.before few'
    obtain ⟨taken, sound⟩ := sound_run window few'
    have after : told { window } (events ++ [event]) = fun id => told { window } events id ++
        ((run { window } events).step event).1.toList.filter (subject? · = some id) :=
      funext (told_concat { window } events event)
    rw [run_concat, after]
    cases event with
    | reset => exact absurd (by simp) once.keeps
    | setWindow =>
      simp only [step, Option.toList_none, List.filter_nil, List.append_nil]
      exact ⟨lives.unknown, lives.known⟩
    | push index channel segment payload =>
      have fresh := once.fresh few'
      rw [opened_concat, countAfter_push fresh] at few
      exact lives.push sound fresh few channel payload

theorem Sound.push_first_subject (sound : Sound n taken e) (fresh : e.visited[index]? = none)
    (few : n + 1 < UInt32.size) (channel : Channel) (declared : Nat) (payload : Bytes) :
    (subject? (e.push index channel (.first declared) payload).1).map UInt32.toNat = some (n + 1) := by
  have target := target?_first e index channel declared
  have room : countWith n (.first declared) < UInt32.size := few
  obtain ⟨started, ready⟩ := sound.target room target
  obtain ⟨t', subject, -⟩ := started.feed_entry_self ready index 0 payload
  rw [push_target fresh target]
  rw [show Segment.number (.first declared) = 0 from rfl, subject, Option.map_some, sound.nextId,
    Nat.mod_eq_of_lt (by omega)]

/-- Messages are numbered by their first frames. Each is told to be buffered until it ends, ends once, and is
discarded only after a failure; it grows while it is open, and does not change after that. -/
theorem one_life (once : PushedOnce events) (few : opened { window } 0 events < UInt32.size) :
    (∀ before index channel declared payload after,
      events = before ++ .push index channel (.first declared) payload :: after →
        (subject? ((run { window } before).push index channel (.first declared) payload).1).map
          UInt32.toNat = some (firstFrames before + 1)) ∧
    (∀ id, OneLife (told { window } events id)) ∧
    ∀ before after, events = before ++ after → (run { window } before).Grows (run { window } events) := by
  refine ⟨?_, fun id => (lives_run once few).oneLife id, ?_⟩
  · rintro before index channel declared payload after rfl
    have few' := Nat.lt_of_le_of_lt (opened_le once) few
    have fresh := once.fresh few'
    obtain ⟨taken, sound⟩ := sound_run window few'
    rw [← once.before.opened_eq few']
    refine sound.push_first_subject fresh ?_ channel declared payload
    have later : .reset ∉ after := fun member => once.keeps (by simp [member])
    rw [opened_append, opened, countAfter_push fresh] at few
    exact Nat.lt_of_le_of_lt (le_opened _ _ later) few
  · rintro before after rfl
    have few' := Nat.lt_of_le_of_lt (opened_le once) few
    obtain ⟨taken, sound⟩ := sound_run window few'
    rw [run_append]
    rw [opened_append] at few
    exact sound.run_grows (fun member => once.keeps (List.mem_append_right _ member)) few

/-- The first of three messages runs out of its window, the second loses its place to the third. -/
theorem one_life_failed :
    let channel : Channel := { medium := .can, id := 7 }
    let before : List Event :=
      [.push 0 channel (.first 9) [1], .push 1 channel (.consecutive 1) [2], .setWindow 0,
        .push 2 channel (.consecutive 9) [3], .push 3 channel (.consecutive 2) [4],
        .push 4 channel (.first 2) [5]]
    let events := before ++ [.push 5 channel (.first 1) [6]]
    told { window := 8 } events 1 =
        [.ok (.buffered ⟨1, 0, 1, false, .accepted⟩), .ok (.buffered ⟨1, 1, 1, false, .accepted⟩),
          .ok (.errored ⟨1, 9, 1, false, .rejected⟩), .ok (.discarded ⟨1, 2, 1, false, .ignored⟩)] ∧
      OneLife (told { window := 8 } events 1) ∧ OneLife (told { window := 8 } events 2) ∧
      (subject? ((run { window := 8 } before).push 5 channel (.first 1) [6]).1).map UInt32.toNat = some 3 ∧
      (run { window := 8 } before).Grows (run { window := 8 } events) := by
  intro channel before events
  obtain ⟨numbered, lives, grows⟩ := @one_life 8 events ⟨by decide, by decide⟩ (by decide +kernel)
  exact ⟨by decide +kernel, lives 1, lives 2, numbered before 5 channel 1 [6] [] rfl, grows before _ rfl⟩

end Engine

end IsoTransport

import IsoTransport.Proofs.Assembly.Handover

/-!
Frames that are pushed again. The first answer is told from the record, whatever has been pushed in between,
and the engine stays as it is. Only a number that was used too often is told by its low four bits
(`answer_again`).
-/

namespace IsoTransport

/-- The answer with the number of an overflow cut to four bits. -/
def recalled : Except Fault Outcome → Except Fault Outcome
  | .error (.fragmentOverflow id number) =>
    .error (.fragmentOverflow id (UInt8.ofNat (number.toNat % 16)))
  | answer => answer

theorem recalled_eq_iff {answer : Except Fault Outcome} :
    recalled answer = answer ↔
      ∀ id number, answer = .error (.fragmentOverflow id number) → number < 16 := by
  constructor
  · rintro same id number rfl
    simp only [recalled, Except.error.injEq, Fault.fragmentOverflow.injEq, true_and] at same
    have value := congrArg UInt8.toNat same
    rw [UInt8.toNat_ofNat'] at value
    rw [UInt8.lt_iff_toNat_lt]
    have small : (16 : UInt8).toNat = 16 := rfl
    omega
  · intro small
    unfold recalled
    split
    · rename_i id number
      have below := UInt8.lt_iff_toNat_lt.mp (small id number rfl)
      have sixteen : (16 : UInt8).toNat = 16 := rfl
      rw [Nat.mod_eq_of_lt (by omega), UInt8.ofNat_toNat]
    · rfl

namespace FragmentStore

variable {s : FragmentStore} {id other : MessageId} {number : Nat} {frame index : FrameIndex}
  {data : Bytes} {more : Bool}

theorem add_completed_other (different : frame ≠ index) :
    ((s.add id number frame data more).2.rebuilt? other).filter (·.frame = index) =
      (s.rebuilt? other).filter (·.frame = index) := by
  unfold rebuilt?
  by_cases here : id = other
  · subst here
    rw [add_rebuilt_self]
    cases added : (s.add id number frame data more).1 with
    | none => rw [Option.none_or]
    | some m =>
      have elsewhere : ¬m.frame = index := by
        rw [(add_fst_some added).1]
        exact different
      rw [add_fst_absent added, Option.some_or]
      simp [elsewhere]
  · rw [add_rebuilt_other here]

end FragmentStore

namespace Engine

variable {n : Nat} {taken : MessageId → List Piece} {e : Engine} {index other : FrameIndex}
  {channel : Channel} {segment : Segment} {payload : Bytes} {answer : Except Fault Outcome}

/-- The engine has a record of the frame, and tells this answer from it. -/
def Recalls (e : Engine) (index : FrameIndex) (answer : Except Fault Outcome) : Prop :=
  ∃ known, e.visited[index]? = some known ∧ e.replay index known = answer

theorem Recalls.push (recalls : e.Recalls index answer) (channel : Channel) (segment : Segment)
    (payload : Bytes) : e.push index channel segment payload = (answer, e) := by
  obtain ⟨known, seen, rfl⟩ := recalls
  exact push_visited seen channel segment payload

/-! ### Placing a frame and telling of it -/

theorem store_replay {t : Transfer} {p : Placement} (absent : e.fragments.rebuilt[t.id]? = none)
    (present : e.transfers[t.id]? = some t) (message : p.message = t.id)
    (accepted : p.verdict = .accepted) :
    (e.store index t p payload).2.replay index (some p) = .ok (e.store index t p payload).1 := by
  have transfers := (store_frame e index t payload p).1
  have rebuilt : (e.store index t p payload).2.fragments.rebuilt? p.message =
      (e.fragments.add t.id p.fragment index (payload.take p.length) (!p.last)).1 := by
    rw [store_fragments, FragmentStore.rebuilt?, message, FragmentStore.add_rebuilt_self, absent,
      Option.or_none]
  have declared : (e.store index t p payload).2.transfer? p.message = some t := by
    rw [transfer?, transfers, message, present]
  rw [store_answer, replay]
  simp only [accepted, rebuilt, declared]
  cases added : (e.fragments.add t.id p.fragment index (payload.take p.length) (!p.last)).1 with
  | none => rfl
  | some m =>
    have here : (some m).filter (·.frame = index) = some m := by
      rw [Option.filter_some, if_pos (decide_eq_true (FragmentStore.add_fst_some added).1)]
    rw [here]
    rfl

theorem place_overflow {t : Transfer} {window length : Nat} {number : UInt8}
    (overflow : (t.place window number length).1.verdict = .overflow) :
    (t.place window number length).1.fragment % 16 = number.toNat % 16 := by
  rw [Course.place_of_overflow overflow]
  simp [Transfer.unplaced, Transfer.slot]

theorem Sound.feed_recalls (sound : Sound n taken e) {t : Transfer} (ready : e.Ready channel t)
    (index : FrameIndex) (number : UInt8) (payload : Bytes) :
    (e.feed index t number payload).2.Recalls index (recalled (e.feed index t number payload).1) := by
  obtain ⟨id, -, -, -, message⟩ := Course.place_same t e.window number payload.length
  have visited := (feed_frame e index t number payload).2.1
  have overflow := @place_overflow t e.window payload.length number
  rcases placed : t.place e.window number payload.length with ⟨q, t'⟩
  rw [placed] at id message visited overflow
  refine ⟨some q, by rw [visited, Std.TreeMap.getElem?_insert_self], ?_⟩
  cases verdict : q.verdict with
  | ignored =>
    have answer : (e.feed index t number payload).1 = .ok (.discarded q) := by
      simp only [Engine.feed, placed, verdict]
    rw [answer, replay, verdict]
    rfl
  | rejected =>
    have answer : (e.feed index t number payload).1 = .ok (.errored q) := by
      simp only [Engine.feed, placed, verdict]
    rw [answer, replay, verdict]
    rfl
  | overflow =>
    have answer : (e.feed index t number payload).1 = .error (.fragmentOverflow t'.id number) := by
      simp only [Engine.feed, placed, verdict]
    rw [answer, replay, verdict]
    -- the record has the fragment, which has only the low four bits of the number
    dsimp only [recalled]
    rw [overflow verdict, message, id]
  | accepted =>
    have accepted : (t.place e.window number payload.length).1.verdict = .accepted := by
      rw [placed]
      exact verdict
    have phase : t.phase = .opened := Course.opened_of_accepted ready.unfinished accepted
    obtain ⟨-, -, absent⟩ := (sound.known ready.present).2.2.of_opened phase
    rw [← id] at absent message
    rw [feed_stored placed verdict]
    exact store_replay absent Std.TreeMap.getElem?_insert_self message verdict

/-- The first push of a frame leaves a record that tells its answer. -/
theorem Sound.push_recalls (sound : Sound n taken e) (fresh : e.visited[index]? = none)
    (few : countWith n segment < UInt32.size) (channel : Channel) (payload : Bytes) :
    (e.push index channel segment payload).2.Recalls index
      (recalled (e.push index channel segment payload).1) := by
  rcases target : e.target? index channel segment with ⟨_ | t, s⟩
  · rw [push_orphan fresh target]
    exact ⟨none, Std.TreeMap.getElem?_insert_self, rfl⟩
  · obtain ⟨started, ready⟩ := sound.target few target
    rw [push_target fresh target]
    exact started.feed_recalls ready index segment.number payload

theorem push_fault (fresh : e.visited[index]? = none) {fault : Fault}
    (failed : (e.push index channel segment payload).1 = .error fault) :
    ∃ id, fault = .fragmentOverflow id segment.number := by
  rcases target : e.target? index channel segment with ⟨_ | t, s⟩
  · rw [push_orphan fresh target] at failed
    cases failed
  · rw [push_target fresh target] at failed
    unfold Engine.feed at failed
    dsimp only at failed
    split at failed
    · cases failed
    · exact ⟨_, (Except.error.inj failed).symm⟩
    · cases failed
    · cases failed

theorem Sound.push_repeats (sound : Sound n taken e) (small : segment.number < 16)
    (few : e.countAfter n (.push index channel segment payload) < UInt32.size) :
    (e.push index channel segment payload).2.Recalls index (e.push index channel segment payload).1 := by
  cases seen : e.visited[index]? with
  | some known =>
    rw [push_visited seen]
    exact ⟨known, seen, rfl⟩
  | none =>
    rw [countAfter_push seen] at few
    have first := sound.push_recalls seen few channel payload
    have whole : recalled (e.push index channel segment payload).1 =
        (e.push index channel segment payload).1 := by
      rw [recalled_eq_iff]
      intro id number failed
      obtain ⟨id', same⟩ := push_fault seen failed
      rw [Fault.fragmentOverflow.injEq] at same
      rw [same.2]
      exact small
    rw [whole] at first
    exact first

/-! ### What is pushed in between -/

/-- The message that this frame completed, if that is the message it completed. -/
def completedBy (e : Engine) (index : FrameIndex) (id : MessageId) : Option Rebuilt :=
  (e.fragments.rebuilt? id).filter (·.frame = index)

theorem feed_completedBy {t : Transfer} (number : UInt8) (payload : Bytes) (different : other ≠ index)
    (id : MessageId) : (e.feed other t number payload).2.completedBy index id = e.completedBy index id := by
  unfold feed completedBy
  dsimp only
  split
  · rfl
  · rfl
  · rfl
  · rw [store_fragments]
    exact FragmentStore.add_completed_other different

theorem supersede_rebuilt (e : Engine) (channel : Channel) :
    (e.supersede channel).fragments.rebuilt = e.fragments.rebuilt := by
  rcases e.supersede_cases channel with same | ⟨t, -, -, failed⟩
  · rw [same]
  · rw [failed]
    rfl

theorem target?_rebuilt {found : Option Transfer} {s : Engine}
    (target : e.target? index channel segment = (found, s)) :
    s.fragments.rebuilt = e.fragments.rebuilt := by
  cases segment with
  | consecutive number =>
    rw [target?, Prod.mk.injEq] at target
    rw [target.2]
  | first declared =>
    rw [target?_first, Prod.mk.injEq] at target
    rw [← target.2]
    exact supersede_rebuilt e channel

theorem push_completedBy (fresh : e.visited[other]? = none) (different : other ≠ index)
    (id : MessageId) :
    (e.push other channel segment payload).2.completedBy index id = e.completedBy index id := by
  rcases target : e.target? other channel segment with ⟨_ | t, s⟩
  · obtain ⟨-, -, rfl⟩ := target?_none target
    rw [push_orphan fresh target]
    rfl
  · have rebuilt := target?_rebuilt target
    rw [push_target fresh target, feed_completedBy _ _ different]
    simp only [completedBy, FragmentStore.rebuilt?, rebuilt]

theorem Sound.declared_length (sound : Sound n taken e) {id : MessageId} {m : Rebuilt}
    (found : e.fragments.rebuilt? id = some m) :
    ((e.transfer? id).map (·.declared)).getD m.payload.length = m.payload.length := by
  obtain ⟨t, before, x, present, counts, full, -, -, rfl⟩ := sound.rebuilt found
  rw [transfer?, present]
  exact (full.symm.trans (Piece.length_payload_gather counts.distinct _).symm)

theorem Sound.replay_congr (sound : Sound n taken e) {n' : Nat} {taken' : MessageId → List Piece}
    {e' : Engine} (sound' : Sound n' taken' e')
    (same : ∀ id, e'.completedBy index id = e.completedBy index id) (known : Option Placement) :
    e'.replay index known = e.replay index known := by
  unfold replay
  cases known with
  | none => rfl
  | some p =>
    dsimp only
    split
    · rfl
    · rfl
    · rfl
    · have handed := same p.message
      unfold completedBy at handed
      rw [handed]
      cases found : (e.fragments.rebuilt? p.message).filter (·.frame = index) with
      | none => rfl
      | some m =>
        have before := (Option.filter_eq_some_iff.mp found).1
        have after := (Option.filter_eq_some_iff.mp (handed.trans found)).1
        simp only [sound.declared_length before, sound'.declared_length after]

/-- No event but a reset changes what is told of a frame that has a record. -/
theorem Sound.step_recalls (sound : Sound n taken e) (recalls : e.Recalls index answer) {event : Event}
    (keeps : event ≠ .reset) (few : e.countAfter n event < UInt32.size) :
    (e.step event).2.Recalls index answer := by
  obtain ⟨taken', sound'⟩ := sound.step event few
  obtain ⟨known, seen, rfl⟩ := recalls
  refine ⟨known, step_visited seen keeps, sound.replay_congr sound' ?_ known⟩
  cases event with
  | reset => exact absurd rfl keeps
  | setWindow window => exact fun _ => rfl
  | push other channel segment payload =>
    rw [step_push]
    cases visited : e.visited[other]? with
    | some again =>
      rw [push_visited visited]
      exact fun _ => rfl
    | none =>
      have different : other ≠ index := by
        rintro rfl
        rw [seen] at visited
        exact absurd visited (Option.some_ne_none known)
      exact push_completedBy visited different

theorem Sound.run_recalls {events : List Event} (sound : Sound n taken e)
    (recalls : e.Recalls index answer) (keeps : .reset ∉ events)
    (few : e.opened n events < UInt32.size) : (e.run events).Recalls index answer := by
  induction events generalizing e n taken with
  | nil => exact recalls
  | cons event events ih =>
    rw [List.mem_cons, not_or] at keeps
    have head : event ≠ .reset := Ne.symm keeps.1
    have still : e.countAfter n event < UInt32.size :=
      Nat.lt_of_le_of_lt (le_opened _ _ keeps.2) few
    obtain ⟨taken', sound'⟩ := sound.step event still
    exact ih sound' (sound.step_recalls recalls head still) keeps.2 few

/-- Every later push of a frame gives the first answer and leaves the engine as it is; of a number that was
used too often only the low four bits are told. -/
theorem answer_again {window : Nat} {before after : List Event}
    (fresh : (run { window } before).isVisited index = false) (keeps : .reset ∉ after)
    (few : opened { window } 0 (before ++ .push index channel segment payload :: after) < UInt32.size)
    (channel' : Channel) (segment' : Segment) (payload' : Bytes) :
    let answer := ((run { window } before).push index channel segment payload).1
    let e := run { window } (before ++ .push index channel segment payload :: after)
    e.push index channel' segment' payload' = (recalled answer, e) ∧
      ((e.push index channel' segment' payload').1 = answer ↔
        ∀ id number, answer = .error (.fragmentOverflow id number) → number < 16) := by
  intro answer e
  have unseen := isVisited_eq_false.mp fresh
  rw [opened_append, opened, countAfter_push unseen] at few
  have started := Nat.lt_of_le_of_lt (le_opened _ _ keeps) few
  have counted : opened { window } 0 before ≤ countWith (opened { window } 0 before) segment := by
    cases segment
    · exact Nat.le_succ _
    · exact Nat.le_refl _
  obtain ⟨taken, sound⟩ := sound_run window (Nat.lt_of_le_of_lt counted started)
  obtain ⟨taken', sound', -⟩ :=
    @Sound.push _ taken _ channel sound _ unseen segment started payload
  have first := sound.push_recalls unseen started channel payload
  have now : e.Recalls index (recalled answer) := by
    have later := sound'.run_recalls first keeps few
    rw [show e = _ from run_append _ before _]
    exact later
  have again := now.push channel' segment' payload'
  exact ⟨again, by rw [again, recalled_eq_iff]⟩

/-- The frame that completed a message is pushed again with other contents, after the next message of its
channel has failed. -/
theorem answer_again_completed :
    let channel : Channel := { medium := .can, id := 7 }
    let before : List Event := [.push 0 channel (.first 3) [1]]
    let after : List Event :=
      [.push 2 channel (.first 9) [5], .setWindow 0, .push 3 channel (.consecutive 9) [6]]
    let e := run { window := 8 } (before ++ .push 1 channel (.consecutive 1) [2, 3] :: after)
    e.push 1 { medium := .lin, id := 60 } (.first 4) [7] =
      (.ok (.completed ⟨1, 1, 2, true, .accepted⟩ [1, 2, 3] 3), e) := by
  intro channel before after e
  have answer : ((run { window := 8 } before).push 1 channel (.consecutive 1) [2, 3]).1 =
      .ok (.completed ⟨1, 1, 2, true, .accepted⟩ [1, 2, 3] 3) := by decide +kernel
  obtain ⟨again, -⟩ := @answer_again 1 channel (.consecutive 1) [2, 3] 8 before after (by decide +kernel)
    (by decide) (by decide +kernel) { medium := .lin, id := 60 } (.first 4) [7]
  rw [answer] at again
  exact again

/-- A number above fifteen comes back smaller: this frame has the number 17, and is told to have the number 1
when it is pushed again. -/
theorem not_answer_again :
    ¬∀ (window : Nat) (before after : List Event) (index : FrameIndex) (channel channel' : Channel)
      (segment segment' : Segment) (payload payload' : Bytes),
      (run { window } before).isVisited index = false → .reset ∉ after →
      opened { window } 0 (before ++ .push index channel segment payload :: after) < UInt32.size →
      ((run { window } (before ++ .push index channel segment payload :: after)).push index channel'
          segment' payload').1 =
        ((run { window } before).push index channel segment payload).1 := by
  intro all
  let channel : Channel := { medium := .can, id := 7 }
  let round (k : Nat) : Event := .push (k + 1) channel (.consecutive 1) []
  let before : List Event := .push 0 channel (.first 4294967295) [] :: (List.range 255).map round
  have claim := all 16 before [] 256 channel channel (.consecutive 17) (.consecutive 17) [] []
    (by decide +kernel) (by decide) (by decide +kernel)
  exact absurd claim (by decide +kernel)

end Engine

end IsoTransport

import IsoTransport.Proofs.Assembly.Channels

/-!
What an answer hangs on: the first passes on the channel since its latest first frame, and the windows at
their times. Two runs that agree on these answer alike, but for the identifier of the message
(`answers_isolated`).
-/

namespace IsoTransport

/-! ### Messages under other identifiers -/

def Placement.renamed (id : MessageId) (p : Placement) : Placement := { p with message := id }

def Outcome.renamed (id : MessageId) : Outcome → Outcome
  | orphaned => orphaned
  | buffered p => buffered (p.renamed id)
  | completed p payload declared => completed (p.renamed id) payload declared
  | incomplete p => incomplete (p.renamed id)
  | errored p => errored (p.renamed id)
  | discarded p => discarded (p.renamed id)

def Fault.renamed (id : MessageId) : Fault → Fault
  | fragmentOverflow _ number => fragmentOverflow id number
  | fault => fault

/-- The answer as it would be for a message with this identifier. -/
def renamed (id : MessageId) : Except Fault Outcome → Except Fault Outcome
  | .ok outcome => .ok (outcome.renamed id)
  | .error fault => .error (fault.renamed id)

theorem renamed_renamed (id other : MessageId) (answer : Except Fault Outcome) :
    renamed id (renamed other answer) = renamed id answer := by
  cases answer with
  | ok outcome => cases outcome <;> rfl
  | error fault => cases fault <;> rfl

theorem exists_renamed (answer : Except Fault Outcome) : ∃ id, renamed id answer = answer := by
  cases answer with
  | ok outcome =>
    cases outcome with
    | orphaned => exact ⟨0, rfl⟩
    | _ p => exact ⟨p.message, rfl⟩
  | error fault =>
    cases fault with
    | fragmentOverflow id number => exact ⟨id, rfl⟩
    | _ => exact ⟨0, rfl⟩

theorem orphaned_of_renamed {id : MessageId} {answer : Except Fault Outcome}
    (told : renamed id answer = .ok .orphaned) : answer = .ok .orphaned := by
  cases answer with
  | ok outcome =>
    cases outcome with
    | orphaned => rfl
    | _ => exact absurd told (by simp [renamed, Outcome.renamed])
  | error fault => exact absurd told (by simp [renamed])

def Piece.unplaced (x : Piece) : Piece := { x with frame := 0 }

/-- The transfer under another identifier, and without the position of its first frame. -/
def Transfer.renamed (id : MessageId) (t : Transfer) : Transfer := { t with id, firstFrame := 0 }

namespace Course

def renamed (id : MessageId) (c : Course) : Course where
  transfer := c.transfer.renamed id
  taken := c.taken.map Piece.unplaced

theorem gather_unplaced (taken : List Piece) : Piece.gather (taken.map Piece.unplaced) = Piece.gather taken := by
  rw [Piece.gather, List.foldl_map]
  rfl

theorem accepted_renamed (id : MessageId) (c : Course) (p : Placement) (x : Piece) :
    (c.renamed id).accepted (p.renamed id) x.unplaced = (c.accepted p x).renamed id := by
  have same : Piece.closed ((c.renamed id).taken ++ [x.unplaced]) x.unplaced = Piece.closed (c.taken ++ [x]) x := by
    have pieces : (c.renamed id).taken ++ [x.unplaced] = (c.taken ++ [x]).map Piece.unplaced := by
      simp [renamed]
    rw [Piece.closed, pieces, gather_unplaced]
    rfl
  unfold accepted
  rw [same]
  show (if p.last then _ else _) = _
  repeat' split
  all_goals rfl

theorem place_renamed (id : MessageId) (t : Transfer) (window : Nat) (number : UInt8) (length : Nat) :
    (t.renamed id).place window number length =
      ((t.place window number length).1.renamed id, (t.place window number length).2.renamed id) := by
  unfold Transfer.place
  dsimp only
  show (if t.phase = .errored then _ else if t.rounds[Transfer.slot number] = _ then _ else
    if (t.countRound number).highest + window < t.expand number then _ else _) = _
  repeat' split
  all_goals rfl

/-- Neither the identifier nor the positions of the frames matter to what a message answers. -/
theorem feed_renamed (id : MessageId) (c : Course) (window : Nat) (index : FrameIndex) (number : UInt8)
    (payload : Bytes) :
    (c.renamed id).feed window 0 number payload =
      (IsoTransport.renamed id (c.feed window index number payload).1,
        (c.feed window index number payload).2.renamed id) := by
  have placed := place_renamed id c.transfer window number payload.length
  unfold feed
  rw [show (c.renamed id).transfer = c.transfer.renamed id from rfl, placed]
  rcases c.transfer.place window number payload.length with ⟨p, t⟩
  have verdict : (p.renamed id).verdict = p.verdict := rfl
  dsimp only
  rw [verdict]
  cases p.verdict with
  | ignored => rfl
  | overflow => rfl
  | rejected => rfl
  | accepted =>
    have answer := accepted_renamed id c p (p.piece index payload)
    have taken : (c.taken ++ [p.piece index payload]).map Piece.unplaced =
        (c.renamed id).taken ++ [(p.piece index payload).unplaced] := by
      simp [renamed]
    refine Prod.ext (congrArg Except.ok answer) ?_
    exact congrArg (Course.mk _) taken.symm

theorem push_renamed (id : MessageId) (bound : Option Course) (window : Nat) (index : FrameIndex)
    (number : UInt8) (payload : Bytes) :
    push (bound.map (renamed id)) window 0 number payload =
      (IsoTransport.renamed id (push bound window index number payload).1,
        (push bound window index number payload).2.map (renamed id)) := by
  cases bound with
  | none => rfl
  | some c =>
    simp only [push, Option.map_some, feed_renamed id c window index]
    refine Prod.ext rfl ?_
    unfold live
    show (if (c.feed window index number payload).2.transfer.phase = .complete then _ else _) = _
    split <;> rfl

end Course

/-! ### What a channel has heard -/

/-- A first pass on a channel: what it brought, and the window at its time. -/
structure Heard where
  window : Nat
  segment : Segment
  payload : Bytes
  deriving DecidableEq

def Heard.follow (heard : List Heard) (x : Heard) : List Heard :=
  match x.segment with
  | .first _ => [x]
  | .consecutive _ => if heard = [] then [] else heard ++ [x]

namespace Engine

def hears (e : Engine) (channel : Channel) (heard : List Heard) : Event → List Heard
  | .push index other segment payload =>
    if other = channel ∧ e.isVisited index = false then
      Heard.follow heard { window := e.window, segment, payload }
    else heard
  | .setWindow _ => heard
  | .reset => []

/-- The first passes on a channel since the latest first frame among them. -/
def heardOn (e : Engine) (channel : Channel) (heard : List Heard) : List Event → List Heard
  | [] => heard
  | event :: events => (e.step event).2.heardOn channel (e.hears channel heard event) events

theorem heardOn_concat (e : Engine) (channel : Channel) (heard : List Heard) (events : List Event)
    (event : Event) :
    e.heardOn channel heard (events ++ [event]) =
      (e.run events).hears channel (e.heardOn channel heard events) event := by
  induction events generalizing e heard with
  | nil => rfl
  | cons first events ih => exact ih _ _

end Engine

namespace Course

/-- What a message alone tells of a first pass, and what becomes of it. -/
def tell (channel : Channel) (bound : Option Course) (x : Heard) : Except Fault Outcome × Option Course :=
  let target : Option Course := match x.segment with
    | .first declared => some { transfer := { id := 0, channel, firstFrame := 0, declared } }
    | .consecutive _ => bound
  push target x.window 0 x.segment.number x.payload

def retell (channel : Channel) (heard : List Heard) : Except Fault Outcome × Option Course :=
  heard.foldl (fun told x => tell channel told.2 x) (.ok .orphaned, none)

theorem retell_follow (channel : Channel) (heard : List Heard) (x : Heard) :
    retell channel (Heard.follow heard x) = tell channel (retell channel heard).2 x := by
  rcases x with ⟨window, segment, payload⟩
  cases segment with
  | first declared => rfl
  | consecutive number =>
    by_cases nothing : heard = []
    · subst nothing
      rfl
    · simp [Heard.follow, nothing, retell]

end Course

namespace Engine

variable {n : Nat} {taken : MessageId → List Piece} {e : Engine} {channel : Channel}

/-- What the channel has heard is all that its message is made of. -/
def Retold (e : Engine) (taken : MessageId → List Piece) (channel : Channel) (heard : List Heard) : Prop :=
  (Course.retell channel heard).2 = (e.courseOn taken channel).map (Course.renamed 0)

theorem Sound.push_retold (sound : Sound n taken e) {index : FrameIndex}
    (fresh : e.visited[index]? = none) {segment : Segment} (few : countWith n segment < UInt32.size)
    (payload : Bytes) {heard : List Heard} (retold : e.Retold taken channel heard) :
    let e' := (e.push index channel segment payload).2
    let x : Heard := { window := e.window, segment, payload }
    ∃ taken', Sound (countWith n segment) taken' e' ∧
      renamed 0 (e.push index channel segment payload).1 = (Course.retell channel (Heard.follow heard x)).1 ∧
      e'.Retold taken' channel (Heard.follow heard x) := by
  intro e' x
  obtain ⟨taken', after, answer, -⟩ := @Sound.push _ taken _ channel sound _ fresh segment few payload
  have alone := Course.push_renamed 0 (e.fedCourse taken index channel segment) e.window index
    segment.number payload
  have told : Course.tell channel (Course.retell channel heard).2 x =
      Course.push ((e.fedCourse taken index channel segment).map (Course.renamed 0)) e.window 0
        segment.number payload := by
    rw [retold]
    cases segment <;> rfl
  rw [← answer, ← told, ← Course.retell_follow] at alone
  exact ⟨taken', after, (congrArg Prod.fst alone).symm, congrArg Prod.snd alone⟩

/-- A push leaves alone what another channel has heard, and its message. -/
theorem Sound.push_retold_other (sound : Sound n taken e) {index : FrameIndex} {other : Channel}
    (fresh : e.visited[index]? = none) {segment : Segment} (few : countWith n segment < UInt32.size)
    (payload : Bytes) (different : channel ≠ other) {heard : List Heard}
    (retold : e.Retold taken channel heard) :
    ∃ taken', Sound (countWith n segment) taken' (e.push index other segment payload).2 ∧
      (e.push index other segment payload).2.Retold taken' channel heard := by
  obtain ⟨taken', after, -, others, -⟩ := @Sound.push _ taken _ other sound _ fresh segment few payload
  refine ⟨taken', after, ?_⟩
  rw [Retold, others channel different]
  exact retold

theorem Sound.step_retold (sound : Sound n taken e) {heard : List Heard}
    (retold : e.Retold taken channel heard) (event : Event)
    (few : e.countAfter n event < UInt32.size) :
    ∃ taken', Sound (e.countAfter n event) taken' (e.step event).2 ∧
      (e.step event).2.Retold taken' channel (e.hears channel heard event) := by
  cases event with
  | reset => exact ⟨_, sound_new e.window, rfl⟩
  | setWindow window => exact ⟨_, sound_setWindow sound window, retold⟩
  | push index other segment payload =>
    rw [step_push]
    cases seen : e.visited[index]? with
    | some known =>
      have again : e.isVisited index = true := isVisited_iff.mpr ⟨known, seen⟩
      rw [countAfter_again seen, push_visited seen, hears, if_neg (by simp [again])]
      exact ⟨taken, sound, retold⟩
    | none =>
      have unseen : e.isVisited index = false := isVisited_eq_false.mpr seen
      rw [countAfter_push seen] at few ⊢
      by_cases here : other = channel
      · subst here
        obtain ⟨taken', after, -, told⟩ := sound.push_retold seen few payload retold
        rw [hears, if_pos ⟨rfl, unseen⟩]
        exact ⟨taken', after, told⟩
      · rw [hears, if_neg fun both => here both.1]
        exact sound.push_retold_other seen few payload (Ne.symm here) retold

theorem retold_run (window : Nat) (channel : Channel) {events : List Event}
    (few : opened { window } 0 events < UInt32.size) :
    ∃ taken, Sound (opened { window } 0 events) taken (run { window } events) ∧
      (run { window } events).Retold taken channel (heardOn { window } channel [] events) := by
  induction events using List.reverseRecOn with
  | nil => exact ⟨_, sound_new window, rfl⟩
  | append_singleton events event ih =>
    rw [opened_concat] at few ⊢
    rw [run_concat, heardOn_concat]
    -- a reset may come when the identifiers have run out, so what was true before it is not at hand
    by_cases keeps : event = .reset
    · subst keeps
      exact ⟨_, sound_new _, rfl⟩
    · obtain ⟨taken, sound, retold⟩ := ih (Nat.lt_of_le_of_lt (le_countAfter _ _ keeps) few)
      exact sound.step_retold retold event few

/-- The answer to a first pass, but for the identifier, is told by what its channel has heard. -/
theorem answer_retold {window : Nat} {events : List Event} {index : FrameIndex} {segment : Segment}
    {payload : Bytes} (fresh : (run { window } events).isVisited index = false)
    (few : opened { window } 0 (events ++ [.push index channel segment payload]) < UInt32.size) :
    renamed 0 ((run { window } events).push index channel segment payload).1 =
      (Course.retell channel
        (heardOn { window } channel [] (events ++ [.push index channel segment payload]))).1 := by
  have unseen := isVisited_eq_false.mp fresh
  rw [opened_concat] at few
  have before := Nat.lt_of_le_of_lt (le_countAfter _ _ (show Event.push .. ≠ .reset by simp)) few
  rw [countAfter_push unseen] at few
  obtain ⟨taken, sound, retold⟩ := retold_run window channel before
  obtain ⟨-, -, answer, -⟩ := sound.push_retold unseen few payload retold
  rw [heardOn_concat, hears, if_pos ⟨rfl, fresh⟩]
  exact answer

theorem heardOn_nil (e : Engine) {events : List Event}
    (without : ∀ index declared payload, .push index channel (.first declared) payload ∉ events) :
    e.heardOn channel [] events = [] := by
  induction events using List.reverseRecOn with
  | nil => rfl
  | append_singleton events event ih =>
    rw [heardOn_concat, ih fun index declared payload member =>
      without index declared payload (List.mem_append_left _ member)]
    cases event with
    | reset => rfl
    | setWindow window => rfl
    | push index other segment payload =>
      rw [hears]
      split
      · rename_i here
        cases segment with
        | consecutive number => rfl
        | first declared =>
          refine absurd (List.mem_append_right _ ?_) (without index declared payload)
          rw [here.1]
          exact List.mem_singleton_self _
      · rfl

/-- Two runs of which the channel has heard the same answer its first passes alike, whatever else has been
pushed in them. -/
theorem answers_isolated {window₁ window₂ : Nat} {events₁ events₂ : List Event}
    {index₁ index₂ : FrameIndex} {segment₁ segment₂ : Segment} {payload₁ payload₂ : Bytes}
    (fresh₁ : (run { window := window₁ } events₁).isVisited index₁ = false)
    (fresh₂ : (run { window := window₂ } events₂).isVisited index₂ = false)
    (few₁ : opened { window := window₁ } 0
      (events₁ ++ [.push index₁ channel segment₁ payload₁]) < UInt32.size)
    (few₂ : opened { window := window₂ } 0
      (events₂ ++ [.push index₂ channel segment₂ payload₂]) < UInt32.size)
    (same : heardOn { window := window₁ } channel [] (events₁ ++ [.push index₁ channel segment₁ payload₁]) =
      heardOn { window := window₂ } channel [] (events₂ ++ [.push index₂ channel segment₂ payload₂])) :
    let answer₁ := ((run { window := window₁ } events₁).push index₁ channel segment₁ payload₁).1
    let answer₂ := ((run { window := window₂ } events₂).push index₂ channel segment₂ payload₂).1
    (∃ id, answer₂ = renamed id answer₁) ∧
      ((∀ index declared payload, .push index channel (.first declared) payload ∉
          events₁ ++ [.push index₁ channel segment₁ payload₁]) →
        answer₁ = .ok .orphaned ∧ answer₂ = .ok .orphaned) := by
  intro answer₁ answer₂
  have told₁ := answer_retold fresh₁ few₁
  have told₂ := answer_retold fresh₂ few₂
  have alike : renamed 0 answer₂ = renamed 0 answer₁ := by
    rw [told₁, told₂, same]
  refine ⟨?_, fun without => ?_⟩
  · obtain ⟨id, own⟩ := exists_renamed answer₂
    refine ⟨id, ?_⟩
    rw [← own, ← renamed_renamed id 0, alike, renamed_renamed]
  · rw [heardOn_nil _ without] at told₁
    exact ⟨orphaned_of_renamed told₁, orphaned_of_renamed (alike.trans told₁)⟩

/-- A message that follows a failed one, among frames of another channel, and the same message by itself; and
a consecutive frame of a channel without a message. -/
theorem answers_isolated_superseded :
    let channel : Channel := { medium := .can, id := 7 }
    let other : Channel := { medium := .can, id := 9 }
    let crowd : List Event :=
      [.push 0 channel (.first 9) [1], .push 1 other (.first 4) [7], .push 2 channel (.first 3) [1],
        .push 3 other (.consecutive 1) [8]]
    ((run { window := 8 } crowd).push 4 channel (.consecutive 1) [2, 3]).1 =
        .ok (.completed ⟨3, 1, 2, true, .accepted⟩ [1, 2, 3] 3) ∧
      (∃ id, ((run { window := 8 } [.push 6 channel (.first 3) [1]]).push 5 channel (.consecutive 1)
          [2, 3]).1 =
        renamed id ((run { window := 8 } crowd).push 4 channel (.consecutive 1) [2, 3]).1) ∧
      ((run { window := 2 } [.push 0 other (.first 9) [1]]).push 1 channel (.consecutive 1) [2]).1 =
        .ok .orphaned := by
  intro channel other crowd
  obtain ⟨alike, -⟩ := @answers_isolated channel 8 8 crowd [.push 6 channel (.first 3) [1]] 4 5
    (.consecutive 1) (.consecutive 1) [2, 3] [2, 3] (by decide +kernel) (by decide +kernel)
    (by decide +kernel) (by decide +kernel) (by decide +kernel)
  obtain ⟨-, orphaned⟩ := @answers_isolated channel 2 1 [.push 0 other (.first 9) [1]] [] 1 0
    (.consecutive 1) (.consecutive 2) [2] [3] (by decide +kernel) (by decide +kernel)
    (by decide +kernel) (by decide +kernel) (by decide +kernel)
  have without : ∀ index declared payload, Event.push index channel (.first declared) payload ∉
      [.push 0 other (.first 9) [1]] ++ [Event.push 1 channel (.consecutive 1) [2]] := by
    intro index declared payload
    simp [channel, other]
  exact ⟨by decide +kernel, alike, (orphaned without).1⟩

end Engine

end IsoTransport

import IsoTransport.Proofs.Assembly.Channels

/-!
The verdict on a frame hangs on what was judged of its message before (`verdict_from_history`): sixteen counters
and one maximum sum up the accepted frames, in whatever order they came and however the window was changed.
-/

namespace IsoTransport

def Segment.isFirst : Segment → Bool
  | first _ => true
  | consecutive _ => false

/-- A frame that was placed when it was pushed for the first time. -/
structure Judged where
  frame : FrameIndex
  segment : Segment
  payload : Bytes
  place : Placement

namespace Judged

/-- A first frame begins the history of its message. -/
def follow (id : MessageId) (history : List Judged) (x : Judged) : List Judged :=
  if x.place.message = id then if x.segment.isFirst then [x] else history ++ [x] else history

/-- What was judged of a message since its first frame. -/
def historyOf (id : MessageId) (log : List Judged) : List Judged := log.foldl (follow id) []

def acceptedOf (id : MessageId) (log : List Judged) : List Judged :=
  (historyOf id log).filter (·.place.verdict = .accepted)

/-- How many of these frames came under the slot of a number. -/
def count (history : List Judged) (number : UInt8) : Nat :=
  history.countP (·.segment.number.toNat % 16 = number.toNat % 16)

def highest (history : List Judged) : Nat := history.foldl (fun n x => max n x.place.fragment) 0

def piece (x : Judged) : Piece := x.place.piece x.frame x.payload

end Judged

namespace Engine

def judges (e : Engine) (log : List Judged) : Event → List Judged
  | .reset => []
  | .setWindow _ => log
  | .push index channel segment payload =>
    if e.isVisited index then log
    else
      match (e.push index channel segment payload).2.placement? index with
      | some place => log ++ [{ frame := index, segment, payload, place }]
      | none => log

/-- The frames placed since the last reset. -/
def judged (e : Engine) (log : List Judged) : List Event → List Judged
  | [] => log
  | event :: events => (e.step event).2.judged (e.judges log event) events

theorem judged_concat (e : Engine) (log : List Judged) (events : List Event) (event : Event) :
    e.judged log (events ++ [event]) = (e.run events).judges (e.judged log events) event := by
  induction events generalizing e log with
  | nil => rfl
  | cons first events ih => exact ih _ _

end Engine

namespace Judged

variable {id : MessageId} {log : List Judged} {x : Judged}

theorem historyOf_concat (id : MessageId) (log : List Judged) (x : Judged) :
    historyOf id (log ++ [x]) = follow id (historyOf id log) x := by
  simp [historyOf]

theorem acceptedOf_other (different : x.place.message ≠ id) : acceptedOf id (log ++ [x]) = acceptedOf id log := by
  rw [acceptedOf, historyOf_concat, follow, if_neg different]
  rfl

theorem acceptedOf_self (here : x.place.message = id) (accepted : x.place.verdict = .accepted) :
    acceptedOf id (log ++ [x]) = (if x.segment.isFirst then [] else acceptedOf id log) ++ [x] := by
  rw [acceptedOf, historyOf_concat, follow, if_pos here]
  split
  · simp [accepted]
  · simp [acceptedOf, accepted]

theorem historyOf_subset (id : MessageId) (log : List Judged) : historyOf id log ⊆ log := by
  induction log using List.reverseRecOn with
  | nil => exact List.nil_subset _
  | append_singleton log x ih =>
    rw [historyOf_concat, follow]
    have earlier : historyOf id log ⊆ log ++ [x] := fun y member => List.mem_append_left _ (ih member)
    have new : [x] ⊆ log ++ [x] := List.subset_append_right _ _
    split
    · split
      · exact new
      · exact List.append_subset.mpr ⟨earlier, new⟩
    · exact earlier

theorem mem_acceptedOf (member : x ∈ acceptedOf id log) : x ∈ log ∧ x.place.verdict = .accepted := by
  obtain ⟨told, accepted⟩ := List.mem_filter.mp member
  exact ⟨historyOf_subset id log told, of_decide_eq_true accepted⟩

end Judged

/-! ### One message -/

namespace Transfer

variable {t : Transfer} {window length : Nat} {number : UInt8}

theorem opened_of_place (still : (t.place window number length).2.phase = .opened) : t.phase = .opened := by
  unfold place accept at still
  dsimp only at still
  repeat' split at still
  all_goals first | cases still | exact still

theorem place_slot (accepted : (t.place window number length).1.verdict = .accepted) :
    (t.place window number length).1.fragment % 16 = number.toNat % 16 := by
  unfold place at accepted ⊢
  dsimp only at accepted ⊢
  repeat' split at accepted
  · cases accepted
  · cases accepted
  · cases accepted
  · rename_i counted free near
    rw [if_neg counted, if_neg free, if_neg near]
    simp only [accept, expand, slot]
    omega

end Transfer

theorem Course.Open.place {c : Course} (opened : c.Open) {window : Nat} {number : UInt8} (index : FrameIndex)
    (payload : Bytes) (still : (c.transfer.place window number payload.length).2.phase = .opened) :
    let placed := c.transfer.place window number payload.length
    placed.1.verdict = .accepted ∧
      Open { transfer := placed.2, taken := c.taken ++ [placed.1.piece index payload] } := by
  by_cases worn : Piece.rounds c.taken (number.toNat % 16) = Transfer.roundLimit
  · rw [Transfer.place_opened opened.phase opened.counts, if_pos worn] at still
    cases still
  rcases Nat.lt_or_ge (Piece.highest c.taken + window) (Transfer.nextFragment c.taken number) with ahead | near
  · rw [Transfer.place_opened opened.phase opened.counts, if_neg worn, if_pos ahead] at still
    cases still
  rw [Course.place_accepted opened worn near] at still ⊢
  cases closes : (c.placement number payload.length).last with
  | true =>
    have complete := (Course.advance_full opened closes).1
    exact absurd (still.symm.trans complete) (by decide)
  | false => exact ⟨rfl, Course.advance_open opened worn index payload closes⟩

namespace Judged

theorem rounds_piece {past : List Judged} (slots : ∀ x ∈ past, x.place.fragment % 16 = x.segment.number.toNat % 16)
    (number : UInt8) : Piece.rounds (past.map piece) (number.toNat % 16) = count past number := by
  rw [Piece.rounds, List.countP_map, count]
  apply List.countP_congr
  intro x member
  have slot := slots x member
  simp [piece, Placement.piece, slot]

theorem highest_piece (past : List Judged) : Piece.highest (past.map piece) = highest past := by
  rw [Piece.highest, List.foldl_map]
  rfl

end Judged

/-! ### The engine -/

namespace Engine

variable {e s : Engine} {log : List Judged} {index : FrameIndex} {channel : Channel} {segment : Segment}
  {payload : Bytes} {id : MessageId} {t : Transfer}

/-- The open transfers sum up the frames that the log tells their messages accepted. -/
structure Tallied (e : Engine) (log : List Judged) : Prop where
  known {id : MessageId} {t : Transfer} : e.transfers[id]? = some t → t.id = id
  sums {id : MessageId} {t : Transfer} : e.transfers[id]? = some t → t.phase = .opened →
    Course.Open { transfer := t, taken := (Judged.acceptedOf id log).map Judged.piece }
  slots : ∀ x ∈ log, x.place.verdict = .accepted → x.place.fragment % 16 = x.segment.number.toNat % 16

theorem tallied_new (window : Nat) : Tallied { window } [] where
  known found := by simp at found
  sums found := by simp at found
  slots := by simp

/-- The message that a frame goes to is summed up by its history, of which a first frame leaves nothing. -/
theorem Tallied.target (tallied : e.Tallied log) (target : e.target? index channel segment = (some t, s))
    (phase : t.phase = .opened) :
    Course.Open
      { transfer := t
        taken := (if segment.isFirst then [] else Judged.acceptedOf t.id log).map Judged.piece } := by
  cases segment with
  | first declared =>
    rw [target?_first, Prod.mk.injEq, Option.some.injEq] at target
    rw [← target.1]
    exact ⟨rfl, Transfer.counts_new .., .inl rfl⟩
  | consecutive number =>
    rw [target?, Prod.mk.injEq, bound?, Option.bind_eq_some_iff] at target
    obtain ⟨⟨id, -, found⟩, -⟩ := target
    obtain rfl := tallied.known found
    exact tallied.sums found phase

theorem target?_transfers (target : e.target? index channel segment = (some t, s)) (different : t.id ≠ id)
    {u : Transfer} (found : s.transfers[id]? = some u) :
    e.transfers[id]? = some u ∨ (u.id = id ∧ u.phase = .errored) := by
  cases segment with
  | consecutive number =>
    rw [target?, Prod.mk.injEq] at target
    rw [target.2]
    exact .inl found
  | first declared =>
    rw [target?_first, Prod.mk.injEq, Option.some.injEq] at target
    obtain ⟨rfl, rfl⟩ := target
    rw [(start_frame e index channel declared).2.1, Std.TreeMap.getElem?_insert,
      if_neg (by simpa using different)] at found
    rcases supersede_left found with old | ⟨v, -, here, rfl⟩
    · exact .inl old
    · exact .inr ⟨here, rfl⟩

theorem Tallied.push (tallied : e.Tallied log) (fresh : e.visited[index]? = none) (channel : Channel)
    (segment : Segment) (payload : Bytes) :
    (e.push index channel segment payload).2.Tallied (e.judges log (.push index channel segment payload)) := by
  have unseen : ¬e.isVisited index = true := by simp [isVisited_eq_false.mpr fresh]
  rw [judges, if_neg unseen]
  rcases target : e.target? index channel segment with ⟨_ | t, s⟩
  · obtain ⟨-, -, rfl⟩ := target?_none target
    rw [push_orphan fresh target]
    simp only [placement?, Std.TreeMap.getElem?_insert_self, Option.join_some]
    exact ⟨tallied.known, tallied.sums, tallied.slots⟩
  rw [push_target fresh target]
  obtain ⟨transfers, visited, -⟩ := feed_frame s index t segment.number payload
  have same := Course.place_same t s.window segment.number payload.length
  simp only [placement?, visited, Std.TreeMap.getElem?_insert_self, Option.join_some]
  refine ⟨?known, ?sums, ?slots⟩
  case slots =>
    intro x member accepted
    rcases List.mem_append.mp member with old | new
    · exact tallied.slots x old accepted
    · obtain rfl := List.mem_singleton.mp new
      exact Transfer.place_slot accepted
  case known =>
    intro id u found
    rw [transfers] at found
    rcases lookup_insert found with ⟨rfl, rfl⟩ | ⟨different, old⟩
    · exact same.1
    · rcases target?_transfers target different old with earlier | ⟨known, -⟩
      · exact tallied.known earlier
      · exact known
  case sums =>
    intro id u found phase
    rw [transfers] at found
    rcases lookup_insert found with ⟨rfl, rfl⟩ | ⟨different, old⟩
    · have opened := tallied.target target (Transfer.opened_of_place phase)
      obtain ⟨accepted, after⟩ := opened.place index payload phase
      rw [Judged.acceptedOf_self same.2.2.2.2 accepted, List.map_append]
      exact after
    · rw [Judged.acceptedOf_other (by rw [same.2.2.2.2]; exact different)]
      rcases target?_transfers target different old with earlier | ⟨-, failed⟩
      · exact tallied.sums earlier phase
      · exact absurd (phase.symm.trans failed) (by decide)

theorem Tallied.step (tallied : e.Tallied log) (event : Event) : (e.step event).2.Tallied (e.judges log event) := by
  cases event with
  | reset => exact tallied_new e.window
  | setWindow window => exact ⟨tallied.known, tallied.sums, tallied.slots⟩
  | push index channel segment payload =>
    cases seen : e.visited[index]? with
    | none => exact tallied.push seen channel segment payload
    | some known =>
      rw [judges, if_pos (isVisited_iff.mpr ⟨known, seen⟩), step_push, push_visited seen]
      exact tallied

theorem tallied_run (window : Nat) (events : List Event) :
    (run { window } events).Tallied (judged { window } [] events) := by
  induction events using List.reverseRecOn with
  | nil => exact tallied_new window
  | append_singleton events event ih =>
    rw [run_concat, judged_concat]
    exact ih.step event

/-! ### The verdict -/

/-- The message has failed and nothing is stored of it any more. -/
structure Dropped (e : Engine) (id : MessageId) : Prop where
  failed : ∃ t, e.transfer? id = some t ∧ t.phase = .errored
  pending : e.fragments.pending[id]? = none

/-- What becomes of a frame of an open message of which `count` accepted frames came under the same number, and
whose highest accepted fragment is `highest`. -/
structure Judgement (e : Engine) (t : Transfer) (index : FrameIndex) (number : UInt8) (length count highest : Nat)
    (fed : Except Fault Outcome × Engine) (p : Placement) : Prop where
  placement : fed.2.placement? index = some p
  message : p.message = t.id
  overflow : 255 ≤ count →
    p.verdict = .overflow ∧ fed.1 = .error (.fragmentOverflow t.id number) ∧ fed.2.Dropped t.id
  fragment : count < 255 → p.fragment = number.toNat % 16 + 16 * count
  rejected : count < 255 → highest + e.window < p.fragment →
    p.verdict = .rejected ∧ fed.1 = .ok (.errored p) ∧ fed.2.Dropped t.id
  accepted : count < 255 → p.fragment ≤ highest + e.window →
    p.verdict = .accepted ∧
      (fed.1 = .ok (.buffered p) ∨ fed.1 = .ok (.incomplete p) ∨
        ∃ bytes, fed.1 = .ok (.completed p bytes t.declared)) ∧
      ∃ t', fed.2.transfer? t.id = some t' ∧ t'.highest = max highest p.fragment ∧
        t'.accumulated = min (t.accumulated + length) t.declared

theorem dropped_record {t' : Transfer} (same : t'.id = id) (failed : t'.phase = .errored) (e : Engine)
    (index : FrameIndex) (p : Placement) : ((e.record index t' p).drop id).Dropped id := by
  subst same
  exact ⟨⟨t', Std.TreeMap.getElem?_insert_self, failed⟩, FragmentStore.discard_pending_self⟩

theorem store_takes (e : Engine) (index : FrameIndex) (t : Transfer) (p : Placement) (payload : Bytes) :
    (e.store index t p payload).1 = .buffered p ∨ (e.store index t p payload).1 = .incomplete p ∨
      ∃ bytes, (e.store index t p payload).1 = .completed p bytes t.declared := by
  rw [store_answer]
  cases (e.fragments.add t.id p.fragment index (payload.take p.length) (!p.last)).1 with
  | some m => exact .inr (.inr ⟨m.payload, rfl⟩)
  | none =>
    cases p.last with
    | true => exact .inr (.inl rfl)
    | false => exact .inl rfl

/-- The engine decides on the next frame of a message by the pieces that the message has taken in. -/
def Decides (e : Engine) (c : Course) (index : FrameIndex) (number : UInt8) (payload : Bytes) : Prop :=
  ∃ p, Judgement e c.transfer index number payload.length (Piece.rounds c.taken (number.toNat % 16))
    (Piece.highest c.taken) (e.feed index c.transfer number payload) p

section

variable {c : Course} {number : UInt8}

theorem decides_overflow (opened : c.Open)
    (worn : Piece.rounds c.taken (number.toNat % 16) = Transfer.roundLimit) (e : Engine) (index : FrameIndex)
    (payload : Bytes) :
    e.Decides c index number payload := by
  have full : ¬Piece.rounds c.taken (number.toNat % 16) < 255 := by
    rw [worn]
    decide
  have fed : e.feed index c.transfer number payload =
      let p := c.transfer.unplaced (number.toNat % 16 + 16 * (Transfer.roundLimit + 1)) payload.length .overflow
      (.error (.fragmentOverflow c.transfer.id number),
        (e.record index c.transfer.fail p).drop c.transfer.id) := by
    rw [feed, Transfer.place_opened opened.phase opened.counts, if_pos worn]
    rfl
  rw [Decides, fed]
  refine ⟨c.transfer.unplaced (number.toNat % 16 + 16 * (Transfer.roundLimit + 1)) payload.length .overflow,
    ?placement, rfl, fun _ => ⟨rfl, rfl, dropped_record rfl rfl e index _⟩, fun free => absurd free full,
    fun free => absurd free full, fun free => absurd free full⟩
  simp [placement?, drop, record]

theorem decides_rejected (opened : c.Open)
    (free : Piece.rounds c.taken (number.toNat % 16) ≠ Transfer.roundLimit) (e : Engine)
    (ahead : Piece.highest c.taken + e.window < Transfer.nextFragment c.taken number) (index : FrameIndex)
    (payload : Bytes) :
    e.Decides c index number payload := by
  have fed : e.feed index c.transfer number payload =
      let p := c.transfer.unplaced (Transfer.nextFragment c.taken number) payload.length .rejected
      (.ok (.errored p), (e.record index (c.transfer.countRound number).fail p).drop c.transfer.id) := by
    rw [feed, Transfer.place_opened opened.phase opened.counts, if_neg free, if_pos ahead]
    rfl
  rw [Decides, fed]
  refine ⟨_, ?placement, rfl, ?overflow, fun _ => rfl,
    fun _ _ => ⟨rfl, rfl, dropped_record rfl rfl e index _⟩, ?near⟩
  case placement => simp [placement?, drop, record]
  case overflow =>
    intro worn
    exact absurd (Nat.le_antisymm (opened.counts.limit (Transfer.slot number)) worn) free
  case near =>
    intro _ near
    exact absurd ahead (Nat.not_lt.mpr near)

theorem decides_accepted (opened : c.Open)
    (free : Piece.rounds c.taken (number.toNat % 16) ≠ Transfer.roundLimit) (e : Engine)
    (near : Transfer.nextFragment c.taken number ≤ Piece.highest c.taken + e.window) (index : FrameIndex)
    (payload : Bytes) :
    e.Decides c index number payload := by
  obtain ⟨transfers, visited, -⟩ := feed_frame e index c.transfer number payload
  rw [Course.place_accepted opened free near] at transfers visited
  refine ⟨c.placement number payload.length, ?placement, rfl, ?overflow, fun _ => rfl, ?ahead, ?accepted⟩
  case placement =>
    rw [placement?, visited, Std.TreeMap.getElem?_insert_self]
    rfl
  case overflow =>
    intro worn
    exact absurd (Nat.le_antisymm (opened.counts.limit (Transfer.slot number)) worn) free
  case ahead =>
    intro _ ahead
    exact absurd ahead (Nat.not_lt.mpr near)
  case accepted =>
    intro _ _
    have takes := store_takes (e.record index (c.advance number payload.length) (c.placement number payload.length))
      index (c.advance number payload.length) (c.placement number payload.length) payload
    refine ⟨rfl, ?_, c.advance number payload.length, ?_, ?_, ?_⟩
    · rw [feed_accepted opened free near]
      rcases takes with buffered | incomplete | ⟨bytes, completed⟩
      · exact .inl (congrArg Except.ok buffered)
      · exact .inr (.inl (congrArg Except.ok incomplete))
      · exact .inr (.inr ⟨bytes, congrArg Except.ok completed⟩)
    · rw [transfer?, transfers, Std.TreeMap.getElem?_insert_self]
    · rw [← opened.counts.highest]
      rfl
    · have room := opened.accumulated_le
      rw [Course.advance_accumulated opened]
      simp only [Course.placement]
      omega

theorem decides (opened : c.Open) (e : Engine) (index : FrameIndex) (number : UInt8) (payload : Bytes) :
    e.Decides c index number payload := by
  by_cases worn : Piece.rounds c.taken (number.toNat % 16) = Transfer.roundLimit
  · exact decides_overflow opened worn e index payload
  · rcases Nat.lt_or_ge (Piece.highest c.taken + e.window) (Transfer.nextFragment c.taken number) with ahead | near
    · exact decides_rejected opened worn e ahead index payload
    · exact decides_accepted opened worn e near index payload

end

/-- The verdict on a consecutive frame of an open message is told by the frames that the message accepted before: by
how many of them came under its number, and by the highest fragment among them. -/
theorem verdict_from_history (window : Nat) (events : List Event) {index : FrameIndex} {channel : Channel}
    {number : UInt8} (payload : Bytes) {t : Transfer} (fresh : (run { window } events).isVisited index = false)
    (bound : (run { window } events).bound? channel = some t) (opened : t.phase = .opened) :
    let e := run { window } events
    let past := Judged.acceptedOf t.id (judged { window } [] events)
    ∃ p, Judgement e t index number payload.length (Judged.count past number) (Judged.highest past)
        (e.push index channel (.consecutive number) payload) p ∧
      (Judged.count past number < 255 → ∀ x ∈ past, x.place.fragment ≠ p.fragment) := by
  intro e past
  have tallied := tallied_run window events
  have target : e.target? index channel (.consecutive number) = (some t, e) := Prod.ext bound rfl
  have sums : Course.Open { transfer := t, taken := past.map Judged.piece } := tallied.target target opened
  have count : Piece.rounds (past.map Judged.piece) (number.toNat % 16) = Judged.count past number := by
    apply Judged.rounds_piece
    intro x member
    obtain ⟨told, accepted⟩ := Judged.mem_acceptedOf member
    exact tallied.slots x told accepted
  obtain ⟨p, judgement⟩ := decides sums e index number payload
  rw [count, Judged.highest_piece] at judgement
  rw [push_target (isVisited_eq_false.mp fresh) target]
  refine ⟨p, judgement, fun free x member same => ?_⟩
  have new := sums.counts.nextFragment_new number x.piece (List.mem_map_of_mem member)
  rw [Transfer.nextFragment, count, ← judgement.fragment free] at new
  exact new same

/-- The number zero came with the first frame, so it stands for fragment 16 now. The highest fragment is 3: a window
of 13 lets the frame in, and one of 12 does not. -/
theorem verdict_from_history_window :
    let channel : Channel := { medium := .can, id := 7 }
    let events (window : Nat) : List Event :=
      [.push 0 channel (.first 30) [1, 2, 3, 4], .push 1 channel (.consecutive 1) [5, 6],
        .push 1 channel (.consecutive 9) [7], .push 2 channel (.consecutive 3) [8, 9], .setWindow window]
    let t : Transfer :=
      { id := 1, channel, firstFrame := 0, declared := 30, accumulated := 8, highest := 3
        rounds := #v[1, 1, 0, 1, 0, 0, 0, 0, 0, 0, 0, 0, 0, 0, 0, 0] }
    (∃ p, Judgement (run { window := 4 } (events 13)) t 3 0 2 1 3
        ((run { window := 4 } (events 13)).push 3 channel (.consecutive 0) [10, 11]) p ∧
      p.fragment = 16 ∧ p.verdict = .accepted) ∧
    ∃ p, Judgement (run { window := 4 } (events 12)) t 3 0 2 1 3
        ((run { window := 4 } (events 12)).push 3 channel (.consecutive 0) [10, 11]) p ∧
      p.fragment = 16 ∧ p.verdict = .rejected := by
  intro channel events t
  have past (window : Nat) (known : window = 12 ∨ window = 13) :
      Judged.count (Judged.acceptedOf 1 (judged { window := 4 } [] (events window))) 0 = 1 ∧
        Judged.highest (Judged.acceptedOf 1 (judged { window := 4 } [] (events window))) = 3 := by
    rcases known with rfl | rfl <;> decide +kernel
  have window (wide : Nat) : (run { window := 4 } (events wide)).window = wide := rfl
  constructor
  · obtain ⟨p, taken, -⟩ := @verdict_from_history 4 (events 13) 3 channel 0 [10, 11] t (by decide +kernel)
      (by decide +kernel) rfl
    rw [(past 13 (.inr rfl)).1, (past 13 (.inr rfl)).2] at taken
    have place : p.fragment = 16 := taken.fragment (by decide)
    refine ⟨p, taken, place, (taken.accepted (by decide) ?_).1⟩
    rw [place, window]
  · obtain ⟨q, refused, -⟩ := @verdict_from_history 4 (events 12) 3 channel 0 [10, 11] t (by decide +kernel)
      (by decide +kernel) rfl
    rw [(past 12 (.inl rfl)).1, (past 12 (.inl rfl)).2] at refused
    have place : q.fragment = 16 := refused.fragment (by decide)
    refine ⟨q, refused, place, (refused.rejected (by decide) ?_).1⟩
    rw [place, window]
    decide

end Engine

end IsoTransport

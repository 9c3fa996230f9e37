import IsoTransport.Proofs.Assembly.Course

/-!
Feeding a message in the engine and feeding it alone come to the same (`feed_agrees`); nothing that
belongs to another message is touched.
-/

namespace IsoTransport

inductive Kept (c : Course) : Option Pending → Option Rebuilt → Prop where
  | opened {pending : Option Pending} (opened : c.Open)
      (stored : pending.getD {} = { pieces := Piece.gather c.taken }) : Kept c pending none
  | incomplete {before : List Piece} {x : Piece} (phase : c.transfer.phase = .complete)
      (counts : c.transfer.Counts c.taken) (full : c.transfer.accumulated = c.transfer.declared)
      (last : c.taken = before ++ [x]) (hole : ¬(Piece.closed c.taken x).isComplete) :
      Kept c (some (Piece.closed c.taken x)) none
  | rebuilt {before : List Piece} {x : Piece} (phase : c.transfer.phase = .complete)
      (counts : c.transfer.Counts c.taken) (full : c.transfer.accumulated = c.transfer.declared)
      (last : c.taken = before ++ [x]) (whole : (Piece.closed c.taken x).isComplete) :
      Kept c none (some (Piece.rebuild c.taken x))
  | errored (phase : c.transfer.phase = .errored) : Kept c none none

theorem Kept.of_opened {c : Course} {pending : Option Pending} {rebuilt : Option Rebuilt}
    (kept : Kept c pending rebuilt) (phase : c.transfer.phase = .opened) :
    c.Open ∧ pending.getD {} = { pieces := Piece.gather c.taken } ∧ rebuilt = none := by
  cases kept with
  | opened opened stored => exact ⟨opened, stored, rfl⟩
  | incomplete complete => exact absurd (phase.symm.trans complete) (by decide)
  | rebuilt complete => exact absurd (phase.symm.trans complete) (by decide)
  | errored errored => exact absurd (phase.symm.trans errored) (by decide)

namespace Engine

/-! ### What feeding leaves alone -/

section

variable (e : Engine) (index : FrameIndex) (t : Transfer) (number : UInt8) (payload : Bytes)

theorem store_frame (p : Placement) :
    let e' := (e.store index t p payload).2
    e'.transfers = e.transfers ∧ e'.visited = e.visited ∧ e'.window = e.window ∧
      e'.nextId = e.nextId := by
  unfold store unbind
  dsimp only
  repeat' split
  all_goals exact ⟨rfl, rfl, rfl, rfl⟩

theorem store_fragments (p : Placement) :
    (e.store index t p payload).2.fragments =
      (e.fragments.add t.id p.fragment index (payload.take p.length) (!p.last)).2 := by
  unfold store unbind
  dsimp only
  repeat' split
  all_goals rfl

theorem store_answer (p : Placement) :
    (e.store index t p payload).1 =
      match (e.fragments.add t.id p.fragment index (payload.take p.length) (!p.last)).1 with
      | some m => .completed p m.payload t.declared
      | none => if p.last then .incomplete p else .buffered p := by
  have fragments : (if p.last then e.unbind t.channel t.id else e).fragments = e.fragments := by
    unfold unbind
    repeat' split
    all_goals rfl
  unfold store
  dsimp only
  rw [fragments]
  cases (e.fragments.add t.id p.fragment index (payload.take p.length) (!p.last)).1 <;> rfl

theorem feed_frame :
    let placed := t.place e.window number payload.length
    let e' := (e.feed index t number payload).2
    e'.transfers = e.transfers.insert t.id placed.2 ∧
      e'.visited = e.visited.insert index (some placed.1) ∧ e'.window = e.window ∧ e'.nextId = e.nextId := by
  have same := (Course.place_same t e.window number payload.length).1
  rw [← same]
  unfold feed
  dsimp only
  split
  case h_4 => exact store_frame _ _ _ _ _
  all_goals exact ⟨rfl, rfl, rfl, rfl⟩

theorem feed_fragments_other {other : MessageId} (different : t.id ≠ other) :
    let e' := (e.feed index t number payload).2
    e'.fragments.pending[other]? = e.fragments.pending[other]? ∧
      e'.fragments.rebuilt[other]? = e.fragments.rebuilt[other]? := by
  have apart : (t.place e.window number payload.length).2.id ≠ other := by
    rw [(Course.place_same t e.window number payload.length).1]
    exact different
  unfold feed
  dsimp only
  split
  · exact ⟨rfl, rfl⟩
  · exact ⟨FragmentStore.discard_pending_other apart, rfl⟩
  · exact ⟨FragmentStore.discard_pending_other apart, rfl⟩
  · rw [store_fragments]
    exact ⟨FragmentStore.add_pending_other apart .., FragmentStore.add_rebuilt_other apart ..⟩

end

/-! ### What feeding does to the message -/

section

variable {e : Engine} {c : Course}

theorem feed_errored (phase : c.transfer.phase = .errored) (index : FrameIndex) (number : UInt8)
    (payload : Bytes) :
    e.feed index c.transfer number payload =
      (.ok (.discarded (c.transfer.unplaced number.toNat payload.length .ignored)),
        e.record index c.transfer (c.transfer.unplaced number.toNat payload.length .ignored)) := by
  rw [feed, Transfer.place_errored phase]
  rfl

/-- What the store needs to know of a message before it takes in a piece. -/
structure Storing (e : Engine) (c : Course) : Prop where
  bound : e.bindings[c.transfer.channel]? = some c.transfer.id
  absent : e.fragments.rebuilt[c.transfer.id]? = none
  stored : e.fragments.pending[c.transfer.id]?.getD {} = { pieces := Piece.gather c.taken }

theorem store_more (storing : Storing e c) {t : Transfer} (id : t.id = c.transfer.id)
    (index : FrameIndex) {p : Placement} (goes : p.last = false) (payload : Bytes) :
    e.store index t p payload =
      (.buffered p,
        { e with
          fragments.pending := e.fragments.pending.insert c.transfer.id
            { pieces := Piece.gather (c.taken ++ [p.piece index payload]) } }) := by
  have added := FragmentStore.add_more (x := p.piece index payload) storing.absent storing.stored
  unfold Placement.piece at added
  rw [store, goes, id]
  simp only [Bool.false_eq_true, if_false, Bool.not_false]
  rw [added]
  rfl

theorem store_last (storing : Storing e c) {t : Transfer} (id : t.id = c.transfer.id)
    (channel : t.channel = c.transfer.channel) (index : FrameIndex) {p : Placement}
    (closes : p.last = true) (payload : Bytes) :
    let x := p.piece index payload
    e.store index t p payload =
      if (Piece.closed (c.taken ++ [x]) x).isComplete then
        (.completed p (Piece.closed (c.taken ++ [x]) x).payload t.declared,
          { e with
            bindings := e.bindings.erase c.transfer.channel
            fragments :=
              { pending := e.fragments.pending.erase c.transfer.id
                rebuilt :=
                  e.fragments.rebuilt.insert c.transfer.id (Piece.rebuild (c.taken ++ [x]) x) } })
      else
        (.incomplete p,
          { e with
            bindings := e.bindings.erase c.transfer.channel
            fragments.pending :=
              e.fragments.pending.insert c.transfer.id (Piece.closed (c.taken ++ [x]) x) }) := by
  intro x
  have added := FragmentStore.add_last (x := x) storing.absent storing.stored
  rw [store, closes, id, channel]
  simp only [if_true, Bool.not_true, unbind, if_pos storing.bound]
  rw [show e.fragments.add c.transfer.id p.fragment index (payload.take p.length) false = _ from added]
  by_cases whole : (Piece.closed (c.taken ++ [x]) x).isComplete = true
  · rw [if_pos whole, if_pos whole]
    rfl
  · rw [if_neg whole, if_neg whole]

theorem feed_accepted (opened : c.Open) {number : UInt8}
    (free : Piece.rounds c.taken (number.toNat % 16) ≠ Transfer.roundLimit)
    (near : Transfer.nextFragment c.taken number ≤ Piece.highest c.taken + e.window)
    (index : FrameIndex) (payload : Bytes) :
    e.feed index c.transfer number payload =
      let p := c.placement number payload.length
      let t := c.advance number payload.length
      let (outcome, e') := (e.record index t p).store index t p payload
      (.ok outcome, e') := by
  rw [feed, Course.place_accepted opened free near]
  rfl

theorem kept_failed {t : Transfer} (phase : t.phase = .errored) (taken : List Piece)
    {s : FragmentStore} {id : MessageId} (absent : s.rebuilt[id]? = none) :
    Kept { transfer := t, taken } (s.discard id).pending[id]? (s.discard id).rebuilt[id]? := by
  rw [FragmentStore.discard_pending_self, FragmentStore.discard_rebuilt, absent]
  exact .errored phase

/-- The engine answers as the message alone does, unbinds it when it is complete, and stores what it has
taken in. -/
structure Agrees (e : Engine) (c : Course) (fed : Except Fault Outcome × Engine)
    (alone : Except Fault Outcome × Course) : Prop where
  answer : fed.1 = alone.1
  bindings : fed.2.bindings =
    if alone.2.transfer.phase = .complete then e.bindings.erase c.transfer.channel else e.bindings
  kept : Kept alone.2 fed.2.fragments.pending[c.transfer.id]? fed.2.fragments.rebuilt[c.transfer.id]?

theorem agrees_errored (phase : c.transfer.phase = .errored)
    (kept : Kept c e.fragments.pending[c.transfer.id]? e.fragments.rebuilt[c.transfer.id]?)
    (index : FrameIndex) (number : UInt8) (payload : Bytes) :
    Agrees e c (e.feed index c.transfer number payload) (c.feed e.window index number payload) := by
  have alone : c.feed e.window index number payload =
      (.ok (.discarded (c.transfer.unplaced number.toNat payload.length .ignored)), c) := by
    rw [Course.feed, Transfer.place_errored phase]
    rfl
  rw [feed_errored phase, alone]
  exact ⟨rfl, by simp [phase, record], kept⟩

theorem agrees_overflow (opened : c.Open) (absent : e.fragments.rebuilt[c.transfer.id]? = none)
    {number : UInt8} (worn : Piece.rounds c.taken (number.toNat % 16) = Transfer.roundLimit)
    (index : FrameIndex) (payload : Bytes) :
    Agrees e c (e.feed index c.transfer number payload) (c.feed e.window index number payload) := by
  rw [Course.feed_overflow opened worn, feed, Transfer.place_opened opened.phase opened.counts,
    if_pos worn]
  exact ⟨rfl, by simp [Transfer.fail, drop, record, Transfer.unplaced], kept_failed rfl _ absent⟩

theorem agrees_rejected (opened : c.Open) (absent : e.fragments.rebuilt[c.transfer.id]? = none)
    {number : UInt8} (free : Piece.rounds c.taken (number.toNat % 16) ≠ Transfer.roundLimit)
    (ahead : Piece.highest c.taken + e.window < Transfer.nextFragment c.taken number)
    (index : FrameIndex) (payload : Bytes) :
    Agrees e c (e.feed index c.transfer number payload) (c.feed e.window index number payload) := by
  rw [Course.feed_rejected opened free ahead, feed,
    Transfer.place_opened opened.phase opened.counts, if_neg free, if_pos ahead]
  exact ⟨rfl, by simp [Transfer.fail, drop, record, Transfer.unplaced], kept_failed rfl _ absent⟩

theorem agrees_accepted (opened : c.Open) (storing : Storing e c) {number : UInt8}
    (free : Piece.rounds c.taken (number.toNat % 16) ≠ Transfer.roundLimit)
    (near : Transfer.nextFragment c.taken number ≤ Piece.highest c.taken + e.window)
    (index : FrameIndex) (payload : Bytes) :
    Agrees e c (e.feed index c.transfer number payload) (c.feed e.window index number payload) := by
  obtain ⟨id, channel, declared⟩ := c.advance_same number payload.length
  have recorded : Storing (e.record index (c.advance number payload.length)
      (c.placement number payload.length)) c := ⟨storing.bound, storing.absent, storing.stored⟩
  rw [feed_accepted opened free near, Course.feed_accepted opened free near]
  cases closes : (c.placement number payload.length).last with
  | false =>
    have next := Course.advance_open opened free index payload closes
    have phase : (c.advance number payload.length).phase = .opened := next.phase
    dsimp only
    rw [store_more recorded id index closes]
    refine ⟨by simp [Course.accepted, closes], by simp [phase, record], ?_⟩
    simp only [record, Std.TreeMap.getElem?_insert_self, storing.absent]
    exact .opened next rfl
  | true =>
    obtain ⟨phase, full⟩ := Course.advance_full opened closes
    have counts := Course.advance_counts opened free index payload
    dsimp only
    rw [store_last recorded id channel index closes]
    simp only [Course.accepted, closes, if_true]
    generalize (c.placement number payload.length).piece index payload = x at counts ⊢
    by_cases whole : (Piece.closed (c.taken ++ [x]) x).isComplete = true
    · simp only [if_pos whole, record]
      refine ⟨by rw [declared], by simp [phase], ?_⟩
      simp only [Std.TreeMap.getElem?_insert_self, Std.TreeMap.getElem?_erase_self]
      exact .rebuilt phase counts full rfl whole
    · simp only [if_neg whole, record]
      refine ⟨rfl, by simp [phase], ?_⟩
      simp only [Std.TreeMap.getElem?_insert_self, storing.absent]
      exact .incomplete phase counts full rfl whole

theorem feed_agrees (unfinished : c.transfer.phase ≠ .complete)
    (bound : e.bindings[c.transfer.channel]? = some c.transfer.id)
    (kept : Kept c e.fragments.pending[c.transfer.id]? e.fragments.rebuilt[c.transfer.id]?)
    (index : FrameIndex) (number : UInt8) (payload : Bytes) :
    Agrees e c (e.feed index c.transfer number payload) (c.feed e.window index number payload) := by
  cases phase : c.transfer.phase with
  | complete => exact absurd phase unfinished
  | errored => exact agrees_errored phase kept index number payload
  | opened =>
    obtain ⟨opened, stored, absent⟩ := kept.of_opened phase
    by_cases worn : Piece.rounds c.taken (number.toNat % 16) = Transfer.roundLimit
    · exact agrees_overflow opened absent worn index payload
    · rcases Nat.lt_or_ge (Piece.highest c.taken + e.window) (Transfer.nextFragment c.taken number) with
        ahead | near
      · exact agrees_rejected opened absent worn ahead index payload
      · exact agrees_accepted opened ⟨bound, absent, stored⟩ worn near index payload

end

end Engine

end IsoTransport

import IsoTransport.Proofs.Assembly.Pieces

/-!
What the fragment store does with the pieces of one message, and that it leaves other messages alone.
-/

namespace IsoTransport

theorem lookup_insert {α β : Type} [Ord α] [Std.TransOrd α] [Std.LawfulEqOrd α]
    {entries : Std.TreeMap α β} {key other : α} {new value : β}
    (found : (entries.insert key new)[other]? = some value) :
    (key = other ∧ new = value) ∨ (key ≠ other ∧ entries[other]? = some value) := by
  rw [Std.TreeMap.getElem?_insert] at found
  split at found
  · rename_i here
    exact .inl ⟨Std.LawfulEqCmp.compare_eq_iff_eq.mp here, Option.some.inj found⟩
  · rename_i apart
    exact .inr ⟨fun same => apart (Std.LawfulEqCmp.compare_eq_iff_eq.mpr same), found⟩

def Piece.rebuild (taken : List Piece) (x : Piece) : Rebuilt where
  payload := (closed taken x).payload
  frame := x.frame
  count := (closed taken x).pieces.size

namespace FragmentStore

variable {s : FragmentStore} {id other : MessageId} {taken : List Piece} {x : Piece}

theorem add_pending_other (different : id ≠ other) (number : Nat) (frame : FrameIndex) (data : Bytes)
    (more : Bool) : (s.add id number frame data more).2.pending[other]? = s.pending[other]? := by
  unfold add
  split
  · rfl
  · dsimp only
    split <;> simp [Std.TreeMap.getElem?_erase, Std.TreeMap.getElem?_insert, different]

theorem add_rebuilt_other (different : id ≠ other) (number : Nat) (frame : FrameIndex) (data : Bytes)
    (more : Bool) : (s.add id number frame data more).2.rebuilt[other]? = s.rebuilt[other]? := by
  unfold add
  split
  · rfl
  · dsimp only
    split <;> simp [Std.TreeMap.getElem?_insert, different]

theorem discard_pending_other (different : id ≠ other) :
    (s.discard id).pending[other]? = s.pending[other]? := by
  simp [discard, drop, Std.TreeMap.getElem?_erase, different]

theorem discard_pending_self : (s.discard id).pending[id]? = none := by
  simp [discard, drop]

theorem discard_rebuilt : (s.discard id).rebuilt = s.rebuilt := rfl

theorem insert_gather (more : Bool) :
    Pending.insert { pieces := Piece.gather taken } x.fragment x.bytes more =
      { pieces := Piece.gather (taken ++ [x]), last := if more then none else some x.fragment } := by
  simp [Pending.insert, Piece.gather_concat]

theorem add_absent (absent : s.rebuilt[id]? = none) (number : Nat) (frame : FrameIndex) (data : Bytes)
    (more : Bool) :
    s.add id number frame data more =
      let p := (s.pending[id]?.getD {}).insert number data more
      if p.isComplete then
        (some { payload := p.payload, frame, count := p.pieces.size },
          { pending := s.pending.erase id
            rebuilt := s.rebuilt.insert id { payload := p.payload, frame, count := p.pieces.size } })
      else (none, { s with pending := s.pending.insert id p }) := by
  have unknown : ¬s.rebuilt.contains id = true := by simp [Std.TreeMap.contains_eq_isSome_getElem?, absent]
  rw [add, if_neg unknown, Std.TreeMap.getD_eq_getD_getElem?]

theorem add_eq (absent : s.rebuilt[id]? = none)
    (stored : s.pending[id]?.getD {} = { pieces := Piece.gather taken }) (more : Bool) :
    s.add id x.fragment x.frame x.bytes more =
      let p : Pending :=
        { pieces := Piece.gather (taken ++ [x]), last := if more then none else some x.fragment }
      if p.isComplete then
        (some { payload := p.payload, frame := x.frame, count := p.pieces.size },
          { pending := s.pending.erase id
            rebuilt := s.rebuilt.insert id
              { payload := p.payload, frame := x.frame, count := p.pieces.size } })
      else (none, { s with pending := s.pending.insert id p }) := by
  rw [add_absent absent, stored, insert_gather]

theorem add_more (absent : s.rebuilt[id]? = none)
    (stored : s.pending[id]?.getD {} = { pieces := Piece.gather taken }) :
    s.add id x.fragment x.frame x.bytes true =
      (none, { s with pending := s.pending.insert id { pieces := Piece.gather (taken ++ [x]) } }) := by
  rw [add_eq absent stored]
  rfl

/-- The piece that closes its message brings the message forth if no fragment before it is missing. -/
theorem add_last (absent : s.rebuilt[id]? = none)
    (stored : s.pending[id]?.getD {} = { pieces := Piece.gather taken }) :
    s.add id x.fragment x.frame x.bytes false =
      if (Piece.closed (taken ++ [x]) x).isComplete then
        (some (Piece.rebuild (taken ++ [x]) x),
          { pending := s.pending.erase id
            rebuilt := s.rebuilt.insert id (Piece.rebuild (taken ++ [x]) x) })
      else (none, { s with pending := s.pending.insert id (Piece.closed (taken ++ [x]) x) }) := by
  rw [add_eq absent stored]
  rfl

/-! ### What is answered -/

variable {number : Nat} {frame : FrameIndex} {data : Bytes} {more : Bool} {m : Rebuilt}

theorem add_known (found : s.rebuilt[id]? = some m) : s.add id number frame data more = (none, s) := by
  have known : s.rebuilt.contains id = true := by
    rw [Std.TreeMap.contains_eq_isSome_getElem?, found]
    rfl
  rw [add, if_pos known]

theorem add_rebuilt_self :
    (s.add id number frame data more).2.rebuilt[id]? =
      (s.add id number frame data more).1.or s.rebuilt[id]? := by
  unfold add
  split
  · rfl
  · dsimp only
    split <;> simp

theorem add_fst_absent (added : (s.add id number frame data more).1 = some m) :
    s.rebuilt[id]? = none := by
  cases known : s.rebuilt[id]? with
  | none => rfl
  | some m' =>
    rw [add_known known] at added
    cases added

theorem add_fst_some (added : (s.add id number frame data more).1 = some m) :
    m.frame = frame ∧ (s.add id number frame data more).2.rebuilt[id]? = some m := by
  constructor
  · rw [add_absent (add_fst_absent added)] at added
    dsimp only at added
    split at added
    · obtain rfl := Option.some.inj added
      rfl
    · cases added
  · rw [add_rebuilt_self, added, Option.some_or]

end FragmentStore

end IsoTransport

import IsoTransport.Assembly.Transfer
import IsoTransport.Proofs.Assembly.Pieces

/-!
What a transfer knows of the pieces it has taken in: how often each number has come round, the highest
fragment, and the number of bytes. `place_opened` tells the place of the next fragment by these.
-/

namespace IsoTransport.Transfer

/-- The transfer sums up the pieces taken in so far. -/
structure Counts (t : Transfer) (taken : List Piece) : Prop where
  rounds (s : Fin 16) : t.rounds[s] = Piece.rounds taken s
  limit (s : Fin 16) : Piece.rounds taken s ≤ roundLimit
  /-- Of each number the fragments came in their order, with none left out. -/
  below : ∀ x ∈ taken, x.fragment / 16 < Piece.rounds taken (x.fragment % 16)
  distinct : (taken.map (·.fragment)).Nodup
  highest : t.highest = Piece.highest taken
  accumulated : t.accumulated = (Piece.bytesOf taken).length

def nextFragment (taken : List Piece) (number : UInt8) : Nat :=
  number.toNat % 16 + 16 * Piece.rounds taken (number.toNat % 16)

theorem counts_new (id : MessageId) (channel : Channel) (firstFrame : FrameIndex) (declared : Nat) :
    Counts { id, channel, firstFrame, declared } [] where
  rounds s := by simp [Piece.rounds]
  limit s := by simp [Piece.rounds]
  below := by simp
  distinct := List.nodup_nil
  highest := rfl
  accumulated := rfl

theorem Counts.nextFragment_new {t : Transfer} {taken : List Piece} (counts : t.Counts taken)
    (number : UInt8) : ∀ x ∈ taken, x.fragment ≠ nextFragment taken number := by
  intro x member same
  have below := counts.below x member
  have slot : x.fragment % 16 = number.toNat % 16 := by
    rw [same, nextFragment]
    omega
  rw [slot] at below
  unfold nextFragment at same
  omega

/-! ### Placing -/

theorem place_errored {t : Transfer} (phase : t.phase = .errored) (window : Nat) (number : UInt8)
    (length : Nat) :
    t.place window number length = (t.unplaced number.toNat length .ignored, t) := by
  simp [place, phase]

theorem expand_eq {t : Transfer} {taken : List Piece} (counts : t.Counts taken) (number : UInt8) :
    t.expand number = nextFragment taken number := by
  rw [expand, counts.rounds]
  rfl

/-- The verdict on a fragment of an open message hangs on what has been taken in and on the window. -/
theorem place_opened {t : Transfer} {taken : List Piece} (phase : t.phase = .opened)
    (counts : t.Counts taken) (window : Nat) (number : UInt8) (length : Nat) :
    t.place window number length =
      if Piece.rounds taken (number.toNat % 16) = roundLimit then
        (t.unplaced (number.toNat % 16 + 16 * (roundLimit + 1)) length .overflow, t.fail)
      else if Piece.highest taken + window < nextFragment taken number then
        (t.unplaced (nextFragment taken number) length .rejected, (t.countRound number).fail)
      else (t.countRound number).accept (nextFragment taken number) length := by
  have notErrored : ¬t.phase = .errored := by simp [phase]
  have round : t.rounds[slot number] = Piece.rounds taken (number.toNat % 16) := counts.rounds _
  rw [place, if_neg notErrored, round, expand_eq counts]
  simp only [countRound, counts.highest]
  rfl

theorem place_of_accepted {t : Transfer} {taken : List Piece} (phase : t.phase = .opened) (counts : t.Counts taken)
    {window length : Nat} {number : UInt8} (accepted : (t.place window number length).1.verdict = .accepted) :
    Piece.rounds taken (number.toNat % 16) ≠ roundLimit ∧
      nextFragment taken number ≤ Piece.highest taken + window ∧
      (t.place window number length).1.fragment = nextFragment taken number := by
  rw [place_opened phase counts] at accepted ⊢
  split at accepted
  · exact absurd accepted (by simp [unplaced])
  rename_i free
  split at accepted
  · exact absurd accepted (by simp [unplaced])
  rename_i near
  rw [if_neg free, if_neg near]
  exact ⟨free, Nat.not_lt.mp near, rfl⟩

/-- A fragment gives what is still needed of the declared length, and closes the message if it has
that much. -/
theorem accept_fst {t : Transfer} (room : t.accumulated ≤ t.declared) (fragment length : Nat) :
    (t.accept fragment length).1 =
      { message := t.id
        fragment
        length := min length (t.declared - t.accumulated)
        last := t.declared ≤ t.accumulated + length
        verdict := .accepted } := by
  simp only [accept, Placement.mk.injEq, true_and, and_true, decide_eq_true_eq]
  split <;> omega

theorem accept_snd_phase (t : Transfer) (fragment length : Nat) :
    (t.accept fragment length).2.phase =
      if t.declared ≤ t.accumulated + length then .complete else t.phase := by
  simp [accept]

theorem accept_snd_accumulated {t : Transfer} (room : t.accumulated ≤ t.declared)
    (fragment length : Nat) :
    (t.accept fragment length).2.accumulated =
      t.accumulated + min length (t.declared - t.accumulated) := by
  simp only [accept, decide_eq_true_eq]
  split <;> omega

theorem Counts.accept {t : Transfer} {taken : List Piece} (counts : t.Counts taken)
    (room : t.accumulated ≤ t.declared) {number : UInt8}
    (free : Piece.rounds taken (number.toNat % 16) ≠ roundLimit) (frame : FrameIndex) (bytes : Bytes) :
    let p := ((t.countRound number).accept (nextFragment taken number) bytes.length).1
    ((t.countRound number).accept (nextFragment taken number) bytes.length).2.Counts
      (taken ++ [⟨frame, p.fragment, bytes.take p.length⟩]) := by
  have placed := accept_fst (t := t.countRound number) room (nextFragment taken number) bytes.length
  have residue : nextFragment taken number % 16 = number.toNat % 16 := by
    unfold nextFragment
    omega
  rw [placed]
  refine { rounds := fun s => ?rounds, limit := fun s => ?limit, below := ?below,
           distinct := ?distinct, highest := ?highest, accumulated := ?accumulated }
  case rounds =>
    have other : (slot number : Nat) ≠ s ↔ slot number ≠ s := by simp [Fin.ext_iff]
    rw [Piece.rounds_concat, residue, ← counts.rounds s]
    by_cases here : slot number = s
    · subst here
      simp [Transfer.accept, countRound, slot]
    · have apart : ¬number.toNat % 16 = s := fun same => here (Fin.ext same)
      simp [Transfer.accept, countRound, apart, Vector.getElem_set_ne, other.mpr here]
  case limit =>
    rw [Piece.rounds_concat, residue]
    have limit := counts.limit s
    split
    · rename_i here
      rw [here] at free
      omega
    · omega
  case below =>
    intro x member
    rw [Piece.rounds_concat]
    rcases List.mem_append.mp member with old | new
    · exact Nat.lt_of_lt_of_le (counts.below x old) (Nat.le_add_right _ _)
    · rw [List.mem_singleton.mp new]
      simp only [residue, if_true]
      unfold nextFragment
      omega
  case distinct =>
    rw [List.map_append, List.nodup_append]
    refine ⟨counts.distinct, by simp, ?_⟩
    intro k old k' new
    obtain ⟨x, member, rfl⟩ := List.mem_map.mp old
    obtain rfl : k' = nextFragment taken number := by simpa using new
    exact counts.nextFragment_new number x member
  case highest =>
    rw [Piece.highest_concat, ← counts.highest]
    rfl
  case accumulated =>
    rw [Piece.bytesOf_concat, List.length_append, ← counts.accumulated]
    have total := accept_snd_accumulated (t := t.countRound number) room (nextFragment taken number)
      bytes.length
    rw [total]
    simp [countRound]

end IsoTransport.Transfer

import IsoTransport.Assembly.Engine
import IsoTransport.Proofs.Assembly.Counting
import IsoTransport.Proofs.Assembly.Store

/-!
The course of one message, seen by itself: its transfer and the pieces it has taken in. `Course.Open` is
the state in which a message takes in fragments, and `feed_accepted` tells what it does with one.
-/

namespace IsoTransport

def Placement.piece (p : Placement) (index : FrameIndex) (payload : Bytes) : Piece where
  frame := index
  fragment := p.fragment
  bytes := payload.take p.length

structure Course where
  transfer : Transfer
  taken : List Piece := []

namespace Course

def accepted (c : Course) (p : Placement) (x : Piece) : Outcome :=
  if p.last then
    if (Piece.closed (c.taken ++ [x]) x).isComplete then
      .completed p (Piece.closed (c.taken ++ [x]) x).payload c.transfer.declared
    else .incomplete p
  else .buffered p

/-- Feeds a fragment to a message that stands alone. -/
def feed (c : Course) (window : Nat) (index : FrameIndex) (number : UInt8) (payload : Bytes) :
    Except Fault Outcome × Course :=
  let (p, t) := c.transfer.place window number payload.length
  match p.verdict with
  | .ignored => (.ok (.discarded p), { c with transfer := t })
  | .overflow => (.error (.fragmentOverflow t.id number), { c with transfer := t })
  | .rejected => (.ok (.errored p), { c with transfer := t })
  | .accepted =>
    (.ok (c.accepted p (p.piece index payload)),
      { transfer := t, taken := c.taken ++ [p.piece index payload] })

/-- The message is open, and what it has taken in does not make up the declared length. -/
structure Open (c : Course) : Prop where
  phase : c.transfer.phase = .opened
  counts : c.transfer.Counts c.taken
  room : c.taken = [] ∨ c.transfer.accumulated < c.transfer.declared

theorem Open.accumulated_le {c : Course} (opened : c.Open) :
    c.transfer.accumulated ≤ c.transfer.declared := by
  rcases opened.room with nothing | room
  · rw [opened.counts.accumulated, nothing]
    exact Nat.zero_le _
  · exact Nat.le_of_lt room

theorem feed_overflow {c : Course} (opened : c.Open) {number : UInt8}
    (worn : Piece.rounds c.taken (number.toNat % 16) = Transfer.roundLimit) (window : Nat)
    (index : FrameIndex) (payload : Bytes) :
    c.feed window index number payload =
      (.error (.fragmentOverflow c.transfer.id number), { c with transfer := c.transfer.fail }) := by
  rw [feed, Transfer.place_opened opened.phase opened.counts, if_pos worn]
  rfl

theorem feed_rejected {c : Course} (opened : c.Open) {window : Nat} {number : UInt8}
    (free : Piece.rounds c.taken (number.toNat % 16) ≠ Transfer.roundLimit)
    (ahead : Piece.highest c.taken + window < Transfer.nextFragment c.taken number)
    (index : FrameIndex) (payload : Bytes) :
    c.feed window index number payload =
      (.ok (.errored (c.transfer.unplaced (Transfer.nextFragment c.taken number) payload.length .rejected)),
        { c with transfer := (c.transfer.countRound number).fail }) := by
  rw [feed, Transfer.place_opened opened.phase opened.counts, if_neg free, if_pos ahead]
  rfl

def placement (c : Course) (number : UInt8) (length : Nat) : Placement where
  message := c.transfer.id
  fragment := Transfer.nextFragment c.taken number
  length := min length (c.transfer.declared - c.transfer.accumulated)
  last := c.transfer.declared ≤ c.transfer.accumulated + length
  verdict := .accepted

def advance (c : Course) (number : UInt8) (length : Nat) : Transfer :=
  ((c.transfer.countRound number).accept (Transfer.nextFragment c.taken number) length).2

theorem place_accepted {c : Course} (opened : c.Open) {window : Nat} {number : UInt8}
    (free : Piece.rounds c.taken (number.toNat % 16) ≠ Transfer.roundLimit)
    (near : Transfer.nextFragment c.taken number ≤ Piece.highest c.taken + window) (length : Nat) :
    c.transfer.place window number length =
      (c.placement number length, c.advance number length) := by
  rw [Transfer.place_opened opened.phase opened.counts, if_neg free, if_neg (Nat.not_lt.mpr near)]
  exact Prod.ext (Transfer.accept_fst opened.accumulated_le _ _) rfl

theorem feed_accepted {c : Course} (opened : c.Open) {window : Nat} {number : UInt8}
    (free : Piece.rounds c.taken (number.toNat % 16) ≠ Transfer.roundLimit)
    (near : Transfer.nextFragment c.taken number ≤ Piece.highest c.taken + window)
    (index : FrameIndex) (payload : Bytes) :
    let p := c.placement number payload.length
    c.feed window index number payload =
      (.ok (c.accepted p (p.piece index payload)),
        { transfer := c.advance number payload.length, taken := c.taken ++ [p.piece index payload] }) := by
  rw [feed, place_accepted opened free near]
  rfl

theorem advance_counts {c : Course} (opened : c.Open) {number : UInt8}
    (free : Piece.rounds c.taken (number.toNat % 16) ≠ Transfer.roundLimit) (index : FrameIndex)
    (payload : Bytes) :
    (c.advance number payload.length).Counts
      (c.taken ++ [(c.placement number payload.length).piece index payload]) := by
  have counts := opened.counts.accept opened.accumulated_le free index payload
  have room : (c.transfer.countRound number).accumulated ≤ (c.transfer.countRound number).declared :=
    opened.accumulated_le
  rw [Transfer.accept_fst room] at counts
  exact counts

theorem advance_phase {c : Course} (opened : c.Open) (number : UInt8) (length : Nat) :
    (c.advance number length).phase =
      if (c.placement number length).last then .complete else .opened := by
  rw [advance, Transfer.accept_snd_phase, placement]
  simp [Transfer.countRound, opened.phase]

theorem advance_accumulated {c : Course} (opened : c.Open) (number : UInt8) (length : Nat) :
    (c.advance number length).accumulated =
      c.transfer.accumulated + (c.placement number length).length :=
  Transfer.accept_snd_accumulated (t := c.transfer.countRound number) opened.accumulated_le _ _

theorem advance_same (c : Course) (number : UInt8) (length : Nat) :
    (c.advance number length).id = c.transfer.id ∧
      (c.advance number length).channel = c.transfer.channel ∧
      (c.advance number length).declared = c.transfer.declared :=
  ⟨rfl, rfl, rfl⟩

theorem advance_open {c : Course} (opened : c.Open) {number : UInt8}
    (free : Piece.rounds c.taken (number.toNat % 16) ≠ Transfer.roundLimit) (index : FrameIndex)
    (payload : Bytes) (goes : (c.placement number payload.length).last = false) :
    Open
      { transfer := c.advance number payload.length
        taken := c.taken ++ [(c.placement number payload.length).piece index payload] } where
  phase := by rw [advance_phase opened, goes]; rfl
  counts := advance_counts opened free index payload
  room := by
    refine Or.inr ?_
    show (c.advance number payload.length).accumulated < c.transfer.declared
    rw [advance_accumulated opened]
    simp only [placement, decide_eq_false_iff_not] at goes ⊢
    omega

theorem advance_full {c : Course} (opened : c.Open) {number : UInt8} {length : Nat}
    (closes : (c.placement number length).last = true) :
    (c.advance number length).phase = .complete ∧
      (c.advance number length).accumulated = (c.advance number length).declared := by
  have room := opened.accumulated_le
  refine ⟨by rw [advance_phase opened, closes]; rfl, ?_⟩
  show (c.advance number length).accumulated = c.transfer.declared
  rw [advance_accumulated opened]
  simp only [placement, decide_eq_true_eq] at closes ⊢
  omega

theorem place_same (t : Transfer) (window : Nat) (number : UInt8) (length : Nat) :
    (t.place window number length).2.id = t.id ∧ (t.place window number length).2.channel = t.channel ∧
      (t.place window number length).2.firstFrame = t.firstFrame ∧
      (t.place window number length).2.declared = t.declared ∧
      (t.place window number length).1.message = t.id := by
  unfold Transfer.place
  dsimp only
  repeat' split
  all_goals exact ⟨rfl, rfl, rfl, rfl, rfl⟩

theorem opened_of_accepted {t : Transfer} {window length : Nat} {number : UInt8}
    (unfinished : t.phase ≠ .complete)
    (accepted : (t.place window number length).1.verdict = .accepted) : t.phase = .opened := by
  cases phase : t.phase with
  | opened => rfl
  | complete => exact absurd phase unfinished
  | errored =>
    rw [Transfer.place_errored phase] at accepted
    exact absurd accepted (by simp [Transfer.unplaced])

theorem placed_new {c : Course} (opened : c.Open) {window length : Nat} {number : UInt8}
    (accepted : (c.transfer.place window number length).1.verdict = .accepted) :
    ∀ x ∈ c.taken, x.fragment ≠ (c.transfer.place window number length).1.fragment := by
  obtain ⟨-, -, fragment⟩ := Transfer.place_of_accepted opened.phase opened.counts accepted
  rw [fragment]
  exact opened.counts.nextFragment_new number

theorem accepted_of_last {t : Transfer} {window length : Nat} {number : UInt8}
    (last : (t.place window number length).1.last = true) :
    (t.place window number length).1.verdict = .accepted := by
  unfold Transfer.place at last ⊢
  dsimp only at last ⊢
  repeat' split
  all_goals simp_all [Transfer.unplaced, Transfer.accept]

theorem place_of_overflow {t : Transfer} {window length : Nat} {number : UInt8}
    (overflow : (t.place window number length).1.verdict = .overflow) :
    t.place window number length =
      (t.unplaced (Transfer.slot number + 16 * (Transfer.roundLimit + 1)) length .overflow, t.fail) := by
  unfold Transfer.place at overflow ⊢
  dsimp only at overflow ⊢
  split at overflow
  · cases overflow
  rename_i unfailed
  split at overflow
  · rename_i worn
    rw [if_neg unfailed, if_pos worn]
  · split at overflow <;> cases overflow

theorem feed_answer {c : Course} {window : Nat} {index : FrameIndex} {number : UInt8} {payload : Bytes}
    (accepted : (c.transfer.place window number payload.length).1.verdict = .accepted) :
    (c.feed window index number payload).1 =
      let p := (c.transfer.place window number payload.length).1
      .ok (c.accepted p (p.piece index payload)) := by
  unfold feed
  generalize c.transfer.place window number payload.length = placed at accepted ⊢
  dsimp only
  rw [accepted]

theorem feed_transfer (c : Course) (window : Nat) (index : FrameIndex) (number : UInt8)
    (payload : Bytes) :
    (c.feed window index number payload).2.transfer =
      (c.transfer.place window number payload.length).2 := by
  unfold feed
  dsimp only
  split <;> rfl

end Course

end IsoTransport

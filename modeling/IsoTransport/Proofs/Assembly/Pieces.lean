import Mathlib
import IsoTransport.Assembly.FragmentStore

/-!
The pieces that a message has taken in, in the order of their arrival, and the fragments stored for
them. `payload_gather` gives the bytes in the order of the fragments.
-/

namespace IsoTransport

/-- A fragment that a message has taken in, and the frame that brought it. -/
structure Piece where
  frame : FrameIndex
  fragment : Nat
  bytes : Bytes
  deriving DecidableEq

theorem sorted_eq_range {numbers : List Nat} {count : Nat} (ordered : numbers.Pairwise (· < ·))
    (members : ∀ k, k ∈ numbers ↔ k < count) : numbers = List.range count := by
  have same : numbers.Perm (List.range count) := by
    rw [List.perm_ext_iff_of_nodup (ordered.imp fun below => Nat.ne_of_lt below) List.nodup_range]
    intro k
    rw [members, List.mem_range]
  exact same.eq_of_pairwise (fun a b _ _ above below => by omega) ordered List.pairwise_lt_range

namespace Pending

variable {p : Pending} {n k : Nat}

theorem isComplete_iff : p.isComplete ↔ ∃ n, p.last = some n ∧ ∀ k ≤ n, k ∈ p.pieces := by
  rw [isComplete]
  cases p.last with
  | none => simp
  | some n => simp

theorem mem_missing : k ∈ p.missing ↔ k ≤ (p.last.or p.pieces.maxKey?).getD 0 ∧ k ∉ p.pieces := by
  simp [missing, missingUpTo, ← Std.TreeMap.contains_iff_mem]

theorem pairwise_missing : p.missing.Pairwise (· < ·) :=
  List.pairwise_lt_range.filter _

theorem missing_ne_nil (last : p.last = some n) (hole : ¬p.isComplete) : p.missing ≠ [] := by
  have gap : ∃ k ≤ n, k ∉ p.pieces := by
    simpa [isComplete_iff, last] using hole
  obtain ⟨k, below, absent⟩ := gap
  have member : k ∈ p.missing := by
    rw [mem_missing, last]
    exact ⟨below, absent⟩
  exact List.ne_nil_of_mem member

end Pending

namespace Piece

def rounds (taken : List Piece) (number : Nat) : Nat := taken.countP (·.fragment % 16 = number)

def highest (taken : List Piece) : Nat := taken.foldl (fun n x => max n x.fragment) 0

def bytesOf (taken : List Piece) : Bytes := taken.flatMap (·.bytes)

/-- The fragments as they are stored: a number that comes again keeps its first bytes. -/
def gather (taken : List Piece) : Std.TreeMap Nat Bytes :=
  taken.foldl (fun pieces x => pieces.insertIfNew x.fragment x.bytes) ∅

theorem rounds_concat (taken : List Piece) (x : Piece) (number : Nat) :
    rounds (taken ++ [x]) number = rounds taken number + if x.fragment % 16 = number then 1 else 0 := by
  simp [rounds, List.countP_append, List.countP_singleton]

theorem highest_concat (taken : List Piece) (x : Piece) :
    highest (taken ++ [x]) = max (highest taken) x.fragment := by
  simp [highest]

theorem bytesOf_concat (taken : List Piece) (x : Piece) :
    bytesOf (taken ++ [x]) = bytesOf taken ++ x.bytes := by
  simp [bytesOf]

theorem gather_concat (taken : List Piece) (x : Piece) :
    gather (taken ++ [x]) = (gather taken).insertIfNew x.fragment x.bytes := by
  simp [gather]

theorem fragment_le_highest {taken : List Piece} {x : Piece} (member : x ∈ taken) :
    x.fragment ≤ highest taken := by
  induction taken using List.reverseRecOn with
  | nil => exact absurd member List.not_mem_nil
  | append_singleton taken y ih =>
    rw [highest_concat]
    rcases List.mem_append.mp member with old | new
    · exact Nat.le_trans (ih old) (Nat.le_max_left _ _)
    · rw [List.mem_singleton.mp new]
      exact Nat.le_max_right _ _

theorem exists_highest {taken : List Piece} (nonempty : taken ≠ []) :
    ∃ x ∈ taken, x.fragment = highest taken := by
  induction taken using List.reverseRecOn with
  | nil => exact absurd rfl nonempty
  | append_singleton taken y ih =>
    rw [highest_concat]
    by_cases above : highest taken ≤ y.fragment
    · exact ⟨y, by simp, (Nat.max_eq_right above).symm⟩
    · have before : taken ≠ [] := by
        rintro rfl
        exact above (Nat.zero_le _)
      obtain ⟨x, member, same⟩ := ih before
      exact ⟨x, List.mem_append_left _ member, by omega⟩

/-! ### The stored fragments -/

theorem mem_gather {taken : List Piece} {k : Nat} :
    k ∈ gather taken ↔ ∃ x ∈ taken, x.fragment = k := by
  induction taken using List.reverseRecOn with
  | nil => simp [gather]
  | append_singleton taken y ih =>
    rw [gather_concat, Std.TreeMap.mem_insertIfNew, ih]
    simp [or_and_right, exists_or, or_comm]

theorem getElem?_gather {taken : List Piece} (distinct : (taken.map (·.fragment)).Nodup) {k : Nat}
    {b : Bytes} : (gather taken)[k]? = some b ↔ ∃ x ∈ taken, x.fragment = k ∧ x.bytes = b := by
  induction taken using List.reverseRecOn with
  | nil => simp [gather]
  | append_singleton taken y ih =>
    rw [List.map_append, List.nodup_append] at distinct
    obtain ⟨before, -, apart⟩ := distinct
    have new : y.fragment ∉ gather taken := by
      rintro old
      obtain ⟨x, member, same⟩ := mem_gather.mp old
      exact apart x.fragment (List.mem_map_of_mem member) y.fragment (by simp) same
    rw [gather_concat, Std.TreeMap.getElem?_insertIfNew]
    by_cases here : y.fragment = k
    · subst here
      have others : ¬∃ x ∈ taken, x.fragment = y.fragment ∧ x.bytes = b := by
        rintro ⟨x, member, same, -⟩
        exact new (mem_gather.mpr ⟨x, member, same⟩)
      simp [new, or_and_right, exists_or]
      grind
    · have other : ¬(compare y.fragment k = .eq ∧ y.fragment ∉ gather taken) := by simp [here]
      rw [if_neg other, ih before]
      simp [or_and_right, exists_or, here]

theorem exists_sorted {taken : List Piece} (distinct : (taken.map (·.fragment)).Nodup) :
    ∃ sorted : List Piece, sorted.Perm taken ∧ sorted.Pairwise (·.fragment < ·.fragment) := by
  have perm := List.mergeSort_perm taken fun x y => x.fragment ≤ y.fragment
  refine ⟨_, perm, ?_⟩
  have ordered : (taken.mergeSort fun x y => x.fragment ≤ y.fragment).Pairwise
      (fun x y => x.fragment ≤ y.fragment) := by
    have sorted := @List.pairwise_mergeSort Piece (fun x y => decide (x.fragment ≤ y.fragment))
      (fun x y z h₁ h₂ => by simp at h₁ h₂ ⊢; omega) (fun x y => by simp; omega) taken
    exact sorted.imp fun h => of_decide_eq_true h
  have apart := List.pairwise_map.mp ((perm.map (·.fragment)).nodup_iff.mpr distinct)
  exact (ordered.and apart).imp fun h => by omega

theorem nodup_of_sorted {sorted : List Piece} (ordered : sorted.Pairwise (·.fragment < ·.fragment)) :
    (sorted.map (·.fragment)).Nodup :=
  List.pairwise_map.mpr (ordered.imp fun h => by omega)

theorem toList_gather {taken sorted : List Piece} (perm : sorted.Perm taken)
    (ordered : sorted.Pairwise (·.fragment < ·.fragment)) :
    (gather taken).toList = sorted.map fun x => (x.fragment, x.bytes) := by
  have distinct : (taken.map (·.fragment)).Nodup :=
    (perm.map (·.fragment)).nodup_iff.mp (nodup_of_sorted ordered)
  have left : (gather taken).toList.Pairwise (fun a b => a.1 < b.1) :=
    Std.TreeMap.ordered_keys_toList.imp fun h => Nat.compare_eq_lt.mp h
  have right : (sorted.map fun x => (x.fragment, x.bytes)).Pairwise (fun a b => a.1 < b.1) :=
    List.pairwise_map.mpr ordered
  have same : (gather taken).toList.Perm (sorted.map fun x => (x.fragment, x.bytes)) := by
    rw [List.perm_ext_iff_of_nodup (left.imp fun h => by rintro rfl; omega)
      (right.imp fun h => by rintro rfl; omega)]
    rintro ⟨k, b⟩
    rw [Std.TreeMap.mem_toList_iff_getElem?_eq_some, getElem?_gather distinct]
    simp [perm.mem_iff]
  exact same.eq_of_pairwise (fun a b _ _ h₁ h₂ => by omega) left right

theorem values_eq (pieces : Std.TreeMap Nat Bytes) :
    pieces.values = pieces.toList.map Prod.snd := by
  have fold : pieces.values = pieces.foldr (fun _ b values => b :: values) [] := rfl
  rw [fold, Std.TreeMap.foldr_eq_foldr_toList]
  induction pieces.toList with
  | nil => rfl
  | cons x rest ih => simp [ih]

/-- The bytes of a message are those of its pieces, in the order of the fragments. -/
theorem payload_gather {taken sorted : List Piece} (perm : sorted.Perm taken)
    (ordered : sorted.Pairwise (·.fragment < ·.fragment)) (last : Option Nat) :
    Pending.payload { pieces := gather taken, last } = bytesOf sorted := by
  rw [Pending.payload, values_eq, toList_gather perm ordered]
  simp [bytesOf, List.flatMap, Function.comp_def]

theorem size_gather {taken : List Piece} (distinct : (taken.map (·.fragment)).Nodup) :
    (gather taken).size = taken.length := by
  obtain ⟨sorted, perm, ordered⟩ := exists_sorted distinct
  rw [← Std.TreeMap.length_toList, toList_gather perm ordered, List.length_map, perm.length_eq]

theorem length_payload_gather {taken : List Piece} (distinct : (taken.map (·.fragment)).Nodup)
    (last : Option Nat) :
    (Pending.payload { pieces := gather taken, last }).length = (bytesOf taken).length := by
  obtain ⟨sorted, perm, ordered⟩ := exists_sorted distinct
  rw [payload_gather perm ordered]
  exact (perm.flatMap_right _).length_eq

/-! ### Messages that are closed -/

def closed (taken : List Piece) (x : Piece) : Pending :=
  { pieces := gather taken, last := some x.fragment }

/-- Only the fragments up to the one that came last are asked for. -/
theorem isComplete_closed {taken : List Piece} {x : Piece} :
    (closed taken x).isComplete ↔ ∀ k ≤ x.fragment, ∃ y ∈ taken, y.fragment = k := by
  simp [Pending.isComplete_iff, closed, mem_gather]

end Piece

end IsoTransport

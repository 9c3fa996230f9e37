import IsoTransport.IdSet
import IsoTransport.Proofs.Results
import IsoTransport.Proofs.Text.Digits

/-!
Identifier sets are read back from their text, range by range in written order, unless one of the ranges is
descending (`read_text_exact`). Only sets of ascending ranges can be read (`ascending_of_read`).
-/

namespace IsoTransport

namespace Text

theorem trim_of_solid {cs : List Char} (solid : ∀ c ∈ cs, isBlank c = false) : trim cs = cs := by
  have stays : ∀ ds : List Char, (∀ c ∈ ds, isBlank c = false) → ds.dropWhile isBlank = ds := by
    intro ds solid
    cases ds with
    | nil => rfl
    | cons d ds => exact List.dropWhile_cons_of_neg (by simp [solid d List.mem_cons_self])
  have back : ∀ c ∈ cs.reverse, isBlank c = false := fun c member => solid c (List.mem_reverse.mp member)
  rw [trim, stays cs solid, stays cs.reverse back, List.reverse_reverse]

/-- Neither a blank nor a mark between identifiers. -/
def Inside (c : Char) : Prop := isBlank c = false ∧ c ≠ ',' ∧ c ≠ '-'

theorem inside_hex (n : Nat) : ∀ c ∈ (hex n).toList, Inside c := by
  have digits : ∀ d < 16, Inside (Nat.digitChar d) := by
    unfold Inside
    decide
  intro c member
  rw [hex, String.toList_ofList] at member
  rcases List.mem_cons.mp member with rfl | member
  · exact digits 0 (by decide)
  · rcases List.mem_cons.mp member with rfl | member
    · unfold Inside
      decide
    · obtain ⟨d, small, rfl⟩ := toDigits_digits (by decide) (by decide) n c member
      exact digits d small

end Text

namespace IdRange

open Text

theorem readId?_hex (id : UInt32) : readId? (hex id.toNat).toList = some id := by
  have unsigned : (hexDigits id.toNat).head? ≠ some '+' := by
    intro front
    have plain : ∀ d < 16, Nat.digitChar d ≠ '+' := by decide
    have plus := List.mem_of_mem_head? front
    obtain ⟨d, small, same⟩ := toDigits_digits (by decide) (by decide) id.toNat '+' plus
    exact plain d small same.symm
  have read : readDigits? 16 (hexDigits id.toNat) = some id.toNat :=
    readDigits?_toDigits (by decide) (by decide) id.toNat
  have small : id.toNat < UInt32.size := id.toNat_lt
  unfold readId?
  rw [trim_of_solid fun c member => (inside_hex id.toNat c member).1, hex, String.toList_ofList]
  simp [unsigned, read, small]

theorem read?_plain {part : List Char} (plain : '-' ∉ part) :
    read? part = (readId? part).map fun id => ⟨id, id⟩ := by
  have whole : part.dropWhile (· ≠ '-') = [] := by
    rw [List.dropWhile_eq_nil_iff]
    intro c member
    exact decide_eq_true fun dash => plain (dash ▸ member)
  unfold read?
  rw [List.span_eq_takeWhile_dropWhile, whole]

theorem read?_dash {front back : List Char} (plain : '-' ∉ front) :
    read? (front ++ '-' :: back) =
      (do
        let first ← readId? front
        let last ← readId? back
        if first ≤ last then some ⟨first, last⟩ else none) := by
  have before : ∀ c ∈ front, decide (c ≠ '-') = true :=
    fun c member => decide_eq_true fun dash => plain (dash ▸ member)
  have divided : (front ++ '-' :: back).span (· ≠ '-') = (front, '-' :: back) := by
    rw [List.span_eq_takeWhile_dropWhile, List.takeWhile_append_of_pos before, List.dropWhile_append_of_pos before]
    simp
  unfold read?
  rw [divided]

theorem read?_text (r : IdRange) : read? r.text.toList = if r.first ≤ r.last then some r else none := by
  have plain (n : Nat) : '-' ∉ (hex n).toList := fun dash => (inside_hex n '-' dash).2.2 rfl
  by_cases single : r.first = r.last
  · obtain ⟨first, last⟩ := r
    cases single
    rw [text, if_pos rfl, read?_plain (plain _), readId?_hex]
    simp
  · have divided : r.text.toList = (hex r.first.toNat).toList ++ '-' :: (hex r.last.toNat).toList := by
      simp [text, single]
    rw [divided, read?_dash (plain _), readId?_hex, readId?_hex]
    rfl

theorem ascending_of_read? {part : List Char} {r : IdRange} (read : read? part = some r) :
    r.first ≤ r.last := by
  unfold read? at read
  split at read
  · obtain ⟨id, -, rfl⟩ := Option.map_eq_some_iff.mp read
    exact UInt32.le_refl id
  · simp only [Option.bind_eq_bind, Option.bind_eq_some_iff] at read
    obtain ⟨first, -, last, -, read⟩ := read
    split at read
    · rename_i ordered
      cases read
      exact ordered
    · cases read

theorem inside_text (r : IdRange) : ∀ c ∈ r.text.toList, isBlank c = false ∧ c ≠ ',' := by
  intro c member
  have hexes : ∀ n : Nat, c ∈ (hex n).toList → isBlank c = false ∧ c ≠ ',' :=
    fun n member => ⟨(inside_hex n c member).1, (inside_hex n c member).2.1⟩
  unfold text at member
  split at member
  · exact hexes _ member
  · rw [String.toList_append, String.toList_append] at member
    rcases List.mem_append.mp member with front | back
    · rcases List.mem_append.mp front with first | dash
      · exact hexes _ first
      · rw [List.mem_singleton.mp dash]
        decide
    · exact hexes _ back

theorem text_ne_nil (r : IdRange) : r.text.toList ≠ [] := by
  unfold text
  split <;> simp [hex]

end IdRange

namespace IdSet

open Text

/-- The parts of a list that are not blank, trimmed. -/
def written (cs : List Char) : List (List Char) := ((parts cs).map trim).filter (!·.isEmpty)

def readRange (part : List Char) : Except SettingFault IdRange :=
  match IdRange.read? part with
  | some range => .ok range
  | none => .error (.invalidRange (String.ofList part))

theorem read_eq (text : String) : read text = (written text.toList).mapM readRange >>= fun ranges => .ok ⟨ranges⟩ :=
  rfl

theorem parts_eq_splitOn (cs : List Char) : parts cs = cs.splitOn ',' := by
  induction cs with
  | nil => rfl
  | cons c cs ih =>
    have step : (c :: cs).splitOn ',' =
        if (c == ',') = true then [] :: cs.splitOn ',' else (cs.splitOn ',').modifyHead (List.cons c) :=
      List.splitOnP_cons_eq_if_modifyHead c cs
    have some : parts cs ≠ [] := by
      rw [ih]
      exact List.splitOn_ne_nil ',' cs
    rw [parts, step, ← ih]
    simp only [beq_iff_eq]
    split
    · rfl
    · cases split : parts cs with
      | nil => exact absurd split some
      | cons part rest => rfl

theorem parts_text {ranges : List IdRange} (some : ranges ≠ []) :
    parts (IdSet.mk ranges).text.toList = ranges.map (·.text.toList) := by
  have plain : ∀ part ∈ ranges.map (·.text.toList), ',' ∉ part := by
    intro part member comma
    obtain ⟨r, -, rfl⟩ := List.mem_map.mp member
    exact (r.inside_text ',' comma).2 rfl
  have pieces : ranges.map (·.text.toList) ≠ [] := by simpa using some
  rw [parts_eq_splitOn, text, String.toList_intercalate, List.map_map]
  exact List.splitOn_intercalate ',' plain pieces

/-- The parts of a written set are its ranges, without anything to trim or to leave out. -/
theorem written_text (ranges : List IdRange) :
    written (IdSet.mk ranges).text.toList = ranges.map (·.text.toList) := by
  cases ranges with
  | nil => rfl
  | cons r ranges =>
    have trimmed : ((r :: ranges).map (·.text.toList)).map trim = (r :: ranges).map (·.text.toList) := by
      rw [List.map_map]
      apply List.map_congr_left
      intro r _
      exact trim_of_solid fun c member => (r.inside_text c member).1
    rw [written, parts_text (List.cons_ne_nil r ranges), trimmed]
    apply List.filter_eq_self.mpr
    intro part member
    obtain ⟨r, -, rfl⟩ := List.mem_map.mp member
    simpa using r.text_ne_nil

/-- Every range goes from its first identifier up to its last one. -/
def Ascending (s : IdSet) : Prop := ∀ r ∈ s.ranges, r.first ≤ r.last

/-- A descending range, which contains nothing and cannot be read. -/
def descending (r : IdRange) : Bool := r.last < r.first

theorem ascending_iff {s : IdSet} : s.Ascending ↔ s.ranges.find? descending = none := by
  simp [Ascending, descending, List.find?_eq_none]

/-- Whatever the ranges of a set are, its text is read up to the first range that is descending. -/
theorem read_text_eq (s : IdSet) :
    read s.text =
      match s.ranges.find? descending with
      | some r => .error (.invalidRange r.text)
      | none => .ok s := by
  obtain ⟨ranges⟩ := s
  rw [read_eq]
  dsimp only
  rw [written_text, mapM_find? descending fun r => .invalidRange r.text]
  · cases ranges.find? descending <;> rfl
  · intro r
    rw [readRange, IdRange.read?_text, String.ofList_toList]
    by_cases ordered : r.first ≤ r.last
    · simp [descending, ordered]
    · simp [descending, ordered, UInt32.not_le.mp ordered]

theorem read_text {s : IdSet} (ascending : s.Ascending) : read s.text = .ok s := by
  rw [read_text_eq, ascending_iff.mp ascending]

theorem ascending_of_read {t : String} {s : IdSet} (accepted : read t = .ok s) : s.Ascending := by
  rw [read_eq] at accepted
  obtain ⟨ranges, done, kept⟩ := ok_of_bind accepted
  cases kept
  refine forall_of_mapM (fun part r read => ?_) done
  unfold readRange at read
  split at read
  · rename_i range found
    cases read
    exact IdRange.ascending_of_read? found
  · cases read

/-- A set that was read from some text, or whose ranges are ascending, is read again from its own text, and has
that text again. Any other set has a first descending range, for which its text is refused. -/
theorem read_text_exact (s : IdSet) :
    ((∃ t, read t = .ok s) ∨ (∀ r ∈ s.ranges, r.first ≤ r.last) →
      ∃ again, read s.text = .ok again ∧ again.ranges = s.ranges ∧ again.text = s.text) ∧
    ((∃ r ∈ s.ranges, r.last < r.first) →
      ∃ before r after, s.ranges = before ++ r :: after ∧ (∀ q ∈ before, q.first ≤ q.last) ∧ r.last < r.first ∧
        read s.text = .error (.invalidRange (hex r.first.toNat ++ "-" ++ hex r.last.toNat))) := by
  constructor
  · intro known
    have ascending : s.Ascending := by
      rcases known with ⟨t, accepted⟩ | ascending
      · exact ascending_of_read accepted
      · exact ascending
    exact ⟨s, read_text ascending, rfl, rfl⟩
  · rintro ⟨q, member, low⟩
    obtain ⟨r, first⟩ : ∃ r, s.ranges.find? descending = some r :=
      Option.isSome_iff_exists.mp (List.find?_isSome.mpr ⟨q, member, decide_eq_true low⟩)
    have refused := s.read_text_eq
    rw [first] at refused
    obtain ⟨below, before, after, split, earlier⟩ := List.find?_eq_some_iff_append.mp first
    have below : r.last < r.first := of_decide_eq_true below
    have two : r.first ≠ r.last := fun same => UInt32.lt_irrefl r.first (same ▸ below)
    have named : r.text = hex r.first.toNat ++ "-" ++ hex r.last.toNat := if_neg two
    refine ⟨before, r, after, split, fun q member => ?_, below, named ▸ refused⟩
    simpa [descending] using earlier q member

/-- A text with blanks, empty parts, both marks, a sign and decimals, and a set with two descending ranges. -/
theorem read_text_exact_tolerant :
    let s : IdSet := ⟨[⟨0x7e0, 0x7ef⟩, ⟨0x10, 0x10⟩, ⟨2000, 2000⟩]⟩
    let d : IdSet := ⟨[⟨1, 2⟩, ⟨0x7ff, 0x700⟩, ⟨5, 4⟩]⟩
    read " 0X7E0 - +2031 ,, 0x+10,2000-2000" = .ok s ∧
      (∃ again, read s.text = .ok again ∧ again.ranges = s.ranges ∧ again.text = s.text) ∧
      s.text = "0x7e0-0x7ef,0x10,0x7d0" ∧
      read d.text = .error (.invalidRange "0x7ff-0x700") := by
  intro s d
  have accepted : read " 0X7E0 - +2031 ,, 0x+10,2000-2000" = .ok s := by decide +kernel
  obtain ⟨before, r, after, split, earlier, low, refused⟩ :=
    (read_text_exact d).2 ⟨⟨0x7ff, 0x700⟩, by decide, by decide⟩
  refine ⟨accepted, (read_text_exact s).1 (.inl ⟨_, accepted⟩), by decide +kernel, ?_⟩
  -- the range that is named is the second one, since the first is ascending and those before it are
  have second : r = ⟨0x7ff, 0x700⟩ := by
    rcases before with _ | ⟨a, _ | ⟨b, before⟩⟩
    · cases split
      exact absurd low (by decide)
    · cases split
      rfl
    · obtain rfl : ⟨0x7ff, 0x700⟩ = b := (List.cons.inj (List.cons.inj split).2).1
      exact absurd (earlier ⟨0x7ff, 0x700⟩ (by simp)) (by decide)
  rw [refused, second]
  decide +kernel

end IdSet

end IsoTransport

import IsoTransport.Proofs.Settings.Identifiers
import IsoTransport.Proofs.Text.Numeral

/-!
What identifier lists mean. A list is read part by part, from one comma to the next, and a part is accepted exactly
if it is blank, a number, or two numbers in ascending order around a dash (`IdSet.read_by_parts`).
-/

namespace IsoTransport

open Text

namespace IdRange

/-- A number, perhaps between blanks, that is an identifier. -/
def Writes (cs : List Char) (id : UInt32) : Prop := ∃ n, Numeral (trim cs) n ∧ n < 2 ^ 32 ∧ id = UInt32.ofNat n

/-- What a part between commas stands for: nothing, one identifier, or the range between the numbers on both sides of
its first dash. -/
inductive Part (cs : List Char) : List IdRange → Prop
  | blank (nothing : ∀ c ∈ cs, isBlank c = true) : Part cs []
  | one (id : UInt32) (number : Writes cs id) : Part cs [⟨id, id⟩]
  | two (r : IdRange) (front back : List Char) (split : trim cs = front ++ '-' :: back) (plain : '-' ∉ front)
      (first : Writes front r.first) (last : Writes back r.last) (ordered : r.first ≤ r.last) : Part cs [r]

theorem readId?_iff {cs : List Char} {id : UInt32} : readId? cs = some id ↔ Writes cs id := by
  have small (x : Option Nat) :
      (do let n ← x; if n < UInt32.size then some (UInt32.ofNat n) else none) = some id ↔
        ∃ n, x = some n ∧ n < 2 ^ 32 ∧ id = UInt32.ofNat n := by
    simp only [Option.bind_eq_bind, Option.bind_eq_some_iff, Option.ite_none_right_eq_some, Option.some.injEq,
      eq_comm (a := id)]
    rfl
  unfold readId? Writes
  -- the characters in front tell the base, and leave one way to read the number in each case
  split
  rename_i base digits form
  split at form
  · rename_i marked
    cases form
    simp only [small, marked, readSigned_iff (Nat.le_refl 16), numeral_marked (.inl rfl)]
  · rename_i marked
    cases form
    simp only [small, marked, readSigned_iff (Nat.le_refl 16), numeral_marked (.inr rfl)]
  · rename_i lower upper
    cases form
    simp only [small, readSigned_iff (by decide : 10 ≤ 16), numeral_unmarked lower upper]

theorem Writes.notMem_dash {cs : List Char} {id : UInt32} (writes : Writes cs id) : '-' ∉ cs := by
  obtain ⟨n, numeral, -⟩ := writes
  obtain ⟨before, after, split, blank⟩ := exists_trim cs
  intro member
  rw [split, List.append_assoc] at member
  rcases List.mem_append.mp member with front | rest
  · exact absurd (blank '-' (List.mem_append_left after front)) (by decide)
  · rcases List.mem_append.mp rest with inside | back
    · exact numeral.notMem_dash inside
    · exact absurd (blank '-' (List.mem_append_right before back)) (by decide)

theorem writes_trim {cs : List Char} {id : UInt32} : Writes (trim cs) id ↔ Writes cs id := by
  rw [Writes, trim_trim, Writes]

theorem read?_plain_iff {part : List Char} {r : IdRange} (plain : '-' ∉ part) :
    read? part = some r ↔ ∃ id, Writes part id ∧ r = ⟨id, id⟩ := by
  simp only [read?_plain plain, Option.map_eq_some_iff, readId?_iff, eq_comm (b := r)]

theorem read?_dash_iff {front back : List Char} {r : IdRange} (plain : '-' ∉ front) :
    read? (front ++ '-' :: back) = some r ↔ Writes front r.first ∧ Writes back r.last ∧ r.first ≤ r.last := by
  simp only [read?_dash plain, Option.bind_eq_bind, Option.bind_eq_some_iff, readId?_iff,
    Option.ite_none_right_eq_some, Option.some.injEq]
  constructor
  · rintro ⟨first, front, last, back, ordered, rfl⟩
    exact ⟨front, back, ordered⟩
  · rintro ⟨front, back, ordered⟩
    exact ⟨r.first, front, r.last, back, ordered, rfl⟩

theorem read?_trim {cs : List Char} {r : IdRange} : read? (trim cs) = some r ↔ Part cs [r] := by
  constructor
  · intro read
    by_cases dash : '-' ∈ trim cs
    · obtain ⟨front, back, split, plain⟩ := List.eq_append_cons_of_mem dash
      rw [split, read?_dash_iff plain] at read
      exact .two r front back split plain read.1 read.2.1 read.2.2
    · obtain ⟨id, writes, rfl⟩ := (read?_plain_iff dash).mp read
      exact .one id (writes_trim.mp writes)
  · intro part
    cases part with
    | one id number =>
      have number := writes_trim.mpr number
      exact (read?_plain_iff number.notMem_dash).mpr ⟨id, number, rfl⟩
    | two _ front back split plain first last ordered =>
      rw [split]
      exact (read?_dash_iff plain).mpr ⟨first, last, ordered⟩

end IdRange

namespace IdSet

theorem written_comma (cs ds : List Char) : written (cs ++ ',' :: ds) = written cs ++ written ds := by
  simp only [written, parts_eq_splitOn, List.splitOn_append_cons_self, List.map_append, List.filter_append]

theorem written_plain {cs : List Char} (plain : ',' ∉ cs) : written cs = if trim cs = [] then [] else [trim cs] := by
  rw [written, parts_eq_splitOn, List.splitOn_eq_singleton plain]
  by_cases blank : trim cs = []
  · simp [blank]
  · simp [blank]

theorem read_comma (a b : String) :
    read (a ++ "," ++ b) = do
      let s ← read a
      let t ← read b
      return ⟨s.ranges ++ t.ranges⟩ := by
  have joined : (a ++ "," ++ b).toList = a.toList ++ ',' :: b.toList := by simp
  rw [read_eq, read_eq, read_eq, joined, written_comma, List.mapM_append]
  simp only [bind_assoc]
  rfl

theorem read_plain {part : String} (plain : ',' ∉ part.toList) :
    read part =
      if trim part.toList = [] then .ok ⟨[]⟩
      else match IdRange.read? (trim part.toList) with
        | some r => .ok ⟨[r]⟩
        | none => .error (.invalidRange (String.ofList (trim part.toList))) := by
  rw [read_eq, written_plain plain]
  split
  · rfl
  · rw [List.mapM_cons, List.mapM_nil, readRange]
    cases IdRange.read? (trim part.toList) <;> rfl

theorem read_plain_iff {part : String} (plain : ',' ∉ part.toList) {ranges : List IdRange} :
    read part = .ok ⟨ranges⟩ ↔ IdRange.Part part.toList ranges := by
  rw [read_plain plain]
  constructor
  · intro accepted
    split at accepted
    · rename_i blank
      cases accepted
      exact .blank (trim_eq_nil_iff.mp blank)
    · split at accepted
      · rename_i r found
        cases accepted
        exact IdRange.read?_trim.mp found
      · cases accepted
  · intro part
    cases ranges with
    | nil =>
      cases part with
      | blank nothing => rw [if_pos (trim_eq_nil_iff.mpr nothing)]
    | cons r rest =>
      obtain rfl : rest = [] := by cases part <;> rfl
      have found := IdRange.read?_trim.mpr part
      rw [if_neg, found]
      intro blank
      rw [blank] at found
      cases found

/-- A list is read part by part: what stands around a comma is read on its own, the left side first, and the ranges of
both sides are joined. A part without a comma is accepted exactly if it is blank, a number, or an ascending range of
two numbers; any other part is named by the fault. -/
theorem read_by_parts :
    (∀ a b : String,
      match read a, read b with
      | .error fault, _ => read (a ++ "," ++ b) = .error fault
      | .ok _, .error fault => read (a ++ "," ++ b) = .error fault
      | .ok s, .ok t => ∃ u, read (a ++ "," ++ b) = .ok u ∧ u.ranges = s.ranges ++ t.ranges ∧
          ∀ id, u.contains id = (s.contains id || t.contains id)) ∧
    ∀ part : String, ',' ∉ part.toList →
      (∀ s, read part = .ok s ↔ IdRange.Part part.toList s.ranges) ∧
      ((¬∃ ranges, IdRange.Part part.toList ranges) →
        read part = .error (.invalidRange (String.ofList (trim part.toList)))) := by
  constructor
  · intro a b
    rw [read_comma]
    cases read a with
    | error fault => rfl
    | ok s =>
      cases read b with
      | error fault => rfl
      | ok t => exact ⟨_, rfl, rfl, fun id => List.any_append⟩
  · intro part plain
    refine ⟨fun s => read_plain_iff plain, fun refused => ?_⟩
    have some : trim part.toList ≠ [] := fun blank => refused ⟨[], .blank (trim_eq_nil_iff.mp blank)⟩
    rw [read_plain plain, if_neg some]
    cases found : IdRange.read? (trim part.toList) with
    | none => rfl
    | some r => exact absurd ⟨[r], IdRange.read?_trim.mp found⟩ refused

/-- Two lists that are read and one that is not, a range with both marks and a sign, and a descending one. -/
theorem read_by_parts_mixed :
    let a := " 0X1f - +32 ,, 007"
    let b := "0x+7E0"
    let bad := "8,\t4 - 3 ,zz"
    read a = .ok ⟨[⟨31, 32⟩, ⟨7, 7⟩]⟩ ∧ read b = .ok ⟨[⟨0x7e0, 0x7e0⟩]⟩ ∧
      (∃ u, read (a ++ "," ++ b) = .ok u ∧ u.ranges = [⟨31, 32⟩, ⟨7, 7⟩, ⟨0x7e0, 0x7e0⟩] ∧ u.contains 32 = true) ∧
      read (a ++ "," ++ bad) = .error (.invalidRange "4 - 3") ∧
      IdRange.Part " 0X1f - +32 ".toList [⟨31, 32⟩] ∧
      (¬∃ ranges, IdRange.Part "\t4 - 3 ".toList ranges) ∧
      read "\t4 - 3 " = .error (.invalidRange (String.ofList (trim "\t4 - 3 ".toList))) := by
  intro a b bad
  have first : read a = .ok ⟨[⟨31, 32⟩, ⟨7, 7⟩]⟩ := by decide +kernel
  have second : read b = .ok ⟨[⟨0x7e0, 0x7e0⟩]⟩ := by decide +kernel
  have third : read bad = .error (.invalidRange "4 - 3") := by decide +kernel
  obtain ⟨joins, exact⟩ := read_by_parts
  have joined := joins a b
  rw [first, second] at joined
  have stopped := joins a bad
  rw [first, third] at stopped
  obtain ⟨u, whole, ranges, contains⟩ := joined
  obtain ⟨accepts, -⟩ := exact " 0X1f - +32 " (by decide +kernel)
  obtain ⟨accepted, refuses⟩ := exact "\t4 - 3 " (by decide +kernel)
  have refused : ¬∃ ranges, IdRange.Part "\t4 - 3 ".toList ranges := by
    rintro ⟨ranges, part⟩
    have failed : read "\t4 - 3 " = .error (.invalidRange "4 - 3") := by decide +kernel
    cases failed.symm.trans ((accepted ⟨ranges⟩).mpr part)
  refine ⟨first, second, ⟨u, whole, ranges, ?_⟩, stopped, ?_, refused, refuses refused⟩
  · rw [contains]
    decide +kernel
  · exact (accepts ⟨[⟨31, 32⟩]⟩).mp (by decide +kernel)

end IdSet

end IsoTransport

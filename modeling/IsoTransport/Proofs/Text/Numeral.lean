import IsoTransport.Proofs.Text.Digits
import IsoTransport.Text.Blank

/-!
Numbers as people write them. `readDigits?_iff` and `Numeral` tell for every text whether it is a number and which
one, with digits in either case, a mark for base sixteen and a plus sign; `exists_trim` tells what trimming leaves.
-/

namespace IsoTransport.Text

/-! ### Blanks -/

theorem trim_eq (cs : List Char) : trim cs = (cs.dropWhile isBlank).rdropWhile isBlank := rfl

/-- Trimming takes away blanks at both ends and nothing else. -/
theorem exists_trim (cs : List Char) :
    ∃ before after, cs = before ++ trim cs ++ after ∧ ∀ c ∈ before ++ after, isBlank c = true := by
  refine ⟨cs.takeWhile isBlank, (cs.dropWhile isBlank).rtakeWhile isBlank, ?_, ?_⟩
  · rw [trim_eq, List.append_assoc, List.rdropWhile_append_rtakeWhile, List.takeWhile_append_dropWhile]
  · intro c member
    rcases List.mem_append.mp member with front | back
    · exact List.mem_takeWhile_imp front
    · exact List.mem_rtakeWhile_imp back

theorem trim_eq_nil_iff {cs : List Char} : trim cs = [] ↔ ∀ c ∈ cs, isBlank c = true := by
  rw [trim_eq, List.rdropWhile_eq_nil_iff]
  constructor
  · intro blank c member
    rw [← List.takeWhile_append_dropWhile (p := isBlank) (l := cs)] at member
    rcases List.mem_append.mp member with front | back
    · exact List.mem_takeWhile_imp front
    · exact blank c back
  · intro blank c member
    exact blank c ((List.dropWhile_sublist _).subset member)

theorem trim_trim (cs : List Char) : trim (trim cs) = trim cs := by
  have front : (trim cs).dropWhile isBlank = trim cs := by
    have first := List.dropWhile_eq_self_iff.mp (List.dropWhile_idempotent isBlank cs)
    have kept := List.rdropWhile_prefix isBlank (cs.dropWhile isBlank)
    rw [List.dropWhile_eq_self_iff]
    intro some
    rw [show (trim cs)[0] = _ from kept.getElem some]
    exact first (Nat.lt_of_lt_of_le some kept.length_le)
  rw [trim_eq (trim cs), front, trim_eq, List.rdropWhile_idempotent]

/-! ### Digits -/

/-- A digit of a base and its value; letters may be capital. -/
def IsDigit (base : Nat) (c : Char) (d : Nat) : Prop := d < base ∧ (c = d.digitChar ∨ c = d.digitChar.toUpper)

/-- Digits, at least one, and the number they write. -/
def Digits (base : Nat) (cs : List Char) (n : Nat) : Prop :=
  cs ≠ [] ∧ ∃ ds, List.Forall₂ (IsDigit base) cs ds ∧ Nat.ofDigits base ds.reverse = n

theorem digitChar_of_digitValue? {c : Char} {d : Nat} (read : digitValue? c = some d) :
    c = d.digitChar ∨ c = d.digitChar.toUpper := by
  have decimal : ∀ d < 10, d.digitChar.toNat = 48 + d := by decide
  have lower : ∀ d < 16, 10 ≤ d → d.digitChar.toNat = 87 + d := by decide
  have upper : ∀ d < 16, 10 ≤ d → d.digitChar.toUpper.toNat = 55 + d := by decide
  have bounds {low high : Char} (inside : low ≤ c ∧ c ≤ high) : low.toNat ≤ c.toNat ∧ c.toNat ≤ high.toNat := inside
  simp only [← Char.toNat_inj]
  unfold digitValue? at read
  split at read
  · rename_i inside
    have range : 48 ≤ c.toNat ∧ c.toNat ≤ 57 := bounds inside
    cases read
    left
    show c.toNat = (c.toNat - 48).digitChar.toNat
    rw [decimal _ (by omega)]
    omega
  · split at read
    · rename_i inside
      have range : 97 ≤ c.toNat ∧ c.toNat ≤ 102 := bounds inside
      cases read
      left
      show c.toNat = (c.toNat - 97 + 10).digitChar.toNat
      rw [lower _ (by omega) (by omega)]
      omega
    · split at read
      · rename_i inside
        have range : 65 ≤ c.toNat ∧ c.toNat ≤ 70 := bounds inside
        cases read
        right
        show c.toNat = (c.toNat - 65 + 10).digitChar.toUpper.toNat
        rw [upper _ (by omega) (by omega)]
        omega
      · cases read

theorem digitOf?_iff {base d : Nat} {c : Char} (wide : base ≤ 16) : digitOf? base c = some d ↔ IsDigit base c d := by
  have upper : ∀ d < 16, digitValue? d.digitChar.toUpper = some d := by decide
  unfold IsDigit
  constructor
  · intro read
    obtain ⟨value, small⟩ := Option.filter_eq_some_iff.mp read
    exact ⟨of_decide_eq_true small, digitChar_of_digitValue? value⟩
  · rintro ⟨small, rfl | rfl⟩
    · exact digitOf?_digitChar wide small
    · rw [digitOf?, upper d (by omega)]
      simp [small]

theorem mapM_eq_some_iff {α β : Type} {f : α → Option β} {as : List α} {bs : List β} :
    as.mapM f = some bs ↔ List.Forall₂ (fun a b => f a = some b) as bs := by
  induction as generalizing bs with
  | nil => simp [eq_comm]
  | cons a as ih =>
    simp only [List.mapM_cons, Option.bind_eq_bind, Option.bind_eq_some_iff, List.forall₂_cons_left_iff, ih]
    constructor
    · rintro ⟨b, first, rest, others, same⟩
      cases same
      exact ⟨b, rest, first, others, rfl⟩
    · rintro ⟨b, rest, first, others, rfl⟩
      exact ⟨b, first, rest, others, rfl⟩

theorem readDigits?_iff {base n : Nat} {cs : List Char} (wide : base ≤ 16) :
    readDigits? base cs = some n ↔ Digits base cs n := by
  -- digits are read from the left, while `Nat.ofDigits` starts at the lowest one
  have value (ds : List Nat) : Nat.ofDigits base ds.reverse = ds.foldl (fun n d => base * n + d) 0 := by
    rw [Nat.ofDigits_eq_foldr, List.foldr_reverse]
    simp only [Nat.cast_id, Nat.add_comm]
  have digits : (fun c d => digitOf? base c = some d) = IsDigit base := by
    funext c d
    exact propext (digitOf?_iff wide)
  unfold readDigits? Digits
  rw [← digits]
  cases cs with
  | nil => simp
  | cons c cs =>
    simp only [List.isEmpty_cons, Bool.false_eq_true, if_false, Option.map_eq_some_iff, mapM_eq_some_iff, value,
      ne_eq, reduceCtorEq, not_false_eq_true, true_and]

theorem Digits.notMem {base n : Nat} {cs : List Char} (wide : base ≤ 16) (digits : Digits base cs n) {x : Char}
    (other : digitValue? x = none) : x ∉ cs := by
  have differs {c : Char} {d : Nat} (digit : IsDigit base c d) : c ≠ x := by
    rintro rfl
    have read := (digitOf?_iff wide).mpr digit
    rw [digitOf?, other] at read
    cases read
  obtain ⟨-, ds, each, -⟩ := digits
  have apart := each.imp fun c d digit => And.intro (differs digit) digit
  exact fun member => ((List.forall₂_and_left _ _).mp apart).1 x member rfl

/-! ### Numbers -/

/-- Digits that may have a plus sign in front. -/
def Signed (base : Nat) (cs : List Char) (n : Nat) : Prop :=
  Digits base cs n ∨ ∃ digits, cs = '+' :: digits ∧ Digits base digits n

/-- A number in base ten, or in base sixteen after a mark. -/
inductive Numeral (cs : List Char) (n : Nat) : Prop
  | decimal (signed : Signed 10 cs n)
  | hexadecimal (mark : Char) (digits : List Char) (either : mark = 'x' ∨ mark = 'X')
      (split : cs = '0' :: mark :: digits) (signed : Signed 16 digits n)

theorem readSigned_iff {base n : Nat} {cs : List Char} (wide : base ≤ 16) :
    readDigits? base (if cs.head? = some '+' then cs.drop 1 else cs) = some n ↔ Signed base cs n := by
  have unsigned {digits : List Char} : ¬Digits base ('+' :: digits) n :=
    fun digits => digits.notMem wide (x := '+') rfl List.mem_cons_self
  unfold Signed
  by_cases plus : cs.head? = some '+'
  · obtain ⟨digits, rfl⟩ := List.head?_eq_some_iff.mp plus
    simp [readDigits?_iff wide, unsigned]
  · rw [if_neg plus, readDigits?_iff wide]
    constructor
    · exact .inl
    · rintro (digits | ⟨digits, rfl, -⟩)
      · exact digits
      · exact absurd rfl plus

theorem Signed.notMem {base n : Nat} {cs : List Char} (wide : base ≤ 16) (signed : Signed base cs n) {x : Char}
    (other : digitValue? x = none) (sign : x ≠ '+') : x ∉ cs := by
  rcases signed with digits | ⟨digits, rfl, written⟩
  · exact digits.notMem wide other
  · simp [sign, written.notMem wide other]

theorem Numeral.notMem_dash {cs : List Char} {n : Nat} (numeral : Numeral cs n) : '-' ∉ cs := by
  cases numeral with
  | decimal signed => exact signed.notMem (by decide) rfl (by decide)
  | hexadecimal mark digits either split signed =>
    have rest : '-' ∉ digits := signed.notMem (by decide) rfl (by decide)
    rcases either with rfl | rfl <;> simp [split, rest]

/-- After a mark there is but one way to read a number, since the mark is no digit of base ten. -/
theorem numeral_marked {mark : Char} {digits : List Char} {n : Nat} (either : mark = 'x' ∨ mark = 'X') :
    Numeral ('0' :: mark :: digits) n ↔ Signed 16 digits n := by
  constructor
  · intro numeral
    cases numeral with
    | decimal signed =>
      have absent : mark ∉ '0' :: mark :: digits := by
        rcases either with rfl | rfl
        · exact signed.notMem (by decide) rfl (by decide)
        · exact signed.notMem (by decide) rfl (by decide)
      simp at absent
    | hexadecimal _ _ _ split signed =>
      cases split
      exact signed
  · exact .hexadecimal mark digits either rfl

theorem numeral_unmarked {cs : List Char} {n : Nat} (lower : ∀ digits, cs ≠ '0' :: 'x' :: digits)
    (upper : ∀ digits, cs ≠ '0' :: 'X' :: digits) : Numeral cs n ↔ Signed 10 cs n := by
  constructor
  · intro numeral
    cases numeral with
    | decimal signed => exact signed
    | hexadecimal mark digits either split signed =>
      rcases either with rfl | rfl
      · exact absurd split (lower digits)
      · exact absurd split (upper digits)
  · exact .decimal

end IsoTransport.Text

import Mathlib
import IsoTransport.Json.Number
import IsoTransport.Text.Hex

/-!
Numbers are read back from their digits, in identifier lists (`readDigits?_toDigits`) and in documents
(`gather_toDigits`).
-/

namespace IsoTransport

/-- By the last digit: a number of one digit, or one digit more. -/
theorem toDigits_induction {base : Nat} (two : 1 < base) {P : Nat → List Char → Prop}
    (one : ∀ d < base, P d [d.digitChar])
    (more : ∀ n cs d, 0 < n → d < base → P n cs → P (base * n + d) (cs ++ [d.digitChar])) (n : Nat) :
    P n (Nat.toDigits base n) := by
  induction n using Nat.strongRecOn with
  | _ n ih =>
    by_cases small : n < base
    · rw [Nat.toDigits_of_lt_base small]
      exact one n small
    · have le := Nat.le_of_not_lt small
      have positive : 0 < n / base := Nat.div_pos le (by omega)
      have step := more (n / base) _ (n % base) positive (Nat.mod_lt n (by omega))
        (ih (n / base) (Nat.div_lt_self (by omega) two))
      rw [Nat.div_add_mod] at step
      rw [Nat.toDigits_of_base_le two le]
      exact step

namespace Text

theorem digitOf?_digitChar {base d : Nat} (wide : base ≤ 16) (small : d < base) :
    digitOf? base d.digitChar = some d := by
  have all : ∀ d < 16, digitValue? d.digitChar = some d := by decide
  rw [digitOf?, all d (by omega)]
  simp [small]

theorem readDigits?_concat {base n d : Nat} {cs : List Char} {c : Char} (read : readDigits? base cs = some n)
    (digit : digitOf? base c = some d) : readDigits? base (cs ++ [c]) = some (base * n + d) := by
  unfold readDigits? at read ⊢
  split at read
  · cases read
  · obtain ⟨ds, digits, rfl⟩ := Option.map_eq_some_iff.mp read
    simp [List.mapM_append, digits, digit]

theorem readDigits?_toDigits {base : Nat} (two : 1 < base) (wide : base ≤ 16) (n : Nat) :
    readDigits? base (Nat.toDigits base n) = some n := by
  induction n using toDigits_induction two with
  | one d small => simp [readDigits?, digitOf?_digitChar wide small]
  | more n cs d _ small read => exact readDigits?_concat read (digitOf?_digitChar wide small)

theorem toDigits_digits {base : Nat} (two : 1 < base) (wide : base ≤ 16) (n : Nat) :
    ∀ c ∈ Nat.toDigits base n, ∃ d < 16, c = Nat.digitChar d := by
  induction n using toDigits_induction two with
  | one d small =>
    intro c member
    exact ⟨d, by omega, List.mem_singleton.mp member⟩
  | more n cs d _ small earlier =>
    intro c member
    rcases List.mem_append.mp member with old | new
    · exact earlier c old
    · exact ⟨d, by omega, List.mem_singleton.mp new⟩

end Text

namespace Json

open Reader

theorem digitValue_digitChar {d : Nat} (small : d < 10) : digitValue d.digitChar = d :=
  Nat.toNat_digitChar_sub_48_of_lt_ten small

theorem Lexeme.gather_concat {ds : List Nat} {d m : Nat} (start : Nat) (whole : gather start ds = (m, 0))
    (fits : 10 * m + d < UInt64.size) : gather start (ds ++ [d]) = (10 * m + d, 0) := by
  induction ds generalizing start with
  | nil =>
    obtain ⟨rfl, -⟩ := Prod.mk.inj whole
    rw [List.nil_append, gather, if_pos fits, gather]
  | cons x ds ih =>
    rw [gather] at whole
    rw [List.cons_append, gather]
    split at whole
    · rename_i below
      rw [if_pos below]
      exact ih _ whole
    · exact absurd (Prod.mk.inj whole).2 (Nat.succ_ne_zero _)

/-- The digits of a number of 64 bits make it up again, and none is left out. -/
theorem Lexeme.gather_toDigits {n : Nat} (fits : n < UInt64.size) :
    gather 0 ((Nat.toDigits 10 n).map digitValue) = (n, 0) := by
  induction n using toDigits_induction (by decide : 1 < 10) with
  | one d small =>
    rw [List.map_singleton, digitValue_digitChar small, gather, if_pos (by simpa using fits), gather]
    simp
  | more n cs d _ small whole =>
    rw [List.map_append, List.map_singleton, digitValue_digitChar small]
    exact gather_concat 0 (whole (by omega)) fits

theorem toDigits_front (n : Nat) :
    ∃ d cs, Nat.toDigits 10 n = Nat.digitChar d :: cs ∧ d < 10 ∧ (d = 0 → n = 0) := by
  induction n using toDigits_induction (by decide : 1 < 10) with
  | one d small => exact ⟨d, [], rfl, small, id⟩
  | more n cs d above _ front =>
    obtain ⟨first, rest, rfl, small, zero⟩ := front
    exact ⟨first, rest ++ [d.digitChar], rfl, small, fun same => absurd (zero same) (by omega)⟩

theorem toDigits_unpadded (n : Nat) :
    ¬(((Nat.toDigits 10 n).map digitValue).head? = some 0 ∧
      1 < ((Nat.toDigits 10 n).map digitValue).length) := by
  rintro ⟨front, long⟩
  obtain ⟨d, cs, split, small, zero⟩ := toDigits_front n
  have first : d = 0 := by simpa [split, digitValue_digitChar small] using front
  rw [zero first, Nat.toDigits_zero] at long
  exact absurd long (by decide)

end Json

end IsoTransport

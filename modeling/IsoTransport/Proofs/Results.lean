/-!
Results that may be faults: what a sequence of steps that got through says of each of them.
-/

namespace IsoTransport

variable {ε α β : Type}

theorem ok_of_bind {x : Except ε α} {f : α → Except ε β} {b : β} (read : x >>= f = .ok b) :
    ∃ a, x = .ok a ∧ f a = .ok b := by
  cases x with
  | error fault => cases read
  | ok a => exact ⟨a, rfl, read⟩

/-- The first value that is refused stops the sequence with its fault. -/
theorem mapM_find? {f : β → Except ε α} {g : α → β} (bad : α → Bool) (fault : α → ε)
    (each : ∀ a, f (g a) = if bad a then .error (fault a) else .ok a) (as : List α) :
    (as.map g).mapM f =
      match as.find? bad with
      | some a => .error (fault a)
      | none => .ok as := by
  induction as with
  | nil => rfl
  | cons a as ih =>
    rw [List.map_cons, List.mapM_cons, each, ih, List.find?_cons]
    cases bad a with
    | true => rfl
    | false =>
      cases as.find? bad with
      | some _ => rfl
      | none => rfl

theorem forall_of_mapM {f : β → Except ε α} {P : α → Prop} (each : ∀ b a, f b = .ok a → P a) {bs : List β}
    {as : List α} (done : bs.mapM f = .ok as) : ∀ a ∈ as, P a := by
  induction bs generalizing as with
  | nil =>
    cases done
    intro a member
    cases member
  | cons b bs ih =>
    rw [List.mapM_cons] at done
    obtain ⟨a, first, done⟩ := ok_of_bind done
    obtain ⟨others, rest, done⟩ := ok_of_bind done
    cases done
    intro x member
    rcases List.mem_cons.mp member with rfl | member
    · exact each b x first
    · exact ih rest x member

end IsoTransport

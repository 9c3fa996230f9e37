import IsoTransport.Json.Record
import IsoTransport.Proofs.Results

/-!
What readers yield, whatever text they are given. A property of the items holds of a sequence, and one that
every field keeps holds of a record (`Yields.sequence`, `yields_record`).
-/

namespace IsoTransport.Json

namespace Reader

variable {ε α β σ : Type} {r item : Reader ε α} {P : α → Prop} {Q : β → Prop} {I : σ → Prop}

def Yields (r : Reader ε α) (P : α → Prop) : Prop := ∀ cs a rest, r cs = .ok (a, rest) → P a

theorem bind_inv {f : α → Reader ε β} {cs rest : List Char} {b : β}
    (read : (r >>= f) cs = .ok (b, rest)) :
    ∃ a cs', r cs = .ok (a, cs') ∧ f a cs' = .ok (b, rest) := by
  obtain ⟨taken, first, left⟩ := ok_of_bind read
  exact ⟨taken.1, taken.2, first, left⟩

theorem yields_true : Yields r fun _ => True := fun _ _ _ _ => trivial

theorem yields_fail (f : Fault ε) : Yields (fail f) P := fun _ _ _ read => nomatch read

theorem yields_pure {a : α} (holds : P a) : Yields (pure a : Reader ε α) P := by
  intro cs b rest read
  cases read
  exact holds

theorem Yields.bind {f : α → Reader ε β} (first : Yields r P) (after : ∀ a, P a → Yields (f a) Q) :
    Yields (r >>= f) Q := by
  intro cs b rest read
  obtain ⟨a, cs', taken, left⟩ := bind_inv read
  exact after a (first cs a cs' taken) cs' b rest left

theorem Yields.after {f : α → Reader ε β} (after : ∀ a, Yields (f a) Q) : Yields (r >>= f) Q :=
  yields_true.bind fun a _ => after a

theorem yields_mismatch (wanted : Wanted) : Yields (mismatch wanted : Reader ε α) P :=
  Yields.after fun _ => yields_fail _

theorem yields_withSteps {r : Steps → Reader ε α} (each : ∀ steps, Yields (r steps) P) :
    Yields (withSteps r) P :=
  fun cs => each _ cs

theorem yields_refine {f : α → Except ε β} (accepts : ∀ a b, f a = .ok b → Q b) : Yields (r.refine f) Q := by
  unfold Reader.refine
  refine Yields.after fun a => ?_
  split
  · rename_i b accepted
    exact yields_pure (accepts a b accepted)
  · exact yields_fail _

/-! ### Sequences -/

theorem yields_moreItems (each : Yields item P) (steps : Steps) :
    Yields (moreItems item steps) fun as => ∀ a ∈ as, P a := by
  induction steps with
  | nil => exact yields_fail _
  | cons step steps ih =>
    unfold moreItems
    refine Yields.after fun c => ?_
    split
    · exact yields_pure fun a member => absurd member List.not_mem_nil
    · refine Yields.after fun _ => each.bind fun a holds => ih.bind fun as others => ?_
      exact yields_pure (List.forall_mem_cons.mpr ⟨holds, others⟩)
    · exact yields_fail _

theorem Yields.sequence (each : Yields item P) : Yields (sequence item) fun as => ∀ a ∈ as, P a := by
  unfold Reader.sequence
  refine Yields.after fun c => ?_
  split
  · exact yields_mismatch _
  · refine Yields.after fun _ => Yields.after fun c => ?_
    split
    · exact Yields.after fun _ => yields_pure fun a member => absurd member List.not_mem_nil
    · refine each.bind fun a holds => ?_
      refine (yields_withSteps (yields_moreItems each)).bind fun as others => ?_
      exact yields_pure (List.forall_mem_cons.mpr ⟨holds, others⟩)

/-! ### Records -/

/-- The updates that the field can read keep a property of the record. -/
def FieldKeeps (I : σ → Prop) (field : Field ε σ) : Prop :=
  Yields field.read fun update => ∀ s, I s → I (update s)

theorem fieldKeeps_cons {name : String} {value : Reader ε α} {put : σ → α → σ} (yields : Yields value P)
    (kept : ∀ s a, I s → P a → I (put s a)) {fields : List (Field ε σ)}
    (others : ∀ field ∈ fields, FieldKeeps I field) :
    ∀ field ∈ Field.of name value put :: fields, FieldKeeps I field := by
  refine List.forall_mem_cons.mpr ⟨?_, others⟩
  exact yields.bind fun a holds => yields_pure fun s before => kept s a before holds

variable {shape : RecordShape ε σ} (fields : ∀ field ∈ shape.fields, FieldKeeps I field)
include fields

theorem yields_fieldOf (seen : List String) {s : σ} (before : I s) :
    Yields (fieldOf shape seen s) fun read => I read.2 := by
  unfold fieldOf
  refine Yields.after fun _ => Yields.after fun name => ?_
  split
  · rename_i field found
    have kept : FieldKeeps I field := fields field (List.mem_of_find?_eq_some found)
    have value : Yields (expect ':' >>= fun _ => field.read >>= fun update => pure (name :: seen, update s))
        fun read => I read.2 :=
      Yields.after fun _ => kept.bind fun update keeps => yields_pure (keeps s before)
    dsimp only
    -- a name seen before is refused, so nothing is read behind the first branch
    split
    · exact Yields.after fun _ => value
    · exact value
  · have value : Yields (expect ':' >>= fun _ => skipValue >>= fun _ => (pure (seen, s) : Reader ε _))
        fun read => I read.2 :=
      Yields.after fun _ => Yields.after fun _ => yields_pure before
    dsimp only
    split
    · exact Yields.after fun _ => value
    · exact value

theorem yields_moreFields (steps : Steps) (seen : List String) {s : σ} (before : I s) :
    Yields (moreFields shape steps seen s) I := by
  induction steps generalizing seen s with
  | nil => exact yields_fail _
  | cons step steps ih =>
    unfold moreFields
    refine Yields.after fun c => ?_
    split
    · exact yields_pure before
    · exact (yields_fieldOf fields seen before).bind fun read kept => ih read.1 kept
    · exact yields_fail _

theorem yields_objectOf (default : I shape.default) : Yields (objectOf shape) I := by
  unfold objectOf
  refine Yields.after fun _ => Yields.after fun c => ?_
  split
  · exact Yields.after fun _ => yields_pure default
  · refine (yields_fieldOf fields [] default).bind fun read kept => ?_
    exact yields_withSteps fun steps => yields_moreFields fields steps read.1 kept

omit fields in
theorem yields_moreValues {rest : List (Field ε σ)} (each : ∀ field ∈ rest, FieldKeeps I field) {s : σ}
    (before : I s) : Yields (moreValues rest s) I := by
  induction rest generalizing s with
  | nil => exact Yields.after fun _ => yields_pure before
  | cons field rest ih =>
    obtain ⟨first, others⟩ := List.forall_mem_cons.mp each
    unfold moreValues
    refine Yields.after fun c => ?_
    split
    · exact yields_pure before
    · exact Yields.after fun _ => first.bind fun update keeps => ih others (keeps s before)
    · exact yields_fail _

theorem yields_valuesOf (default : I shape.default) : Yields (valuesOf shape) I := by
  unfold valuesOf
  refine Yields.after fun _ => Yields.after fun c => ?_
  split
  · exact Yields.after fun _ => yields_pure default
  · split
    · exact yields_fail _
    · rename_i field rest split
      rw [split] at fields
      obtain ⟨first, others⟩ := List.forall_mem_cons.mp fields
      exact first.bind fun update keeps => yields_moreValues others (keeps _ default)

theorem yields_record (default : I shape.default) : Yields (record shape) I := by
  unfold record
  refine Yields.after fun c => ?_
  split
  · exact yields_objectOf fields default
  · exact yields_valuesOf fields default
  · exact yields_mismatch _

omit fields in
theorem Yields.document (yields : Yields r P) {text : String} {a : α} (read : document r text = .ok a) :
    P a := by
  unfold Reader.document at read
  obtain ⟨⟨b, rest⟩, first, read⟩ := ok_of_bind read
  have holds : P b := yields _ b rest first
  dsimp only at read
  split at read
  · cases read
    exact holds
  · cases read

end Reader

end IsoTransport.Json

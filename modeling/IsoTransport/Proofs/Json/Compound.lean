import IsoTransport.Json.Record
import IsoTransport.Proofs.Json.Scalars

/-!
Sequences and records are read back from their written form, item after item and field after field
(`Reads.sequence`, `reads_record`), and so is a document (`document_pretty`).
-/

namespace IsoTransport.Json

namespace Reader

variable {ε α σ : Type} {r item : Reader ε α} {a : α} {rest blanks : List Char} {level : Nat}

/-! ### Around values -/

theorem blanks_newline (level : Nat) : Blanks (newline level) := by
  intro c member
  rcases List.mem_cons.mp member with rfl | indent
  · rfl
  · rw [(List.mem_replicate.mp indent).2]
    rfl

theorem blanks_one : Blanks [' '] := by
  intro c member
  rw [List.mem_singleton.mp member]
  rfl

theorem write_items (level : Nat) (v : Value) (items : List Value) (rest : List Char) :
    Value.write level (.sequence (v :: items)) ++ rest = '[' :: (newline (level + 1) ++
      (v.write (level + 1) ++ (writeItems (level + 1) items ++ (newline level ++ ']' :: rest)))) := by
  simp [Value.write]

theorem write_fields (level : Nat) (name : String) (v : Value) (fields : List (String × Value))
    (rest : List Char) : Value.write level (.map ((name, v) :: fields)) ++ rest =
      '{' :: (newline (level + 1) ++ (writeText name ++ ':' :: ' ' :: (v.write (level + 1) ++
        (writeFields (level + 1) fields ++ (newline level ++ '}' :: rest))))) := by
  simp [Value.write]

/-- What stands in front of a value tells it from the end of a sequence. -/
theorem write_front (level : Nat) (v : Value) (rest : List Char) :
    ∃ c cs, v.write level ++ rest = c :: cs ∧ isBlank c = false ∧ c ≠ ']' := by
  cases v with
  | null => exact ⟨'n', _, by rw [Value.write, List.cons_append], rfl, by decide⟩
  | boolean b =>
    cases b with
    | true => exact ⟨'t', _, by rw [Value.write, List.cons_append], rfl, by decide⟩
    | false => exact ⟨'f', _, by rw [Value.write, List.cons_append], rfl, by decide⟩
  | number n =>
    obtain ⟨d, cs, split, small, -⟩ := toDigits_front n
    have other : ∀ d < 10, Nat.digitChar d ≠ ']' := by decide
    exact ⟨d.digitChar, _, by rw [Value.write, split, List.cons_append], isDigit_solid small, other d small⟩
  | text s => exact ⟨'"', _, by rw [Value.write, writeText_append], rfl, by decide⟩
  | sequence items =>
    cases items with
    | nil => exact ⟨'[', _, by rw [Value.write, List.cons_append], rfl, by decide⟩
    | cons item items => exact ⟨'[', _, write_items .., rfl, by decide⟩
  | map fields =>
    cases fields with
    | nil => exact ⟨'{', _, by rw [Value.write, List.cons_append], rfl, by decide⟩
    | cons field fields => exact ⟨'{', _, write_fields .., rfl, by decide⟩

theorem ends_comma : Ends (',' :: rest) := by
  intro c front
  exact .inl (Option.mem_some_iff.mp front).symm

theorem ends_newline : Ends (newline level ++ rest) := by
  intro c front
  exact .inr (Option.mem_some_iff.mp front).symm

/-! ### Sequences -/

theorem ends_items (level : Nat) (items : List Value) (outer : Nat) (rest : List Char) :
    Ends (writeItems level items ++ (newline outer ++ rest)) := by
  cases items with
  | nil => exact ends_newline
  | cons v items =>
    rw [writeItems, List.append_assoc, List.append_assoc]
    exact ends_comma

/-- An item behind blanks: it is not the end, and it is read where the blanks end. -/
theorem afterComma_item {v : Value} (blank : Blanks blanks) :
    (afterComma ']' : Reader ε Unit) (blanks ++ (v.write level ++ rest)) =
      .ok ((), v.write level ++ rest) := by
  obtain ⟨c, cs, split, solid, other⟩ := write_front level v rest
  unfold afterComma
  rw [split, bind_ok (peek_ok blank solid), if_neg other]
  rfl

theorem moreItems_written {items : List Value} {as : List α} (reads : List.Forall₂ (Reads item) items as)
    {steps : Steps} (enough : items.length < steps.length) (level outer : Nat) (rest : List Char) :
    moreItems item steps (writeItems level items ++ (newline outer ++ ']' :: rest)) = .ok (as, rest) := by
  induction reads generalizing steps with
  | nil =>
    cases steps with
    | nil => exact absurd enough (Nat.not_lt_zero _)
    | cons step steps =>
      unfold moreItems
      rw [writeItems, List.nil_append, bind_ok (symbol_ok (blanks_newline outer) (by decide))]
      rfl
  | @cons v a items as first _ ih =>
    cases steps with
    | nil => exact absurd enough (Nat.not_lt_zero _)
    | cons step steps =>
      have here := first.here level (ends_items level items outer (']' :: rest))
      have after := ih (Nat.lt_of_succ_lt_succ enough)
      unfold moreItems
      rw [writeItems, List.append_assoc, List.append_assoc, List.cons_append,
        bind_ok (symbol_here (by decide))]
      show (afterComma ']' >>= _) _ = _
      rw [bind_ok (afterComma_item (blanks_newline level)), bind_ok here, bind_ok after]
      rfl

theorem length_le_items (level : Nat) (items : List Value) :
    items.length ≤ (writeItems level items).length := by
  induction items with
  | nil => exact Nat.le_refl 0
  | cons v items ih =>
    simp only [writeItems, List.length_append, List.length_cons]
    omega

theorem Reads.sequence {items : List Value} {as : List α} (reads : List.Forall₂ (Reads item) items as) :
    Reads (sequence item) (.sequence items) as := by
  intro level blanks rest blank _
  unfold Reader.sequence
  cases reads with
  | nil =>
    have written : Value.write level (.sequence []) ++ rest = '[' :: ']' :: rest := by simp [Value.write]
    rw [written, bind_ok (peek_ok blank (by decide)), if_neg (by decide), bind_ok (expect_here (by decide)),
      bind_ok (peek_here (by decide)), if_pos rfl, bind_ok (expect_here (by decide))]
    rfl
  | @cons v a items as first others =>
    have here := first.here (level + 1) (ends_items (level + 1) items level (']' :: rest))
    have after : withSteps (moreItems item) (writeItems (level + 1) items ++ (newline level ++ ']' :: rest)) =
        .ok (as, rest) := by
      have le := length_le_items (level + 1) items
      apply moreItems_written others
      simp only [List.length_cons, List.length_append]
      omega
    obtain ⟨c, cs, split, solid, other⟩ := write_front (level + 1) v
      (writeItems (level + 1) items ++ (newline level ++ ']' :: rest))
    rw [write_items, bind_ok (peek_ok blank (by decide)), if_neg (by decide),
      bind_ok (expect_here (by decide))]
    -- the look for a closing bracket takes the blanks away, so the item is read without them
    rw [split, bind_ok (peek_ok (blanks_newline _) solid), if_neg other, ← split, bind_ok here, bind_ok after]
    rfl

/-! ### Records -/

/-- A written field that the shape knows, and the update that is read from it. -/
def Fits (shape : RecordShape ε σ) (entry : String × Value) (update : σ → σ) : Prop :=
  ∃ field, shape.fields.find? (·.name = entry.1) = some field ∧ Reads field.read entry.2 update

theorem ends_fields (level : Nat) (fields : List (String × Value)) (outer : Nat) (rest : List Char) :
    Ends (writeFields level fields ++ (newline outer ++ rest)) := by
  cases fields with
  | nil => exact ends_newline
  | cons field fields =>
    rw [writeFields, List.append_assoc, List.append_assoc, List.append_assoc]
    exact ends_comma

variable {shape : RecordShape ε σ}

theorem fits_cons {name : String} {value : Reader ε α} {put : σ → α → σ} {v : Value}
    (found : shape.fields.find? (·.name = name) = some (Field.of name value put)) (reads : Reads value v a)
    {entries : List (String × Value)} {updates : List (σ → σ)}
    (others : List.Forall₂ (Fits shape) entries updates) :
    List.Forall₂ (Fits shape) ((name, v) :: entries) ((fun s => put s a) :: updates) :=
  .cons ⟨Field.of name value put, found, reads.map fun a s => put s a⟩ others

theorem fieldOf_written {entry : String × Value} {update : σ → σ} (fits : Fits shape entry update)
    {seen : List String} (fresh : entry.1 ∉ seen) (s : σ) (level : Nat) (blank : Blanks blanks)
    (ends : Ends rest) :
    fieldOf shape seen s (blanks ++ (writeText entry.1 ++ ':' :: ' ' :: (entry.2.write level ++ rest))) =
      .ok ((entry.1 :: seen, update s), rest) := by
  obtain ⟨field, found, reads⟩ := fits
  have value : field.read (' ' :: (entry.2.write level ++ rest)) = .ok (update, rest) :=
    reads level [' '] rest blanks_one ends
  unfold fieldOf
  rw [writeText_append, bind_ok (expect_ok blank (by decide)), bind_ok (textBody_written entry.1), found]
  dsimp only
  rw [if_neg fresh, bind_ok (expect_here (by decide)), bind_ok value]
  rfl

theorem moreFields_written {entries : List (String × Value)} {updates : List (σ → σ)}
    (fits : List.Forall₂ (Fits shape) entries updates) {steps : Steps}
    (enough : entries.length < steps.length) {seen : List String}
    (fresh : ((entries.map Prod.fst).reverse ++ seen).Nodup) (s : σ) (level outer : Nat) (rest : List Char) :
    moreFields shape steps seen s (writeFields level entries ++ (newline outer ++ '}' :: rest)) =
      .ok (updates.foldl (fun s update => update s) s, rest) := by
  induction fits generalizing steps seen s with
  | nil =>
    cases steps with
    | nil => exact absurd enough (Nat.not_lt_zero _)
    | cons step steps =>
      unfold moreFields
      rw [writeFields, List.nil_append, bind_ok (symbol_ok (blanks_newline outer) (by decide))]
      rfl
  | @cons entry update entries updates first _ ih =>
    cases steps with
    | nil => exact absurd enough (Nat.not_lt_zero _)
    | cons step steps =>
      rw [List.map_cons, List.reverse_cons, List.append_assoc, List.singleton_append] at fresh
      have unseen : entry.1 ∉ seen := (List.nodup_cons.mp (List.Nodup.of_append_right fresh)).1
      have here := fieldOf_written first unseen s level (blanks_newline level)
        (ends_fields level entries outer ('}' :: rest))
      have written : writeFields level (entry :: entries) ++ (newline outer ++ '}' :: rest) = ',' ::
          (newline level ++ (writeText entry.1 ++ ':' :: ' ' :: (entry.2.write level ++
            (writeFields level entries ++ (newline outer ++ '}' :: rest))))) := by
        simp [writeFields]
      unfold moreFields
      rw [written, bind_ok (symbol_here (by decide))]
      show (fieldOf shape seen s >>= _) _ = _
      rw [bind_ok here]
      exact ih (Nat.lt_of_succ_lt_succ enough) fresh (update s)

theorem length_le_fields (level : Nat) (fields : List (String × Value)) :
    fields.length ≤ (writeFields level fields).length := by
  induction fields with
  | nil => exact Nat.le_refl 0
  | cons field fields ih =>
    simp only [writeFields, List.length_append, List.length_cons]
    omega

/-- A record that is written with fields it knows, each of them once, is read back field by field. -/
theorem reads_record {entries : List (String × Value)} {updates : List (σ → σ)} {s : σ}
    (fits : List.Forall₂ (Fits shape) entries updates) (once : (entries.map Prod.fst).Nodup)
    (result : updates.foldl (fun s update => update s) shape.default = s) :
    Reads (record shape) (.map entries) s := by
  intro level blanks rest blank _
  subst result
  unfold record
  cases fits with
  | nil =>
    have written : Value.write level (.map []) ++ rest = '{' :: '}' :: rest := by simp [Value.write]
    rw [written, bind_ok (peek_ok blank (by decide))]
    show objectOf shape _ = _
    unfold objectOf
    rw [bind_ok (expect_here (by decide)), bind_ok (peek_here (by decide)), if_pos rfl,
      bind_ok (expect_here (by decide))]
    rfl
  | @cons entry update entries updates first others =>
    have here := fieldOf_written first List.not_mem_nil shape.default (level + 1) blanks_nil
      (ends_fields (level + 1) entries level ('}' :: rest))
    rw [List.nil_append] at here
    have fresh : ((entries.map Prod.fst).reverse ++ [entry.1]).Nodup := by
      rw [← List.reverse_cons, List.nodup_reverse]
      exact once
    have after : withSteps (fun steps => moreFields shape steps [entry.1] (update shape.default))
        (writeFields (level + 1) entries ++ (newline level ++ '}' :: rest)) =
        .ok (updates.foldl (fun s update => update s) (update shape.default), rest) := by
      have le := length_le_fields (level + 1) entries
      apply moreFields_written others _ fresh
      simp only [List.length_cons, List.length_append]
      omega
    rw [write_fields, bind_ok (peek_ok blank (by decide))]
    show objectOf shape _ = _
    unfold objectOf
    rw [bind_ok (expect_here (by decide)), writeText_append,
      bind_ok (peek_ok (blanks_newline _) (by decide)), if_neg (by decide), ← writeText_append]
    show (fieldOf shape [] shape.default >>= _) _ = _
    rw [bind_ok here]
    exact after

/-! ### Documents -/

theorem document_pretty {v : Value} (reads : Reads r v a) : document r v.pretty = .ok a := by
  have ends : Ends [] := by
    intro c front
    cases front
  have read := reads.here 0 ends
  unfold document Value.pretty
  rw [String.toList_ofList, ← List.append_nil (v.write 0), read]
  rfl

end Reader

end IsoTransport.Json

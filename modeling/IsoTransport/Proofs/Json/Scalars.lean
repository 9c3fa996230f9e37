import IsoTransport.Json.Typed
import IsoTransport.Json.Value
import IsoTransport.Proofs.Text.Digits

/-!
Scalars are read back from their written form: text with all its escapes (`textBody_written`), numbers, words
and choices. `Reads` says this of a reader and a value, wherever the value is written.
-/

namespace IsoTransport.Json

namespace Reader

variable {ε α β : Type} {r : Reader ε α} {a : α} {cs cs' rest : List Char} {c : Char}

/-! ### Steps of a reader -/

theorem bind_ok {f : α → Reader ε β} (read : r cs = .ok (a, cs')) : (r >>= f) cs = f a cs' := by
  show StateT.bind r f cs = f a cs'
  unfold StateT.bind
  rw [read]
  rfl

theorem map_ok (f : α → β) (read : r cs = .ok (a, cs')) : (f <$> r) cs = .ok (f a, cs') := by
  show StateT.map f r cs = _
  unfold StateT.map
  rw [read]
  rfl

theorem seqRight_ok {r' : Reader ε β} (read : r cs = .ok (a, cs')) : (r *> r') cs = r' cs' := by
  show (r >>= fun _ => r') cs = r' cs'
  exact bind_ok read

/-- Characters that a reader of values passes over. -/
def Blanks (blanks : List Char) : Prop := ∀ c ∈ blanks, isBlank c = true

theorem dropWhile_blanks {blanks : List Char} (blank : Blanks blanks) (solid : isBlank c = false) :
    (blanks ++ c :: rest).dropWhile isBlank = c :: rest := by
  induction blanks with
  | nil => simp [solid]
  | cons b blanks ih =>
    rw [List.cons_append, List.dropWhile_cons_of_pos (blank b List.mem_cons_self)]
    exact ih fun x member => blank x (List.mem_cons_of_mem _ member)

theorem peek_ok {blanks : List Char} (blank : Blanks blanks) (solid : isBlank c = false) :
    (peek : Reader ε Char) (blanks ++ c :: rest) = .ok (c, c :: rest) := by
  unfold peek
  rw [dropWhile_blanks blank solid]

theorem symbol_ok {blanks : List Char} (blank : Blanks blanks) (solid : isBlank c = false) :
    (symbol : Reader ε Char) (blanks ++ c :: rest) = .ok (c, rest) := by
  unfold symbol
  rw [dropWhile_blanks blank solid]

theorem expect_ok {blanks : List Char} (blank : Blanks blanks) (solid : isBlank c = false) :
    (expect c : Reader ε Unit) (blanks ++ c :: rest) = .ok ((), rest) := by
  unfold expect
  rw [bind_ok (symbol_ok blank solid), if_pos rfl]
  rfl

theorem blanks_nil : Blanks [] := fun _ member => absurd member List.not_mem_nil

theorem expect_here (solid : isBlank c = false) :
    (expect c : Reader ε Unit) (c :: rest) = .ok ((), rest) :=
  expect_ok blanks_nil solid

theorem symbol_here (solid : isBlank c = false) : (symbol : Reader ε Char) (c :: rest) = .ok (c, rest) :=
  symbol_ok blanks_nil solid

theorem peek_here (solid : isBlank c = false) : (peek : Reader ε Char) (c :: rest) = .ok (c, c :: rest) :=
  peek_ok blanks_nil solid

theorem word_ok (ws : List Char) : (word ws : Reader ε Unit) (ws ++ rest) = .ok ((), rest) := by
  induction ws with
  | nil => rfl
  | cons w ws ih =>
    have here : (next .unfinished : Reader ε Char) (w :: (ws ++ rest)) = .ok (w, ws ++ rest) := rfl
    rw [List.cons_append, word, bind_ok here, if_pos rfl]
    exact ih

theorem takes_not {p : Char → Bool} (stops : ∀ c ∈ rest.head?, p c = false) :
    (takes p : Reader ε Bool) rest = .ok (false, rest) := by
  cases rest with
  | nil => rfl
  | cons c rest => simp [takes, stops c rfl]

/-! ### Text -/

theorem escape_letter {l : Char} (unit : l ≠ 'u') (known : letterEscape? l = some c) :
    (escape : Reader ε Char) (l :: rest) = .ok (c, rest) := by
  have here : (next .unfinished : Reader ε Char) (l :: rest) = .ok (l, rest) := rfl
  unfold escape
  rw [bind_ok here, if_neg unit, known]
  rfl

theorem unit_ok {four : List Char} {n : Nat} (size : four.length = 4)
    (bytes : ¬(String.ofList four).utf8ByteSize < 4) (digits : Text.readDigits? 16 four = some n) :
    (unit : Reader ε Nat) (four ++ rest) = .ok (n, rest) := by
  have taken : (four ++ rest).take 4 = four := by rw [← size, List.take_left]
  have dropped : (four ++ rest).drop 4 = rest := by rw [← size, List.drop_left]
  unfold unit
  dsimp only
  rw [taken, if_neg bytes, digits, dropped]

/-- The ways to write a character inside a text. -/
inductive Spelled (c : Char) : List Char → Prop where
  | plain (quote : c ≠ '"') (backslash : c ≠ '\\') (control : 0x20 ≤ c.toNat) : Spelled c [c]
  | letter (l : Char) (unit : l ≠ 'u') (known : letterEscape? l = some c) : Spelled c ['\\', l]
  | number (four : List Char) (size : four.length = 4) (bytes : ¬(String.ofList four).utf8ByteSize < 4)
      (digits : Text.readDigits? 16 four = some c.toNat) (small : c.toNat < 0xd800) :
      Spelled c ('\\' :: 'u' :: four)

theorem spelled_escapeChar (c : Char) : Spelled c (escapeChar c) := by
  have digits : ∀ n < 0x10, (['0', '0', '0'] ++ Text.hexDigits n).length = 4 ∧
      ¬(String.ofList (['0', '0', '0'] ++ Text.hexDigits n)).utf8ByteSize < 4 ∧
      Text.readDigits? 16 (['0', '0', '0'] ++ Text.hexDigits n) = some n := by decide +kernel
  have digits' : ∀ n < 0x10, (['0', '0'] ++ Text.hexDigits (n + 0x10)).length = 4 ∧
      ¬(String.ofList (['0', '0'] ++ Text.hexDigits (n + 0x10))).utf8ByteSize < 4 ∧
      Text.readDigits? 16 (['0', '0'] ++ Text.hexDigits (n + 0x10)) = some (n + 0x10) := by decide +kernel
  unfold escapeChar
  split
  · exact .letter '"' (by decide) rfl
  · exact .letter '\\' (by decide) rfl
  · exact .letter 'b' (by decide) rfl
  · exact .letter 'f' (by decide) rfl
  · exact .letter 'n' (by decide) rfl
  · exact .letter 'r' (by decide) rfl
  · exact .letter 't' (by decide) rfl
  · rename_i quote backslash _ _ _ _ _
    split
    · rename_i low
      obtain ⟨size, bytes, read⟩ := digits c.toNat low
      exact .number _ size bytes read (by omega)
    · split
      · rename_i high low
        obtain ⟨size, bytes, read⟩ := digits' (c.toNat - 0x10) (by omega)
        rw [Nat.sub_add_cancel (Nat.le_of_not_lt high)] at size bytes read
        exact .number _ size bytes read (by omega)
      · rename_i control
        exact .plain quote backslash (Nat.le_of_not_lt control)

theorem Spelled.length_pos (spelled : Spelled c cs) : 0 < cs.length := by
  cases spelled <;> exact Nat.succ_pos _

theorem Spelled.taken {step : Char} {steps acc : List Char} (spelled : Spelled c cs) :
    (textLoop (step :: steps) acc : Reader ε (List Char)) (cs ++ rest) = textLoop steps (c :: acc) rest := by
  have first : ∀ d ds, (next .unfinished : Reader ε Char) (d :: ds) = .ok (d, ds) := fun _ _ => rfl
  rw [textLoop]
  cases spelled with
  | plain quote backslash control =>
    rw [List.singleton_append, bind_ok (first ..), if_neg quote, if_neg backslash,
      if_neg (Nat.not_lt.mpr control)]
  | letter l unit known =>
    rw [List.cons_append, List.singleton_append, bind_ok (first ..), if_neg (by decide), if_pos rfl,
      bind_ok (escape_letter unit known)]
  | number four size bytes digits small =>
    have numeric : (numericEscape : Reader ε Char) (four ++ rest) = .ok (c, rest) := by
      have trailing : isTrailing c.toNat = false := by
        simp only [isTrailing, Bool.and_eq_false_iff, decide_eq_false_iff_not]
        omega
      have leading : isLeading c.toNat = false := by
        simp only [isLeading, Bool.and_eq_false_iff, decide_eq_false_iff_not]
        omega
      unfold numericEscape
      rw [bind_ok (unit_ok size bytes digits), trailing, leading]
      simp
      rfl
    have escaped : (escape : Reader ε Char) ('u' :: (four ++ rest)) = .ok (c, rest) := by
      unfold escape
      rw [bind_ok (first ..), if_pos rfl]
      exact numeric
    rw [List.cons_append, List.cons_append, bind_ok (first ..), if_neg (by decide), if_pos rfl,
      bind_ok escaped]

theorem textLoop_written (text : List Char) {steps : Steps} (enough : text.length < steps.length)
    (acc : List Char) :
    (textLoop steps acc : Reader ε (List Char)) (text.flatMap escapeChar ++ '"' :: rest) =
      .ok (text.reverse ++ acc, rest) := by
  induction text generalizing steps acc with
  | nil =>
    cases steps with
    | nil => exact absurd enough (Nat.not_lt_zero _)
    | cons step steps =>
      have closing : (next .unfinished : Reader ε Char) ('"' :: rest) = .ok ('"', rest) := rfl
      rw [textLoop, List.flatMap_nil, List.nil_append, bind_ok closing, if_pos rfl]
      rfl
  | cons c text ih =>
    cases steps with
    | nil => exact absurd enough (Nat.not_lt_zero _)
    | cons step steps =>
      rw [List.flatMap_cons, List.append_assoc, (spelled_escapeChar c).taken,
        ih (Nat.lt_of_succ_lt_succ enough), List.reverse_cons, List.append_assoc]
      rfl

theorem length_le_escaped (text : List Char) : text.length ≤ (text.flatMap escapeChar).length := by
  induction text with
  | nil => exact Nat.le_refl 0
  | cons c text ih =>
    have some := (spelled_escapeChar c).length_pos
    rw [List.flatMap_cons, List.length_append, List.length_cons]
    omega

/-- Text is read back up to its closing quote, whatever characters it holds. -/
theorem textBody_written (s : String) :
    (textBody : Reader ε String) (s.toList.flatMap escapeChar ++ '"' :: rest) = .ok (s, rest) := by
  have enough : s.toList.length < (' ' :: (s.toList.flatMap escapeChar ++ '"' :: rest)).length := by
    have le := length_le_escaped s.toList
    simp only [List.length_cons, List.length_append]
    omega
  have read : (withSteps (fun steps => textLoop steps []) : Reader ε (List Char))
      (s.toList.flatMap escapeChar ++ '"' :: rest) = .ok (s.toList.reverse ++ [], rest) :=
    textLoop_written s.toList enough []
  unfold textBody
  rw [bind_ok read, List.append_nil, List.reverse_reverse, String.ofList_toList]
  rfl

/-! ### Values -/

/-- What may stand behind a value: nothing, a comma or a new line. -/
def Ends (rest : List Char) : Prop := ∀ c ∈ rest.head?, c = ',' ∨ c = '\n'

/-- The reader takes the value from wherever it is written, and leaves what stands behind it. -/
def Reads (r : Reader ε α) (v : Value) (a : α) : Prop :=
  ∀ level blanks rest, Blanks blanks → Ends rest → r (blanks ++ (v.write level ++ rest)) = .ok (a, rest)

theorem Ends.not {p : Char → Bool} (ends : Ends rest) (comma : p ',' = false) (line : p '\n' = false) :
    ∀ c ∈ rest.head?, p c = false := by
  intro c front
  rcases ends c front with rfl | rfl
  · exact comma
  · exact line

theorem Reads.here {v : Value} (reads : Reads r v a) (level : Nat) (ends : Ends rest) :
    r (v.write level ++ rest) = .ok (a, rest) :=
  reads level [] rest blanks_nil ends

theorem Reads.map {v : Value} (reads : Reads r v a) (f : α → β) : Reads (f <$> r) v (f a) :=
  fun level blanks rest blank ends => map_ok f (reads level blanks rest blank ends)

theorem Reads.refine {v : Value} {f : α → Except ε β} {b : β} (reads : Reads r v a) (accepts : f a = .ok b) :
    Reads (r.refine f) v b := by
  intro level blanks rest blank ends
  unfold Reader.refine
  rw [bind_ok (reads level blanks rest blank ends), accepts]
  rfl

theorem writeText_append (s : String) (rest : List Char) :
    writeText s ++ rest = '"' :: (s.toList.flatMap escapeChar ++ '"' :: rest) := by
  simp [writeText]

theorem reads_text (s : String) : Reads (text : Reader ε String) (.text s) s := by
  intro level blanks rest blank _
  unfold text
  rw [Value.write, writeText_append, bind_ok (peek_ok blank (by decide)), if_pos rfl,
    bind_ok (expect_here (by decide))]
  exact textBody_written s

theorem reads_boolean (b : Bool) : Reads (boolean : Reader ε Bool) (.boolean b) b := by
  intro level blanks rest blank _
  unfold boolean
  cases b with
  | true =>
    have written : Value.write level (.boolean true) ++ rest = 't' :: 'r' :: 'u' :: 'e' :: rest := by
      simp [Value.write]
    rw [written, bind_ok (peek_ok blank (by decide))]
    exact seqRight_ok (word_ok ['t', 'r', 'u', 'e'])
  | false =>
    have written : Value.write level (.boolean false) ++ rest = 'f' :: 'a' :: 'l' :: 's' :: 'e' :: rest := by
      simp [Value.write]
    rw [written, bind_ok (peek_ok blank (by decide))]
    exact seqRight_ok (word_ok ['f', 'a', 'l', 's', 'e'])

theorem reads_choice {choices : List (String × α)} {name : String} (known : choices.lookup name = some a) :
    Reads (choice choices : Reader ε α) (.text name) a := by
  intro level blanks rest blank _
  unfold choice
  rw [Value.write, writeText_append, bind_ok (peek_ok blank (by decide))]
  show variant choices _ = _
  unfold variant
  rw [bind_ok (expect_here (by decide)), bind_ok (textBody_written name), known]
  rfl

/-! ### Numbers -/

theorem isDigit_solid {d : Nat} (small : d < 10) : isBlank d.digitChar = false := by
  have all : ∀ d < 10, isBlank (Nat.digitChar d) = false := by decide
  exact all d small

theorem digits_written (early : Fault ε) (n : Nat) (ends : Ends rest) :
    digits early (Nat.toDigits 10 n ++ rest) = .ok ((Nat.toDigits 10 n).map digitValue, rest) := by
  have all : ∀ c ∈ Nat.toDigits 10 n, c.isDigit = true :=
    fun c member => Nat.isDigit_of_mem_toDigits (by decide) (by decide) member
  obtain ⟨d, cs, split, small, -⟩ := toDigits_front n
  rw [split] at all ⊢
  have front : d.digitChar.isDigit = true := all _ List.mem_cons_self
  have here : next early (d.digitChar :: (cs ++ rest)) = .ok (d.digitChar, cs ++ rest) := rfl
  have taken : (cs ++ rest).takeWhile Char.isDigit = cs ∧ (cs ++ rest).dropWhile Char.isDigit = rest := by
    have inside : ∀ c ∈ cs, c.isDigit = true := fun c member => all c (List.mem_cons_of_mem _ member)
    rw [List.takeWhile_append_of_pos inside, List.dropWhile_append_of_pos inside]
    have stops := ends.not (p := Char.isDigit) (by decide) (by decide)
    cases rest with
    | nil => simp
    | cons c rest => simp [stops c rfl]
  unfold digits
  rw [List.cons_append, bind_ok here, if_pos front]
  show Except.ok ((d.digitChar :: (cs ++ rest).takeWhile Char.isDigit).map digitValue,
    (cs ++ rest).dropWhile Char.isDigit) = _
  rw [taken.1, taken.2]

theorem lexeme_written (early : Fault ε) (n : Nat) (ends : Ends rest) :
    lexeme early (Nat.toDigits 10 n ++ rest) =
      .ok ({ negative := false, whole := (Nat.toDigits 10 n).map digitValue }, rest) := by
  have sign : (takes (· = '-') : Reader ε Bool) (Nat.toDigits 10 n ++ rest) =
      .ok (false, Nat.toDigits 10 n ++ rest) := by
    obtain ⟨d, cs, split, small, -⟩ := toDigits_front n
    have plain : ∀ d < 10, decide (Nat.digitChar d = '-') = false := by decide
    refine takes_not fun c front => ?_
    rw [split, List.cons_append, List.head?_cons, Option.mem_some_iff] at front
    rw [← front]
    exact plain d small
  have whole : (pure [] : Reader ε (List Nat)) rest = .ok ([], rest) := rfl
  have point : (takes (· = '.') : Reader ε Bool) rest = .ok (false, rest) :=
    takes_not (ends.not (by decide) (by decide))
  have exponent : (takes (fun c => c = 'e' || c = 'E') : Reader ε Bool) rest = .ok (false, rest) :=
    takes_not (ends.not (by decide) (by decide))
  unfold lexeme
  rw [bind_ok sign, bind_ok (digits_written early n ends), if_neg (toDigits_unpadded n)]
  show (takes (· = '.') >>= _) rest = _
  rw [bind_ok point, if_neg Bool.false_ne_true, bind_ok whole]
  show (takes (fun c => c = 'e' || c = 'E') >>= _) rest = _
  rw [bind_ok exponent]
  rfl

theorem number_written {n : Nat} (fits : n < UInt64.size) (ends : Ends rest) :
    (number : Reader ε Found) (Nat.toDigits 10 n ++ rest) = .ok (.integer n, rest) := by
  have value : Lexeme.value? { negative := false, whole := (Nat.toDigits 10 n).map digitValue } =
      some (.integer n) := by
    simp [Lexeme.value?, Lexeme.gather_toDigits fits]
  unfold number
  rw [bind_ok (lexeme_written .unfinished n ends), value]
  rfl

theorem peek_number {blanks : List Char} (blank : Blanks blanks) (n : Nat) :
    ∃ d < 10, (peek : Reader ε Char) (blanks ++ (Nat.toDigits 10 n ++ rest)) =
      .ok (Nat.digitChar d, Nat.toDigits 10 n ++ rest) := by
  obtain ⟨d, cs, split, digit, -⟩ := toDigits_front n
  rw [split]
  exact ⟨d, digit, peek_ok blank (isDigit_solid digit)⟩

theorem reads_unsigned {bits n : Nat} (wide : bits ≤ 64) (small : n < 2 ^ bits) :
    Reads (unsigned bits : Reader ε Nat) (.number n) n := by
  intro level blanks rest blank ends
  have fits : n < UInt64.size := Nat.lt_of_lt_of_le small (Nat.pow_le_pow_right (by decide) wide)
  obtain ⟨d, digit, front⟩ := peek_number blank n
  have starts : ∀ d < 10, startsNumber (Nat.digitChar d) = true := by decide
  unfold unsigned
  rw [Value.write, bind_ok front, if_pos (starts d digit), bind_ok (number_written fits ends)]
  dsimp only
  rw [if_pos ⟨by omega, by exact_mod_cast small⟩]
  rfl

theorem reads_word {ω : Type} {bits : Nat} (wide : bits ≤ 64) {ofNat : Nat → ω} {toNat : ω → Nat} {w : ω}
    (small : toNat w < 2 ^ bits) (same : ofNat (toNat w) = w) :
    Reads (ofNat <$> unsigned bits : Reader ε ω) (.number (toNat w)) w := by
  have read : Reads (ofNat <$> unsigned bits : Reader ε ω) (.number (toNat w)) (ofNat (toNat w)) :=
    (reads_unsigned wide small).map ofNat
  rw [same] at read
  exact read

theorem reads_absent (r : Reader ε α) : Reads (optional r) .null none := by
  intro level blanks rest blank _
  have written : Value.write level .null ++ rest = 'n' :: 'u' :: 'l' :: 'l' :: rest := by simp [Value.write]
  unfold optional
  rw [written, bind_ok (peek_ok blank (by decide)), if_pos rfl]
  exact seqRight_ok (word_ok ['n', 'u', 'l', 'l'])

theorem reads_present {n : Nat} (reads : Reads r (.number n) a) :
    Reads (optional r) (.number n) (some a) := by
  intro level blanks rest blank ends
  obtain ⟨d, digit, front⟩ := peek_number blank n
  have word : ∀ d < 10, Nat.digitChar d ≠ 'n' := by decide
  unfold optional
  rw [Value.write, bind_ok front, if_neg (word d digit)]
  exact map_ok some (reads.here level ends)

end Reader

end IsoTransport.Json

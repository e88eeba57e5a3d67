import Mathlib.Data.Rat.Floor
import Mathlib.Algebra.Order.Ring.Rat

/-!
# Templates and the values read from them

A `Template` is the multimap of named attributes that every object of the
daemon carries. The model keeps the attributes in insertion order, which is
the order `Template::get` returns the attributes of one name in.

Numbers are read from the text of an attribute through an `istringstream`:
blanks are skipped, the longest numeric text is extracted, and most callers
refuse the value unless the extraction reached the end of the text.

* `parseInt`, `parseFloat`: those two reads, with floats as exact numbers;
* `readInt`: the read of a caller that takes what the text starts with;
* `Template.get`, `Template.getInt`, `Template.getFloat`: attribute reads;
* `Attribute.vectorInt`, `Attribute.replace`: the values of a vector attribute.
-/

namespace Ezilla

/-! ## Numeric text -/

/-- The characters `operator>>` skips before a number. -/
def isBlank (c : Char) : Bool :=
  c = ' ' || c = '\t' || c = '\n' || c = '\r' || c.toNat = 11 || c.toNat = 12

/-- The text without its leading blanks. -/
def skipBlanks (s : List Char) : List Char :=
  s.dropWhile isBlank

/-- An optional sign and the text after it; `true` stands for a minus. -/
def readSign : List Char → Bool × List Char
  | '-' :: s => (true, s)
  | '+' :: s => (false, s)
  | s => (false, s)

/-- The value of a run of decimal digits, read from the left. -/
def digitsValue (s : List Char) : Nat :=
  s.foldl (fun v c => 10 * v + (c.toNat - '0'.toNat)) 0

/-- `iss >> int` followed by the end of file test: the integer the whole text
stands for, or `none` where the stream fails or text is left. -/
def parseInt (text : String) : Option Int :=
  let (minus, s) := readSign (skipBlanks text.toList)
  if s ≠ [] ∧ s.all Char.isDigit then
    let v : Int := if minus then -(digitsValue s : Int) else digitsValue s
    if -2 ^ 31 ≤ v ∧ v < 2 ^ 31 then some v else none
  else
    none

/-- `iss >> int`: the number that a text starts with. -/
def readInt (text : String) : Option Int :=
  let (minus, s) := readSign (skipBlanks text.toList)
  let digits := s.takeWhile Char.isDigit
  if digits = [] then none
  else
    let v : Int := if minus then -(digitsValue digits : Int) else digitsValue digits
    if -2 ^ 31 ≤ v ∧ v < 2 ^ 31 then some v else none

/-- `iss >> unsigned int`: the number that a text starts with, where a minus counts down from
2^32. -/
def readUnsigned (text : String) : Option Nat :=
  let (minus, s) := readSign (skipBlanks text.toList)
  let digits := s.takeWhile Char.isDigit
  if digits = [] ∨ 2 ^ 32 ≤ digitsValue digits then none
  else some (if minus then (2 ^ 32 - digitsValue digits) % 2 ^ 32 else digitsValue digits)

/-- The integer that the whole text stands for. -/
def numberOf (text : String) : Option Int :=
  let (minus, s) := readSign (skipBlanks text.toList)
  if s ≠ [] ∧ s.all Char.isDigit then
    some (if minus then -(digitsValue s : Int) else digitsValue s)
  else
    none

/-- The exponent part of a decimal text: nothing, or `e` with a signed number. -/
def readExponent : List Char → Option Int
  | [] => some 0
  | c :: s =>
    if c = 'e' ∨ c = 'E' then
      let (minus, digits) := readSign s
      if digits ≠ [] ∧ digits.all Char.isDigit then
        some (if minus then -(digitsValue digits : Int) else digitsValue digits)
      else
        none
    else
      none

/-- The digits after a decimal point, where there is one, and the text after them. -/
def readFraction : List Char → List Char × List Char
  | '.' :: s => (s.takeWhile Char.isDigit, s.dropWhile Char.isDigit)
  | s => ([], s)

/-- `iss >> float` followed by the end of file test, with the exact value of the
decimal text. Values past the largest float make the stream fail. -/
def parseFloat (text : String) : Option ℚ :=
  let (minus, s) := readSign (skipBlanks text.toList)
  let whole := s.takeWhile Char.isDigit
  let (frac, rest) := readFraction (s.dropWhile Char.isDigit)
  if whole = [] ∧ frac = [] then
    none
  else
    match readExponent rest with
    | none => none
    | some e =>
      let v : ℚ := digitsValue (whole ++ frac) * (10 : ℚ) ^ (e - frac.length)
      if v < 2 ^ 128 - 2 ^ 103 then some (if minus then -v else v) else none

/-! ## Attributes and templates -/

/-- An attribute of a template: a single value, or a vector of named values. -/
inductive Attribute where
  | single (name value : String)
  | vector (name : String) (values : List (String × String))
  deriving DecidableEq, Repr

namespace Attribute

/-- The name the attribute is stored under. -/
def name : Attribute → String
  | single name _ => name
  | vector name _ => name

/-- `VectorAttribute::vector_value`: the named value, or the empty text. -/
def vectorValue (values : List (String × String)) (name : String) : String :=
  (values.lookup name).getD ""

/-- `VectorAttribute::vector_value(name, int&)`. -/
def vectorInt (values : List (String × String)) (name : String) : Option Int :=
  let value := vectorValue values name
  if value = "" then none else parseInt value

/-- `VectorAttribute::replace`. -/
def replace (values : List (String × String)) (name value : String) : List (String × String) :=
  (name, value) :: values.filter fun v => v.1 ≠ name

/-- `VectorAttribute::remove`. -/
def remove (values : List (String × String)) (name : String) : List (String × String) :=
  values.filter fun v => v.1 ≠ name

/-- A vector attribute with other values; a single one stays. -/
def modify (f : List (String × String) → List (String × String)) : Attribute → Attribute
  | single name value => single name value
  | vector name values => vector name (f values)

/-- The value of a vector attribute, or the empty text. -/
def valueText (name : String) : Attribute → String
  | single _ _ => ""
  | vector _ values => vectorValue values name

end Attribute

/-- The attributes of a template in insertion order. -/
abbrev Template := List Attribute

namespace Template

/-- `Template::get(name, vector<Attribute*>&)`: the attributes of one name. -/
def get (tmpl : Template) (name : String) : List Attribute :=
  tmpl.filter fun a => a.name = name

/-- `Template::get(name, string&)`: the value of the first attribute of that name
where it is a single attribute, else the empty text. -/
def getString (tmpl : Template) (name : String) : String :=
  match tmpl.get name with
  | .single _ value :: _ => value
  | _ => ""

/-- `Template::erase`. -/
def erase (tmpl : Template) (name : String) : Template := tmpl.filter fun a => a.name ≠ name

/-- `Template::replace` with a single value. -/
def replace (tmpl : Template) (name value : String) : Template :=
  (tmpl.filter fun a => a.name ≠ name) ++ [.single name value]

/-- `Template::get(name, int&)`. -/
def getInt (tmpl : Template) (name : String) : Option Int :=
  let sval := tmpl.getString name
  if sval = "" then none else parseInt sval

/-- `Template::get(name, float&)`. -/
def getFloat (tmpl : Template) (name : String) : Option ℚ :=
  let sval := tmpl.getString name
  if sval = "" then none else parseFloat sval

/-- The values of the vector attributes of one name; single attributes of that
name are skipped, as the callers' `dynamic_cast` does. -/
def vectors (tmpl : Template) (name : String) : List (List (String × String)) :=
  (tmpl.get name).filterMap fun
    | .vector _ values => some values
    | .single _ _ => none

/-- The texts one field has in the vector attributes of one name. -/
def vectorValues (tmpl : Template) (name field : String) : List String :=
  (tmpl.vectors name).map fun values => Attribute.vectorValue values field

end Template

/-! ## Values that are read back -/

theorem digitsValue_toDigits (n : Nat) : digitsValue (Nat.toDigits 10 n) = n :=
  Nat.ofDigitChars_ten_toDigits

/-- The first digit of a number. -/
theorem toDigits_cons (n : Nat) : ∃ c s, Nat.toDigits 10 n = c :: s ∧ c.isDigit = true := by
  cases digits : Nat.toDigits 10 n with
  | nil => exact absurd digits Nat.toDigits_ne_nil
  | cons c s =>
    refine ⟨c, s, rfl, ?_⟩
    have member : c ∈ Nat.toDigits 10 n := by rw [digits]; exact List.mem_cons_self
    exact Nat.isDigit_of_mem_toDigits (by decide) (by decide) member

theorem isBlank_of_isDigit {c : Char} (digit : c.isDigit = true) : isBlank c = false := by
  have lower : 48 ≤ c.toNat := (Char.isDigit_iff_toNat.mp digit).1
  have apart : ∀ b : Char, b.toNat < 48 → c ≠ b := fun b below is => by
    rw [is] at lower
    omega
  have apart' : ∀ n, n < 48 → c.toNat ≠ n := fun n below is => by omega
  unfold isBlank
  simp only [Bool.or_eq_false_iff, decide_eq_false_iff_not]
  exact ⟨⟨⟨⟨⟨apart _ (by decide), apart _ (by decide)⟩, apart _ (by decide)⟩,
    apart _ (by decide)⟩, apart' _ (by decide)⟩, apart' _ (by decide)⟩

/-- No blanks are skipped before a number. -/
theorem skipBlanks_toDigits (n : Nat) (rest : List Char) :
    skipBlanks (Nat.toDigits 10 n ++ rest) = Nat.toDigits 10 n ++ rest := by
  obtain ⟨c, s, digits, digit⟩ := toDigits_cons n
  rw [digits]
  exact List.dropWhile_cons_of_neg (by rw [isBlank_of_isDigit digit]; decide)

theorem readSign_of_isDigit {c : Char} {s : List Char} (digit : c.isDigit = true) :
    readSign (c :: s) = (false, c :: s) := by
  unfold readSign
  split
  · rename_i same
    cases same
    cases digit
  · rename_i same
    cases same
    cases digit
  · rfl

theorem numberOf_toString (n : Nat) : numberOf (toString n) = some (n : Int) := by
  have text : (toString n).toList = Nat.toDigits 10 n := Nat.toList_repr
  obtain ⟨c, s, digits, digit⟩ := toDigits_cons n
  have all : (Nat.toDigits 10 n).all Char.isDigit = true := List.all_eq_true.mpr fun d member =>
    Nat.isDigit_of_mem_toDigits (by decide) (by decide) member
  have skipped : skipBlanks (Nat.toDigits 10 n) = Nat.toDigits 10 n := by
    simpa only [List.append_nil] using skipBlanks_toDigits n []
  have nonempty : c :: s ≠ [] := List.cons_ne_nil c s
  unfold numberOf
  rw [text, skipped, digits, readSign_of_isDigit digit, ← digits]
  simp only [digitsValue_toDigits, all]
  rw [digits, if_pos ⟨nonempty, trivial⟩]
  rfl

theorem numberOf_neg_toString (n : Nat) : numberOf ("-" ++ toString n) = some (-(n : Int)) := by
  have text : ("-" ++ toString n).toList = '-' :: Nat.toDigits 10 n := by
    rw [String.toList_append]
    exact congrArg ('-' :: ·) Nat.toList_repr
  have all : (Nat.toDigits 10 n).all Char.isDigit = true := List.all_eq_true.mpr fun d member =>
    Nat.isDigit_of_mem_toDigits (by decide) (by decide) member
  have skipped : skipBlanks ('-' :: Nat.toDigits 10 n) = '-' :: Nat.toDigits 10 n :=
    List.dropWhile_cons_of_neg (by decide)
  unfold numberOf
  rw [text, skipped]
  simp only [readSign, digitsValue_toDigits, all]
  rw [if_pos ⟨Nat.toDigits_ne_nil, trivial⟩]
  rfl

/-- A number that was written as a text is read back. -/
theorem numberOf_toString_int (i : Int) : numberOf (toString i) = some i := by
  cases i with
  | ofNat n => exact numberOf_toString n
  | negSucc n => exact numberOf_neg_toString (n + 1)

theorem toString_int_inj {i j : Int} : toString i = toString j ↔ i = j := by
  refine ⟨fun same => ?_, fun same => by rw [same]⟩
  have read := numberOf_toString_int i
  rw [same, numberOf_toString_int] at read
  exact (Option.some.inj read).symm

theorem parseInt_eq (text : String) :
    parseInt text = (numberOf text).filter fun i => -2 ^ 31 ≤ i ∧ i < 2 ^ 31 := by
  unfold parseInt numberOf
  dsimp only
  split
  · rw [Option.filter_some]
    simp only [decide_eq_true_eq]
  · rfl

theorem parseInt_toString_int {i : Int} (lower : -2 ^ 31 ≤ i) (upper : i < 2 ^ 31) :
    parseInt (toString i) = some i := by
  rw [parseInt_eq, numberOf_toString_int, Option.filter_some, if_pos (decide_eq_true ⟨lower, upper⟩)]

/-- A text that is a number starts with it. -/
theorem readInt_of_parseInt {text : String} {i : Int} (read : parseInt text = some i) :
    readInt text = some i := by
  unfold parseInt at read
  unfold readInt
  dsimp only at read ⊢
  split at read
  · rename_i number
    have all : (readSign (skipBlanks text.toList)).2.takeWhile Char.isDigit =
        (readSign (skipBlanks text.toList)).2 := by
      have whole := @List.takeWhile_append_of_pos _ _ _ [] (List.all_eq_true.mp number.2)
      rwa [List.append_nil, List.takeWhile_nil, List.append_nil] at whole
    rw [all, if_neg number.1]
    exact read
  · cases read

theorem toString_int_ne_empty (i : Int) : toString i ≠ "" := by
  intro none
  have read := numberOf_toString_int i
  rw [none] at read
  cases read

namespace Attribute

variable {values : List (String × String)} {name name' value : String}

theorem vectorValue_replace : vectorValue (replace values name value) name = value := by
  unfold vectorValue replace
  rw [List.lookup_cons_self, Option.getD_some]

theorem lookup_filter_ne (other : name' ≠ name) :
    (values.filter fun v => v.1 ≠ name).lookup name' = values.lookup name' := by
  induction values with
  | nil => rfl
  | cons v values ih =>
    obtain ⟨key, val⟩ := v
    rw [List.filter_cons]
    rcases eq_or_ne key name with rfl | apart
    · have missed : (name' == key) = false := beq_eq_false_iff_ne.mpr other
      simp only [ne_eq, not_true_eq_false, decide_false, Bool.false_eq_true, if_false]
      rw [List.lookup_cons, missed]
      exact ih
    · simp only [ne_eq, apart, not_false_eq_true, decide_true, if_true]
      rw [List.lookup_cons, List.lookup_cons, ← ih]

theorem vectorValue_replace_ne (other : name' ≠ name) :
    vectorValue (replace values name value) name' = vectorValue values name' := by
  have missed : (name' == name) = false := beq_eq_false_iff_ne.mpr other
  unfold vectorValue replace
  rw [List.lookup_cons, missed]
  exact congrArg (fun found => Option.getD found "") (lookup_filter_ne other)

theorem vectorValue_replace_ite : vectorValue (replace values name value) name' =
    if name' = name then value else vectorValue values name' := by
  split
  · rename_i same
    rw [same, vectorValue_replace]
  · rename_i other
    exact vectorValue_replace_ne other

theorem vectorValue_remove_ne (other : name' ≠ name) :
    vectorValue (remove values name) name' = vectorValue values name' :=
  congrArg (fun found => Option.getD found "") (lookup_filter_ne other)

theorem vectorValue_ite {c : Prop} [Decidable c] {values' : List (String × String)} :
    vectorValue (if c then values else values') name =
      if c then vectorValue values name else vectorValue values' name :=
  apply_ite (vectorValue · name) c values values'

end Attribute

end Ezilla

import Ezilla.Xml.NullNames
import Ezilla.Xml.RankExpr

/-!
# Integer comparisons in requirements

An attribute is read into an int and compares to false where it does not fit; the literal of
a comparison is cut to an int. A character that no rule of the scanner matches is passed over.

* `IntText.atoi_text`, `IntText.readInt_text`: the two ways an integer is read;
* `IntComparison.evalBool_text`: the value of a comparison;
* `Foreign`, `Outside`: the texts that do not belong to the language;
* `comparisons_exact_iff`: when comparisons are those of the integers, and when the texts
  outside of the language are rejected.
-/

namespace Ezilla

open ExprToken

/-- A decimal integer as it is written. -/
structure IntText where
  minus : Bool
  digits : List Char
  some_ : digits ≠ []
  digit : ∀ c ∈ digits, c.isDigit = true

/-- The numbers of an int. -/
def FitsInt (v : Int) : Prop := -2 ^ 31 ≤ v ∧ v < 2 ^ 31

instance (v : Int) : Decidable (FitsInt v) := inferInstanceAs (Decidable (_ ∧ _))

/-- A number stopped at the bounds of a long, and its last 32 bits as an int. -/
def cutToInt (v : Int) : Int := (max (-2 ^ 63) (min v (2 ^ 63 - 1))).bmod (2 ^ 32)

theorem cutToInt_of_fits {v : Int} (fits : FitsInt v) : cutToInt v = v := by
  obtain ⟨low, high⟩ := fits
  have stays : max (-2 ^ 63) (min v (2 ^ 63 - 1)) = v := by omega
  rw [cutToInt, stays]
  apply Int.bmod_eq_of_le <;> omega

namespace IntText

def text (v : IntText) : List Char := if v.minus then '-' :: v.digits else v.digits

def value (v : IntText) : Int := if v.minus then -(digitsValue v.digits : Int) else digitsValue v.digits

theorem noFraction : ∀ f ∈ (none : Option (List Char)), f ≠ [] ∧ ∀ c ∈ f, c.isDigit = true := by
  intro f none_
  cases none_

/-- The digits as a number without a sign. -/
def numeral (v : IntText) : Numeral := ⟨v.digits, none, v.some_, v.digit, noFraction⟩

theorem readSign_text (v : IntText) : readSign v.text = (v.minus, v.digits) := by
  obtain ⟨minus, digits, some_, digit⟩ := v
  cases minus with
  | true => rfl
  | false =>
    obtain ⟨d, ds, rfl⟩ := List.exists_cons_of_ne_nil some_
    exact readSign_of_isDigit (digit d List.mem_cons_self)

theorem atoi_text (v : IntText) : atoi v.text = cutToInt v.value := by
  rw [atoi, readSign_text]
  rfl

theorem skipBlanks_text (v : IntText) : skipBlanks v.text = v.text := by
  obtain ⟨minus, digits, some_, digit⟩ := v
  cases minus with
  | true => rfl
  | false =>
    obtain ⟨d, ds, rfl⟩ := List.exists_cons_of_ne_nil some_
    have first := digit d List.mem_cons_self
    exact List.dropWhile_cons_of_neg (Bool.eq_false_iff.mp (isBlank_of_isDigit first))

theorem readInt_text (v : IntText) :
    readInt (String.ofList v.text) = if FitsInt v.value then some v.value else none := by
  have taken : v.digits.takeWhile Char.isDigit = v.digits :=
    List.takeWhile_eq_self_iff.mpr v.digit
  rw [readInt, String.toList_ofList, skipBlanks_text, readSign_text]
  dsimp only
  rw [taken, if_neg v.some_]
  rfl

theorem lex_text (v : IntText) {w : List Char} (follows : Follows w) :
    lex (v.text ++ w) = .integer v.text :: lex w := by
  have digits : lex (v.digits ++ w) = .integer v.digits :: lex w :=
    lex_numeral v.numeral follows
  unfold text
  cases v.minus with
  | false => exact digits
  | true =>
    obtain ⟨d, ds, is⟩ := List.exists_cons_of_ne_nil v.some_
    have first := v.digit d (is ▸ List.mem_cons_self)
    have glued : (v.digits ++ w).head?.any Char.isDigit = true := by
      rw [is]
      exact first
    show lex ('-' :: (v.digits ++ w)) = _
    rw [lex_minus, glued, digits]
    rfl

end IntText

/-! ## Comparisons -/

def CompareOp.text (inner : Blanks) : CompareOp → List Char
  | .eq => ['=']
  | .ne => '!' :: (inner.chars ++ ['='])
  | .gt => ['>']
  | .lt => ['<']

/-- A comparison with a literal, and the blanks around its tokens. -/
structure IntComparison where
  attr : AttrName
  op : CompareOp
  literal : IntText
  lead : Blanks
  afterName : Blanks
  inner : Blanks
  afterOp : Blanks
  trail : Blanks

/-- A literal that was cut to `cut` compares with `v` as `n` does, where it does not fit. -/
def CompareOp.Agrees : CompareOp → Int → Int → Int → Prop
  | .eq, v, cut, _ => v ≠ cut
  | .ne, v, cut, _ => v ≠ cut
  | .gt, v, cut, n => if 0 < n then v ≤ cut else cut < v
  | .lt, v, cut, n => if 0 < n then v < cut else cut ≤ v

theorem CompareOp.agrees_iff (op : CompareOp) {v cut n : Int} (vFits : FitsInt v)
    (nFits : ¬ FitsInt n) : op.Agrees v cut n ↔ op.holds v cut = op.holds v n := by
  unfold FitsInt at vFits nFits
  cases op with
  | eq =>
    have other : v ≠ n := by omega
    simp [Agrees, holds, other]
  | ne =>
    have other : v ≠ n := by omega
    simp [Agrees, holds, other]
  | gt =>
    simp only [Agrees, holds, decide_eq_decide]
    split <;> omega
  | lt =>
    simp only [Agrees, holds, decide_eq_decide]
    split <;> omega

namespace IntComparison

def text (q : IntComparison) : String :=
  String.ofList (q.lead.chars ++ (q.attr.text ++ (q.afterName.chars ++ (q.op.text q.inner ++
    (q.afterOp.chars ++ (q.literal.text ++ q.trail.chars))))))

/-- The conversions change nothing for a comparison of an attribute with the value `v`. -/
def ReadExactly (host : HostXml) (q : IntComparison) (v : Int) : Prop :=
  if q.attr.name = "CURRENT_VMS" ∧ (q.op = .eq ∨ q.op = .ne) then
    cutToInt q.literal.value ∈ host.getVmIds ↔ v = q.literal.value
  else if FitsInt v then
    FitsInt q.literal.value ∨ q.op.Agrees v (cutToInt q.literal.value) q.literal.value
  else
    q.op.holds v q.literal.value = false

theorem lex_op (op : CompareOp) (inner : Blanks) (w : List Char) :
    lex (op.text inner ++ w) = op.tokens ++ lex w := by
  have single {c : Char} (is : scan c w = (some (.chr c), w)) :
      lex (c :: w) = .chr c :: lex w := by
    rw [lex_cons, is]
    rfl
  cases op with
  | eq => exact single rfl
  | gt => exact single rfl
  | lt => exact single rfl
  | ne =>
    show lex ('!' :: (inner.chars ++ ['='] ++ w)) = _
    rw [lex_cons, List.append_assoc]
    show .chr '!' :: lex (inner.chars ++ '=' :: w) = _
    rw [lex_blanks, single rfl]
    rfl

theorem follows_op (op : CompareOp) (inner : Blanks) (w : List Char) :
    Follows (op.text inner ++ w) := by
  have stops : ∀ c ∈ ['=', '!', '>', '<'], Stops c := by
    intro c mem
    simp only [List.mem_cons, List.not_mem_nil, or_false] at mem
    rcases mem with rfl | rfl | rfl | rfl <;> exact ⟨by decide, by decide⟩
  cases op with
  | eq => exact follows_cons (stops _ (by simp)) _
  | ne => exact follows_cons (stops _ (by simp)) _
  | gt => exact follows_cons (stops _ (by simp)) _
  | lt => exact follows_cons (stops _ (by simp)) _

theorem lex_text (q : IntComparison) : lex q.text.toList =
    .string (some q.attr.name) :: q.op.tokens ++ [.integer q.literal.text] := by
  have trail : Follows q.trail.chars := by
    have ends := follows_nil.blanks q.trail
    rwa [List.append_nil] at ends
  have ended : lex q.trail.chars = [] := by
    have ends := lex_blanks q.trail []
    rwa [List.append_nil] at ends
  rw [text, String.toList_ofList, lex_blanks, lex_name _ ((follows_op _ _ _).blanks _), lex_blanks,
    lex_op, lex_blanks, IntText.lex_text _ trail, ended]
  rfl

variable {host : HostXml} {q : IntComparison}

theorem evalBool_text : evalBool host q.text = .ok
    (if q.attr.name = "CURRENT_VMS" ∧ q.op = .eq then
      decide (cutToInt q.literal.value ∈ host.getVmIds)
    else if q.attr.name = "CURRENT_VMS" ∧ q.op = .ne then
      decide (cutToInt q.literal.value ∉ host.getVmIds)
    else ((host.getXmlValues q.attr.name).head?.bind readInt).any fun val =>
      q.op.holds val (cutToInt q.literal.value)) := by
  have grouped : (BoolExpr.compare q.attr.name q.op (.integer q.literal.text)).Grouped := by
    cases q.op <;> rfl
  rw [evalBool, lex_text]
  refine evalTokens_eq_ok_iff.mpr (.inr ⟨_, grouped, rfl, ?_⟩)
  rw [BoolExpr.eval, HostXml.compare, IntText.atoi_text]
  rfl

/-- A comparison is that of the integers exactly when the conversions change nothing. -/
theorem evalBool_text_iff {v : IntText}
    (is : (host.getXmlValues q.attr.name).head? = some (String.ofList v.text)) :
    evalBool host q.text = .ok (q.op.holds v.value q.literal.value) ↔
      q.ReadExactly host v.value := by
  rw [evalBool_text, is, Option.bind_some, IntText.readInt_text, ReadExactly, Except.ok.injEq]
  by_cases vms : q.attr.name = "CURRENT_VMS" ∧ (q.op = .eq ∨ q.op = .ne)
  · rw [if_pos vms]
    obtain ⟨name, op | op⟩ := vms
    · rw [if_pos ⟨name, op⟩, op, CompareOp.holds, decide_eq_decide]
    · have notEq : ¬ (q.attr.name = "CURRENT_VMS" ∧ q.op = .eq) := by
        rw [op]
        exact fun both => by cases both.2
      rw [if_neg notEq, if_pos ⟨name, op⟩, op, CompareOp.holds, decide_eq_decide]
      exact not_iff_not
  · rw [if_neg vms, if_neg (fun both => vms ⟨both.1, .inl both.2⟩),
      if_neg (fun both => vms ⟨both.1, .inr both.2⟩)]
    by_cases fits : FitsInt v.value
    · rw [if_pos fits, if_pos fits, Option.any_some]
      by_cases small : FitsInt q.literal.value
      · rw [cutToInt_of_fits small]
        exact ⟨fun _ => .inl small, fun _ => rfl⟩
      · rw [← CompareOp.agrees_iff q.op fits small]
        exact ⟨.inr, fun either => either.resolve_left small⟩
    · rw [if_neg fits, if_neg fits, Option.any_none]
      exact eq_comm

end IntComparison

/-! ## Texts outside of the language -/

/-- What is left of a text, at a place where the scanner stands. -/
inductive Reaches : List Char → List Char → Prop where
  | here (cs : List Char) : Reaches cs cs
  | next {c : Char} {cs rest : List Char} (later : Reaches (scan c cs).2 rest) :
      Reaches (c :: cs) rest

/-- The scanner stands at a character that is no blank, and no rule matches. -/
def Foreign (cs : List Char) : Prop :=
  ∃ c rest, Reaches cs (c :: rest) ∧ (scan c rest).1 = none ∧ c ≠ ' ' ∧ c ≠ '\t'

/-- A character, or a token, that is not in the language of the requirements. -/
def Outside (text : String) : Prop :=
  Foreign text.toList ∨ ∃ c, .chr c ∈ lex text.toList ∧ c ∉ ['!', '&', '|', '=', '>', '<', '(', ')']

/-- The tokens are an expression, or there are none. -/
def Sentence (ts : List ExprToken) : Prop := ts = [] ∨ ∃ e : BoolExpr, e.Grouped ∧ e.tokens = ts

theorem mem_tokens {e : BoolExpr} {c : Char} (mem : .chr c ∈ e.tokens) :
    c ∈ ['!', '&', '|', '=', '>', '<', '(', ')'] := by
  induction e with
  | compare name op operand =>
    have inOp : .chr c ∈ op.tokens := by
      rw [BoolExpr.tokens, List.cons_append, List.mem_cons, List.mem_append,
        List.mem_singleton] at mem
      rcases mem with is | inOp | is
      · cases is
      · exact inOp
      · cases operand <;> cases is
    have either : c = '!' ∨ c = '=' ∨ c = '>' ∨ c = '<' := by
      cases op <;> simp [CompareOp.tokens] at inOp <;> tauto
    rcases either with rfl | rfl | rfl | rfl <;> simp
  | binary op l r ihl ihr =>
    rw [BoolExpr.tokens, List.mem_append, List.mem_cons] at mem
    rcases mem with left | is | right
    · exact ihl left
    · cases op <;> cases is <;> simp
    · exact ihr right
  | not e ih =>
    rcases List.mem_cons.mp mem with is | inside
    · cases is
      simp
    · exact ih inside
  | paren e ih =>
    rw [BoolExpr.tokens, List.cons_append, List.mem_cons, List.mem_append,
      List.mem_singleton] at mem
    rcases mem with is | inside | is
    · cases is
      simp
    · exact ih inside
    · cases is
      simp

section

variable {host : HostXml} {text : String}

theorem evalBool_ok_iff : (∃ b, evalBool host text = .ok b) ↔ Sentence (lex text.toList) := by
  constructor
  · intro evaluated
    obtain ⟨b, evaluated⟩ := evaluated
    rcases evalTokens_eq_ok_iff.mp evaluated with empty | tree
    · exact .inl empty.1
    · obtain ⟨e, grouped, tokens, -⟩ := tree
      exact .inr ⟨e, grouped, tokens⟩
  · intro sentence
    rcases sentence with empty | tree
    · exact ⟨true, evalTokens_eq_ok_iff.mpr (.inl ⟨empty, rfl⟩)⟩
    · obtain ⟨e, grouped, tokens⟩ := tree
      exact ⟨e.eval host, evalTokens_eq_ok_iff.mpr (.inr ⟨e, grouped, tokens, rfl⟩)⟩

theorem evalBool_unparsed_iff : evalBool host text = .error .unparsed ↔
    ¬ Sentence (lex text.toList) ∧ ¬ boolText.Meets NullComparison (lex text.toList) := by
  rw [← @evalBool_ok_iff host text, ← @evalBool_undefined_iff host text]
  constructor
  · intro rejected
    rw [rejected]
    refine ⟨fun ok => ?_, fun is => ?_⟩
    · obtain ⟨b, is⟩ := ok
      cases is
    · cases is
  · intro both
    obtain ⟨notOk, notUndefined⟩ := both
    cases evaluated : evalBool host text with
    | ok b => exact absurd ⟨b, evaluated⟩ notOk
    | error e =>
      cases e with
      | unparsed => rfl
      | undefined => exact absurd evaluated notUndefined

/-- A text outside of the language is rejected exactly when the tokens around its foreign
characters are no expression and compare no null name. -/
theorem outside_rejected_iff : (Outside text → evalBool host text = .error .unparsed) ↔
    (Foreign text.toList → ¬ Sentence (lex text.toList)) ∧
      (Outside text → ¬ boolText.Meets NullComparison (lex text.toList)) := by
  rw [evalBool_unparsed_iff]
  constructor
  · intro rejected
    exact ⟨fun foreign => (rejected (.inl foreign)).1, fun outside => (rejected outside).2⟩
  · intro both outside
    refine ⟨?_, both.2 outside⟩
    rcases outside with foreign | token
    · exact both.1 foreign
    · obtain ⟨c, mem, other⟩ := token
      intro sentence
      rcases sentence with empty | tree
      · rw [empty] at mem
        cases mem
      · obtain ⟨e, -, tokens⟩ := tree
        rw [← tokens] at mem
        exact other (mem_tokens mem)

end

/-- The comparisons are those of the integers exactly when the conversions change nothing, and
the texts outside of the language are rejected exactly when leaving the foreign characters out
makes no expression of them. -/
theorem comparisons_exact_iff (host : HostXml) :
    (∀ (q : IntComparison) (v : IntText),
      (host.getXmlValues q.attr.name).head? = some (String.ofList v.text) →
        (evalBool host q.text = .ok (q.op.holds v.value q.literal.value) ↔
          q.ReadExactly host v.value)) ∧
      ∀ text : String, (Outside text → evalBool host text = .error .unparsed) ↔
        (Foreign text.toList → ¬ Sentence (lex text.toList)) ∧
          (Outside text → ¬ boolText.Meets NullComparison (lex text.toList)) :=
  ⟨fun _ _ is => IntComparison.evalBool_text_iff is, fun _ => outside_rejected_iff⟩

/-! ## Witnesses -/

/-- A document whose attributes are all one. -/
def hostOfOnes : HostXml := ⟨fun _ => ["1"], fun _ _ _ => false, fun _ _ => false⟩

/-- The integer one. -/
def IntText.one : IntText :=
  ⟨false, ['1'], List.cons_ne_nil _ _, fun _ mem => List.mem_singleton.mp mem ▸ rfl⟩

/-- `HID = 1` -/
def IntComparison.idIsOne : IntComparison where
  attr := .word 'H' ['I', 'D'] rfl fun c mem => by
    simp only [List.mem_cons, List.not_mem_nil, or_false] at mem
    rcases mem with rfl | rfl <;> rfl
  op := .eq
  literal := .one
  lead := .none
  afterName := .one
  inner := .none
  afterOp := .one
  trail := .none

/-- `HID = 4294967297` is true of a host with the id 1, and `HID = 1;` is evaluated. -/
theorem cut_literal_and_foreign_character :
    (hostOfOnes.getXmlValues "HID").head? = some "1" ∧
      evalBool hostOfOnes "HID = 4294967297" ≠ .ok (CompareOp.eq.holds 1 4294967297) ∧
      Outside "HID = 1;" ∧ evalBool hostOfOnes "HID = 1;" ≠ .error .unparsed := by
  have large : evalBool hostOfOnes "HID = 4294967297" = .ok true := rfl
  have foreign : evalBool hostOfOnes "HID = 1;" = .ok true := rfl
  have ends : Reaches "HID = 1;".toList [';'] := .next (.next (.next (.next (.next (.here _)))))
  refine ⟨rfl, ?_, .inl ⟨';', [], ends, rfl, by decide, by decide⟩, ?_⟩
  · rw [large]
    decide
  · rw [foreign]
    decide

theorem comparisons_exact_iff_one :
    evalBool hostOfOnes IntComparison.idIsOne.text = .ok (CompareOp.eq.holds 1 1) ↔
      IntComparison.idIsOne.ReadExactly hostOfOnes 1 :=
  (comparisons_exact_iff hostOfOnes).1 .idIsOne .one (by decide)

end Ezilla

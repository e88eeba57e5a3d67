import Ezilla.Xml.ExprArith

/-!
# The texts of rank expressions

An expression as it is written, with the blanks after each of its tokens. The scanner takes
a minus and the digits right behind it as one number, wherever they stand.

* `RankExpr.text`, `RankExpr.tree`: the text, and the tree of the usual rules;
* `RankExpr.tokens`, `lex_text`: what the scanner makes of the text;
* `evalArith_eq_iff`: when the text has the value of its tree.
-/

namespace Ezilla

open ExprToken

/-- Blanks between two tokens. -/
structure Blanks where
  chars : List Char
  blank : ∀ c ∈ chars, c = ' ' ∨ c = '\t'

/-- No blanks. -/
def Blanks.none : Blanks := ⟨[], fun _ mem => absurd mem List.not_mem_nil⟩

/-- A single blank. -/
def Blanks.one : Blanks := ⟨[' '], fun _ mem => Or.inl (List.mem_singleton.mp mem)⟩

/-- A number without a sign. -/
structure Numeral where
  whole : List Char
  frac : Option (List Char)
  some_ : whole ≠ []
  digits : ∀ c ∈ whole, c.isDigit = true
  fracDigits : ∀ f ∈ frac, f ≠ [] ∧ ∀ c ∈ f, c.isDigit = true

namespace Numeral

def text (n : Numeral) : List Char :=
  match n.frac with
  | some f => n.whole ++ '.' :: f
  | none => n.whole

/-- The number with a text before it. -/
def tree (n : Numeral) (sign : List Char) : ArithTree :=
  match n.frac with
  | some _ => .float (sign ++ n.text)
  | none => .integer (sign ++ n.text)

end Numeral

/-- The name of an attribute: a word, or any text between quotes. -/
inductive AttrName where
  | word (first : Char) (rest : List Char) (letter : first.isAlpha = true)
      (others : ∀ c ∈ rest, isWord c = true)
  | quoted (inside : List Char) (some_ : inside ≠ []) (noQuote : '"' ∉ inside)

namespace AttrName

def text : AttrName → List Char
  | word first rest _ _ => first :: rest
  | quoted inside _ _ => '"' :: (inside ++ ['"'])

def name : AttrName → String
  | word first rest _ _ => String.ofList (first :: rest)
  | quoted inside _ _ => String.ofList inside

end AttrName

/-- An expression with the blanks after its tokens. -/
inductive RankExpr where
  | number (n : Numeral) (gap : Blanks)
  | attr (a : AttrName) (gap : Blanks)
  | minus (gap : Blanks) (e : RankExpr)
  | binary (op : ArithOp) (l : RankExpr) (gap : Blanks) (r : RankExpr)
  | paren (gap : Blanks) (e : RankExpr) (gap' : Blanks)

namespace RankExpr

def text : RankExpr → List Char
  | number n gap => n.text ++ gap.chars
  | attr a gap => a.text ++ gap.chars
  | minus gap e => '-' :: (gap.chars ++ e.text)
  | binary op l gap r => l.text ++ op.char :: (gap.chars ++ r.text)
  | paren gap e gap' => '(' :: (gap.chars ++ (e.text ++ ')' :: gap'.chars))

/-- The tree of the usual rules. -/
def tree : RankExpr → ArithTree
  | number n _ => n.tree []
  | attr a _ => .attr a.name
  | minus _ e => .minus e.tree
  | binary op l _ r => .binary op l.tree r.tree
  | paren _ e _ => .paren e.tree

/-- The value by the usual rules. -/
def value (host : HostXml) (readFloat : String → ℚ) (e : RankExpr) : Option ℚ :=
  e.tree.value (fun digits => digitsValue digits) (host.arithValue readFloat)

/-- The text begins with a digit. -/
def startsDigit : RankExpr → Bool
  | number _ _ => true
  | binary _ l _ _ => l.startsDigit
  | _ => false

def asNumber : RankExpr → Option Numeral
  | number n _ => some n
  | _ => none

/-- The tree with the signs that are scanned with their numbers. -/
def signed : RankExpr → ArithTree
  | number n _ => n.tree []
  | attr a _ => .attr a.name
  | minus gap e =>
    match gap.chars, e.asNumber with
    | [], some n => n.tree ['-']
    | _, _ => .minus e.signed
  | binary op l _ r => .binary op l.signed r.signed
  | paren _ e _ => .paren e.signed

/-- A binary minus has a digit right behind it. -/
def gluedMinus : RankExpr → Bool
  | minus _ e => e.gluedMinus
  | binary op l gap r => l.gluedMinus || r.gluedMinus ||
      (op = .sub && gap.chars.isEmpty && r.startsDigit)
  | paren _ e _ => e.gluedMinus
  | _ => false

/-- The first token is a number with a minus. -/
def signFirst : List ExprToken → List ExprToken
  | .integer text :: ts => .integer ('-' :: text) :: ts
  | .float text :: ts => .float ('-' :: text) :: ts
  | ts => ts

/-- A minus before some tokens. -/
def minusTokens (glued : Bool) (ts : List ExprToken) : List ExprToken :=
  if glued then signFirst ts else .chr '-' :: ts

/-- What the scanner makes of the text. -/
def tokens : RankExpr → List ExprToken
  | number n _ => (n.tree []).tokens
  | attr a _ => [.string (some a.name)]
  | minus gap e => minusTokens (gap.chars.isEmpty && e.startsDigit) e.tokens
  | binary op l gap r => l.tokens ++
      if op = .sub then minusTokens (gap.chars.isEmpty && r.startsDigit) r.tokens
      else .chr op.char :: r.tokens
  | paren _ e _ => .chr '(' :: e.tokens ++ [.chr ')']

end RankExpr

/-! ## Scanning the text -/

/-- The text ends, or a character follows that ends a word and a number. -/
def Follows (w : List Char) : Prop := ∀ c ∈ w.head?, Stops c

theorem follows_nil : Follows [] := fun _ none_ => by cases none_

theorem follows_cons {c : Char} (stops : Stops c) (w : List Char) : Follows (c :: w) := by
  intro d first
  cases first
  exact stops

theorem stops_tab : Stops '\t' := ⟨by decide, by decide⟩

theorem stops_op (op : ArithOp) : Stops op.char := by
  cases op <;> exact ⟨by decide, by decide⟩

theorem stops_close : Stops ')' := ⟨by decide, by decide⟩

theorem Follows.blanks {w : List Char} (follows : Follows w) (gap : Blanks) :
    Follows (gap.chars ++ w) := by
  obtain ⟨chars, blank⟩ := gap
  cases chars with
  | nil => exact follows
  | cons c chars =>
    show Follows (c :: (chars ++ w))
    rcases blank c List.mem_cons_self with is | is
    · rw [is]
      exact follows_cons stops_blank _
    · rw [is]
      exact follows_cons stops_tab _

/-- The part of a text that a rule takes. -/
theorem takeWhile_of_follows {p : Char → Bool} {u w : List Char} (all : ∀ c ∈ u, p c = true)
    (stop : ∀ c ∈ w.head?, p c = false) :
    (u ++ w).takeWhile p = u ∧ (u ++ w).dropWhile p = w := by
  have taken : w.takeWhile p = [] ∧ w.dropWhile p = w := by
    cases w with
    | nil => exact ⟨rfl, rfl⟩
    | cons c w =>
      have out := stop c rfl
      rw [List.takeWhile_cons, List.dropWhile_cons, out]
      exact ⟨rfl, rfl⟩
  rw [List.takeWhile_append_of_pos all, List.dropWhile_append_of_pos all, taken.1, taken.2,
    List.append_nil]
  exact ⟨rfl, rfl⟩

theorem lex_blanks (gap : Blanks) (w : List Char) : lex (gap.chars ++ w) = lex w := by
  obtain ⟨chars, blank⟩ := gap
  induction chars with
  | nil => rfl
  | cons c chars ih =>
    have rest := ih fun d mem => blank d (List.mem_cons_of_mem c mem)
    show lex (c :: (chars ++ w)) = lex w
    rcases blank c List.mem_cons_self with is | is
    · rw [is, lex_blank]
      exact rest
    · rw [is, lex_cons]
      exact rest

theorem lex_op {op : ArithOp} (other : op ≠ .sub) (w : List Char) :
    lex (op.char :: w) = .chr op.char :: lex w := by
  cases op with
  | sub => exact absurd rfl other
  | _ =>
    rw [lex_cons]
    rfl

theorem lex_paren (w : List Char) :
    lex ('(' :: w) = .chr '(' :: lex w ∧ lex (')' :: w) = .chr ')' :: lex w := by
  constructor <;> (rw [lex_cons]; rfl)

theorem not_isAlpha_of_isDigit {c : Char} (digit : c.isDigit = true) : c.isAlpha = false := by
  by_contra alpha
  rw [Bool.not_eq_false] at alpha
  have letter : c.isUpper = true ∨ c.isLower = true := Bool.or_eq_true_iff.mp alpha
  have high := (Char.isDigit_iff_toNat.mp digit).2
  rcases letter with upper | lower
  · have low := UInt32.le_iff_toNat_le.mp (of_decide_eq_true upper).1
    exact absurd (low.trans high) (by decide)
  · have low := UInt32.le_iff_toNat_le.mp (of_decide_eq_true (Bool.and_eq_true_iff.mp lower).1)
    exact absurd (low.trans high) (by decide)

/-- A digit is scanned as a number. -/
theorem scan_digit {c : Char} (digit : c.isDigit = true) (cs : List Char) :
    scan c cs = (some (scanNumber [] (c :: cs)).1, (scanNumber [] (c :: cs)).2) := by
  have notQuote : c ≠ '"' := by
    intro is
    rw [is] at digit
    cases digit
  rw [scan, if_neg notQuote, not_isAlpha_of_isDigit digit, if_neg Bool.false_ne_true, if_pos digit]

/-- A minus takes the digits right behind it. -/
theorem lex_minus (w : List Char) :
    lex ('-' :: w) = RankExpr.minusTokens (w.head?.any Char.isDigit) (lex w) := by
  cases digits : w.head?.any Char.isDigit with
  | true =>
    cases w with
    | nil => cases digits
    | cons c cs =>
      have digit : c.isDigit = true := digits
      have scanned : scan '-' (c :: cs) =
          (some (scanNumber ['-'] (c :: cs)).1, (scanNumber ['-'] (c :: cs)).2) := by
        rw [scan, if_neg (by decide), if_neg (by decide), if_neg (by decide),
          if_pos ⟨rfl, digits⟩]
      rw [lex_cons, scanned, lex_cons, scan_digit digit]
      unfold scanNumber
      dsimp only
      cases scanFraction ((c :: cs).dropWhile Char.isDigit) with
      | none => rfl
      | some frac => rfl
  | false =>
    have scanned : scan '-' w = (some (.chr '-'), w) := by
      rw [scan, if_neg (by decide), if_neg (by decide), if_neg (by decide),
        if_neg (fun both => by rw [digits] at both; exact Bool.false_ne_true both.2),
        if_pos (by decide)]
    rw [lex_cons, scanned]
    rfl

/-- A number is scanned as a whole. -/
theorem lex_numeral (n : Numeral) {w : List Char} (follows : Follows w) :
    lex (n.text ++ w) = (n.tree []).tokens ++ lex w := by
  have noDigit : ∀ c ∈ w.head?, c.isDigit = false := fun c first => (follows c first).digit
  obtain ⟨whole, frac, some_, digits, fracDigits⟩ := n
  obtain ⟨d, ds, rfl⟩ := List.exists_cons_of_ne_nil some_
  have digit := digits d List.mem_cons_self
  cases frac with
  | none =>
    obtain ⟨taken, dropped⟩ := takeWhile_of_follows digits noDigit
    have noPoint : scanFraction w = none := by
      unfold scanFraction
      split
      · rename_i c e cs
        exact if_neg fun both => (follows c rfl).point both.1
      · rfl
    have scanned : scanNumber [] (d :: ds ++ w) = (.integer (d :: ds), w) := by
      unfold scanNumber
      rw [taken, dropped]
      dsimp only
      rw [noPoint]
      rfl
    show lex (d :: (ds ++ w)) = _
    rw [lex_cons, scan_digit digit]
    rw [← List.cons_append, scanned]
    rfl
  | some f =>
    obtain ⟨someFrac, allFrac⟩ := fracDigits f rfl
    obtain ⟨x, xs, rfl⟩ := List.exists_cons_of_ne_nil someFrac
    obtain ⟨taken, dropped⟩ := takeWhile_of_follows (w := '.' :: (x :: xs ++ w)) digits
      fun c first => by
        cases first
        decide
    obtain ⟨takenFrac, droppedFrac⟩ := takeWhile_of_follows allFrac noDigit
    have point : scanFraction ('.' :: (x :: xs ++ w)) = some (x :: xs, w) := by
      rw [List.cons_append, scanFraction, if_pos ⟨rfl, allFrac x List.mem_cons_self⟩,
        ← List.cons_append, takenFrac, droppedFrac]
    have scanned : scanNumber [] (d :: ds ++ '.' :: (x :: xs ++ w)) =
        (.float (d :: ds ++ '.' :: x :: xs), w) := by
      unfold scanNumber
      rw [taken, dropped]
      dsimp only
      rw [point]
      rfl
    have text : Numeral.text ⟨d :: ds, some (x :: xs), some_, digits, fracDigits⟩ ++ w =
        d :: (ds ++ '.' :: (x :: xs ++ w)) := by
      simp [Numeral.text]
    rw [text, lex_cons, scan_digit digit, ← List.cons_append, scanned]
    rfl

/-- So is the name of an attribute. -/
theorem lex_name (a : AttrName) {w : List Char} (follows : Follows w) :
    lex (a.text ++ w) = .string (some a.name) :: lex w := by
  cases a with
  | word first rest letter others =>
    have notQuote : first ≠ '"' := by
      intro is
      rw [is] at letter
      cases letter
    obtain ⟨taken, dropped⟩ := takeWhile_of_follows others fun c is => (follows c is).word
    show lex (first :: (rest ++ w)) = _
    rw [lex_cons, scan, if_neg notQuote, if_pos letter, taken, dropped]
    rfl
  | quoted inside some_ noQuote =>
    show lex ('"' :: (inside ++ ['"'] ++ w)) = _
    rw [List.append_assoc]
    exact lex_quoted some_ noQuote

namespace RankExpr

theorem signFirst_append {ts : List ExprToken} (some_ : ts ≠ []) (us : List ExprToken) :
    signFirst (ts ++ us) = signFirst ts ++ us := by
  obtain ⟨t, ts, rfl⟩ := List.exists_cons_of_ne_nil some_
  cases t <;> rfl

theorem minusTokens_append (glued : Bool) {ts : List ExprToken} (some_ : ts ≠ [])
    (us : List ExprToken) : minusTokens glued (ts ++ us) = minusTokens glued ts ++ us := by
  cases glued with
  | true => exact signFirst_append some_ us
  | false => rfl

theorem tokens_ne_nil (e : RankExpr) : e.tokens ≠ [] := by
  induction e with
  | number n gap =>
    rw [tokens, Numeral.tree]
    cases n.frac <;> exact List.cons_ne_nil _ _
  | attr a gap => exact List.cons_ne_nil _ _
  | minus gap e ih =>
    rw [tokens, minusTokens]
    split
    · obtain ⟨t, ts, is⟩ := List.exists_cons_of_ne_nil ih
      rw [is]
      cases t <;> exact List.cons_ne_nil _ _
    · exact List.cons_ne_nil _ _
  | binary op l gap r ihl _ => exact List.append_ne_nil_of_left_ne_nil ihl _
  | paren gap e gap' _ => exact List.cons_ne_nil _ _

/-- The first character of the text. -/
theorem head_text (e : RankExpr) (w : List Char) :
    (e.text ++ w).head?.any Char.isDigit = e.startsDigit := by
  induction e generalizing w with
  | number n gap =>
    obtain ⟨d, ds, is⟩ := List.exists_cons_of_ne_nil n.some_
    have digit := n.digits d (is ▸ List.mem_cons_self)
    have head : (n.text ++ gap.chars ++ w).head? = some d := by
      rw [Numeral.text]
      cases n.frac <;> rw [is] <;> rfl
    rw [text, head]
    exact digit
  | attr a gap =>
    cases a with
    | word first rest letter others =>
      show first.isDigit = false
      by_contra digit
      rw [Bool.not_eq_false] at digit
      rw [not_isAlpha_of_isDigit digit] at letter
      cases letter
    | quoted inside some_ noQuote => rfl
  | minus gap e => rfl
  | binary op l gap r ihl _ =>
    rw [text, List.append_assoc]
    exact ihl _
  | paren gap e gap' => rfl

theorem head_blanks (gap : Blanks) (e : RankExpr) (w : List Char) :
    (gap.chars ++ (e.text ++ w)).head?.any Char.isDigit =
      (gap.chars.isEmpty && e.startsDigit) := by
  obtain ⟨chars, blank⟩ := gap
  cases chars with
  | nil => exact head_text e w
  | cons c chars =>
    show c.isDigit = (false && e.startsDigit)
    rcases blank c List.mem_cons_self with is | is <;> (rw [is]; rfl)

/-- The tokens of the text. -/
theorem lex_text (e : RankExpr) {w : List Char} (follows : Follows w) :
    lex (e.text ++ w) = e.tokens ++ lex w := by
  induction e generalizing w with
  | number n gap =>
    rw [text, List.append_assoc, lex_numeral n (follows.blanks gap), lex_blanks]
    rfl
  | attr a gap =>
    rw [text, List.append_assoc, lex_name a (follows.blanks gap), lex_blanks]
    rfl
  | minus gap e ih =>
    show lex ('-' :: (gap.chars ++ e.text ++ w)) = _
    rw [List.append_assoc, lex_minus, head_blanks, lex_blanks, ih follows,
      minusTokens_append _ e.tokens_ne_nil]
    rfl
  | binary op l gap r ihl ihr =>
    have right : lex (op.char :: (gap.chars ++ (r.text ++ w))) =
        (if op = .sub then minusTokens (gap.chars.isEmpty && r.startsDigit) r.tokens
          else .chr op.char :: r.tokens) ++ lex w := by
      by_cases isSub : op = .sub
      · rw [if_pos isSub, isSub]
        show lex ('-' :: _) = _
        rw [lex_minus, head_blanks, lex_blanks, ihr follows, minusTokens_append _ r.tokens_ne_nil]
      · rw [if_neg isSub, lex_op isSub, lex_blanks, ihr follows]
        rfl
    have split : (binary op l gap r).text ++ w =
        l.text ++ op.char :: (gap.chars ++ (r.text ++ w)) := by simp [text]
    rw [split, ihl (follows_cons (stops_op op) _), right, ← List.append_assoc]
    rfl
  | paren gap e gap' ih =>
    have split : (paren gap e gap').text ++ w =
        '(' :: (gap.chars ++ (e.text ++ ')' :: (gap'.chars ++ w))) := by simp [text]
    rw [split, (lex_paren _).1, lex_blanks, ih (follows_cons stops_close _), (lex_paren _).2,
      lex_blanks]
    simp [tokens]

/-! ## The tree of the tokens -/

theorem asNumber_eq_some {e : RankExpr} {n : Numeral} (is : e.asNumber = some n) :
    ∃ gap, e = number n gap := by
  cases e with
  | number n' gap =>
    cases is
    exact ⟨gap, rfl⟩
  | _ => cases is

/-- Only a number begins with a digit among the operands of a unary minus. -/
theorem startsDigit_of_factor {e : RankExpr} (factor : e.tree.IsFactor)
    (none_ : e.asNumber = none) : e.startsDigit = false := by
  cases e with
  | number n gap => cases none_
  | binary op l gap r => exact factor.elim
  | _ => rfl

theorem signed_minus {gap : Blanks} {e : RankExpr} (factor : e.tree.IsFactor) :
    (∃ n gap', gap.chars = [] ∧ e = number n gap' ∧ (minus gap e).signed = n.tree ['-']) ∨
      ((minus gap e).signed = .minus e.signed ∧
        (gap.chars.isEmpty && e.startsDigit) = false) := by
  cases number : e.asNumber with
  | none =>
    refine Or.inr ⟨?_, by rw [startsDigit_of_factor factor number, Bool.and_false]⟩
    rw [signed, number]
    cases gap.chars <;> rfl
  | some n =>
    obtain ⟨gap', rfl⟩ := asNumber_eq_some number
    cases chars : gap.chars with
    | nil =>
      refine Or.inl ⟨n, gap', rfl, rfl, ?_⟩
      rw [signed, chars]
      rfl
    | cons c cs =>
      refine Or.inr ⟨?_, rfl⟩
      simp only [signed, chars]

theorem usual_leaf (n : Numeral) (sign : List Char) :
    (n.tree sign).Usual ∧ (n.tree sign).IsFactor ∧ (n.tree sign).IsTerm := by
  rw [Numeral.tree]
  cases n.frac <;> exact ⟨trivial, trivial, trivial⟩

/-- The scanned signs keep the tree usual. -/
theorem signed_usual {e : RankExpr} (usual : e.tree.Usual) : e.signed.Usual ∧
    (e.tree.IsFactor → e.signed.IsFactor) ∧ (e.tree.IsTerm → e.signed.IsTerm) := by
  induction e with
  | number n gap =>
    have leaf := usual_leaf n []
    exact ⟨leaf.1, fun _ => leaf.2.1, fun _ => leaf.2.2⟩
  | attr a gap => exact ⟨trivial, fun _ => trivial, fun _ => trivial⟩
  | minus gap e ih =>
    rcases @signed_minus gap e usual.2 with ⟨n, gap', -, -, is⟩ | ⟨is, -⟩
    · have leaf := usual_leaf n ['-']
      rw [is]
      exact ⟨leaf.1, fun _ => leaf.2.1, fun _ => leaf.2.2⟩
    · rw [is]
      exact ⟨⟨(ih usual.1).1, (ih usual.1).2.1 usual.2⟩, fun _ => trivial, fun _ => trivial⟩
  | binary op l gap r ihl ihr =>
    obtain ⟨usualL, usualR, mulOp, addOp⟩ := usual
    have left := ihl usualL
    have right := ihr usualR
    exact ⟨⟨left.1, right.1, fun isMul => ⟨left.2.2 (mulOp isMul).1, right.2.1 (mulOp isMul).2⟩,
      fun isAdd => right.2.2 (addOp isAdd)⟩, False.elim, fun term => term⟩
  | paren gap e gap' ih => exact ⟨(ih usual).1, fun _ => trivial, fun _ => trivial⟩

theorem tokens_signFirst (n : Numeral) :
    signFirst (n.tree []).tokens = (n.tree ['-']).tokens := by
  rw [Numeral.tree, Numeral.tree]
  cases n.frac <;> rfl

/-- Without a binary minus that is scanned as a sign, the scanner finds the tree. -/
theorem tokens_eq {e : RankExpr} (usual : e.tree.Usual) (apart : e.gluedMinus = false) :
    e.tokens = e.signed.tokens := by
  induction e with
  | number n gap => rfl
  | attr a gap => rfl
  | minus gap e ih =>
    rcases @signed_minus gap e usual.2 with ⟨n, gap', noBlank, rfl, is⟩ | ⟨is, behind⟩
    · rw [is, tokens, noBlank]
      exact tokens_signFirst n
    · rw [is, tokens, behind, ih usual.1 apart]
      rfl
  | binary op l gap r ihl ihr =>
    simp only [gluedMinus, Bool.or_eq_false_iff] at apart
    obtain ⟨⟨left, right⟩, here⟩ := apart
    rw [tokens, ihl usual.1 left, ihr usual.2.1 right, signed, ArithTree.tokens]
    by_cases isSub : op = .sub
    · rw [isSub] at here ⊢
      have behind : (gap.chars.isEmpty && r.startsDigit) = false := here
      rw [if_pos rfl, behind]
      rfl
    · rw [if_neg isSub]
  | paren gap e gap' ih =>
    rw [tokens, ih usual apart]
    rfl

/-! ## The value of the text -/

variable {host : HostXml} {readFloat : String → ℚ}

open ArithConfig (run run_append)

/-- The tokens of a number with a minus before it do not continue an expression. -/
theorem run_value_signed {e : RankExpr} (digit : e.startsDigit = true) (v : Option ℚ)
    (pend : List Pending) (stack : List (List Pending)) (ts : List ExprToken) :
    run host readFloat (.value v pend stack) (signFirst e.tokens ++ ts) = .error .unparsed := by
  have number : ∃ text us, signFirst e.tokens = .integer text :: us ∨
      signFirst e.tokens = .float text :: us := by
    clear ts
    induction e with
    | number n gap =>
      rw [tokens, Numeral.tree]
      cases n.frac with
      | none => exact ⟨_, _, Or.inl rfl⟩
      | some f => exact ⟨_, _, Or.inr rfl⟩
    | binary op l gap r ihl _ =>
      obtain ⟨text, us, is⟩ := ihl digit
      rw [tokens, signFirst_append l.tokens_ne_nil]
      rcases is with is | is
      · exact ⟨text, _, Or.inl (by rw [is]; rfl)⟩
      · exact ⟨text, _, Or.inr (by rw [is]; rfl)⟩
    | _ => cases digit
  obtain ⟨text, us, is | is⟩ := number
  · rw [is]
    rfl
  · rw [is]
    rfl

/-- A binary minus that is scanned as a sign is a syntax error. -/
theorem run_glued {e : RankExpr} (usual : e.tree.Usual) (glued : e.gluedMinus = true)
    (pend : List Pending) (stack : List (List Pending)) (ts : List ExprToken) :
    run host readFloat (.operand pend stack) (e.tokens ++ ts) = .error .unparsed := by
  induction e generalizing pend stack ts with
  | number n gap => cases glued
  | attr a gap => cases glued
  | minus gap e ih =>
    rcases @signed_minus gap e usual.2 with ⟨n, gap', -, rfl, -⟩ | ⟨-, behind⟩
    · cases glued
    · rw [tokens, behind]
      exact ih usual.1 glued _ stack ts
  | binary op l gap r ihl ihr =>
    obtain ⟨usualL, usualR, -⟩ := usual
    rw [tokens, List.append_assoc]
    cases left : l.gluedMinus with
    | true => exact ihl usualL left pend stack _
    | false =>
      rw [run_append, tokens_eq usualL left, ArithTree.run_tokens]
      show run host readFloat (.value _ _ stack) _ = _
      by_cases here : op = .sub ∧ (gap.chars.isEmpty && r.startsDigit) = true
      · rw [if_pos here.1, here.2]
        have digit := here.2
        rw [Bool.and_eq_true] at digit
        exact run_value_signed digit.2 _ _ stack ts
      · have right : r.gluedMinus = true := by
          simp only [gluedMinus, left, Bool.false_or, Bool.or_eq_true, Bool.and_eq_true,
            decide_eq_true_eq, and_assoc] at glued
          refine glued.resolve_right fun both => here ⟨both.1, ?_⟩
          rw [Bool.and_eq_true]
          exact both.2
        have shifted : (if op = .sub then
              minusTokens (gap.chars.isEmpty && r.startsDigit) r.tokens
            else .chr op.char :: r.tokens) = .chr op.char :: r.tokens := by
          by_cases isSub : op = .sub
          · have behind : (gap.chars.isEmpty && r.startsDigit) = false := by
              rw [← Bool.not_eq_true]
              exact fun is => here ⟨isSub, is⟩
            rw [if_pos isSub, behind, isSub]
            rfl
          · rw [if_neg isSub]
        rw [shifted, List.cons_append, run, ArithConfig.step_op]
        exact ihr usualR right _ stack ts
  | paren gap e gap' ih =>
    show run host readFloat (.operand [] (pend :: stack)) (e.tokens ++ [.chr ')'] ++ ts) = _
    rw [List.append_assoc]
    exact ih usual glued [] (pend :: stack) _

/-- The text of an expression has the value of the tree of the usual rules exactly when no
binary minus has a digit right behind it, and the tree has the same value with the integers
as they are scanned and with every unary minus taking the products and quotients after it. -/
theorem evalArith_eq_iff {e : RankExpr} (usual : e.tree.Usual) (lead : Blanks) {q : ℚ}
    (value : e.value host readFloat = some q) :
    evalArith host readFloat (String.ofList (lead.chars ++ e.text)) = .ok (some q) ↔
      e.gluedMinus = false ∧
        e.signed.regroup.scannedValue host readFloat = e.value host readFloat := by
  have scanned : lex (lead.chars ++ e.text) = e.tokens := by
    have whole := lex_text e follows_nil
    rw [List.append_nil, lex_nil, List.append_nil] at whole
    rw [lex_blanks, whole]
  rw [evalArith, String.toList_ofList, scanned, value]
  cases glued : e.gluedMinus with
  | true =>
    have wrong := @run_glued host readFloat e usual glued [] [] []
    rw [List.append_nil] at wrong
    rw [evalArithTokens, wrong]
    exact ⟨fun is => (by cases is), fun both => (by cases both.1)⟩
  | false =>
    rw [tokens_eq usual glued, ArithTree.evalArithTokens_eq (signed_usual usual).1]
    exact ⟨fun is => ⟨rfl, Except.ok.inj is⟩, fun both => congrArg Except.ok both.2⟩

/-! ## A quotient by a unary minus -/

/-- A number of one digit, with a blank after it. -/
def digit (c : Char) (isDigit : c.isDigit = true) (gap : Blanks) : RankExpr :=
  number
    { whole := [c]
      frac := none
      some_ := List.cons_ne_nil c []
      digits := fun d mem => List.mem_singleton.mp mem ▸ isDigit
      fracDigits := fun _ none_ => by cases none_ } gap

/-- `8 / -(2) * 2` -/
def quotient : RankExpr :=
  binary .mul
    (binary .div (digit '8' rfl .one) .one
      (minus .none (paren .none (digit '2' rfl .none) .one))) .one (digit '2' rfl .none)

/-- A document with no attributes. -/
def noHost : HostXml := ⟨fun _ => [], fun _ _ _ => false, fun _ _ => false⟩

theorem quotient_value : quotient.text = "8 / -(2) * 2".toList ∧
    quotient.value noHost (fun _ => 0) = some (-8) ∧
    evalArith noHost (fun _ => 0) "8 / -(2) * 2" = .ok (some (-2)) := by
  refine ⟨by decide, by decide +kernel, by decide +kernel⟩

theorem quotient_usual : quotient.tree.Usual := by
  simp [quotient, digit, tree, Numeral.tree, ArithTree.Usual, ArithTree.IsTerm,
    ArithTree.IsFactor, ArithOp.isMul]

/-- The divisor is read as `-(2) * 2`. -/
theorem minus_takes_product :
    ¬ ∀ (host : HostXml) (readFloat : String → ℚ) (e : RankExpr) (lead : Blanks) (q : ℚ),
        e.tree.Usual → e.value host readFloat = some q →
          evalArith host readFloat (String.ofList (lead.chars ++ e.text)) = .ok (some q) := by
  intro always
  have claimed := always noHost (fun _ => 0) quotient .none (-8) quotient_usual quotient_value.2.1
  rw [quotient_value.1] at claimed
  have same : String.ofList (Blanks.none.chars ++ "8 / -(2) * 2".toList) = "8 / -(2) * 2" := by
    decide
  rw [same, quotient_value.2.2] at claimed
  exact absurd claimed (by decide +kernel)

/-- The sum of two and two. -/
theorem evalArith_eq_iff_sum :
    evalArith noHost (fun _ => 0) (String.ofList (Blanks.none.chars ++
        (binary .add (digit '2' rfl .one) .one (digit '2' rfl .none)).text)) = .ok (some 4) ↔
      (binary .add (digit '2' rfl .one) .one (digit '2' rfl .none)).gluedMinus = false ∧
        (binary .add (digit '2' rfl .one) .one (digit '2' rfl .none)).signed.regroup.scannedValue
            noHost (fun _ => 0) =
          (binary .add (digit '2' rfl .one) .one (digit '2' rfl .none)).value noHost fun _ => 0 :=
  evalArith_eq_iff
    (by simp [digit, tree, Numeral.tree, ArithTree.Usual, ArithTree.IsTerm, ArithOp.isMul]) .none
    (by decide +kernel)

end RankExpr

end Ezilla

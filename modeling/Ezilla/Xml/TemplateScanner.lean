import Ezilla.Xml.ExprLexer
import Ezilla.Xml.TemplateXml

/-!
# The tokens of template texts

The scanner has two start conditions: values are only read after an equal sign. At each place
it takes the longest text that a rule of its condition matches; a character that none matches
is passed over. A quoted string goes on over every quote that has a backslash before it, if
there is another quote to close it.

* `scan`: the rules, at a place that is not the end;
* `lex`: the tokens of a text;
* `Spills`: the places where a text is read otherwise when another one follows;
* `lex_newline_iff`: two texts with a newline between them give the tokens of both exactly
  where nothing spills.
-/

namespace Ezilla

namespace TemplateText

open TemplateXml

/-- The start conditions. -/
inductive Condition where
  | initial
  | value
  deriving DecidableEq, Repr

inductive Token where
  | name (variable_ : Variable)
  | equal
  | equalEmpty
  | comma
  | openBracket
  | closeBracket
  | string (val : Value)

/-- `[[:blank:]]` -/
def isGap (c : Char) : Bool := c = ' ' || c = '\t'

/-- `[[:blank:]\n]` -/
def isSpace (c : Char) : Bool := isGap c || c = '\n'

/-- `[[:alnum:]_]` -/
def isWord (c : Char) : Bool := c.isAlphanum || c = '_'

/-- The characters of strings without quotes. -/
def isPlain (c : Char) : Bool := !isSpace c && c ∉ ['=', '#', ',', '[', ']']

/-- VARIABLE -/
def nameOf (c : Char) (cs : List Char) (word : isWord c = true) : Variable where
  text := String.ofList (c :: cs.takeWhile isWord)
  nonempty := by simp
  word := by
    intro d mem
    rw [String.toList_ofList, List.mem_cons] at mem
    have isWord_d : isWord d = true := by
      rcases mem with is | inside
      · rw [is]
        exact word
      · exact List.mem_takeWhile_imp inside
    rw [isWord, Bool.or_eq_true, decide_eq_true_eq] at isWord_d
    exact isWord_d

/-- STRING -/
def valueOf (c : Char) (cs : List Char) : Value := ⟨String.ofList (c :: cs), by simp⟩

/-- The longest text before a quote with a backslash before every quote in it, and the text
after that quote; `escaped` after a backslash. -/
def closing : Bool → List Char → Option (List Char × List Char)
  | _, [] => none
  | escaped, c :: cs =>
    if c = '"' then
      if escaped then
        match closing false cs with
        | some (body, rest) => some (c :: body, rest)
        | none => some ([], cs)
      else
        some ([], cs)
    else
      (closing (c = '\\') cs).map fun out => (c :: out.1, out.2)

/-- The rules for strings: the quoted one where it matches as much as the other one. -/
def scanString (c : Char) (cs : List Char) : Value × List Char :=
  let plain := cs.takeWhile isPlain
  let unquoted := (valueOf c plain, cs.dropWhile isPlain)
  if c = '"' then
    match closing false cs with
    | some (d :: body, rest) =>
      if plain.length + 1 ≤ body.length + 3 then (valueOf d body, rest) else unquoted
    | _ => unquoted
  else
    unquoted

/-- What a rule makes of the text at a place. -/
structure Scanned where
  token : Option Token
  rest : List Char
  next : Condition

/-- The rules that can begin with blanks, where `line` follows the blanks, and `text` the blanks
and newlines. -/
def scanSpaced (line text : List Char) : Option Scanned :=
  if line.head? = some '#' ∧ '\n' ∈ line then
    some ⟨none, (line.dropWhile (· ≠ '\n')).drop 1, .initial⟩
  else if line.head? = some '=' then
    let after := (line.drop 1).dropWhile isGap
    if after.head? = some '\n' then some ⟨some .equalEmpty, after.drop 1, .initial⟩
    else some ⟨some .equal, after, .value⟩
  else if text.head? = some ',' then
    some ⟨some .comma, (text.drop 1).dropWhile isSpace, .initial⟩
  else if text.head? = some ']' then
    some ⟨some .closeBracket, (text.drop 1).dropWhile isSpace, .initial⟩
  else
    none

/-- The rules of the initial condition, on a character and the text after it. -/
def scanInitial (c : Char) (cs : List Char) : Scanned :=
  match scanSpaced ((c :: cs).dropWhile isGap) ((c :: cs).dropWhile isSpace) with
  | some scanned => scanned
  | none =>
    if isSpace c then ⟨none, (c :: cs).dropWhile isSpace, .initial⟩
    else if word : isWord c = true then
      ⟨some (.name (nameOf c cs word)), cs.dropWhile isWord, .initial⟩
    else ⟨none, cs, .initial⟩

/-- The rules of the values. -/
def scanValue (c : Char) (cs : List Char) : Scanned :=
  let line := (c :: cs).dropWhile isGap
  if line.head? = some '[' then
    ⟨some .openBracket, (line.drop 1).dropWhile isSpace, .initial⟩
  else if isPlain c then
    ⟨some (.string (scanString c cs).1), (scanString c cs).2, .initial⟩
  else
    ⟨none, cs, .value⟩

def scan : Condition → Char → List Char → Scanned
  | .initial => scanInitial
  | .value => scanValue

/-- The tokens of a text that is at most `n` characters long. -/
def lexAux : Nat → Condition → List Char → List Token
  | 0, _, _ => []
  | _ + 1, _, [] => []
  | n + 1, k, c :: cs => (scan k c cs).token.toList ++ lexAux n (scan k c cs).next (scan k c cs).rest

/-- The tokens of a text. -/
def lex (k : Condition) (cs : List Char) : List Token := lexAux cs.length k cs

/-! ## Scanning goes forward -/

theorem closing_length {escaped : Bool} {cs body rest : List Char}
    (closes : closing escaped cs = some (body, rest)) : body.length + 1 + rest.length = cs.length := by
  induction cs generalizing escaped body with
  | nil => cases closes
  | cons c cs ih =>
    unfold closing at closes
    split at closes
    · split at closes
      · split at closes
        · rename_i inside
          cases closes
          have shorter := ih inside
          simp only [List.length_cons]
          omega
        · cases closes
          simp
          omega
      · cases closes
        simp
        omega
    · obtain ⟨out, inside, is⟩ := Option.map_eq_some_iff.mp closes
      cases is
      have shorter := ih inside
      simp only [List.length_cons]
      omega

theorem scanString_length (c : Char) (cs : List Char) :
    (scanString c cs).2.length ≤ cs.length := by
  have plain := (List.dropWhile_suffix (l := cs) isPlain).length_le
  unfold scanString
  dsimp only
  split
  · split
    · rename_i closes
      have shorter := closing_length closes
      split
      · dsimp only
        omega
      · exact plain
    · exact plain
  · exact plain

theorem scanSpaced_length {c : Char} {cs : List Char} {p q : Char → Bool} {scanned : Scanned}
    (is : scanSpaced ((c :: cs).dropWhile p) ((c :: cs).dropWhile q) = some scanned) :
    scanned.rest.length ≤ cs.length := by
  have line := (List.dropWhile_suffix (l := c :: cs) p).length_le
  have text := (List.dropWhile_suffix (l := c :: cs) q).length_le
  have dropped (u : List Char) (r : Char → Bool) : (u.dropWhile r).length ≤ u.length :=
    (List.dropWhile_suffix r).length_le
  rw [List.length_cons] at line text
  unfold scanSpaced at is
  split at is
  · cases is
    have shorter := dropped ((c :: cs).dropWhile p) fun d => decide (d ≠ '\n')
    rw [List.length_drop]
    omega
  · split at is
    · have shorter := dropped (((c :: cs).dropWhile p).drop 1) isGap
      rw [List.length_drop] at shorter
      dsimp only at is
      split at is <;> cases is
      · rw [List.length_drop]
        omega
      · dsimp only
        omega
    · have shorter := dropped (((c :: cs).dropWhile q).drop 1) isSpace
      rw [List.length_drop] at shorter
      split at is
      · cases is
        dsimp only
        omega
      · split at is
        · cases is
          dsimp only
          omega
        · cases is

theorem scan_length (k : Condition) (c : Char) (cs : List Char) :
    (scan k c cs).rest.length ≤ cs.length := by
  cases k with
  | value =>
    show (scanValue c cs).rest.length ≤ cs.length
    unfold scanValue
    dsimp only
    split
    · have line := (List.dropWhile_suffix (l := c :: cs) isGap).length_le
      have text := (List.dropWhile_suffix (l := ((c :: cs).dropWhile isGap).drop 1)
        isSpace).length_le
      rw [List.length_drop] at text
      rw [List.length_cons] at line
      dsimp only
      omega
    · split
      · exact scanString_length c cs
      · exact Nat.le_refl _
  | initial =>
    show (scanInitial c cs).rest.length ≤ cs.length
    unfold scanInitial
    split
    · rename_i scanned is
      exact scanSpaced_length is
    · split
      · rename_i space
        rw [List.dropWhile_cons_of_pos space]
        exact (List.dropWhile_suffix _).length_le
      · split
        · exact (List.dropWhile_suffix _).length_le
        · exact Nat.le_refl _

/-- Any two bounds that are large enough give the same tokens. -/
theorem lexAux_eq {n m : Nat} {k : Condition} {cs : List Char} (left : cs.length ≤ n)
    (right : cs.length ≤ m) : lexAux n k cs = lexAux m k cs := by
  induction n generalizing m k cs with
  | zero =>
    rw [List.eq_nil_of_length_eq_zero (Nat.le_zero.mp left)]
    cases m <;> rfl
  | succ n ih =>
    cases cs with
    | nil => cases m <;> rfl
    | cons c cs =>
      cases m with
      | zero => exact absurd right (Nat.not_succ_le_zero _)
      | succ m =>
        have shorter := scan_length k c cs
        rw [List.length_cons] at left right
        rw [lexAux, lexAux, ih (m := m) (by omega) (by omega)]

theorem lex_nil (k : Condition) : lex k [] = [] := rfl

theorem lex_cons (k : Condition) (c : Char) (cs : List Char) : lex k (c :: cs) =
    (scan k c cs).token.toList ++ lex (scan k c cs).next (scan k c cs).rest := by
  rw [lex, List.length_cons, lexAux, lex, lexAux_eq (scan_length k c cs) (Nat.le_refl _)]

/-! ## Blanks and newlines before a token -/

section Spaces

variable {c : Char} {cs u : List Char}

theorem isSpace_of_isGap (gap : isGap c = true) : isSpace c = true := by
  rw [isSpace, gap, Bool.true_or]

theorem dropSpaces_dropGaps (u : List Char) :
    (u.dropWhile isGap).dropWhile isSpace = u.dropWhile isSpace := by
  induction u with
  | nil => rfl
  | cons c u ih =>
    cases gap : isGap c with
    | true =>
      rw [List.dropWhile_cons_of_pos gap, List.dropWhile_cons_of_pos (isSpace_of_isGap gap)]
      exact ih
    | false => rw [List.dropWhile_cons_of_neg (Bool.eq_false_iff.mp gap)]

/-- Blanks alone lead to the same place as blanks and newlines do. -/
theorem dropSpaces_of_head {d : Char} (first : (u.dropWhile isGap).head? = some d)
    (other : isSpace d = false) : u.dropWhile isSpace = u.dropWhile isGap := by
  rw [← dropSpaces_dropGaps]
  cases line : u.dropWhile isGap with
  | nil => rfl
  | cons e es =>
    rw [line] at first
    cases first
    exact List.dropWhile_cons_of_neg (Bool.eq_false_iff.mp other)

/-- A rule that begins with blanks takes the same from the place after them. -/
theorem scanSpaced_of_spaces {scanned : Scanned}
    (is : scanSpaced (u.dropWhile isGap) (u.dropWhile isSpace) = some scanned) :
    scanSpaced (u.dropWhile isSpace) (u.dropWhile isSpace) = some scanned := by
  have same {d : Char} (first : (u.dropWhile isGap).head? = some d) (other : isSpace d = false) :
      scanSpaced (u.dropWhile isSpace) (u.dropWhile isSpace) = some scanned := by
    have line := dropSpaces_of_head first other
    rw [← line] at is
    exact is
  unfold scanSpaced at is
  split at is
  · rename_i comment
    exact same comment.1 (by decide)
  · split at is
    · rename_i equal
      exact same equal (by decide)
    · rw [scanSpaced]
      split at is
      · rename_i comma
        rw [comma, if_neg (fun both => absurd both.1 (by decide)), if_neg (by decide), if_pos rfl]
        exact is
      · split at is
        · rename_i bracket
          rw [bracket, if_neg (fun both => absurd both.1 (by decide)), if_neg (by decide),
            if_neg (by decide), if_pos rfl]
          exact is
        · cases is

/-- A token takes the blanks before it, or they are passed over. -/
theorem scan_space (space : isSpace c = true) :
    scan .initial c cs = ⟨none, (c :: cs).dropWhile isSpace, .initial⟩ ∨
      ∃ d ds, (c :: cs).dropWhile isSpace = d :: ds ∧ (d = '#' → '\n' ∈ ds) ∧
        scan .initial c cs = scan .initial d ds := by
  show scanInitial c cs = _ ∨ ∃ d ds, (c :: cs).dropWhile isSpace = d :: ds ∧
    (d = '#' → '\n' ∈ ds) ∧ scanInitial c cs = scanInitial d ds
  unfold scanInitial
  cases taken : scanSpaced ((c :: cs).dropWhile isGap) ((c :: cs).dropWhile isSpace) with
  | none => exact .inl (if_pos space)
  | some scanned =>
    right
    have there := scanSpaced_of_spaces taken
    cases text : (c :: cs).dropWhile isSpace with
    | nil =>
      rw [text] at there
      cases there
    | cons d ds =>
      refine ⟨d, ds, rfl, ?_⟩
      have other : isSpace d = false := by
        have stopped := List.head_dropWhile_not isSpace (l := c :: cs) (by rw [text]; simp)
        simp only [text, List.head_cons] at stopped
        exact stopped
      have notGap : isGap d = false := by
        rw [isSpace, Bool.or_eq_false_iff] at other
        exact other.1
      rw [text] at there
      refine ⟨fun hash => ?_, ?_⟩
      · by_contra lastLine
        have none_ : '\n' ∉ d :: ds := by
          rw [hash]
          exact fun mem => (List.mem_cons.mp mem).elim (by decide) lastLine
        rw [scanSpaced, if_neg fun both => none_ both.2, hash] at there
        cases there
      · rw [List.dropWhile_cons_of_neg (Bool.eq_false_iff.mp notGap),
          List.dropWhile_cons_of_neg (Bool.eq_false_iff.mp other), there]

theorem lex_dropSpaces (u : List Char) : lex .initial (u.dropWhile isSpace) = lex .initial u := by
  cases u with
  | nil => rfl
  | cons c cs =>
    cases space : isSpace c with
    | false => rw [List.dropWhile_cons_of_neg (Bool.eq_false_iff.mp space)]
    | true =>
      rw [lex_cons]
      rcases @scan_space c cs space with passed | taken
      · rw [passed]
        rfl
      · obtain ⟨d, ds, text, -, same⟩ := taken
        rw [text, same, lex_cons]

theorem scanInitial_of_not_space (other : isSpace c = false) : scanInitial c cs =
    match scanSpaced (c :: cs) (c :: cs) with
    | some scanned => scanned
    | none =>
      if word : isWord c = true then
        ⟨some (.name (nameOf c cs word)), cs.dropWhile isWord, .initial⟩
      else ⟨none, cs, .initial⟩ := by
  have notGap : isGap c = false := by
    rw [isSpace, Bool.or_eq_false_iff] at other
    exact other.1
  rw [scanInitial, List.dropWhile_cons_of_neg (Bool.eq_false_iff.mp notGap),
    List.dropWhile_cons_of_neg (Bool.eq_false_iff.mp other), other]
  rfl

theorem lex_spaces_append (u w : List Char) :
    lex .initial ((u ++ w).dropWhile isSpace) = lex .initial (u.dropWhile isSpace ++ w) := by
  have same : (u.dropWhile isSpace ++ w).dropWhile isSpace = (u ++ w).dropWhile isSpace := by
    induction u with
    | nil => rfl
    | cons c u ih =>
      cases space : isSpace c with
      | true =>
        rw [List.dropWhile_cons_of_pos space, List.cons_append,
          List.dropWhile_cons_of_pos space, ih]
      | false => rw [List.dropWhile_cons_of_neg (Bool.eq_false_iff.mp space)]
  rw [← same, lex_dropSpaces]

end Spaces

/-! ## A text and another one after it -/

/-- Every quote has a backslash before it; `escaped` after a backslash. -/
def unclosed : Bool → List Char → Bool
  | _, [] => true
  | escaped, c :: cs => if c = '"' then escaped && unclosed false cs else unclosed (c = '\\') cs

/-- The places of a text that are read otherwise when a newline and the text `t` follow: a `#`
in the last line with tokens after it, and a quoted string that a quote of `t` closes. -/
inductive Spills (t : List Char) : Condition → List Char → Prop where
  | comment {u : List Char} (lastLine : '\n' ∉ u) (tokens : lex .initial u ≠ []) :
      Spills t .initial ('#' :: u)
  | quote {u : List Char} (open_ : unclosed false u = true) (closes : '"' ∈ t) :
      Spills t .value ('"' :: u)
  | next {k : Condition} {c : Char} {cs : List Char}
      (later : Spills t (scan k c cs).next (scan k c cs).rest) : Spills t k (c :: cs)

section Closing

variable {escaped : Bool} {u w : List Char}

/-- A quote without a backslash closes the string, whatever follows. -/
theorem closing_append (closed : unclosed escaped u = false) :
    ∃ body rest, closing escaped u = some (body, rest) ∧
      closing escaped (u ++ w) = some (body, rest ++ w) := by
  induction u generalizing escaped with
  | nil => cases closed
  | cons c u ih =>
    unfold unclosed at closed
    rw [List.cons_append, closing, closing]
    split
    · rename_i quote
      rw [if_pos quote] at closed
      cases escaped with
      | false => exact ⟨[], u, rfl, rfl⟩
      | true =>
        obtain ⟨body, rest, alone, followed⟩ := ih closed
        rw [alone, followed]
        exact ⟨c :: body, rest, rfl, rfl⟩
    · rename_i other
      rw [if_neg other] at closed
      obtain ⟨body, rest, alone, followed⟩ := ih closed
      rw [alone, followed]
      exact ⟨c :: body, rest, rfl, rfl⟩

/-- Without quotes after it, an open string ends at its last quote, or not at all. -/
theorem closing_append_of_no_quote (open_ : unclosed escaped u = true) (none_ : '"' ∉ w) :
    closing escaped (u ++ w) = (closing escaped u).map fun out => (out.1, out.2 ++ w) := by
  induction u generalizing escaped with
  | nil =>
    have never (escaped : Bool) : closing escaped w = none := by
      induction w generalizing escaped with
      | nil => rfl
      | cons c w ih =>
        have other : c ≠ '"' := fun is => none_ (is ▸ List.mem_cons_self)
        rw [closing, if_neg other, ih fun mem => none_ (List.mem_cons_of_mem c mem)]
        rfl
    exact never escaped
  | cons c u ih =>
    unfold unclosed at open_
    rw [List.cons_append, closing, closing]
    split
    · rename_i quote
      rw [if_pos quote, Bool.and_eq_true] at open_
      rw [if_pos open_.1, if_pos open_.1, ih open_.2]
      cases closing false u <;> rfl
    · rename_i other
      rw [if_neg other] at open_
      rw [ih open_]
      cases closing (decide (c = '\\')) u <;> rfl

/-- A quote after it closes an open string. -/
theorem closing_append_of_quote (open_ : unclosed escaped u = true) (mem : '"' ∈ w)
    (first : w.head? ≠ some '"') :
    ∃ body rest, body ≠ [] ∧ body.head? = w.head? ∧
      closing escaped (u ++ w) = some (u ++ body, rest) := by
  induction u generalizing escaped with
  | nil =>
    have closes (escaped : Bool) {w : List Char} (mem : '"' ∈ w) :
        ∃ body rest, closing escaped w = some (body, rest) := by
      induction w generalizing escaped with
      | nil => cases mem
      | cons c w ih =>
        rw [closing]
        split
        · split
          · split
            · exact ⟨_, _, rfl⟩
            · exact ⟨_, _, rfl⟩
          · exact ⟨_, _, rfl⟩
        · rename_i other
          obtain ⟨body, rest, is⟩ := ih (decide (c = '\\'))
            ((List.mem_cons.mp mem).resolve_left fun is => other is.symm)
          rw [is]
          exact ⟨c :: body, rest, rfl⟩
    cases w with
    | nil => cases mem
    | cons c w =>
      have other : c ≠ '"' := fun is => first (congrArg some is)
      have inside := (List.mem_cons.mp mem).resolve_left fun is => other is.symm
      obtain ⟨body, rest, is⟩ := closes (decide (c = '\\')) inside
      refine ⟨c :: body, rest, List.cons_ne_nil c body, rfl, ?_⟩
      rw [List.nil_append, closing, if_neg other, is]
      rfl
  | cons c u ih =>
    unfold unclosed at open_
    rw [List.cons_append, closing]
    split
    · rename_i quote
      rw [if_pos quote, Bool.and_eq_true] at open_
      obtain ⟨body, rest, some_, head, is⟩ := ih open_.2
      rw [if_pos open_.1, is]
      exact ⟨body, rest, some_, head, rfl⟩
    · rename_i other
      rw [if_neg other] at open_
      obtain ⟨body, rest, some_, head, is⟩ := ih open_
      rw [is]
      exact ⟨body, rest, some_, head, rfl⟩

end Closing

section Newline

variable {t : List Char} {k : Condition} {c : Char} {cs : List Char}

/-- At a place the scanner takes the same token when a newline and another text follow, and
goes on as if they followed what was left. -/
structure GoesOn (t : List Char) (k : Condition) (c : Char) (cs : List Char) : Prop where
  token : (scan k c (cs ++ '\n' :: t)).token = (scan k c cs).token
  rest : lex (scan k c (cs ++ '\n' :: t)).next (scan k c (cs ++ '\n' :: t)).rest =
    lex (scan k c cs).next ((scan k c cs).rest ++ '\n' :: t)

theorem goesOn_of_eq {scanned : Scanned} (alone : scan k c cs = scanned)
    (followed : scan k c (cs ++ '\n' :: t) =
      ⟨scanned.token, scanned.rest ++ '\n' :: t, scanned.next⟩) : GoesOn t k c cs := by
  constructor
  · rw [followed, alone]
  · rw [followed, alone]

/-- A token that takes the blanks and newlines after it. -/
theorem goesOn_of_spaces {token : Option Token} {u : List Char}
    (alone : scan k c cs = ⟨token, u.dropWhile isSpace, .initial⟩)
    (followed : scan k c (cs ++ '\n' :: t) =
      ⟨token, (u ++ '\n' :: t).dropWhile isSpace, .initial⟩) : GoesOn t k c cs := by
  constructor
  · rw [followed, alone]
  · rw [followed, alone]
    exact lex_spaces_append u _

theorem goesOn_initial (other : isSpace c = false) (comment : c = '#' → '\n' ∈ cs)
    (equal : c = '=' → cs.dropWhile isGap ≠ []) : GoesOn t .initial c cs := by
  have alone : scan .initial c cs = _ := scanInitial_of_not_space other
  have followed : scan .initial c (cs ++ '\n' :: t) = _ := scanInitial_of_not_space other
  rw [scanSpaced] at alone followed
  simp only [List.head?_cons, Option.some.injEq, List.drop_one, List.tail_cons] at alone followed
  by_cases isComment : c = '#'
  · have inside : '\n' ∈ c :: cs := List.mem_cons_of_mem c (comment isComment)
    have inside' : '\n' ∈ c :: (cs ++ '\n' :: t) := by simp
    obtain ⟨-, dropped, some_⟩ := ExprToken.takeWhile_append_stop
      (p := fun d => decide (d ≠ '\n')) (w := '\n' :: t) inside (by decide)
    rw [if_pos ⟨isComment, inside⟩] at alone
    rw [if_pos ⟨isComment, inside'⟩, ← List.cons_append, dropped,
      List.tail_append_of_ne_nil some_] at followed
    exact goesOn_of_eq alone followed
  rw [if_neg fun both => isComment both.1] at alone followed
  by_cases isEqual : c = '='
  · have dropped : (cs ++ '\n' :: t).dropWhile isGap = cs.dropWhile isGap ++ '\n' :: t :=
      ExprToken.dropWhile_append_of_stop (by decide)
    rw [if_pos isEqual] at alone followed
    rw [dropped] at followed
    obtain ⟨d, ds, is⟩ := List.exists_cons_of_ne_nil (equal isEqual)
    rw [is] at alone followed
    simp only [List.cons_append, List.head?_cons, Option.some.injEq, List.tail_cons] at alone followed
    by_cases newline : d = '\n'
    · rw [if_pos newline] at alone followed
      exact goesOn_of_eq alone followed
    · rw [if_neg newline] at alone followed
      exact goesOn_of_eq alone followed
  rw [if_neg isEqual] at alone followed
  by_cases isComma : c = ','
  · rw [if_pos isComma] at alone followed
    exact goesOn_of_spaces alone followed
  rw [if_neg isComma] at alone followed
  by_cases isBracket : c = ']'
  · rw [if_pos isBracket] at alone followed
    exact goesOn_of_spaces alone followed
  rw [if_neg isBracket] at alone followed
  dsimp only at alone followed
  by_cases word : isWord c = true
  · have taken : nameOf c (cs ++ '\n' :: t) word = nameOf c cs word := by
      unfold nameOf
      congr 3
      exact ExprToken.takeWhile_append_of_stop (by decide)
    have dropped : (cs ++ '\n' :: t).dropWhile isWord = cs.dropWhile isWord ++ '\n' :: t :=
      ExprToken.dropWhile_append_of_stop (by decide)
    rw [dif_pos word] at alone followed
    rw [taken, dropped] at followed
    exact goesOn_of_eq alone followed
  · rw [dif_neg word] at alone followed
    exact goesOn_of_eq alone followed

/-- The rules for strings, where what follows closes no open string. -/
theorem scanString_append (closes : c = '"' → unclosed false cs = true → '"' ∉ t) :
    scanString c (cs ++ '\n' :: t) = ((scanString c cs).1, (scanString c cs).2 ++ '\n' :: t) := by
  have taken : (cs ++ '\n' :: t).takeWhile isPlain = cs.takeWhile isPlain :=
    ExprToken.takeWhile_append_of_stop (by decide)
  have dropped : (cs ++ '\n' :: t).dropWhile isPlain = cs.dropWhile isPlain ++ '\n' :: t :=
    ExprToken.dropWhile_append_of_stop (by decide)
  unfold scanString
  dsimp only
  rw [taken, dropped]
  split
  · rename_i quote
    have matched : closing false (cs ++ '\n' :: t) =
        (closing false cs).map fun out => (out.1, out.2 ++ '\n' :: t) := by
      cases open_ : unclosed false cs with
      | true =>
        refine closing_append_of_no_quote open_ fun mem => ?_
        rcases List.mem_cons.mp mem with is | inside
        · cases is
        · exact closes quote open_ inside
      | false =>
        obtain ⟨body, rest, alone, followed⟩ := closing_append (w := '\n' :: t) open_
        rw [alone, followed]
        rfl
    rw [matched]
    cases closing false cs with
    | none => rfl
    | some out =>
      obtain ⟨body, rest⟩ := out
      cases body with
      | nil => rfl
      | cons d body =>
        dsimp only [Option.map_some]
        split <;> rfl
  · rfl

theorem goesOn_value (closes : c = '"' → unclosed false cs = true → '"' ∉ t) :
    GoesOn t .value c cs := by
  have line : (c :: (cs ++ '\n' :: t)).dropWhile isGap = (c :: cs).dropWhile isGap ++ '\n' :: t :=
    ExprToken.dropWhile_append_of_stop (u := c :: cs) (by decide)
  have alone : scan .value c cs = scanValue c cs := rfl
  have followed : scan .value c (cs ++ '\n' :: t) = scanValue c (cs ++ '\n' :: t) := rfl
  unfold scanValue at alone followed
  dsimp only at alone followed
  rw [line, scanString_append closes] at followed
  cases first : (c :: cs).dropWhile isGap with
  | nil =>
    rw [first] at alone followed
    rw [if_neg (by simp)] at alone followed
    split at alone
    · rename_i plain
      rw [if_pos plain] at followed
      exact goesOn_of_eq alone followed
    · rename_i special
      rw [if_neg special] at followed
      exact goesOn_of_eq alone followed
  | cons d ds =>
    rw [first] at alone followed
    simp only [List.cons_append, List.head?_cons, Option.some.injEq, List.drop_one,
      List.tail_cons] at alone followed
    by_cases bracket : d = '['
    · rw [if_pos bracket] at alone followed
      exact goesOn_of_spaces alone followed
    · rw [if_neg bracket] at alone followed
      split at alone
      · rename_i plain
        rw [if_pos plain] at followed
        exact goesOn_of_eq alone followed
      · rename_i special
        rw [if_neg special] at followed
        exact goesOn_of_eq alone followed

/-- The condition after a token. -/
def Token.next : Token → Condition
  | equal => .value
  | _ => .initial

/-- The condition after some tokens. -/
def after (k : Condition) (ts : List Token) : Condition := ts.foldl (fun _ token => token.next) k

theorem scan_next (k : Condition) (c : Char) (cs : List Char) :
    (scan k c cs).next = after k (scan k c cs).token.toList := by
  cases k with
  | initial =>
    show (scanInitial c cs).next = after .initial (scanInitial c cs).token.toList
    unfold scanInitial
    split
    · rename_i scanned taken
      unfold scanSpaced at taken
      dsimp only at taken
      split at taken
      · cases taken
        rfl
      · split at taken
        · split at taken <;> cases taken <;> rfl
        · split at taken
          · cases taken
            rfl
          · split at taken
            · cases taken
              rfl
            · cases taken
    · split
      · rfl
      · split <;> rfl
  | value =>
    show (scanValue c cs).next = after .value (scanValue c cs).token.toList
    unfold scanValue
    dsimp only
    split
    · rfl
    · split <;> rfl

theorem after_lex_cons (k : Condition) (c : Char) (cs : List Char) :
    after k (lex k (c :: cs)) = after (scan k c cs).next (lex (scan k c cs).next (scan k c cs).rest) := by
  rw [lex_cons, after, List.foldl_append, scan_next]
  rfl

/-- A comment needs a newline. -/
theorem scan_hash {u : List Char} (lastLine : '\n' ∉ u) :
    scan .initial '#' u = ⟨none, u, .initial⟩ ∧
      scan .initial '#' (u ++ '\n' :: t) = ⟨none, t, .initial⟩ := by
  have all : ∀ d ∈ '#' :: u, decide (d ≠ '\n') = true := by
    intro d mem
    rw [decide_eq_true_eq]
    intro is
    rw [is] at mem
    exact (List.mem_cons.mp mem).elim (by decide) lastLine
  constructor
  · show scanInitial '#' u = _
    rw [scanInitial_of_not_space (by decide), scanSpaced,
      if_neg fun both => (List.mem_cons.mp both.2).elim (by decide) lastLine]
    rfl
  · show scanInitial '#' (u ++ '\n' :: t) = _
    have dropped : ('#' :: (u ++ '\n' :: t)).dropWhile (fun d => decide (d ≠ '\n')) = '\n' :: t := by
      rw [← List.cons_append, List.dropWhile_append_of_pos all]
      rfl
    rw [scanInitial_of_not_space (by decide), scanSpaced, if_pos ⟨rfl, by simp⟩, dropped]
    rfl

/-- An equal sign that only blanks follow. -/
theorem scan_equal_end {u : List Char} (rest : u.dropWhile isGap = []) :
    scan .initial '=' u = ⟨some .equal, [], .value⟩ := by
  have dropped : (('=' :: u).drop 1).dropWhile isGap = [] := rest
  show scanInitial '=' u = _
  rw [scanInitial_of_not_space (by decide), scanSpaced, if_neg (fun both => by cases both.1),
    if_pos List.head?_cons]
  dsimp only
  rw [dropped]
  rfl

theorem scan_quote (u : List Char) : scan .value '"' u =
    ⟨some (.string (scanString '"' u).1), (scanString '"' u).2, .initial⟩ := rfl

/-- A quote after it changes the value of an open string. -/
theorem scanString_spills {u : List Char} (open_ : unclosed false u = true) (closes : '"' ∈ t) :
    (scanString '"' (u ++ '\n' :: t)).1 ≠ (scanString '"' u).1 := by
  obtain ⟨body, rest, some_, head, followed⟩ := closing_append_of_quote (w := '\n' :: t) open_
    (List.mem_cons_of_mem _ closes) (by simp)
  obtain ⟨d, ds, is⟩ := List.exists_cons_of_ne_nil (List.append_ne_nil_of_right_ne_nil u some_)
  have taken : (u ++ '\n' :: t).takeWhile isPlain = u.takeWhile isPlain :=
    ExprToken.takeWhile_append_of_stop (by decide)
  have short := (List.takeWhile_prefix (l := u) isPlain).length_le
  have long : u.length + 1 ≤ ds.length + 1 := by
    have lengths := congrArg List.length is
    have positive := List.length_pos_iff.mpr some_
    rw [List.length_append, List.length_cons] at lengths
    omega
  have reads : (scanString '"' (u ++ '\n' :: t)).1.text.toList = u ++ body := by
    unfold scanString
    dsimp only
    rw [if_pos rfl, followed, is, taken]
    dsimp only
    rw [if_pos (by omega), valueOf, String.toList_ofList]
  have newline : '\n' ∈ u ++ body := by
    have first : body.head? = some '\n' := head
    exact List.mem_append_right _ (List.mem_of_mem_head? first)
  intro same
  rw [same] at reads
  -- alone it ends before the newline, or at a quote
  unfold scanString at reads
  dsimp only at reads
  rw [if_pos rfl] at reads
  have plain : (valueOf '"' (u.takeWhile isPlain)).text.toList ≠ u ++ body := by
    intro is
    rw [valueOf, String.toList_ofList] at is
    rw [← is] at newline
    rcases List.mem_cons.mp newline with is | inside
    · cases is
    · exact absurd (List.mem_takeWhile_imp inside) (by decide)
  split at reads
  · rename_i e es rest' alone
    split at reads
    · rw [valueOf, String.toList_ofList] at reads
      have lengths := congrArg List.length reads
      have inside := closing_length alone
      rw [List.length_append] at lengths
      omega
    · exact plain reads
  · exact plain reads

theorem Spills.lex_ne_nil {u : List Char} (spills : Spills t k u) : lex k u ≠ [] := by
  induction spills with
  | comment lastLine tokens =>
    rw [lex_cons, (scan_hash (t := []) lastLine).1]
    exact tokens
  | quote open_ closes =>
    rw [lex_cons, scan_quote]
    exact List.cons_ne_nil _ _
  | next later ih =>
    rw [lex_cons]
    exact List.append_ne_nil_of_right_ne_nil _ ih

/-- The blanks and newlines before a place spill nothing. -/
theorem spills_dropSpaces (space : isSpace c = true) :
    Spills t .initial (c :: cs) ↔ Spills t .initial ((c :: cs).dropWhile isSpace) := by
  constructor
  · intro spills
    cases spills with
    | comment lastLine tokens => cases space
    | next later =>
      rcases @scan_space c cs space with passed | taken
      · rw [passed] at later
        exact later
      · obtain ⟨d, ds, text, -, same⟩ := taken
        rw [same] at later
        rw [text]
        exact .next later
  · intro spills
    rcases @scan_space c cs space with passed | taken
    · apply Spills.next
      rw [passed]
      exact spills
    · obtain ⟨d, ds, text, hash, same⟩ := taken
      rw [text] at spills
      apply Spills.next
      rw [same]
      generalize first : d :: ds = u at spills
      cases spills with
      | comment lastLine tokens =>
        cases first
        exact absurd (hash rfl) lastLine
      | next later =>
        cases first
        exact later

/-- A newline and another text after a text give the tokens of both, unless something spills. -/
theorem lex_newline_iff {s : List Char} (ends : after k (lex k s) = .initial) :
    lex k (s ++ '\n' :: t) = lex k s ++ lex .initial t ↔ ¬ Spills t k s := by
  -- the scanner takes one token and its rest, so the induction is on the length
  induction length : s.length using Nat.strongRecOn generalizing k s with
  | ind n ih =>
    cases s with
    | nil =>
      have initial : k = .initial := ends
      have same : lex k ('\n' :: t) = lex .initial t := by
        rw [initial, ← lex_dropSpaces, ← lex_dropSpaces t]
        rfl
      refine ⟨fun _ spills => ?_, fun _ => same⟩
      cases spills
    | cons c cs =>
      have shorter : (scan k c cs).rest.length < n := by
        rw [← length, List.length_cons]
        exact Nat.lt_succ_of_le (scan_length k c cs)
      -- the places where nothing spills
      have step (goesOn : GoesOn t k c cs)
          (here : Spills t k (c :: cs) → Spills t (scan k c cs).next (scan k c cs).rest) :
          lex k (c :: cs ++ '\n' :: t) = lex k (c :: cs) ++ lex .initial t ↔
            ¬ Spills t k (c :: cs) := by
        rw [after_lex_cons] at ends
        rw [List.cons_append, lex_cons, goesOn.token, goesOn.rest, lex_cons, List.append_assoc,
          List.append_cancel_left_eq, ih _ shorter ends rfl]
        exact not_congr ⟨.next, here⟩
      cases k with
      | initial =>
        cases space : isSpace c with
        | true =>
          have trimmed : ((c :: cs).dropWhile isSpace).length < n := by
            rw [List.dropWhile_cons_of_pos space, ← length, List.length_cons]
            exact Nat.lt_succ_of_le (List.dropWhile_suffix _).length_le
          rw [← lex_dropSpaces (c :: cs)] at ends
          rw [spills_dropSpaces space, ← ih _ trimmed ends rfl, lex_dropSpaces (c :: cs),
            ← lex_spaces_append, lex_dropSpaces]
        | false =>
          by_cases open_ : c = '#' ∧ '\n' ∉ cs
          · obtain ⟨rfl, lastLine⟩ := open_
            obtain ⟨alone, followed⟩ := scan_hash (t := t) lastLine
            have tokens : Spills t .initial ('#' :: cs) ↔ lex .initial cs ≠ [] := by
              refine ⟨fun spills => ?_, .comment lastLine⟩
              have some_ := spills.lex_ne_nil
              rw [lex_cons, alone] at some_
              exact some_
            rw [tokens, List.cons_append, lex_cons, followed, lex_cons, alone, not_not]
            exact List.self_eq_append_left
          · refine step (goesOn_initial space (fun hash => ?_) fun equal rest => ?_) fun spills => ?_
            · by_contra lastLine
              exact open_ ⟨hash, lastLine⟩
            · rw [equal, after_lex_cons, scan_equal_end rest] at ends
              cases ends
            · cases spills with
              | comment lastLine tokens => exact absurd ⟨rfl, lastLine⟩ open_
              | next later => exact later
      | value =>
        by_cases open_ : c = '"' ∧ unclosed false cs = true ∧ '"' ∈ t
        · obtain ⟨rfl, open_, closes⟩ := open_
          refine ⟨fun same => ?_, fun never => absurd (.quote open_ closes) never⟩
          rw [List.cons_append, lex_cons, scan_quote, lex_cons, scan_quote] at same
          have first := (List.cons.inj same).1
          exact absurd (Token.string.inj first) (scanString_spills open_ closes)
        · refine step (goesOn_value fun quote unclosed_ mem => open_ ⟨quote, unclosed_, mem⟩)
            fun spills => ?_
          cases spills with
          | quote unclosed_ closes => exact absurd ⟨rfl, unclosed_, closes⟩ open_
          | next later => exact later

end Newline

end TemplateText

end Ezilla

import Ezilla.Lib.StartConditions
import Ezilla.Vm.VariableValues

/-!
# Texts with variables

`parse_template_attribute` replaces the references in a text. The scanner copies the text up to
a `$` and then reads a reference, where separators and newlines have a meaning of their own; the
grammar wants one more token behind every reference, the character that ends it.

* `rules`, `tokens`: the scanner; `step`, `run`: the grammar; `parseTemplateAttribute`;
* `Reads`: a text as characters and references, each as long as it can be;
* `Ends`: what may stand behind a reference;
* `expands_iff`: the texts that are expanded as they read.
-/

namespace Ezilla

namespace VariableText

/-! ## The scanner -/

/-- The start conditions. -/
inductive Condition where
  | initial
  | var
  | value
  deriving DecidableEq, Repr

inductive Token where
  | equal
  | comma
  | obracket
  | cbracket
  /-- the end of a reference, with the character that it takes -/
  | eoa (c : Option Char)
  | string (text : String)
  | word (text : String)
  | rstring (text : String)
  deriving DecidableEq, Repr

/-- `[[:blank:]]` -/
def isGap (c : Char) : Bool := c = ' ' || c = '\t'

/-- `[[:alnum:]_]` -/
def isWord (c : Char) : Bool := c.isAlphanum || c = '_'

/-- The rules of VAR that can begin with blanks, on the text behind these. -/
def scanMark : List Char → Option (Taken Condition Char Token)
  | '=' :: cs => some ⟨some .equal, .value, cs.dropWhile isGap⟩
  | ',' :: cs => some ⟨some .comma, .var, cs.dropWhile isGap⟩
  | ']' :: cs => some ⟨some .cbracket, .var, cs⟩
  | _ => none

/-- The rules of VAR. A `.` matches no newline, which is passed over. -/
def scanVar (c : Char) (cs : List Char) : Taken Condition Char Token :=
  match scanMark ((c :: cs).dropWhile isGap) with
  | some taken => taken
  | none =>
    if c = '[' then ⟨some .obracket, .var, cs.dropWhile isGap⟩
    else if isWord c then
      ⟨some (.word (String.ofList (c :: cs.takeWhile isWord))), .var, cs.dropWhile isWord⟩
    else if c = '$' then ⟨some (.eoa none), .var, cs⟩
    else if c = '\n' then ⟨none, .var, cs⟩
    else ⟨some (.eoa (some c)), .initial, cs⟩

/-- The rules of VALUE. Where none matches, the character is passed over. -/
def scanValue (c : Char) (cs : List Char) : Taken Condition Char Token :=
  if c = '"' ∧ '"' ∈ cs then
    ⟨some (.string (String.ofList (cs.takeWhile (· ≠ '"')))), .var, (cs.dropWhile (· ≠ '"')).drop 1⟩
  else if c.isAlphanum then
    ⟨some (.string (String.ofList (c :: cs.takeWhile Char.isAlphanum))), .var,
      cs.dropWhile Char.isAlphanum⟩
  else ⟨none, .value, cs⟩

/-- The other rules: the text is copied up to the next `$`. -/
def scanInitial (c : Char) (cs : List Char) : Taken Condition Char Token :=
  if c = '$' then ⟨none, .var, cs⟩
  else ⟨some (.rstring (String.ofList (c :: cs.takeWhile (· ≠ '$')))), .initial,
    cs.dropWhile (· ≠ '$')⟩

theorem scanMark_length {c : Char} {cs : List Char} {taken : Taken Condition Char Token}
    (marked : scanMark ((c :: cs).dropWhile isGap) = some taken) :
    taken.rest.length ≤ cs.length := by
  have line := (List.dropWhile_suffix (l := c :: cs) isGap).length_le
  have dropped : ∀ u : List Char, (u.dropWhile isGap).length ≤ u.length := fun _ =>
    (List.dropWhile_suffix isGap).length_le
  unfold scanMark at marked
  split at marked
  all_goals cases marked
  all_goals rename_i rest split
  all_goals rw [split, List.length_cons, List.length_cons] at line
  · have shorter := dropped rest
    dsimp only
    omega
  · have shorter := dropped rest
    dsimp only
    omega
  · dsimp only
    omega

/-- The scanner. -/
def rules : TokenScanner Condition Char Token where
  rule
    | .initial => scanInitial
    | .var => scanVar
    | .value => scanValue
  atEnd
    | .var => some (.eoa none)
    | _ => none
  shorter k c cs := by
    cases k with
    | initial =>
      dsimp only [scanInitial]
      split
      · exact Nat.le_refl _
      · exact (List.dropWhile_suffix _).length_le
    | var =>
      dsimp only [scanVar]
      split
      · rename_i marked
        exact scanMark_length marked
      · split_ifs
        · exact (List.dropWhile_suffix _).length_le
        · exact (List.dropWhile_suffix _).length_le
        · exact Nat.le_refl _
        · exact Nat.le_refl _
        · exact Nat.le_refl _
    | value =>
      dsimp only [scanValue]
      split_ifs
      · have shorter := (List.dropWhile_suffix (l := cs) (· ≠ '"')).length_le
        rw [List.length_drop]
        omega
      · exact (List.dropWhile_suffix _).length_le
      · exact Nat.le_refl _

/-! ## The grammar -/

/-- What the parser has read of a reference. -/
inductive Reading where
  | start
  | name (name : String)
  | opened (name : String)
  | attr (name vname : String)
  | comma (name vname : String)
  | field (name vname vvar : String)
  | equal (name vname vvar : String)
  | value (name vname vvar vval : String)
  /-- all but the token that ends it -/
  | closed (r : Reference)
  deriving DecidableEq, Repr

/-- The character that the end of a reference takes. -/
def eoaText : Option Char → String
  | none => ""
  | some c => String.singleton c

/-- One token: what is read then, and what the action writes. -/
def step (s : VariableScope) : Reading → Token → Option (Reading × String)
  | .start, .rstring text => some (.start, text)
  | .start, .word name => some (.name name, "")
  | .name name, .eoa c => some (.start, s.denotes (.single name) ++ eoaText c)
  | .name name, .obracket => some (.opened name, "")
  | .opened name, .word vname => some (.attr name vname, "")
  | .attr name vname, .cbracket => some (.closed (.vector name vname), "")
  | .attr name vname, .comma => some (.comma name vname, "")
  | .comma name vname, .word vvar => some (.field name vname vvar, "")
  | .field name vname vvar, .equal => some (.equal name vname vvar, "")
  | .equal name vname vvar, .string vval => some (.value name vname vvar vval, "")
  | .value name vname vvar vval, .cbracket => some (.closed (.selected name vname vvar vval), "")
  | .closed r, .eoa c => some (.start, s.denotes r ++ eoaText c)
  | _, _ => none

/-- What is written for the tokens, `none` for a syntax error. -/
def run (s : VariableScope) : Reading → List Token → Option String
  | .start, [] => some ""
  | _, [] => none
  | q, t :: ts => (step s q t).bind fun out => (run s out.1 ts).map (out.2 ++ ·)

/-- `VirtualMachine::parse_template_attribute`. The grammar has no rule for an empty text. -/
def parseTemplateAttribute (s : VariableScope) (text : String) : Option String :=
  match rules.lex .initial text.toList with
  | [] => none
  | ts => run s .start ts

/-! ## The text as it reads -/

/-- The longest word of some characters. -/
def readWord (p : Char → Bool) (cs : List Char) : Option (String × List Char) :=
  if cs.takeWhile p = [] then none else some (String.ofList (cs.takeWhile p), cs.dropWhile p)

/-- A separator, behind blanks. -/
def readMark (c : Char) (cs : List Char) : Option (List Char) :=
  match cs.dropWhile isGap with
  | d :: rest => if d = c then some rest else none
  | [] => none

/-- A value: a string in quotes, or a word of letters and digits. -/
def readValue : List Char → Option (String × List Char)
  | '"' :: cs =>
    if '"' ∈ cs then
      some (String.ofList (cs.takeWhile (· ≠ '"')), (cs.dropWhile (· ≠ '"')).drop 1)
    else none
  | cs => readWord Char.isAlphanum cs

/-- `ATTR2=VALUE]` -/
def readSelection (name vname : String) (cs : List Char) : Option (Reference × List Char) := do
  let (vvar, cs) ← readWord isWord cs
  let cs ← readMark '=' cs
  let (vval, cs) ← readValue (cs.dropWhile isGap)
  let rest ← readMark ']' cs
  return (.selected name vname vvar vval, rest)

/-- `ATTR]` or `ATTR, ATTR2=VALUE]` -/
def readAttribute (name : String) (cs : List Char) : Option (Reference × List Char) := do
  let (vname, cs) ← readWord isWord cs
  match readMark ']' cs with
  | some rest => return (.vector name vname, rest)
  | none =>
    let cs ← readMark ',' cs
    readSelection name vname (cs.dropWhile isGap)

/-- The brackets of a reference, if there are any. -/
def readBrackets (name : String) : List Char → Option (Reference × List Char)
  | '[' :: cs => readAttribute name (cs.dropWhile isGap)
  | _ => none

/-- The longest reference behind a `$`. -/
def readReference (cs : List Char) : Option (Reference × List Char) := do
  let (name, rest) ← readWord isWord cs
  return (readBrackets name rest).getD (.single name, rest)

/-- A character of a text, or a reference with the text behind it. -/
inductive Piece where
  | char (c : Char)
  | ref (r : Reference) (behind : List Char)
  deriving DecidableEq, Repr

/-- The text is made of references and of characters other than `$`. -/
inductive Reads : List Char → List Piece → Prop where
  | nil : Reads [] []
  | char {c : Char} {cs : List Char} {pieces : List Piece} (other : c ≠ '$')
      (rest : Reads cs pieces) : Reads (c :: cs) (.char c :: pieces)
  | ref {r : Reference} {cs behind : List Char} {pieces : List Piece}
      (read : readReference cs = some (r, behind)) (rest : Reads behind pieces) :
      Reads ('$' :: cs) (.ref r behind :: pieces)

/-- The text with the values of its references. -/
def expand (s : VariableScope) : List Piece → String
  | [] => ""
  | .char c :: pieces => String.singleton c ++ expand s pieces
  | .ref r _ :: pieces => s.denotes r ++ expand s pieces

/-- The texts that may stand behind a reference: none, another reference, or a character that
is neither a newline nor a bracket, nor one of a word, unless it begins blanks before a
separator. -/
def Ends : List Char → Prop
  | [] => True
  | c :: cs => c = '$' ∨ c ≠ '\n' ∧ c ≠ '[' ∧ isWord c = false ∧
      ∀ mark ∈ ['=', ',', ']'], readMark mark (c :: cs) = none

/-! ## One rule of the scanner -/

variable {s : VariableScope} {c : Char} {cs rest : List Char} {text : String} {r : Reference}

theorem readMark_eq_some_iff {mark : Char} :
    readMark mark cs = some rest ↔ cs.dropWhile isGap = mark :: rest := by
  unfold readMark
  split
  · rename_i d rest' split
    rw [split, List.cons.injEq]
    split <;> simp_all
  · rename_i empty
    rw [empty]
    exact iff_of_false nofun nofun

theorem scanMark_eq_none_iff : scanMark (cs.dropWhile isGap) = none ↔
    ∀ mark ∈ ['=', ',', ']'], readMark mark cs = none := by
  have read : ∀ mark, readMark mark cs = none ↔ ∀ rest, cs.dropWhile isGap ≠ mark :: rest := by
    intro mark
    rw [Option.eq_none_iff_forall_ne_some]
    exact forall_congr' fun rest => not_congr readMark_eq_some_iff
  simp only [read, List.mem_cons, List.not_mem_nil, or_false]
  generalize cs.dropWhile isGap = u
  unfold scanMark
  split
  · exact iff_of_false nofun fun none => none '=' (.inl rfl) _ rfl
  · exact iff_of_false nofun fun none => none ',' (.inr (.inl rfl)) _ rfl
  · exact iff_of_false nofun fun none => none ']' (.inr (.inr rfl)) _ rfl
  · rename_i equal comma close
    refine iff_of_true rfl ?_
    intro mark member rest same
    rcases member with rfl | rfl | rfl
    · exact equal _ same
    · exact comma _ same
    · exact close _ same

/-- A rule that can begin with blanks. -/
theorem lex_var_mark {taken : Taken Condition Char Token}
    (marked : scanMark (cs.dropWhile isGap) = some taken) :
    rules.lex .var cs = taken.token.toList ++ rules.lex taken.next taken.rest := by
  cases cs with
  | nil => cases marked
  | cons c cs =>
    rw [TokenScanner.lex_cons]
    have scanned : rules.rule .var c cs = taken := by
      show scanVar c cs = taken
      unfold scanVar
      rw [marked]
    rw [scanned]

theorem lex_var_equal (read : readMark '=' cs = some rest) :
    rules.lex .var cs = .equal :: rules.lex .value (rest.dropWhile isGap) := by
  have marked : scanMark (cs.dropWhile isGap) =
      some ⟨some .equal, .value, rest.dropWhile isGap⟩ := by
    rw [readMark_eq_some_iff.mp read]
    rfl
  exact lex_var_mark marked

theorem lex_var_comma (read : readMark ',' cs = some rest) :
    rules.lex .var cs = .comma :: rules.lex .var (rest.dropWhile isGap) := by
  have marked : scanMark (cs.dropWhile isGap) =
      some ⟨some .comma, .var, rest.dropWhile isGap⟩ := by
    rw [readMark_eq_some_iff.mp read]
    rfl
  exact lex_var_mark marked

theorem lex_var_close (read : readMark ']' cs = some rest) :
    rules.lex .var cs = .cbracket :: rules.lex .var rest := by
  have marked : scanMark (cs.dropWhile isGap) = some ⟨some .cbracket, .var, rest⟩ := by
    rw [readMark_eq_some_iff.mp read]
    rfl
  exact lex_var_mark marked

theorem lex_var_open :
    rules.lex .var ('[' :: cs) = .obracket :: rules.lex .var (cs.dropWhile isGap) := by
  rw [TokenScanner.lex_cons]
  rfl

/-- The character is one that no rule for separators begins with. -/
theorem scanMark_cons (gap : isGap c = false) (other : c ∉ ['=', ',', ']']) :
    scanMark ((c :: cs).dropWhile isGap) = none := by
  rw [List.dropWhile_cons_of_neg (by rw [gap]; decide)]
  simp only [List.mem_cons, List.not_mem_nil, or_false, not_or] at other
  unfold scanMark
  split
  · rename_i same
    cases same
    exact absurd rfl other.1
  · rename_i same
    cases same
    exact absurd rfl other.2.1
  · rename_i same
    cases same
    exact absurd rfl other.2.2
  · rfl

theorem isWord_eq_false : ∀ c ∈ [' ', '\t', '\n', '=', ',', ']', '[', '$', '"'], isWord c = false := by
  simp only [List.mem_cons, List.not_mem_nil, or_false, forall_eq_or_imp, forall_eq]
  decide

/-- No rule but the one for words begins with a character of a word. -/
theorem scanMark_word (word : isWord c = true) : scanMark ((c :: cs).dropWhile isGap) = none := by
  have apart : ∀ d ∈ [' ', '\t', '\n', '=', ',', ']', '[', '$', '"'], c ≠ d := by
    intro d member same
    have other := isWord_eq_false d member
    rw [← same, word] at other
    cases other
  refine scanMark_cons ?_ fun member => apart c ?_ rfl
  · unfold isGap
    simp only [Bool.or_eq_false_iff, decide_eq_false_iff_not]
    exact ⟨apart ' ' (by simp), apart '\t' (by simp)⟩
  · simp only [List.mem_cons, List.not_mem_nil, or_false] at member ⊢
    rcases member with rfl | rfl | rfl <;> simp

theorem readWord_eq_some {p : Char → Bool} (read : readWord p cs = some (text, rest)) :
    ∃ c tail, cs = c :: tail ∧ p c = true ∧ text = String.ofList (c :: tail.takeWhile p) ∧
      rest = tail.dropWhile p := by
  unfold readWord at read
  split at read
  · cases read
  · rename_i some
    cases read
    cases cs with
    | nil => exact absurd rfl some
    | cons c tail =>
      cases word : p c with
      | false =>
        rw [List.takeWhile_cons_of_neg (by rw [word]; decide)] at some
        exact absurd rfl some
      | true =>
        rw [List.takeWhile_cons_of_pos word, List.dropWhile_cons_of_pos word]
        exact ⟨c, tail, rfl, word, rfl, rfl⟩

theorem lex_var_word (read : readWord isWord cs = some (text, rest)) :
    rules.lex .var cs = .word text :: rules.lex .var rest := by
  obtain ⟨c, tail, rfl, word, rfl, rfl⟩ := readWord_eq_some read
  rw [TokenScanner.lex_cons]
  have scanned : rules.rule .var c tail =
      ⟨some (.word (String.ofList (c :: tail.takeWhile isWord))), .var, tail.dropWhile isWord⟩ := by
    show scanVar c tail = _
    have bracket : c ≠ '[' := by
      intro same
      rw [same] at word
      cases word
    unfold scanVar
    rw [scanMark_word word]
    dsimp only
    rw [if_neg bracket, if_pos word]
  rw [scanned]
  rfl

theorem lex_value (read : readValue cs = some (text, rest)) :
    rules.lex .value cs = .string text :: rules.lex .var rest := by
  unfold readValue at read
  split at read
  · rename_i tail
    split at read
    · rename_i closed
      cases read
      have scanned : rules.rule .value '"' tail = ⟨some (.string (String.ofList
          (tail.takeWhile (· ≠ '"')))), .var, (tail.dropWhile (· ≠ '"')).drop 1⟩ :=
        if_pos ⟨rfl, closed⟩
      rw [TokenScanner.lex_cons, scanned]
      rfl
    · cases read
  · rename_i plain
    obtain ⟨c, tail, rfl, word, rfl, rfl⟩ := readWord_eq_some read
    have quote : c ≠ '"' := fun same => plain tail (by rw [same])
    have scanned : rules.rule .value c tail = ⟨some (.string (String.ofList
        (c :: tail.takeWhile Char.isAlphanum))), .var, tail.dropWhile Char.isAlphanum⟩ := by
      show scanValue c tail = _
      unfold scanValue
      rw [if_neg fun both => quote both.1, if_pos word]
    rw [TokenScanner.lex_cons, scanned]
    rfl

/-! ## One reference -/

/-- The tokens of a reference, but for its end. -/
def tokensOf : Reference → List Token
  | .single name => [.word name]
  | .vector name vname => [.word name, .obracket, .word vname, .cbracket]
  | .selected name vname vvar vval =>
    [.word name, .obracket, .word vname, .comma, .word vvar, .equal, .string vval, .cbracket]

/-- The longest reference is scanned as one. -/
theorem lex_reference (read : readReference cs = some (r, rest)) :
    rules.lex .var cs = tokensOf r ++ rules.lex .var rest := by
  obtain ⟨⟨name, behind⟩, word, same⟩ := Option.bind_eq_some_iff.mp read
  rw [lex_var_word word]
  cases brackets : readBrackets name behind with
  | none =>
    simp only [brackets, Option.getD_none, pure, Option.some.injEq, Prod.mk.injEq] at same
    obtain ⟨rfl, rfl⟩ := same
    rfl
  | some out =>
    simp only [brackets, Option.getD_some, pure, Option.some.injEq] at same
    rw [same] at brackets
    unfold readBrackets at brackets
    split at brackets
    · rename_i inside
      obtain ⟨⟨vname, behind⟩, vword, brackets⟩ := Option.bind_eq_some_iff.mp brackets
      rw [lex_var_open, lex_var_word vword]
      dsimp only at brackets
      cases close : readMark ']' behind with
      | some behind =>
        rw [close] at brackets
        cases brackets
        rw [lex_var_close close]
        rfl
      | none =>
        rw [close] at brackets
        obtain ⟨behind, comma, brackets⟩ := Option.bind_eq_some_iff.mp brackets
        obtain ⟨⟨vvar, behind⟩, vvarWord, brackets⟩ := Option.bind_eq_some_iff.mp brackets
        obtain ⟨behind, equal, brackets⟩ := Option.bind_eq_some_iff.mp brackets
        obtain ⟨⟨vval, behind⟩, value, brackets⟩ := Option.bind_eq_some_iff.mp brackets
        obtain ⟨behind, close, brackets⟩ := Option.bind_eq_some_iff.mp brackets
        cases brackets
        rw [lex_var_comma comma, lex_var_word vvarWord, lex_var_equal equal, lex_value value,
          lex_var_close close]
        rfl
    · cases brackets

/-- What the parser has read of a reference when it wants the end. -/
def unended : Reference → Reading
  | .single name => .name name
  | r => .closed r

theorem run_of_step {q q' : Reading} {t : Token} {ts : List Token} {text : String}
    (taken : step s q t = some (q', text)) :
    run s q (t :: ts) = (run s q' ts).map (text ++ ·) := by
  rw [run, taken]
  rfl

theorem run_silent {q q' : Reading} {t : Token} {ts : List Token}
    (taken : step s q t = some (q', "")) : run s q (t :: ts) = run s q' ts := by
  rw [run_of_step taken]
  simp only [String.empty_append, Option.map_id']

theorem run_tokensOf {ts : List Token} : run s .start (tokensOf r ++ ts) = run s (unended r) ts := by
  cases r with
  | single name => exact run_silent rfl
  | vector name vname =>
    exact (run_silent rfl).trans ((run_silent rfl).trans ((run_silent rfl).trans (run_silent rfl)))
  | selected name vname vvar vval =>
    refine (run_silent rfl).trans ((run_silent rfl).trans ((run_silent rfl).trans ?_))
    refine (run_silent rfl).trans ((run_silent rfl).trans ((run_silent rfl).trans ?_))
    exact (run_silent rfl).trans (run_silent rfl)

theorem run_eoa {c : Option Char} {ts : List Token} : run s (unended r) (.eoa c :: ts) =
    (run s .start ts).map (s.denotes r ++ eoaText c ++ ·) := by
  cases r <;> exact run_of_step rfl

/-! ## Where a text reads well -/

/-- What the parser makes of the text from a place outside of references. -/
def output (s : VariableScope) (cs : List Char) : Option String := run s .start (rules.lex .initial cs)

theorem output_reference : output s ('$' :: cs) = run s .start (rules.lex .var cs) := by
  unfold output
  rw [TokenScanner.lex_cons]
  rfl

theorem output_run (other : c ≠ '$') : output s (c :: cs) =
    (output s (cs.dropWhile (· ≠ '$'))).map
      (String.ofList (c :: cs.takeWhile (· ≠ '$')) ++ ·) := by
  have scanned : rules.rule .initial c cs = ⟨some (.rstring (String.ofList
      (c :: cs.takeWhile (· ≠ '$')))), .initial, cs.dropWhile (· ≠ '$')⟩ := if_neg other
  unfold output
  rw [TokenScanner.lex_cons, scanned]
  exact run_of_step rfl

/-- The characters are copied, in however many pieces they are scanned. -/
theorem output_char (other : c ≠ '$') :
    output s (c :: cs) = (output s cs).map (String.singleton c ++ ·) := by
  have copied : output s cs = (output s (cs.dropWhile (· ≠ '$'))).map
      (String.ofList (cs.takeWhile (· ≠ '$')) ++ ·) := by
    cases cs with
    | nil => simp only [List.dropWhile_nil, List.takeWhile_nil, String.ofList_nil,
        String.empty_append, Option.map_id']
    | cons d ds =>
      rcases eq_or_ne d '$' with rfl | copy
      · simp only [ne_eq, not_true_eq_false, decide_false, Bool.false_eq_true, not_false_eq_true,
          List.dropWhile_cons_of_neg, List.takeWhile_cons_of_neg, String.ofList_nil,
          String.empty_append, Option.map_id']
      · simp only [ne_eq, copy, not_false_eq_true, decide_true, List.dropWhile_cons_of_pos,
          List.takeWhile_cons_of_pos]
        exact output_run copy
  rw [output_run other, copied, Option.map_map]
  refine congrArg (Option.map · _) (funext fun text => ?_)
  rw [Function.comp_apply, ← String.append_assoc, ← String.ofList_cons]

/-- The text behind a reference is scanned as its end. -/
theorem lex_var_char (other : c ≠ '$') (newline : c ≠ '\n') (bracket : c ≠ '[')
    (word : isWord c = false) (marks : ∀ mark ∈ ['=', ',', ']'], readMark mark (c :: cs) = none) :
    rules.lex .var (c :: cs) = .eoa (some c) :: rules.lex .initial cs := by
  have scanned : rules.rule .var c cs = ⟨some (.eoa (some c)), .initial, cs⟩ := by
    show scanVar c cs = _
    unfold scanVar
    rw [scanMark_eq_none_iff.mpr marks]
    dsimp only
    rw [if_neg bracket, if_neg (by rw [word]; decide), if_neg other, if_neg newline]
  rw [TokenScanner.lex_cons, scanned]
  rfl

theorem lex_var_reference : rules.lex .var ('$' :: cs) = .eoa none :: rules.lex .var cs := by
  rw [TokenScanner.lex_cons]
  rfl

theorem output_ends (ends : Ends rest) :
    run s (unended r) (rules.lex .var rest) = (output s rest).map (s.denotes r ++ ·) := by
  cases rest with
  | nil =>
    refine run_eoa.trans ?_
    rw [eoaText, String.append_empty]
    rfl
  | cons c cs =>
    rcases eq_or_ne c '$' with rfl | other
    · rw [lex_var_reference, output_reference, run_eoa, eoaText, String.append_empty]
    · obtain ⟨newline, bracket, word, marks⟩ := ends.resolve_left other
      rw [lex_var_char other newline bracket word marks, run_eoa, output_char other, Option.map_map]
      refine congrArg (Option.map · _) (funext fun text => ?_)
      rw [eoaText, Function.comp_apply, String.append_assoc]

/-- Where every reference ends, the text is expanded. -/
theorem output_of_ends {pieces : List Piece} (reads : Reads cs pieces)
    (ends : ∀ r behind, .ref r behind ∈ pieces → Ends behind) :
    output s cs = some (expand s pieces) := by
  induction reads with
  | nil => rfl
  | char other rest ih =>
    rw [output_char other, ih fun r behind member => ends r behind (List.mem_cons_of_mem _ member)]
    rfl
  | ref read rest ih =>
    rw [output_reference, lex_reference read, run_tokensOf,
      output_ends (ends _ _ List.mem_cons_self),
      ih fun r behind member => ends r behind (List.mem_cons_of_mem _ member)]
    rfl

/-! ## Where it does not -/

/-- A VM of which nothing is defined. Its ids are numbers. -/
def undefinedScope : VariableScope where
  uid := 0
  uname := ""
  gid := 0
  gname := ""
  name := ""
  xml64 := ""
  tmpl := []
  userTmpl := []
  images _ := none
  networks _ := none
  user := none

theorem denotes_undefined : ∀ d ∈ (undefinedScope.denotes r).toList, d = '0' := by
  have vector : ∀ name vname vvar vval, undefinedScope.insertVector name vname vvar vval = "" := by
    intro name vname vvar vval
    have network : undefinedScope.getNetworkAttribute vname vvar vval = "" := by
      unfold VariableScope.getNetworkAttribute
      split <;> rfl
    have image : undefinedScope.getImageAttribute vname vvar vval = "" := by
      unfold VariableScope.getImageAttribute
      split <;> rfl
    unfold VariableScope.insertVector
    rw [network, image]
    split
    · rfl
    · split
      · rfl
      · split
        · rfl
        · dsimp only
          split <;> rfl
  have empty : ∀ d ∈ "".toList, d = '0' := fun d none => absurd none (by simp)
  cases r with
  | single name =>
    have zero : ∀ d ∈ (toString (0 : Int)).toList, d = '0' := by
      have text : (toString (0 : Int)).toList = ['0'] := by decide +kernel
      rw [text]
      exact fun d member => List.mem_singleton.mp member
    show ∀ d ∈ (undefinedScope.insertSingle name.toUpper).toList, d = '0'
    unfold VariableScope.insertSingle
    split_ifs
    · exact empty
    · exact zero
    · exact empty
    · exact zero
    · exact empty
    · exact empty
    · exact empty
  | vector name vname =>
    rw [VariableScope.denotes, vector]
    exact empty
  | selected name vname vvar vval =>
    rw [VariableScope.denotes, vector]
    exact empty

/-- The first character that is no digit zero. -/
def lead (text : String) : Option Char := (text.toList.dropWhile (· = '0')).head?

/-- A text that does not begin as one behind a reference that did not end. -/
def Led (text : String) : Prop := lead text ≠ some '\n' ∧ lead text ≠ some '['

theorem lead_append {zeros text : String} (zero : ∀ d ∈ zeros.toList, d = '0') :
    lead (zeros ++ text) = lead text := by
  unfold lead
  rw [String.toList_append, List.dropWhile_append_of_pos]
  exact fun d member => decide_eq_true (zero d member)

theorem lead_singleton {d : Char} (other : d ≠ '0') :
    lead (String.singleton d ++ text) = some d := by
  unfold lead
  rw [String.toList_append, String.toList_singleton, List.singleton_append,
    List.dropWhile_cons_of_neg (by rw [decide_eq_true_eq]; exact other), List.head?_cons]

/-- A token that nothing is written for. -/
def Silent (t : Token) : Prop := ∀ s q q' text, step s q t = some (q', text) → text = ""

theorem silent_of_ne {t : Token} (eoa : ∀ c, t ≠ .eoa c) (rstring : ∀ text, t ≠ .rstring text) :
    Silent t := by
  intro s q q' text taken
  unfold step at taken
  split at taken
  all_goals cases taken
  all_goals first | rfl | exact absurd rfl (eoa _) | exact absurd rfl (rstring _)

theorem step_eoa {q q' : Reading} {c : Option Char} (taken : step s q (.eoa c) = some (q', text)) :
    ∃ r, text = s.denotes r ++ eoaText c := by
  cases q with
  | name name =>
    cases taken
    exact ⟨.single name, rfl⟩
  | closed r =>
    cases taken
    exact ⟨r, rfl⟩
  | _ => cases taken

theorem run_cons {q : Reading} {t : Token} {ts : List Token} {out : String}
    (done : run s q (t :: ts) = some out) : ∃ q' text rest, step s q t = some (q', text) ∧
      run s q' ts = some rest ∧ out = text ++ rest := by
  rw [run] at done
  obtain ⟨⟨q', text⟩, taken, further⟩ := Option.bind_eq_some_iff.mp done
  obtain ⟨rest, ran, rfl⟩ := Option.map_eq_some_iff.mp further
  exact ⟨q', text, rest, taken, ran, rfl⟩

/-- Only a character that ends a reference leads out of it. -/
theorem rule_cases {k : Condition} (inside : k ≠ .initial) (c : Char) (cs : List Char) :
    ((rules.rule k c cs).next ≠ .initial ∧
      ∀ t ∈ (rules.rule k c cs).token, Silent t ∨ t = .eoa none) ∨
    ∃ d, (rules.rule k c cs).token = some (.eoa (some d)) ∧ d ≠ '\n' ∧ d ≠ '[' ∧ d ≠ '0' := by
  cases k with
  | initial => exact absurd rfl inside
  | var =>
    show ((scanVar c cs).next ≠ .initial ∧
      ∀ t ∈ (scanVar c cs).token, Silent t ∨ t = .eoa none) ∨
      ∃ d, (scanVar c cs).token = some (.eoa (some d)) ∧ d ≠ '\n' ∧ d ≠ '[' ∧ d ≠ '0'
    unfold scanVar
    split
    · rename_i marked
      left
      unfold scanMark at marked
      split at marked
      all_goals cases marked
      all_goals refine ⟨nofun, fun t member => .inl ?_⟩
      all_goals cases member
      all_goals exact silent_of_ne nofun nofun
    · split_ifs with bracket word dollar newline
      · refine .inl ⟨nofun, fun t member => .inl ?_⟩
        cases member
        exact silent_of_ne nofun nofun
      · refine .inl ⟨nofun, fun t member => .inl ?_⟩
        cases member
        exact silent_of_ne nofun nofun
      · refine .inl ⟨nofun, fun t member => .inr ?_⟩
        cases member
        rfl
      · exact .inl ⟨nofun, nofun⟩
      · refine .inr ⟨c, rfl, newline, bracket, fun zero => word ?_⟩
        rw [zero]
        decide
  | value =>
    left
    show (scanValue c cs).next ≠ .initial ∧ ∀ t ∈ (scanValue c cs).token, Silent t ∨ t = .eoa none
    unfold scanValue
    split_ifs
    · refine ⟨nofun, fun t member => .inl ?_⟩
      cases member
      exact silent_of_ne nofun nofun
    · refine ⟨nofun, fun t member => .inl ?_⟩
      cases member
      exact silent_of_ne nofun nofun
    · exact ⟨nofun, nofun⟩

/-- Behind a `$` the parser writes only values before the character that ends a reference. -/
theorem led_of_lex (k : Condition) (cs : List Char) : k ≠ .initial → ∀ q out,
    run undefinedScope q (rules.lex k cs) = some out → Led out := by
  have done : ∀ q out, run undefinedScope q [] = some out → Led out := by
    intro q out ran
    cases q with
    | start =>
      cases ran
      exact ⟨nofun, nofun⟩
    | _ => cases ran
  refine TokenScanner.lex_rec (P := fun k ts => k ≠ .initial → ∀ q out,
    run undefinedScope q ts = some out → Led out) ?_ ?_ k cs
  · intro k inside q out ran
    cases k with
    | initial => exact absurd rfl inside
    | value => exact done q out ran
    | var =>
      obtain ⟨q', text, rest, taken, further, rfl⟩ := run_cons ran
      obtain ⟨r, rfl⟩ := step_eoa taken
      rw [eoaText, String.append_empty]
      unfold Led
      rw [lead_append denotes_undefined]
      exact done q' rest further
  · intro k c cs ts ih inside q out ran
    rcases rule_cases inside c cs with ⟨next, tokens⟩ | ⟨d, token, newline, bracket, zero⟩
    · cases token : (rules.rule k c cs).token with
      | none =>
        rw [token] at ran
        exact ih next q out ran
      | some t =>
        rw [token] at ran
        obtain ⟨q', text, rest, taken, further, rfl⟩ := run_cons ran
        have led := ih next q' rest further
        rcases tokens t token with silent | rfl
        · rw [silent _ _ _ _ taken, String.empty_append]
          exact led
        · obtain ⟨r, rfl⟩ := step_eoa taken
          rw [eoaText, String.append_empty]
          unfold Led
          rw [lead_append denotes_undefined]
          exact led
    · rw [token] at ran
      obtain ⟨q', text, rest, taken, further, rfl⟩ := run_cons ran
      obtain ⟨r, rfl⟩ := step_eoa taken
      unfold Led
      rw [String.append_assoc, lead_append denotes_undefined, eoaText, lead_singleton zero]
      exact ⟨fun same => newline (Option.some.inj same), fun same => bracket (Option.some.inj same)⟩

theorem step_unended {t : Token} (eoa : ∀ c, t ≠ .eoa c) (bracket : t ≠ .obracket) :
    step s (unended r) t = none := by
  cases r with
  | single name =>
    cases t with
    | eoa c => exact absurd rfl (eoa c)
    | obracket => exact absurd rfl bracket
    | _ => rfl
  | vector name vname =>
    cases t with
    | eoa c => exact absurd rfl (eoa c)
    | _ => rfl
  | selected name vname vvar vval =>
    cases t with
    | eoa c => exact absurd rfl (eoa c)
    | _ => rfl

theorem run_unended {t : Token} {ts : List Token} (eoa : ∀ c, t ≠ .eoa c) (bracket : t ≠ .obracket) :
    run s (unended r) (t :: ts) = none := by
  rw [run, step_unended eoa bracket]
  rfl

/-- Behind a reference that does not end there is a newline, a bracket that is no part of it,
or a syntax error. -/
theorem not_ends_cases (wrong : ¬ Ends rest) :
    (∃ c cs, rest = c :: cs ∧ (c = '\n' ∨ c = '[')) ∨
      ∀ s r, run s (unended r) (rules.lex .var rest) = none := by
  cases rest with
  | nil => exact absurd trivial wrong
  | cons c cs =>
    refine or_iff_not_imp_left.mpr fun plain => ?_
    have newline : c ≠ '\n' := fun same => plain ⟨c, cs, rfl, .inl same⟩
    have bracket : c ≠ '[' := fun same => plain ⟨c, cs, rfl, .inr same⟩
    intro s r
    cases word : isWord c with
    | true =>
      have read : readWord isWord (c :: cs) =
          some (String.ofList (c :: cs.takeWhile isWord), cs.dropWhile isWord) := by
        unfold readWord
        rw [List.takeWhile_cons_of_pos word, List.dropWhile_cons_of_pos word]
        exact if_neg (List.cons_ne_nil _ _)
      rw [lex_var_word read]
      exact run_unended nofun nofun
    | false =>
      have marked : ¬ ∀ mark ∈ ['=', ',', ']'], readMark mark (c :: cs) = none := fun marks =>
        wrong (.inr ⟨newline, bracket, word, marks⟩)
      push Not at marked
      obtain ⟨mark, member, read⟩ := marked
      obtain ⟨behind, read⟩ := Option.ne_none_iff_exists'.mp read
      simp only [List.mem_cons, List.not_mem_nil, or_false] at member
      rcases member with rfl | rfl | rfl
      · rw [lex_var_equal read]
        exact run_unended nofun nofun
      · rw [lex_var_comma read]
        exact run_unended nofun nofun
      · rw [lex_var_close read]
        exact run_unended nofun nofun

/-- So what is written is not the expanded text. -/
theorem output_ne_of_not_ends {pieces : List Piece} (wrong : ¬ Ends rest) (reads : Reads rest pieces) :
    run undefinedScope (unended r) (rules.lex .var rest) ≠
      some (undefinedScope.denotes r ++ expand undefinedScope pieces) := by
  intro same
  rcases not_ends_cases wrong with ⟨c, cs, rfl, first⟩ | fails
  · have led := led_of_lex .var (c :: cs) nofun _ _ same
    unfold Led at led
    rw [lead_append denotes_undefined] at led
    cases reads with
    | @char c cs pieces other further =>
      have here : lead (expand undefinedScope (.char c :: pieces)) = some c := by
        refine lead_singleton fun zero => ?_
        rcases first with newline | bracket
        · rw [newline] at zero
          exact absurd zero (by decide)
        · rw [bracket] at zero
          exact absurd zero (by decide)
      rw [here] at led
      rcases first with rfl | rfl
      · exact led.1 rfl
      · exact led.2 rfl
    | ref read further => rcases first with newline | bracket <;> contradiction
  · rw [fails] at same
    cases same

/-- An expansion shows that every reference ends. -/
theorem ends_of_output {pieces : List Piece} (reads : Reads cs pieces)
    (expanded : output undefinedScope cs = some (expand undefinedScope pieces)) :
    ∀ r behind, .ref r behind ∈ pieces → Ends behind := by
  induction reads with
  | nil => exact nofun
  | @char c cs pieces other rest ih =>
    rw [output_char other] at expanded
    obtain ⟨out, ran, same⟩ := Option.map_eq_some_iff.mp expanded
    intro r behind member
    rcases List.mem_cons.mp member with this | member
    · cases this
    · refine ih ?_ r behind member
      rw [ran]
      exact congrArg some ((String.append_right_inj _).mp same)
  | @ref r cs behind pieces read rest ih =>
    rw [output_reference, lex_reference read, run_tokensOf] at expanded
    have ends : Ends behind := not_not.mp fun wrong => output_ne_of_not_ends wrong rest expanded
    rw [output_ends ends] at expanded
    obtain ⟨out, ran, same⟩ := Option.map_eq_some_iff.mp expanded
    intro r' behind' member
    rcases List.mem_cons.mp member with this | member
    · cases this
      exact ends
    · refine ih ?_ r' behind' member
      rw [ran]
      exact congrArg some ((String.append_right_inj _).mp same)

theorem parseTemplateAttribute_eq {pieces : List Piece} (nonempty : text ≠ "")
    (reads : Reads text.toList pieces) : parseTemplateAttribute s text = output s text.toList := by
  have some : rules.lex .initial text.toList ≠ [] := by
    generalize listed : text.toList = cs at reads
    cases reads with
    | nil => exact absurd (String.toList_eq_nil_iff.mp listed) nonempty
    | char other rest =>
      rw [TokenScanner.lex_cons]
      show (scanInitial _ _).token.toList ++ _ ≠ []
      unfold scanInitial
      rw [if_neg other]
      exact List.cons_ne_nil _ _
    | @ref r cs _ _ read rest =>
      rw [TokenScanner.lex_cons]
      show rules.lex .var cs ≠ []
      rw [lex_reference read]
      cases r <;> exact List.cons_ne_nil _ _
  unfold parseTemplateAttribute output
  split
  · rename_i none
    exact absurd none some
  · rfl

/-- A text is expanded, whatever the values, if and only if it is not empty and every reference
ends where it stands. -/
theorem expands_iff {pieces : List Piece} (reads : Reads text.toList pieces) :
    (∀ s, parseTemplateAttribute s text = some (expand s pieces)) ↔
      text ≠ "" ∧ ∀ r behind, .ref r behind ∈ pieces → Ends behind := by
  constructor
  · intro expands
    have nonempty : text ≠ "" := by
      intro empty
      have first := expands undefinedScope
      rw [empty] at first
      cases first
    refine ⟨nonempty, ends_of_output reads ?_⟩
    rw [← parseTemplateAttribute_eq nonempty reads, expands]
  · intro ⟨nonempty, ends⟩ s
    rw [parseTemplateAttribute_eq nonempty reads, output_of_ends reads ends]

/-- A reference and a blank behind it. -/
def named : List Piece := [.ref (.single "NAME") [' ', 'x'], .char ' ', .char 'x']

theorem reads_named : Reads "$NAME x".toList named :=
  .ref (by decide +kernel) (.char (by decide) (.char (by decide) .nil))

theorem expands_iff_named : Reads "$NAME x".toList named ∧
    ((∀ s, parseTemplateAttribute s "$NAME x" = some (expand s named)) ↔
      "$NAME x" ≠ "" ∧ ∀ r behind, .ref r behind ∈ named → Ends behind) :=
  ⟨reads_named, expands_iff reads_named⟩

/-- A comma behind a reference is a syntax error, and a newline is lost. -/
theorem separators_not_copied :
    Reads "$NAME,x".toList [.ref (.single "NAME") [',', 'x'], .char ',', .char 'x'] ∧
      parseTemplateAttribute undefinedScope "$NAME,x" = none ∧
      expand undefinedScope [.ref (.single "NAME") [',', 'x'], .char ',', .char 'x'] = ",x" ∧
      Reads "$NAME\n".toList [.ref (.single "NAME") ['\n'], .char '\n'] ∧
      parseTemplateAttribute undefinedScope "$NAME\n" = some "" ∧
      expand undefinedScope [.ref (.single "NAME") ['\n'], .char '\n'] = "\n" := by
  refine ⟨.ref (by decide +kernel) (.char (by decide) (.char (by decide) .nil)), by decide +kernel,
    by decide +kernel, .ref (by decide +kernel) (.char (by decide) .nil), by decide +kernel,
    by decide +kernel⟩

end VariableText

end Ezilla

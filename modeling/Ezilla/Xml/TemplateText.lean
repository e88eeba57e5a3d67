import Ezilla.Xml.TemplateScanner

/-!
# Template texts

The grammar of a template text on the tokens of its scanner, and the values that a text can
give.

* `ParseConfig.step`, `parseText`: the parser;
* `parseTokens_eq_some_iff`: it reads the tokens of its statements, and nothing else;
* `parseText_newline_iff`: when two texts are read one after the other;
* `escape`, `givesBack_iff`: the values that an escaped form gives back.
-/

namespace Ezilla

namespace TemplateText

open TemplateXml

/-! ## The grammar -/

/-- `VARIABLE EQUAL STRING` -/
def pairTokens (pair : Variable × Value) : List Token :=
  [.name pair.1, .equal, .string pair.2]

/-- `array_val` -/
def arrayTokens (first : Variable × Value) (rest : List (Variable × Value)) : List Token :=
  pairTokens first ++ rest.flatMap fun pair => .comma :: pairTokens pair

/-- `attribute` -/
def statementTokens : Statement → List Token
  | .single name value => pairTokens (name, value)
  | .empty name => [.name name, .equalEmpty]
  | .vector name first rest =>
    [.name name, .equal, .openBracket] ++ arrayTokens first rest ++ [.closeBracket]

/-- The position of the parser, with the attributes that it has set. -/
inductive ParseConfig where
  /-- an attribute is next -/
  | start (done : List Statement)
  | named (done : List Statement) (name : Variable)
  | equal (done : List Statement) (name : Variable)
  /-- inside the brackets, a variable is next -/
  | item (done : List Statement) (name : Variable) (pairs : List (Variable × Value))
  | itemNamed (done : List Statement) (name : Variable) (pairs : List (Variable × Value))
      (key : Variable)
  | itemEqual (done : List Statement) (name : Variable) (pairs : List (Variable × Value))
      (key : Variable)
  /-- after a value inside the brackets -/
  | array (done : List Statement) (name : Variable) (first : Variable × Value)
      (rest : List (Variable × Value))

namespace ParseConfig

/-- One token. -/
def step : ParseConfig → Token → Option ParseConfig
  | start done, .name name => some (named done name)
  | named done name, .equal => some (equal done name)
  | named done name, .equalEmpty => some (start (done ++ [.empty name]))
  | equal done name, .string value => some (start (done ++ [.single name value]))
  | equal done name, .openBracket => some (item done name [])
  | item done name pairs, .name key => some (itemNamed done name pairs key)
  | itemNamed done name pairs key, .equal => some (itemEqual done name pairs key)
  | itemEqual done name [] key, .string value => some (array done name (key, value) [])
  | itemEqual done name (first :: rest) key, .string value =>
    some (array done name first (rest ++ [(key, value)]))
  | array done name first rest, .comma => some (item done name (first :: rest))
  | array done name first rest, .closeBracket => some (start (done ++ [.vector name first rest]))
  | _, _ => none

/-- Some tokens. -/
def run : ParseConfig → List Token → Option ParseConfig
  | c, [] => some c
  | c, t :: ts => (step c t).bind fun c' => run c' ts

/-- The end of the text. -/
def finish : ParseConfig → Option (List Statement)
  | start done => some done
  | _ => none

/-- The attributes that were set on the way. -/
def done : ParseConfig → List Statement
  | start done | named done _ | equal done _ | item done _ _ | itemNamed done _ _ _
  | itemEqual done _ _ _ | array done _ _ _ => done

/-- The position at which the parser stops: at the end, or before a token that is an error. -/
def stop : ParseConfig → List Token → ParseConfig
  | c, [] => c
  | c, t :: ts =>
    match step c t with
    | none => c
    | some c' => stop c' ts

end ParseConfig

def parseTokens (ts : List Token) : Option (List Statement) :=
  (ParseConfig.run (.start []) ts).bind ParseConfig.finish

/-- The attributes of a text, or an error. -/
def parseText (text : String) : Option (List Statement) := parseTokens (lex .initial text.toList)

/-- The attributes that were set when the parser stops, in a text with an error too. -/
def statementsSet (text : String) : List Statement :=
  (ParseConfig.stop (.start []) (lex .initial text.toList)).done

namespace ParseConfig

theorem stop_of_run {c c' : ParseConfig} {ts : List Token} (taken : c.run ts = some c') :
    c.stop ts = c' := by
  induction ts generalizing c with
  | nil => exact Option.some.inj taken
  | cons t ts ih =>
    obtain ⟨mid, first, rest⟩ := Option.bind_eq_some_iff.mp taken
    rw [stop, first]
    exact ih rest

/-- The tokens before and inside the brackets. -/
def itemTokens (done : List Statement) (name : Variable) (pairs : List (Variable × Value)) :
    List Token :=
  done.flatMap statementTokens ++ [.name name, .equal, .openBracket] ++
    match pairs with
    | [] => []
    | first :: rest => arrayTokens first rest ++ [.comma]

/-- The tokens that lead to a position. -/
def tokens : ParseConfig → List Token
  | start done => done.flatMap statementTokens
  | named done name => done.flatMap statementTokens ++ [.name name]
  | equal done name => done.flatMap statementTokens ++ [.name name, .equal]
  | item done name pairs => itemTokens done name pairs
  | itemNamed done name pairs key => itemTokens done name pairs ++ [.name key]
  | itemEqual done name pairs key => itemTokens done name pairs ++ [.name key, .equal]
  | array done name first rest =>
    done.flatMap statementTokens ++ [.name name, .equal, .openBracket] ++ arrayTokens first rest

theorem step_tokens {c c' : ParseConfig} {t : Token} (taken : c.step t = some c') :
    c'.tokens = c.tokens ++ [t] := by
  unfold step at taken
  split at taken
  case h_12 => cases taken
  all_goals
    cases taken
    simp [tokens, itemTokens, statementTokens, arrayTokens, pairTokens]

theorem run_tokens {c c' : ParseConfig} {ts : List Token} (taken : c.run ts = some c') :
    c'.tokens = c.tokens ++ ts := by
  induction ts generalizing c with
  | nil =>
    cases taken
    rw [List.append_nil]
  | cons t ts ih =>
    unfold run at taken
    obtain ⟨mid, first, rest⟩ := Option.bind_eq_some_iff.mp taken
    rw [ih rest, step_tokens first, List.append_assoc]
    rfl

theorem run_append (c : ParseConfig) (ts us : List Token) :
    c.run (ts ++ us) = (c.run ts).bind fun c' => c'.run us := by
  induction ts generalizing c with
  | nil => rfl
  | cons t ts ih =>
    rw [List.cons_append, run, run]
    cases c.step t with
    | none => rfl
    | some mid => exact ih mid

theorem run_rest (done : List Statement) (name : Variable) (first : Variable × Value)
    (rest more : List (Variable × Value)) :
    (array done name first rest).run (more.flatMap fun pair => .comma :: pairTokens pair) =
      some (array done name first (rest ++ more)) := by
  induction more generalizing rest with
  | nil => rw [List.append_nil, List.flatMap_nil, run]
  | cons pair more ih =>
    rw [List.flatMap_cons, run_append]
    show (array done name first (rest ++ [pair])).run _ = _
    rw [ih, List.append_assoc]
    rfl

theorem run_statement (done : List Statement) (s : Statement) :
    (start done).run (statementTokens s) = some (start (done ++ [s])) := by
  cases s with
  | single name value => rfl
  | empty name => rfl
  | vector name first rest =>
    show (array done name first []).run
      ((rest.flatMap fun pair => .comma :: pairTokens pair) ++ [.closeBracket]) = _
    rw [run_append, run_rest]
    rfl

theorem run_statements (done statements : List Statement) :
    (start done).run (statements.flatMap statementTokens) = some (start (done ++ statements)) := by
  induction statements generalizing done with
  | nil => rw [List.append_nil, List.flatMap_nil, run]
  | cons s statements ih =>
    rw [List.flatMap_cons, run_append, run_statement]
    show (start (done ++ [s])).run _ = _
    rw [ih, List.append_assoc]
    rfl

end ParseConfig

/-- The parser reads the tokens of its statements. -/
theorem parseTokens_eq_some_iff {ts : List Token} {statements : List Statement} :
    parseTokens ts = some statements ↔ statements.flatMap statementTokens = ts := by
  constructor
  · intro parsed
    obtain ⟨c, taken, finished⟩ := Option.bind_eq_some_iff.mp parsed
    have read := ParseConfig.run_tokens taken
    cases c with
    | start done =>
      cases finished
      exact read
    | _ => cases finished
  · intro is
    rw [parseTokens, ← is, ParseConfig.run_statements]
    rfl

/-- In a text without an error all its attributes are set. -/
theorem statementsSet_of_parseText {text : String} {statements : List Statement}
    (parsed : parseText text = some statements) : statementsSet text = statements := by
  obtain ⟨c, taken, finished⟩ := Option.bind_eq_some_iff.mp parsed
  rw [statementsSet, ParseConfig.stop_of_run taken]
  cases c with
  | start done => exact Option.some.inj finished
  | _ => cases finished

/-! ## One text after another -/

theorem after_statements (statements : List Statement) :
    after .initial (statements.flatMap statementTokens) = .initial := by
  induction statements with
  | nil => rfl
  | cons s statements ih =>
    have one : after .initial (statementTokens s) = .initial := by
      cases s with
      | single name value => rfl
      | empty name => rfl
      | vector name first rest =>
        rw [statementTokens, after, List.foldl_append]
        rfl
    rw [List.flatMap_cons, after, List.foldl_append]
    show after (after .initial (statementTokens s)) _ = _
    rw [one, ih]

/-- Two texts with a newline between them give the attributes of both, in their order, exactly
when nothing of the first one spills into the second one. -/
theorem parseText_newline_iff {s t : String} {left right : List Statement}
    (first : parseText s = some left) (second : parseText t = some right) :
    parseText (s ++ "\n" ++ t) = some (left ++ right) ↔
      ¬ Spills t.toList .initial s.toList := by
  have leftTokens := parseTokens_eq_some_iff.mp first
  have rightTokens := parseTokens_eq_some_iff.mp second
  have ends : after .initial (lex .initial s.toList) = .initial := by
    rw [← leftTokens, after_statements]
  have text : (s ++ "\n" ++ t).toList = s.toList ++ '\n' :: t.toList := by
    rw [String.toList_append, String.toList_append, List.append_assoc]
    rfl
  rw [parseText, text, parseTokens_eq_some_iff, List.flatMap_append, leftTokens, rightTokens,
    ← lex_newline_iff ends]
  exact eq_comm

/-! ## Escaped values -/

/-- Each quote gets a backslash before it. -/
def escape : List Char → List Char
  | [] => []
  | c :: cs => if c = '"' then '\\' :: c :: escape cs else c :: escape cs

/-- A quote has a backslash before it. -/
def EscapedQuote (u : List Char) : Prop := ['\\', '"'] <:+: u

section Escapes

variable {u v w : List Char}

theorem EscapedQuote.cons_iff {c : Char} :
    EscapedQuote (c :: u) ↔ (c = '\\' ∧ u.head? = some '"') ∨ EscapedQuote u := by
  unfold EscapedQuote
  rw [List.infix_cons_iff]
  refine or_congr_left ?_
  cases u with
  | nil => simp
  | cons d u => simp [List.cons_prefix_cons, eq_comm]

theorem unescapeFirst_of_not (no : ¬ EscapedQuote u) : unescapeFirst u = u := by
  induction u with
  | nil => rfl
  | cons c u ih =>
    rw [EscapedQuote.cons_iff, not_or] at no
    unfold unescapeFirst
    split
    · rename_i is
      cases is
      exact absurd ⟨rfl, rfl⟩ no.1
    · rename_i is
      cases is
      rw [ih no.2]
    · rename_i is
      cases is

/-- The first quote with a backslash loses it. -/
theorem unescapeFirst_append (no : ¬ EscapedQuote u) :
    unescapeFirst (u ++ '\\' :: '"' :: w) = u ++ '"' :: w := by
  induction u with
  | nil => rfl
  | cons c u ih =>
    rw [EscapedQuote.cons_iff, not_or] at no
    rw [List.cons_append, unescapeFirst]
    · rw [ih no.2]
      rfl
    · intro x is quote
      refine no.1 ⟨is, ?_⟩
      cases u with
      | nil => cases quote
      | cons d u =>
        cases quote
        rfl

theorem unescapeFirst_length (some_ : EscapedQuote u) :
    (unescapeFirst u).length + 1 = u.length := by
  induction u with
  | nil => cases List.eq_nil_of_infix_nil some_
  | cons c u ih =>
    unfold unescapeFirst
    split
    · rename_i is
      cases is
      rfl
    · rename_i other is
      cases is
      rcases EscapedQuote.cons_iff.mp some_ with here | later
      · obtain ⟨d, ds, rfl⟩ : ∃ d ds, u = d :: ds := by
          cases u with
          | nil => cases here.2
          | cons d ds => exact ⟨d, ds, rfl⟩
        cases here.2
        exact absurd rfl (other ds here.1)
      · rw [List.length_cons, List.length_cons, ih later]
    · rename_i is
      cases is

/-- Unescaping leaves no quote with a backslash. -/
theorem not_escapedQuote_unescape (str : String) : ¬ EscapedQuote (unescape str).toList := by
  have shorter : ∀ n, EscapedQuote (unescapeFirst^[n] str.toList) →
      (unescapeFirst^[n] str.toList).length + n ≤ str.toList.length := by
    intro n
    induction n with
    | zero => exact fun _ => Nat.le_refl _
    | succ n ih =>
      rw [Function.iterate_succ_apply']
      intro some_
      by_cases before : EscapedQuote (unescapeFirst^[n] str.toList)
      · have lengths := unescapeFirst_length before
        have bound := ih before
        omega
      · rw [unescapeFirst_of_not before] at some_
        exact absurd some_ before
  intro some_
  rw [unescape, String.toList_ofList] at some_
  have bound := shorter _ some_
  have empty : unescapeFirst^[str.toList.length] str.toList = [] :=
    List.eq_nil_of_length_eq_zero (by omega)
  rw [empty] at some_
  cases List.eq_nil_of_infix_nil some_

theorem iterate_unescapeFirst (n : Nat) (enough : v.count '"' ≤ n)
    (no : ¬ EscapedQuote (u ++ v)) : unescapeFirst^[n] (u ++ escape v) = u ++ v := by
  induction v generalizing u n with
  | nil =>
    rw [List.append_nil] at no
    rw [escape, List.append_nil]
    exact Function.iterate_fixed (unescapeFirst_of_not no) n
  | cons c v ih =>
    have whole : u ++ c :: v = u ++ [c] ++ v := by simp
    rw [whole] at no ⊢
    rw [escape]
    split
    · rename_i quote
      rw [quote, List.count_cons_self] at enough
      obtain ⟨m, rfl⟩ : ∃ m, n = m + 1 := ⟨n - 1, by omega⟩
      have before : ¬ EscapedQuote u := fun some_ => no
        (some_.trans ((List.prefix_append u [c]).trans (List.prefix_append _ v)).isInfix)
      rw [Function.iterate_succ_apply, quote, unescapeFirst_append before]
      rw [quote] at no
      have rest := ih m (by omega) no
      rw [List.append_assoc] at rest
      exact rest
    · rename_i other
      rw [List.count_cons_of_ne other] at enough
      have rest := ih n enough no
      rw [List.append_assoc] at rest
      exact rest

theorem length_le_escape (v : List Char) : v.length ≤ (escape v).length := by
  induction v with
  | nil => exact Nat.le_refl _
  | cons c v ih =>
    rw [escape]
    split
    · simp only [List.length_cons]
      omega
    · simp only [List.length_cons]
      omega

theorem unescape_escape (no : ¬ EscapedQuote v) :
    unescape (String.ofList (escape v)) = String.ofList v := by
  rw [unescape, String.toList_ofList]
  have enough : v.count '"' ≤ (escape v).length :=
    List.count_le_length.trans (length_le_escape v)
  have whole : ¬ EscapedQuote ([] ++ v) := no
  exact congrArg String.ofList (iterate_unescapeFirst _ enough whole)

theorem unclosed_escape (escaped : Bool) (v : List Char) : unclosed escaped (escape v) = true := by
  induction v generalizing escaped with
  | nil => rfl
  | cons c v ih =>
    rw [escape]
    split
    · rename_i quote
      rw [quote, unclosed, if_neg (by decide), unclosed, if_pos rfl, ih]
      rfl
    · rename_i other
      rw [unclosed, if_neg other, ih]

/-- A quote at the end of the text closes an open string. -/
theorem closing_last {escaped : Bool} (open_ : unclosed escaped u = true) :
    closing escaped (u ++ ['"']) = some (u, []) := by
  induction u generalizing escaped with
  | nil => cases escaped <;> rfl
  | cons c u ih =>
    unfold unclosed at open_
    rw [List.cons_append, closing]
    split
    · rename_i quote
      rw [if_pos quote, Bool.and_eq_true] at open_
      rw [if_pos open_.1, ih open_.2]
    · rename_i other
      rw [if_neg other] at open_
      rw [ih open_]
      rfl

end Escapes

/-! ## An attribute with an escaped value -/

/-- The escaped forms of a value: between quotes, or up to the end of the line. -/
def forms (v : String) : List (List Char) :=
  ['"' :: (escape v.toList ++ ['"']), escape v.toList ++ ['\n']]

/-- Some escaped form of the value is read as the value. -/
def GivesBack (name : Variable) (v : String) : Prop :=
  ∃ form ∈ forms v, ∃ s, parseText (name.text ++ "=" ++ String.ofList form) = some [s] ∧
    s.attribute = .single (attributeName name.text) v

theorem variable_eq {a b : Variable} (same : a.text = b.text) : a = b := by
  cases a
  cases b
  cases same
  rfl

theorem not_space_of_isWord {c : Char} (word : isWord c = true) :
    isSpace c = false ∧ ∀ d ∈ ['#', '=', ',', ']'], c ≠ d := by
  have notSpace : isSpace c = false := by
    by_contra space
    rw [Bool.not_eq_false] at space
    simp only [isSpace, isGap, Bool.or_eq_true, decide_eq_true_eq] at space
    rcases space with (is | is) | is <;> (rw [is] at word; cases word)
  refine ⟨notSpace, fun d mem is => ?_⟩
  rw [is] at word
  simp only [List.mem_cons, List.not_mem_nil, or_false] at mem
  rcases mem with is | is | is | is <;> (rw [is] at word; cases word)

/-- A name and the equal sign after it. -/
theorem lex_name (name : Variable) (w : List Char) :
    lex .initial (name.text.toList ++ '=' :: w) = .name name :: lex .initial ('=' :: w) := by
  obtain ⟨c, cs, is⟩ := List.exists_cons_of_ne_nil name.nonempty
  have all : ∀ d ∈ c :: cs, isWord d = true := by
    intro d mem
    rw [isWord, Bool.or_eq_true, decide_eq_true_eq]
    exact name.word d (is ▸ mem)
  have word : isWord c = true := all c List.mem_cons_self
  have rest : ∀ d ∈ cs, isWord d = true := fun d mem => all d (List.mem_cons_of_mem c mem)
  obtain ⟨notSpace, other⟩ := not_space_of_isWord word
  have dropped : (cs ++ '=' :: w).dropWhile isWord = '=' :: w := by
    rw [List.dropWhile_append_of_pos rest]
    rfl
  have taken : nameOf c (cs ++ '=' :: w) word = name := by
    apply variable_eq
    show String.ofList (c :: (cs ++ '=' :: w).takeWhile isWord) = name.text
    rw [List.takeWhile_append_of_pos rest, List.takeWhile_cons_of_neg (by decide),
      List.append_nil, ← is, String.ofList_toList]
  have scanned : scan .initial c (cs ++ '=' :: w) = ⟨some (.name name), '=' :: w, .initial⟩ := by
    show scanInitial c (cs ++ '=' :: w) = _
    rw [scanInitial_of_not_space notSpace, scanSpaced]
    simp only [List.head?_cons, Option.some.injEq]
    rw [if_neg fun both => other '#' (by simp) both.1, if_neg (other '=' (by simp)),
      if_neg (other ',' (by simp)), if_neg (other ']' (by simp))]
    dsimp only
    rw [dif_pos word, taken, dropped]
  rw [is, List.cons_append, lex_cons, scanned]
  rfl

/-- An escaped value between quotes, at the end of the text. -/
theorem lex_quoted {v : List Char} (some_ : v ≠ []) : ∃ value : Value,
    value.text = String.ofList (escape v) ∧
      lex .initial ('=' :: '"' :: (escape v ++ ['"'])) = [.equal, .string value] := by
  have long := length_le_escape v
  have positive := List.length_pos_iff.mpr some_
  obtain ⟨d, ds, is⟩ := List.exists_cons_of_ne_nil (List.length_pos_iff.mp (positive.trans_le long))
  have closes := closing_last (unclosed_escape false v)
  have short := (List.takeWhile_prefix (l := escape v ++ ['"']) isPlain).length_le
  have read : scanString '"' (escape v ++ ['"']) = (valueOf d ds, []) := by
    unfold scanString
    dsimp only
    rw [if_pos rfl, closes, is]
    dsimp only
    rw [is, List.length_append, List.length_cons, List.length_singleton] at short
    rw [if_pos (by omega)]
  refine ⟨valueOf d ds, by rw [valueOf, is], ?_⟩
  have equal : scan .initial '=' ('"' :: (escape v ++ ['"'])) =
      ⟨some .equal, '"' :: (escape v ++ ['"']), .value⟩ := rfl
  rw [lex_cons, equal]
  dsimp only
  rw [lex_cons, scan_quote, read]
  rfl

/-- A value can be given back exactly when it has no quote with a backslash before it. -/
theorem givesBack_iff (name : Variable) (v : String) :
    GivesBack name v ↔ ¬ EscapedQuote v.toList := by
  have text (form : List Char) :
      (name.text ++ "=" ++ String.ofList form).toList = name.text.toList ++ '=' :: form := by
    simp only [String.toList_append, String.toList_ofList, List.append_assoc]
    rfl
  constructor
  · intro back
    obtain ⟨form, -, s, -, is⟩ := back
    cases s with
    | single name' value =>
      injection is with _ same
      rw [← same]
      exact not_escapedQuote_unescape value.text
    | empty name' =>
      injection is with _ same
      rw [← same]
      exact fun some_ => by cases List.eq_nil_of_infix_nil some_
    | vector name' first rest => cases is
  · intro no
    by_cases empty : v.toList = []
    · refine ⟨escape v.toList ++ ['\n'], by simp [forms], .empty name, ?_, ?_⟩
      · rw [parseText, text, parseTokens_eq_some_iff, lex_name, empty]
        rfl
      · have same : v = "" := String.toList_eq_nil_iff.mp empty
        rw [same]
        rfl
    · obtain ⟨value, reads, tokens⟩ := lex_quoted empty
      refine ⟨_, List.mem_cons_self, .single name value, ?_, ?_⟩
      · rw [parseText, text, parseTokens_eq_some_iff, lex_name, tokens]
        rfl
      · rw [Statement.attribute, reads, unescape_escape no, String.ofList_toList]

/-! ## Texts one after another, and values -/

/-- The attributes that a text sets. -/
def attributes (text : String) : Option (List Attribute) :=
  (parseText text).map fun statements => statements.map Statement.attribute

/-- Two texts are read one after the other exactly when nothing of the first one spills, and
then their attributes are set in that order; a value has an escaped form that gives it back
exactly when it has no quote with a backslash before it. -/
theorem composes_and_gives_back_iff {s t : String} {left right : List Statement}
    (first : parseText s = some left) (second : parseText t = some right) (name : Variable)
    (v : String) :
    (parseText (s ++ "\n" ++ t) = some (left ++ right) ↔ ¬ Spills t.toList .initial s.toList) ∧
      (¬ Spills t.toList .initial s.toList → attributes (s ++ "\n" ++ t) =
        some (left.map Statement.attribute ++ right.map Statement.attribute)) ∧
      (GivesBack name v ↔ ¬ EscapedQuote v.toList) := by
  have both := parseText_newline_iff first second
  refine ⟨both, fun never => ?_, givesBack_iff name v⟩
  rw [attributes, both.mpr never, Option.map_some, List.map_append]

/-- The names A and B. -/
def nameA : Variable := nameOf 'A' [] (by decide)

def nameB : Variable := nameOf 'B' [] (by decide)

theorem composes_and_gives_back_iff_numbers :
    (parseText ("A=1" ++ "\n" ++ "B=2") =
          some ([.single nameA (valueOf '1' [])] ++ [.single nameB (valueOf '2' [])]) ↔
        ¬ Spills "B=2".toList .initial "A=1".toList) ∧
      (¬ Spills "B=2".toList .initial "A=1".toList → attributes ("A=1" ++ "\n" ++ "B=2") =
        some ([Statement.single nameA (valueOf '1' [])].map Statement.attribute ++
          [Statement.single nameB (valueOf '2' [])].map Statement.attribute)) ∧
      (GivesBack nameA "\"" ↔ ¬ EscapedQuote "\"".toList) :=
  composes_and_gives_back_iff rfl rfl nameA "\""

/-- After `A="x\"` the string goes on to the first quote of `B="y"`, a comment takes the second
attribute of `A=1 #B=2`, and a backslash before a quote is lost. -/
theorem text_after_open_string :
    (parseText "A=\"x\\\"" = some [.single nameA (valueOf 'x' ['\\'])] ∧
        parseText "B=\"y\"" = some [.single nameB (valueOf 'y' [])] ∧
        parseText ("A=\"x\\\"" ++ "\n" ++ "B=\"y\"") = none) ∧
      (parseText "A=1 #B=2" =
          some [.single nameA (valueOf '1' []), .single nameB (valueOf '2' [])] ∧
        parseText "A=1" = some [.single nameA (valueOf '1' [])] ∧
        parseText ("A=1 #B=2" ++ "\n" ++ "A=1") =
          some [.single nameA (valueOf '1' []), .single nameA (valueOf '1' [])]) ∧
      ¬ GivesBack nameA "\\\"" := by
  refine ⟨⟨rfl, rfl, rfl⟩, ⟨rfl, rfl, rfl⟩, ?_⟩
  rw [givesBack_iff, not_not]
  exact List.infix_rfl

end TemplateText

end Ezilla

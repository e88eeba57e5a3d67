import Mathlib.Data.List.Basic
import Mathlib.Data.List.DropRight

/-!
# Assignments that a shell reads

A POSIX shell reads a text of assignments line by line: the name up to the equals sign, and then a
word whose quotes and backslashes are removed. A text may also be written with quotes around each
value. This module says what such a reader makes of any text, as long as the text only assigns, and
when a text that was written so assigns what was to be written.

* `Quoting`, `readWord`: the quoting rules for a word;
* `shellRun`: the assignments of a text, `none` where it does anything else;
* `Literal`: the values that stand for themselves between double quotes;
* `shellAssignments_iff`: a text of lines `NAME="VALUE"` assigns just these values if and only if
  they are literal and the names are names.
-/

namespace ShellWords

/-! ## Words -/

/-- How the next character is quoted. -/
inductive Quoting where
  | plain
  /-- behind a backslash -/
  | plainEscaped
  | single
  | double
  /-- behind a backslash in double quotes -/
  | doubleEscaped
  deriving DecidableEq

/-- The characters that begin an expansion, outside single quotes. -/
def expands (c : Char) : Bool := c = '$' || c = '`'

/-- The characters that end a word, outside quotes. -/
def isEnd (c : Char) : Bool := c ∈ [' ', '\t', '\n', ';', '&', '|', '<', '>', '(', ')']

/-- What a character of a word stands for, and how the next one is quoted. There is no result where
an expansion begins; a tilde may be one. -/
def Quoting.step : Quoting → Char → Option (Quoting × List Char)
  | .plain, c =>
    if c = '\'' then some (.single, [])
    else if c = '"' then some (.double, [])
    else if c = '\\' then some (.plainEscaped, [])
    else if expands c ∨ c = '~' then none
    else some (.plain, [c])
  | .plainEscaped, c => some (.plain, if c = '\n' then [] else [c])
  | .single, c => if c = '\'' then some (.plain, []) else some (.single, [c])
  | .double, c =>
    if c = '"' then some (.plain, [])
    else if c = '\\' then some (.doubleEscaped, [])
    else if expands c then none
    else some (.double, [c])
  | .doubleEscaped, c =>
    if c = '\n' then some (.double, [])
    else if expands c ∨ c = '"' ∨ c = '\\' then some (.double, [c])
    else some (.double, ['\\', c])

/-- A word without its quotes, and the text behind it. -/
def readWord : Quoting → List Char → Option (List Char × List Char)
  | q, [] => if q = .plain then some ([], []) else none
  | q, c :: cs =>
    if q = .plain ∧ isEnd c then some ([], c :: cs)
    else
      match q.step c with
      | none => none
      | some (q', out) => (readWord q' cs).map fun w => (out ++ w.1, w.2)

/-! ## Texts -/

def isNameStart (c : Char) : Bool := c.isAlpha || c = '_'

def isNameChar (c : Char) : Bool := c.isAlphanum || c = '_'

/-- The names of variables. -/
def IsShellName (name : List Char) : Prop :=
  name.head?.any isNameStart = true ∧ ∀ c ∈ name, isNameChar c = true

instance (name : List Char) : Decidable (IsShellName name) :=
  decidable_of_iff (name.head?.any isNameStart = true ∧ name.all isNameChar = true)
    (and_congr_right' List.all_eq_true)

/-- A name with an equals sign, and the text behind it. -/
def readName (t : List Char) : Option (List Char × List Char) :=
  match t.dropWhile isNameChar with
  | '=' :: rest =>
    if IsShellName (t.takeWhile isNameChar) then some (t.takeWhile isNameChar, rest) else none
  | _ => none

def isGap (c : Char) : Bool := c = ' ' || c = '\t'

/-- The text behind a word, without the `;` that may end the command. -/
def afterWord (t : List Char) : List Char :=
  match t.dropWhile isGap with
  | ';' :: rest => rest
  | rest => rest

/-- The assignments of a text, in their order, with at most `n` words and comments. There is no
result where a command is run, an expansion is made, or the syntax is wrong. -/
def shellRun : Nat → List Char → Option (List (List Char × List Char))
  | 0, _ => none
  | n + 1, t =>
    match t.dropWhile fun c => isGap c || c = '\n' with
    | [] => some []
    | '#' :: cs => shellRun n (cs.dropWhile (· ≠ '\n'))
    | c :: cs =>
      match readName (c :: cs) with
      | none => none
      | some (name, t) =>
        match readWord .plain t with
        | none => none
        | some (value, rest) => (shellRun n (afterWord rest)).map ((name, value) :: ·)

/-- The assignments of a text. -/
def shellAssignments (t : List Char) : Option (List (List Char × List Char)) :=
  shellRun (t.length + 1) t

/-- The values that stand for themselves between double quotes: without quotes and expansions, and
every backslash before a character that is neither a backslash nor the end of a line. -/
def Literal : List Char → Prop
  | [] => True
  | c :: cs => (c ≠ '"' ∧ expands c = false ∧
      (c = '\\' → ∃ d rest, cs = d :: rest ∧ d ≠ '\\' ∧ d ≠ '\n')) ∧ Literal cs

/-- The text goes on with another character than a backslash or the end of a line. -/
instance decidableGoesOn :
    (cs : List Char) → Decidable (∃ d rest, cs = d :: rest ∧ d ≠ '\\' ∧ d ≠ '\n')
  | [] => isFalse nofun
  | d :: rest => decidable_of_iff (d ≠ '\\' ∧ d ≠ '\n')
    ⟨fun other => ⟨d, rest, rfl, other⟩, fun ⟨_, _, same, other⟩ => (List.cons.inj same).1 ▸ other⟩

instance decidableLiteral : (value : List Char) → Decidable (Literal value)
  | [] => isTrue trivial
  | c :: cs =>
    have := decidableLiteral cs
    inferInstanceAs (Decidable ((c ≠ '"' ∧ expands c = false ∧
      (c = '\\' → ∃ d rest, cs = d :: rest ∧ d ≠ '\\' ∧ d ≠ '\n')) ∧ Literal cs))

/-- A line for each value. -/
def assignmentLines : List (List Char × List Char) → List Char
  | [] => []
  | (name, value) :: rest => name ++ '=' :: '"' :: value ++ '"' :: '\n' :: assignmentLines rest

/-! ## What is read of a word -/

variable {q : Quoting} {t used rest value d : List Char} {c : Char}

/-- Neither a quote or backslash nor the end of a line. Such characters are never removed. -/
def isOrdinary (c : Char) : Bool := c ≠ '\'' && c ≠ '"' && c ≠ '\\' && c ≠ '\n'

/-- What has to be removed yet: the quote that ends a quoted part. -/
def Quoting.open : Quoting → Nat
  | .single => 1
  | .double => 1
  | _ => 0

theorem readWord_cons (goes : ¬ (q = .plain ∧ isEnd c)) : readWord q (c :: t) =
    (q.step c).bind fun next => (readWord next.1 t).map fun w => (next.2 ++ w.1, w.2) := by
  rw [readWord, if_neg goes]
  cases q.step c with
  | none => rfl
  | some next => rfl

theorem readWord_end (ends : isEnd c = true) : readWord .plain (c :: t) = some ([], c :: t) := by
  rw [readWord, if_pos ⟨rfl, ends⟩]

/-- One character: its ordinary part stays, and it is not longer than what it was written with. -/
theorem step_counts {next : Quoting × List Char} (stepped : q.step c = some next) :
    next.2.countP isOrdinary = [c].countP isOrdinary ∧
      next.2.length + q.open ≤ 1 + next.1.open := by
  have escaped : isOrdinary '\\' = false := by decide
  have newline : isOrdinary '\n' = false := by decide
  have quote : isOrdinary '\'' = false := by decide
  have quotes : isOrdinary '"' = false := by decide
  cases q with
  | plain =>
    rw [Quoting.step] at stepped
    split_ifs at stepped with single double backslash
    · cases stepped
      simp [single, quote, Quoting.open]
    · cases stepped
      simp [double, quotes, Quoting.open]
    · cases stepped
      simp [backslash, escaped, Quoting.open]
    · cases stepped
      simp [Quoting.open]
  | plainEscaped =>
    cases stepped
    split_ifs with line
    · simp [line, newline, Quoting.open]
    · simp [Quoting.open]
  | single =>
    rw [Quoting.step] at stepped
    split_ifs at stepped with single
    · cases stepped
      simp [single, quote, Quoting.open]
    · cases stepped
      simp [Quoting.open]
  | double =>
    rw [Quoting.step] at stepped
    split_ifs at stepped with double backslash
    · cases stepped
      simp [double, quotes, Quoting.open]
    · cases stepped
      simp [backslash, escaped, Quoting.open]
    · cases stepped
      simp [Quoting.open]
  | doubleEscaped =>
    rw [Quoting.step] at stepped
    split_ifs at stepped with line special
    · cases stepped
      simp [line, newline, Quoting.open]
    · cases stepped
      simp [Quoting.open]
    · cases stepped
      simp [List.countP_cons, escaped, Quoting.open]

/-- The part of a text that a word takes. No ordinary character is lost, and the word is shorter by
the quotes at least. It ends before a character that ends it. -/
theorem readWord_used (read : readWord q t = some (d, rest)) : ∃ used, t = used ++ rest ∧
    d.countP isOrdinary = used.countP isOrdinary ∧ d.length + q.open ≤ used.length ∧
    ∀ c cs, rest = c :: cs → isEnd c = true := by
  induction t generalizing q d with
  | nil =>
    rw [readWord] at read
    split at read
    · rename_i plain
      cases read
      refine ⟨[], rfl, rfl, ?_, nofun⟩
      rw [plain]
      exact Nat.le_refl 0
    · cases read
  | cons c t ih =>
    by_cases ends : q = .plain ∧ isEnd c
    · rw [ends.1, readWord_end ends.2] at read
      cases read
      refine ⟨[], rfl, rfl, ?_, fun c' cs same => ?_⟩
      · rw [ends.1]
        exact Nat.le_refl 0
      · cases same
        exact ends.2
    · rw [readWord_cons ends] at read
      obtain ⟨next, stepped, read⟩ := Option.bind_eq_some_iff.mp read
      obtain ⟨⟨d', rest'⟩, further, same⟩ := Option.map_eq_some_iff.mp read
      cases same
      obtain ⟨used, split, ordinary, shorter, stop⟩ := ih further
      obtain ⟨same_ordinary, part⟩ := step_counts stepped
      refine ⟨c :: used, by rw [split, List.cons_append], ?_, ?_, stop⟩
      · rw [List.countP_append, same_ordinary, ordinary, ← List.countP_append]
        rfl
      · rw [List.length_append, List.length_cons]
        dsimp only
        omega

theorem readWord_le (read : readWord q (used ++ rest) = some (d, rest)) :
    d.length + q.open ≤ used.length := by
  obtain ⟨used', split, _, shorter, _⟩ := readWord_used read
  rwa [List.append_cancel_right split]

/-- The first character of a word, and the rest of the word. -/
theorem readWord_step (read : readWord q (c :: used ++ rest) = some (d, rest)) :
    ∃ next d', q.step c = some next ∧ readWord next.1 (used ++ rest) = some (d', rest) ∧
      d = next.2 ++ d' ∧ d'.length + next.1.open ≤ used.length := by
  have goes : ¬ (q = .plain ∧ isEnd c) := by
    intro ends
    rw [ends.1, List.cons_append, readWord_end ends.2] at read
    have same := congrArg List.length (congrArg Prod.snd (Option.some.inj read))
    dsimp only at same
    rw [List.length_cons, List.length_append] at same
    omega
  rw [List.cons_append, readWord_cons goes] at read
  obtain ⟨next, stepped, read⟩ := Option.bind_eq_some_iff.mp read
  obtain ⟨⟨d', rest'⟩, further, same⟩ := Option.map_eq_some_iff.mp read
  cases same
  exact ⟨next, d', stepped, further, rfl, readWord_le further⟩

/-- A word outside quotes that is as long as its text has no quotes. -/
theorem tight_plain (read : readWord .plain (used ++ rest) = some (d, rest))
    (tight : used.length ≤ d.length) : '"' ∉ used := by
  induction used generalizing d with
  | nil => exact List.not_mem_nil
  | cons c used ih =>
    obtain ⟨next, d', stepped, further, rfl, shorter⟩ := readWord_step read
    rw [List.length_append, List.length_cons] at tight
    rw [Quoting.step] at stepped
    split_ifs at stepped with single double backslash
    · cases stepped
      have none : ([] : List Char).length = 0 := rfl
      dsimp only [Quoting.open] at shorter tight
      omega
    · cases stepped
      have none : ([] : List Char).length = 0 := rfl
      dsimp only [Quoting.open] at shorter tight
      omega
    · cases stepped
      have none : ([] : List Char).length = 0 := rfl
      dsimp only [Quoting.open] at shorter tight
      omega
    · cases stepped
      have one : [c].length = 1 := rfl
      dsimp only at further tight
      intro member
      rcases List.mem_cons.mp member with same | later
      · exact double same.symm
      · exact ih further (by omega) later

/-- A word in double quotes that is shorter by the last quote only is literal. -/
theorem tight_double (read : readWord .double (value ++ '"' :: rest) = some (d, rest))
    (tight : value.length ≤ d.length) : Literal value := by
  induction value generalizing d with
  | nil => trivial
  | cons c value ih =>
    have split : c :: value ++ '"' :: rest = c :: (value ++ ['"']) ++ rest := by
      rw [List.cons_append, List.cons_append, List.append_assoc, List.singleton_append]
    rw [split] at read
    obtain ⟨next, d', stepped, further, rfl, shorter⟩ := readWord_step read
    rw [List.length_append, List.length_cons] at tight
    rw [List.length_append, List.length_singleton] at shorter
    rw [Quoting.step] at stepped
    split_ifs at stepped with double backslash expansion
    · cases stepped
      dsimp only at further tight
      rw [List.length_nil, Nat.zero_add] at tight
      have none := tight_plain further (by rw [List.length_append, List.length_singleton]; exact tight)
      exact absurd (List.mem_append_right _ List.mem_cons_self) none
    · cases stepped
      dsimp only [Quoting.open] at further tight shorter
      rw [List.length_nil, Nat.zero_add] at tight
      cases value with
      | nil =>
        -- the quote that was to end the word
        obtain ⟨next, d'', stepped, _, _, shorter⟩ := readWord_step further
        cases stepped
        dsimp only [Quoting.open] at shorter
        rw [List.length_nil] at shorter
        omega
      | cons e value =>
        obtain ⟨next, d'', stepped, behind, rfl, within⟩ := readWord_step further
        rw [List.length_append, List.length_cons] at tight
        have length : (value.append ['"']).length = value.length + 1 :=
          (List.length_append).trans rfl
        rw [length] at within
        rw [Quoting.step] at stepped
        split_ifs at stepped with line special
        · cases stepped
          dsimp only [Quoting.open] at tight within
          rw [List.length_nil] at tight
          omega
        · cases stepped
          dsimp only [Quoting.open] at tight within
          rw [List.length_singleton] at tight
          omega
        · cases stepped
          push Not at special
          obtain ⟨expansion, quote, backslash'⟩ := special
          refine ⟨⟨double, ?_, fun _ => ⟨e, value, rfl, backslash', line⟩⟩, ?_⟩
          · rw [backslash]
            decide
          · have read : readWord .double (e :: value ++ '"' :: rest) = some (e :: d'', rest) := by
              have goes : ¬ (Quoting.double = .plain ∧ isEnd e) := fun ends =>
                absurd ends.1 (by decide)
              rw [List.cons_append, readWord_cons goes, Quoting.step, if_neg quote,
                if_neg backslash', if_neg expansion]
              have joined : value ++ '"' :: rest = value.append ['"'] ++ rest :=
                (List.append_assoc value ['"'] rest).symm
              rw [joined]
              exact congrArg (Option.map _) behind
            refine ih read ?_
            have two : ['\\', e].length = 2 := rfl
            dsimp only [Quoting.open] at tight
            rw [List.length_cons, List.length_cons]
            omega
    · cases stepped
      rw [List.append_assoc] at further
      have one : [c].length = 1 := rfl
      dsimp only at further tight
      exact ⟨⟨double, Bool.not_eq_true _ ▸ expansion, fun same => absurd same backslash⟩,
        ih further (by omega)⟩

/-- No word takes the end of a line behind a quote and is at the end of the text. -/
theorem readWord_newline (t : List Char) : readWord q (t ++ ['"', '\n']) ≠ some (d, []) := by
  induction t generalizing q d with
  | nil =>
    intro read
    cases q with
    | plain => cases read
    | plainEscaped => cases read
    | single => cases read
    | double => cases read
    | doubleEscaped => cases read
  | cons c t ih =>
    intro read
    by_cases ends : q = .plain ∧ isEnd c
    · rw [List.cons_append, ends.1, readWord_end ends.2] at read
      cases read
    · rw [List.cons_append, readWord_cons ends] at read
      obtain ⟨next, _, read⟩ := Option.bind_eq_some_iff.mp read
      obtain ⟨⟨d', rest'⟩, further, same⟩ := Option.map_eq_some_iff.mp read
      cases same
      exact ih further

/-- A value that is read between its quotes is literal, and the word is not longer. -/
theorem literal_of_readWord (behind : ∀ c cs, rest = c :: cs → isNameStart c = true)
    (read : readWord .double (value ++ '"' :: '\n' :: rest) = some (value, t)) :
    Literal value ∧ t = '\n' :: rest := by
  have start : ∀ c, isNameStart c = true → isOrdinary c = true ∧ isEnd c = false := by
    intro c first
    have other : (['\'', '"', '\\', '\n', ' ', '\t', ';', '&', '|', '<', '>', '(', ')'].all
        fun d => !isNameStart d) = true := by decide
    have ne : ∀ d ∈ ['\'', '"', '\\', '\n', ' ', '\t', ';', '&', '|', '<', '>', '(', ')'],
        c ≠ d := by
      intro d member same
      have no := List.all_eq_true.mp other d member
      rw [← same, first] at no
      cases no
    simp only [List.mem_cons, List.not_mem_nil, or_false, forall_eq_or_imp, forall_eq] at ne
    simp [isOrdinary, isEnd, ne]
  obtain ⟨used, split, ordinary, shorter, stop⟩ := readWord_used read
  -- the word takes the value and the quote at least
  obtain ⟨tail, rfl⟩ : ∃ tail, used = value ++ '"' :: tail := by
    have long : (value ++ ['"']).length ≤ used.length := by
      rw [List.length_append, List.length_singleton]
      exact shorter
    have whole : value ++ '"' :: '\n' :: rest = (value ++ ['"']) ++ '\n' :: rest := by
      rw [List.append_assoc, List.singleton_append]
    rw [whole] at split
    obtain ⟨tail, is⟩ := List.prefix_of_prefix_length_le (List.prefix_append _ _)
      (split ▸ List.prefix_append used t) long
    exact ⟨tail, by rw [← is, List.append_assoc, List.singleton_append]⟩
  rw [List.append_assoc, List.cons_append] at split
  have after : '\n' :: rest = tail ++ t := (List.cons.inj (List.append_cancel_left split)).2
  have none : tail.countP isOrdinary = 0 := by
    rw [List.countP_append, List.countP_cons] at ordinary
    omega
  cases tail with
  | nil =>
    have is : t = '\n' :: rest := after.symm
    rw [is] at read
    exact ⟨tight_double read (Nat.le_refl _), is⟩
  | cons c tail =>
    obtain ⟨rfl, behind_is⟩ := List.cons.inj after
    exfalso
    cases tail with
    | nil =>
      cases rest with
      | nil =>
        have empty : t = [] := behind_is.symm
        rw [empty] at read
        exact readWord_newline value read
      | cons c cs =>
        have ended := stop c cs behind_is.symm
        rw [(start c (behind c cs rfl)).2] at ended
        cases ended
    | cons c tail =>
      have first := (start c (behind c (tail ++ t) behind_is)).1
      have counted := List.countP_eq_zero.mp none c
        (List.mem_cons_of_mem _ List.mem_cons_self)
      exact counted first

/-- A literal value is read as it is. -/
theorem readWord_literal (literal : Literal value) (t : List Char) :
    readWord .double (value ++ '"' :: '\n' :: t) = some (value, '\n' :: t) := by
  induction value with
  | nil => rfl
  | cons c value ih =>
    obtain ⟨⟨quote, expansion, backslash⟩, literal⟩ := literal
    have goes : ∀ q c, q ≠ Quoting.plain → ¬ (q = .plain ∧ isEnd c) := fun q c other ends =>
      other ends.1
    rw [List.cons_append, readWord_cons (goes _ _ (by decide)), Quoting.step, if_neg quote]
    by_cases is : c = '\\'
    · obtain ⟨e, rest, rfl, other, line⟩ := backslash is
      have read := ih literal
      obtain ⟨⟨quote', expansion', _⟩, _⟩ := literal
      rw [List.cons_append, readWord_cons (goes _ _ (by decide)), Quoting.step, if_neg quote',
        if_neg other, expansion', if_neg Bool.false_ne_true] at read
      obtain ⟨⟨w, t'⟩, further, same⟩ := Option.map_eq_some_iff.mp read
      cases same
      rw [if_pos is, is]
      show (readWord .doubleEscaped (e :: (w ++ '"' :: '\n' :: t))).map _ = _
      have special : ¬ (expands e = true ∨ e = '"' ∨ e = '\\') := by
        rw [expansion']
        simp [quote', other]
      rw [readWord_cons (goes _ _ (by decide)), Quoting.step, if_neg line, if_neg special]
      have behind : readWord .double (w ++ '"' :: '\n' :: t) = some (w, '\n' :: t) := further
      show ((readWord .double (w ++ '"' :: '\n' :: t)).map _).map _ = _
      rw [behind]
      rfl
    · rw [if_neg is, expansion, if_neg Bool.false_ne_true]
      exact congrArg (Option.map _) (ih literal)

/-! ## What is read of a text -/

theorem shellRun_newline (n : Nat) (t : List Char) : shellRun n ('\n' :: t) = shellRun n t := by
  cases n with
  | zero => rfl
  | succ n =>
    rw [shellRun, shellRun]
    rfl

/-- The text starts with a name, which is not a comment. -/
theorem shellRun_name {n : Nat} {name : List Char} (is_name : IsShellName name) (t : List Char) :
    shellRun (n + 1) (name ++ '=' :: t) = (readWord .plain t).bind fun w =>
      (shellRun n (afterWord w.2)).map ((name, w.1) :: ·) := by
  obtain ⟨first, all⟩ := is_name
  cases name with
  | nil => cases first
  | cons c cs =>
    have start : isNameStart c = true := first
    have other : (['#', ' ', '\t', '\n'].all fun d => !isNameStart d) = true := by decide
    have ne : ∀ d ∈ ['#', ' ', '\t', '\n'], c ≠ d := by
      intro d member same
      have no := List.all_eq_true.mp other d member
      rw [← same, start] at no
      cases no
    simp only [List.mem_cons, List.not_mem_nil, or_false, forall_eq_or_imp, forall_eq] at ne
    obtain ⟨hash, blank, tab, line⟩ := ne
    have kept : (c :: (cs ++ '=' :: t)).dropWhile (fun c => isGap c || c = '\n') =
        c :: (cs ++ '=' :: t) :=
      List.dropWhile_cons_of_neg (by simp [isGap, blank, tab, line])
    have equals : isNameChar '=' = false := by decide
    have named : readName (c :: (cs ++ '=' :: t)) = some (c :: cs, t) := by
      have taken : (c :: cs ++ '=' :: t).takeWhile isNameChar = c :: cs := by
        rw [List.takeWhile_append_of_pos all, List.takeWhile_cons, equals]
        exact List.append_nil _
      have dropped : (c :: cs ++ '=' :: t).dropWhile isNameChar = '=' :: t := by
        rw [List.dropWhile_append_of_pos all, List.dropWhile_cons, equals]
        rfl
      rw [List.cons_append] at taken dropped
      unfold readName
      rw [taken, dropped]
      exact if_pos ⟨first, all⟩
    rw [List.cons_append, shellRun, kept]
    split
    · rename_i empty
      cases empty
    · rename_i comment
      exact absurd (List.cons.inj comment).1 hash
    · rename_i same
      cases same
      rw [named]
      dsimp only
      cases readWord .plain t with
      | none => rfl
      | some w => rfl

/-- Whatever is assigned has a name. -/
theorem name_of_shellRun {n : Nat} {values : List (List Char × List Char)}
    (run : shellRun n t = some values) : ∀ v ∈ values, IsShellName v.1 := by
  induction n generalizing t values with
  | zero => cases run
  | succ n ih =>
    rw [shellRun] at run
    split at run
    · cases run
      exact nofun
    · exact ih run
    · split at run
      · cases run
      · rename_i name t' named
        split at run
        · cases run
        · obtain ⟨values', run', rfl⟩ := Option.map_eq_some_iff.mp run
          intro v member
          rcases List.mem_cons.mp member with rfl | later
          · unfold readName at named
            split at named
            · split at named
              · rename_i is_name
                cases named
                exact is_name
              · cases named
            · cases named
          · exact ih run' v later

theorem readWord_quote (t : List Char) : readWord .plain ('"' :: t) = readWord .double t := by
  rw [readWord_cons (by decide)]
  show (readWord .double t).map (fun w => ([] ++ w.1, w.2)) = _
  cases readWord .double t <;> rfl

variable {values : List (List Char × List Char)}

theorem assignmentLines_cons (v : List Char × List Char) : assignmentLines (v :: values) =
    v.1 ++ '=' :: ('"' :: (v.2 ++ '"' :: '\n' :: assignmentLines values)) := by
  obtain ⟨name, value⟩ := v
  rw [assignmentLines, List.append_assoc]
  rfl

theorem assignmentLines_start (named : ∀ v ∈ values, IsShellName v.1) {cs : List Char}
    (is : assignmentLines values = c :: cs) : isNameStart c = true := by
  cases values with
  | nil => cases is
  | cons v values =>
    have first := (named v List.mem_cons_self).1
    rw [assignmentLines_cons] at is
    cases name : v.1 with
    | nil =>
      rw [name] at first
      cases first
    | cons d ds =>
      rw [name, List.cons_append] at is
      rw [name] at first
      rw [← (List.cons.inj is).1]
      exact first

/-- The lines assign what was written if and only if the names are names and the values are
literal. -/
theorem shellRun_assignmentLines_iff {n : Nat} (enough : values.length < n) :
    shellRun n (assignmentLines values) = some values ↔
      ∀ v ∈ values, IsShellName v.1 ∧ Literal v.2 := by
  induction values generalizing n with
  | nil =>
    cases n with
    | zero => exact absurd enough (Nat.not_lt_zero _)
    | succ n => exact iff_of_true rfl nofun
  | cons v values ih =>
    cases n with
    | zero => exact absurd enough (Nat.not_lt_zero _)
    | succ n =>
      have fewer : values.length < n := Nat.lt_of_succ_lt_succ enough
      have next : ∀ t, afterWord ('\n' :: t) = '\n' :: t := fun _ => rfl
      rw [assignmentLines_cons]
      constructor
      · intro run
        have named := name_of_shellRun run
        rw [shellRun_name (named v List.mem_cons_self), readWord_quote] at run
        obtain ⟨⟨value, t⟩, read, run⟩ := Option.bind_eq_some_iff.mp run
        obtain ⟨values', rest_run, same⟩ := Option.map_eq_some_iff.mp run
        obtain ⟨same_value, rfl⟩ := List.cons.inj same
        have is : value = v.2 := congrArg Prod.snd same_value
        rw [is] at read
        have later := fun v' member => named v' (List.mem_cons_of_mem v member)
        obtain ⟨literal, rfl⟩ := literal_of_readWord
          (fun c cs is => assignmentLines_start later is) read
        rw [next, shellRun_newline] at rest_run
        intro v' member
        rcases List.mem_cons.mp member with rfl | member
        · exact ⟨named _ List.mem_cons_self, literal⟩
        · exact (ih fewer).mp rest_run v' member
      · intro all
        obtain ⟨named, literal⟩ := all v List.mem_cons_self
        rw [shellRun_name named, readWord_quote, readWord_literal literal]
        show (shellRun n (afterWord ('\n' :: assignmentLines values))).map _ = _
        rw [next, shellRun_newline,
          (ih fewer).mpr fun v' member => all v' (List.mem_cons_of_mem v member)]
        rfl

theorem length_le_assignmentLines : values.length ≤ (assignmentLines values).length := by
  induction values with
  | nil => exact Nat.le_refl 0
  | cons v values ih =>
    rw [assignmentLines_cons]
    simp only [List.length_append, List.length_cons]
    omega

/-- A text with a comment before the lines. -/
theorem shellAssignments_iff {comment : List Char} (line : '\n' ∉ comment) :
    shellAssignments ('#' :: comment ++ '\n' :: assignmentLines values) = some values ↔
      ∀ v ∈ values, IsShellName v.1 ∧ Literal v.2 := by
  have long := @length_le_assignmentLines values
  have skipped : (comment ++ '\n' :: assignmentLines values).dropWhile (· ≠ '\n') =
      '\n' :: assignmentLines values := by
    have other : ∀ c ∈ comment, decide (c ≠ '\n') = true := by
      intro c member
      exact decide_eq_true fun same => line (same ▸ member)
    rw [List.dropWhile_append_of_pos other, List.dropWhile_cons_of_neg (by decide)]
  have first : shellAssignments ('#' :: comment ++ '\n' :: assignmentLines values) =
      shellRun ('#' :: comment ++ '\n' :: assignmentLines values).length
        ((comment ++ '\n' :: assignmentLines values).dropWhile (· ≠ '\n')) := rfl
  rw [first, skipped, shellRun_newline]
  refine shellRun_assignmentLines_iff ?_
  simp only [List.length_append, List.length_cons]
  omega

example : shellAssignments "# c\nA=\"x\\y\"\nC=\"d e\"\n".toList =
    some [(['A'], "x\\y".toList), (['C'], "d e".toList)] := by decide +kernel

end ShellWords

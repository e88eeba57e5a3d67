import Mathlib.Algebra.Group.Nat.Even
import Mathlib.Data.List.TakeWhile

/-!
# The tokens of requirement and rank expressions

The scanner that the boolean and the arithmetic expressions share. At each place it takes
the longest text that one of its rules matches; a blank, and any character that no rule
matches, is passed over.

* `scan`: the rules, at a place that is not the end;
* `lex`: the tokens of a text;
* `lex_append`: a text is scanned in two parts, unless a quoted string reaches over them.
-/

namespace Ezilla

/-- A token of the scanner. The value of an empty quoted string is the null pointer. -/
inductive ExprToken where
  | chr (c : Char)
  | string (val : Option String)
  | integer (text : List Char)
  | float (text : List Char)
  deriving DecidableEq, Repr

namespace ExprToken

/-- The characters that are tokens by themselves. -/
def isOperator (c : Char) : Bool := c ∈ "!&|=><()*+/^-".toList

/-- The characters of a string after its first letter. -/
def isWord (c : Char) : Bool := c.isAlphanum || c = '_'

/-- The fraction of a number and the text after it: a point with a digit behind it. -/
def scanFraction : List Char → Option (List Char × List Char)
  | c :: d :: cs =>
    if c = '.' ∧ d.isDigit then
      some ((d :: cs).takeWhile Char.isDigit, (d :: cs).dropWhile Char.isDigit)
    else none
  | _ => none

/-- The number rules, after the sign. -/
def scanNumber (sign cs : List Char) : ExprToken × List Char :=
  let whole := cs.takeWhile Char.isDigit
  let rest := cs.dropWhile Char.isDigit
  match scanFraction rest with
  | some (frac, after) => (.float (sign ++ whole ++ '.' :: frac), after)
  | none => (.integer (sign ++ whole), rest)

/-- The rules, on a character and the text after it. -/
def scan (c : Char) (cs : List Char) : Option ExprToken × List Char :=
  if c = '"' then
    if '"' ∈ cs then
      let quoted := cs.takeWhile (· ≠ '"')
      (some (.string (if quoted = [] then none else some (String.ofList quoted))),
        (cs.dropWhile (· ≠ '"')).drop 1)
    else
      (none, cs)
  else if c.isAlpha then
    (some (.string (some (String.ofList (c :: cs.takeWhile isWord)))), cs.dropWhile isWord)
  else if c.isDigit then
    let (token, rest) := scanNumber [] (c :: cs)
    (some token, rest)
  else if c = '-' ∧ (cs.head?.any Char.isDigit) then
    let (token, rest) := scanNumber ['-'] cs
    (some token, rest)
  else if isOperator c then
    (some (.chr c), cs)
  else
    (none, cs)

/-- The tokens of a text that is at most `n` characters long. -/
def lexAux : Nat → List Char → List ExprToken
  | 0, _ => []
  | _ + 1, [] => []
  | n + 1, c :: cs => (scan c cs).1.toList ++ lexAux n (scan c cs).2

/-- The tokens of a text. -/
def lex (cs : List Char) : List ExprToken := lexAux cs.length cs

/-! ## Scanning goes forward -/

theorem scanFraction_suffix {cs frac after : List Char}
    (scanned : scanFraction cs = some (frac, after)) : after <:+ cs := by
  unfold scanFraction at scanned
  split at scanned
  · rename_i c d cs
    split at scanned
    · cases scanned
      exact (List.dropWhile_suffix Char.isDigit).trans (List.suffix_cons c (d :: cs))
    · cases scanned
  · cases scanned

/-- A number takes all its digits. -/
theorem scanNumber_suffix (sign cs : List Char) :
    (scanNumber sign cs).2 <:+ cs.dropWhile Char.isDigit := by
  unfold scanNumber
  dsimp only
  split
  · rename_i scanned
    exact scanFraction_suffix scanned
  · exact List.suffix_rfl

theorem scan_suffix (c : Char) (cs : List Char) : (scan c cs).2 <:+ cs := by
  unfold scan
  split
  · split
    · exact (List.drop_suffix 1 _).trans (List.dropWhile_suffix _)
    · exact List.suffix_rfl
  · split
    · exact List.dropWhile_suffix isWord
    · split
      · rename_i digit
        have number := scanNumber_suffix [] (c :: cs)
        rw [List.dropWhile_cons, if_pos digit] at number
        exact number.trans (List.dropWhile_suffix Char.isDigit)
      · split
        · exact (scanNumber_suffix ['-'] cs).trans (List.dropWhile_suffix Char.isDigit)
        · split <;> exact List.suffix_rfl

/-- Any two bounds that are large enough give the same tokens. -/
theorem lexAux_eq {n m : Nat} {cs : List Char} (left : cs.length ≤ n) (right : cs.length ≤ m) :
    lexAux n cs = lexAux m cs := by
  induction n generalizing m cs with
  | zero =>
    rw [List.eq_nil_of_length_eq_zero (Nat.le_zero.mp left)]
    cases m <;> rfl
  | succ n ih =>
    cases cs with
    | nil => cases m <;> rfl
    | cons c cs =>
      cases m with
      | zero => exact absurd right (Nat.not_succ_le_zero _)
      | succ m =>
        have shorter := (scan_suffix c cs).length_le
        rw [List.length_cons] at left right
        rw [lexAux, lexAux, ih (m := m) (by omega) (by omega)]

theorem lex_nil : lex [] = [] := rfl

theorem lex_cons (c : Char) (cs : List Char) :
    lex (c :: cs) = (scan c cs).1.toList ++ lex (scan c cs).2 := by
  rw [lex, List.length_cons, lexAux, lex, lexAux_eq (scan_suffix c cs).length_le (Nat.le_refl _)]

/-! ## Two parts -/

/-- A character at which every token but a quoted string ends. -/
structure Stops (x : Char) : Prop where
  word : isWord x = false
  point : x ≠ '.'

theorem Stops.digit {x : Char} (stops : Stops x) : x.isDigit = false := by
  have word := stops.word
  unfold isWord Char.isAlphanum at word
  simp only [Bool.or_eq_false_iff] at word
  exact word.1.2

theorem stops_blank : Stops ' ' := ⟨by decide, by decide⟩

theorem stops_quote : Stops '"' := ⟨by decide, by decide⟩

section Append

variable {p : Char → Bool} {x : Char} {u w : List Char}

theorem takeWhile_append_of_stop (stop : p x = false) :
    (u ++ x :: w).takeWhile p = u.takeWhile p := by
  induction u with
  | nil => simp [stop]
  | cons c u ih => simp only [List.cons_append, List.takeWhile_cons, ih]

theorem dropWhile_append_of_stop (stop : p x = false) :
    (u ++ x :: w).dropWhile p = u.dropWhile p ++ x :: w := by
  induction u with
  | nil => simp [stop]
  | cons c u ih =>
    simp only [List.cons_append, List.dropWhile_cons]
    split
    · exact ih
    · rfl

/-- A text that stops in its first part leaves the second one. -/
theorem takeWhile_append_stop {c : Char} (there : c ∈ u) (stop : p c = false) :
    (u ++ w).takeWhile p = u.takeWhile p ∧ (u ++ w).dropWhile p = u.dropWhile p ++ w ∧
      u.dropWhile p ≠ [] := by
  induction u with
  | nil => exact absurd there List.not_mem_nil
  | cons d u ih =>
    simp only [List.cons_append, List.takeWhile_cons, List.dropWhile_cons]
    cases here : p d with
    | true =>
      have rest : c ∈ u := by
        rcases List.mem_cons.mp there with same | rest
        · rw [same, here] at stop
          cases stop
        · exact rest
      obtain ⟨taken, dropped, some⟩ := ih rest
      simp only [if_true]
      exact ⟨by rw [taken], dropped, some⟩
    | false =>
      simp only [Bool.false_eq_true, if_false]
      exact ⟨trivial, rfl, List.cons_ne_nil d u⟩

theorem count_dropWhile (stop : p x = false) : (u.dropWhile p).count x = u.count x := by
  induction u with
  | nil => rfl
  | cons c u ih =>
    rw [List.dropWhile_cons]
    split
    · rename_i dropped
      have other : c ≠ x := by
        intro same
        rw [same, stop] at dropped
        cases dropped
      rw [ih, List.count_cons_of_ne other]
    · rfl

end Append

variable {x c : Char} {u w : List Char}

theorem scanFraction_append (stops : Stops x) : scanFraction (u ++ x :: w) =
    (scanFraction u).map fun out => (out.1, out.2 ++ x :: w) := by
  match u with
  | [] => cases w <;> simp [scanFraction, stops.point]
  | [c] => simp [scanFraction, stops.digit]
  | c :: d :: cs =>
    have frac := takeWhile_append_of_stop (u := d :: cs) (w := w) stops.digit
    have after := dropWhile_append_of_stop (u := d :: cs) (w := w) stops.digit
    rw [List.cons_append] at frac after
    simp only [List.cons_append, scanFraction]
    split
    · rw [frac, after]
      rfl
    · rfl

theorem scanNumber_append (stops : Stops x) (sign : List Char) :
    scanNumber sign (u ++ x :: w) = ((scanNumber sign u).1, (scanNumber sign u).2 ++ x :: w) := by
  unfold scanNumber
  rw [takeWhile_append_of_stop stops.digit, dropWhile_append_of_stop stops.digit]
  dsimp only
  rw [scanFraction_append stops]
  cases scanFraction (u.dropWhile Char.isDigit) <;> rfl

/-- Scanning does not look past such a character, unless for a closing quote. -/
theorem scan_append (stops : Stops x) (quotes : c = '"' → '"' ∈ u ∨ '"' ∉ x :: w) :
    scan c (u ++ x :: w) = ((scan c u).1, (scan c u).2 ++ x :: w) := by
  unfold scan
  split
  · rename_i quote
    cases closed : decide ('"' ∈ u) with
    | true =>
      have closed := of_decide_eq_true closed
      obtain ⟨taken, dropped, some⟩ := takeWhile_append_stop (p := fun d => decide (d ≠ '"'))
        (w := x :: w) closed (by decide)
      rw [if_pos closed, if_pos (List.mem_append_left _ closed), taken, dropped,
        List.drop_append_of_le_length (List.length_pos_iff.mpr some)]
    | false =>
      have closed := of_decide_eq_false closed
      have none : '"' ∉ u ++ x :: w := fun there =>
        (List.mem_append.mp there).elim closed ((quotes quote).resolve_left closed)
      rw [if_neg closed, if_neg none]
  · split
    · rw [takeWhile_append_of_stop stops.word, dropWhile_append_of_stop stops.word]
    · split
      · have number := scanNumber_append (u := c :: u) (w := w) stops []
        rw [List.cons_append] at number
        rw [number]
      · have head : (u ++ x :: w).head?.any Char.isDigit = u.head?.any Char.isDigit := by
          cases u <;> simp [stops.digit]
        rw [head]
        split
        · rw [scanNumber_append stops]
        · split <;> rfl

/-! ## Quotes -/

theorem count_scanFraction {cs frac after : List Char}
    (scanned : scanFraction cs = some (frac, after)) : after.count '"' = cs.count '"' := by
  unfold scanFraction at scanned
  split at scanned
  · split at scanned
    · rename_i c d cs point
      cases scanned
      have other : c ≠ '"' := by
        rw [point.1]
        decide
      rw [count_dropWhile (by decide), List.count_cons_of_ne other]
    · cases scanned
  · cases scanned

theorem count_scanNumber (sign : List Char) : (scanNumber sign u).2.count '"' = u.count '"' := by
  unfold scanNumber
  dsimp only
  split
  · rename_i scanned
    rw [count_scanFraction scanned, count_dropWhile (by decide)]
  · exact count_dropWhile (by decide)

/-- Only a quote takes quotes away, and then it takes the one that closes the string too. -/
theorem count_scan : (scan c u).2.count '"' =
    if c = '"' ∧ '"' ∈ u then u.count '"' - 1 else u.count '"' := by
  unfold scan
  split
  · rename_i quote
    split
    · rename_i closed
      rw [if_pos ⟨quote, closed⟩]
      obtain ⟨-, -, some⟩ := takeWhile_append_stop (p := fun d => decide (d ≠ '"'))
        (w := []) closed (by decide)
      have first : (u.dropWhile fun d => decide (d ≠ '"')).head some = '"' := by
        have stopped := List.head_dropWhile_not (fun d => decide (d ≠ '"')) some
        exact not_not.mp (of_decide_eq_false stopped)
      have whole : (u.dropWhile fun d => decide (d ≠ '"')).count '"' = u.count '"' :=
        count_dropWhile (by decide)
      rw [← whole, ← List.cons_head_tail some, first, List.count_cons_self, List.drop_one]
      rfl
    · rename_i open_
      exact (if_neg fun both => open_ both.2).symm
  · rename_i other
    rw [if_neg fun both : c = '"' ∧ '"' ∈ u => other both.1]
    split
    · exact count_dropWhile (by decide)
    · split
      · have number := count_scanNumber (u := c :: u) []
        rw [List.count_cons_of_ne other] at number
        exact number
      · split
        · exact count_scanNumber ['-']
        · split <;> rfl

/-- The tokens of two parts, where no quoted string reaches from one into the other. -/
theorem lex_append (stops : Stops x) (quotes : Even (u.count '"') ∨ '"' ∉ x :: w) :
    lex (u ++ x :: w) = lex u ++ lex (x :: w) := by
  -- the scanner takes one token and its rest, so the induction is on the length
  induction length : u.length using Nat.strongRecOn generalizing u with
  | ind n ih =>
    cases u with
    | nil => rw [List.nil_append, lex_nil, List.nil_append]
    | cons c u =>
      have shorter : (scan c u).2.length < n := by
        rw [← length, List.length_cons]
        exact Nat.lt_succ_of_le (scan_suffix c u).length_le
      have here : c = '"' → '"' ∈ u ∨ '"' ∉ x :: w := by
        intro quote
        refine quotes.imp_left fun even => ?_
        rw [quote, List.count_cons_self] at even
        apply List.count_pos_iff.mp
        grind
      have rest : Even ((scan c u).2.count '"') ∨ '"' ∉ x :: w := by
        refine quotes.imp_left fun even => ?_
        rw [count_scan]
        rw [List.count_cons] at even
        grind [List.count_pos_iff]
      rw [List.cons_append, lex_cons, scan_append stops here, lex_cons, ih _ shorter rest rfl,
        List.append_assoc]

theorem lex_blank (w : List Char) : lex (' ' :: w) = lex w := by
  rw [lex_cons]
  rfl

/-- A quoted string. -/
theorem lex_quoted (some : u ≠ []) (inside : '"' ∉ u) :
    lex ('"' :: (u ++ '"' :: w)) = .string (.some (String.ofList u)) :: lex w := by
  have all : ∀ d ∈ u, decide (d ≠ '"') = true := fun d there =>
    decide_eq_true fun quote => inside (quote ▸ there)
  have taken : (u ++ '"' :: w).takeWhile (fun d => decide (d ≠ '"')) = u := by
    rw [takeWhile_append_of_stop (by decide), List.takeWhile_eq_self_iff.mpr all]
  have dropped : (u ++ '"' :: w).dropWhile (fun d => decide (d ≠ '"')) = '"' :: w := by
    rw [dropWhile_append_of_stop (by decide), List.dropWhile_eq_nil_iff.mpr all, List.nil_append]
  have closed : '"' ∈ u ++ '"' :: w := List.mem_append_right _ List.mem_cons_self
  rw [lex_cons, scan, if_pos rfl, if_pos closed, taken, dropped]
  dsimp only
  rw [if_neg some]
  rfl

example : lex "\"a b\" & -1.5".toList =
    [.string (some "a b"), .chr '&', .float ['-', '1', '.', '5']] := by decide

/-- The last quote of a text that has an odd number of them. -/
theorem exists_open_quote (odd : ¬ Even (u.count '"')) :
    ∃ p q, u = p ++ '"' :: q ∧ Even (p.count '"') ∧ '"' ∉ q := by
  have there : '"' ∈ u.reverse := by
    rw [List.mem_reverse]
    apply List.count_pos_iff.mp
    grind
  obtain ⟨q, p, split, last⟩ := List.eq_append_cons_of_mem there
  have last' : '"' ∉ q.reverse := last ∘ List.mem_reverse.mp
  have whole : u = p.reverse ++ '"' :: q.reverse := by
    rw [← List.reverse_reverse u, split]
    simp
  refine ⟨p.reverse, q.reverse, whole, ?_, last'⟩
  rw [whole, List.count_append, List.count_cons_self, List.count_eq_zero.mpr last'] at odd
  grind

end ExprToken

end Ezilla

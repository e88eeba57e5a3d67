import Mathlib.Data.List.Basic

/-!
# Scanners with start conditions

A scanner reads a text from the left. At each place the rule of its start condition takes at
least one character, may give a token, and sets the next start condition; at the end of the text
the start condition may give a last token.

* `TokenScanner.lex`: the tokens of a text;
* `TokenScanner.lex_cons`: one rule;
* `TokenScanner.lex_rec`: the induction over the rules, for a property of the tokens that follow.
-/

namespace Ezilla

/-- What a rule makes of the text at a place. -/
structure Taken (κ α τ : Type) where
  token : Option τ
  next : κ
  rest : List α

/-- The rules for each start condition `κ`, on a character and the text after it. -/
structure TokenScanner (κ α τ : Type) where
  rule : κ → α → List α → Taken κ α τ
  /-- the token at the end of the text -/
  atEnd : κ → Option τ
  shorter : ∀ k c cs, (rule k c cs).rest.length ≤ cs.length

namespace TokenScanner

variable {κ α τ : Type} (s : TokenScanner κ α τ)

/-- The tokens of a text that is at most `n` characters long. -/
def lexAux : Nat → κ → List α → List τ
  | 0, k, _ => (s.atEnd k).toList
  | _ + 1, k, [] => (s.atEnd k).toList
  | n + 1, k, c :: cs =>
    (s.rule k c cs).token.toList ++ lexAux n (s.rule k c cs).next (s.rule k c cs).rest

/-- The tokens of a text. -/
def lex (k : κ) (cs : List α) : List τ := s.lexAux cs.length k cs

variable {s} {k : κ} {c : α} {cs : List α}

/-- More steps than characters make no difference. -/
theorem lexAux_congr {n m : Nat} (enough : cs.length ≤ n) (enough' : cs.length ≤ m) :
    s.lexAux n k cs = s.lexAux m k cs := by
  induction n generalizing m k cs with
  | zero =>
    rw [List.length_eq_zero_iff.mp (Nat.le_zero.mp enough)]
    cases m <;> rfl
  | succ n ih =>
    cases cs with
    | nil => cases m <;> rfl
    | cons c cs =>
      have shorter := s.shorter k c cs
      rw [List.length_cons] at enough enough'
      cases m with
      | zero => omega
      | succ m =>
        rw [lexAux, lexAux]
        exact congrArg (_ ++ ·) (ih (by omega) (by omega))

theorem lex_nil : s.lex k [] = (s.atEnd k).toList := rfl

theorem lex_cons : s.lex k (c :: cs) =
    (s.rule k c cs).token.toList ++ s.lex (s.rule k c cs).next (s.rule k c cs).rest :=
  congrArg (_ ++ ·) (lexAux_congr (s.shorter k c cs) (Nat.le_refl _))

/-- What every rule keeps, with the tokens that follow, is so of the tokens of a text. -/
theorem lex_rec {P : κ → List τ → Prop} (atEnd : ∀ k, P k (s.atEnd k).toList)
    (rule : ∀ k c cs ts, P (s.rule k c cs).next ts → P k ((s.rule k c cs).token.toList ++ ts))
    (k : κ) (cs : List α) : P k (s.lex k cs) := by
  induction measured : cs.length using Nat.strongRecOn generalizing k cs with
  | ind n ih =>
    cases cs with
    | nil => exact atEnd k
    | cons c cs =>
      rw [lex_cons]
      have shorter := s.shorter k c cs
      rw [List.length_cons] at measured
      exact rule k c cs _ (ih _ (by omega) _ _ rfl)

end TokenScanner

end Ezilla

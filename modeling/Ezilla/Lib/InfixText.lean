import Mathlib.Data.List.Basic

/-!
# Texts of operands, operators and parentheses

What an expression can begin with, by whether an operand is next and by the number of open
parentheses, for any operands, unary operators before them and binary operators between them.

* `InfixText.Begins`: the beginnings of expressions;
* `InfixText.Begins.reads`: a reader that follows each of the rules reads every beginning;
* `InfixText.Meets`: a text in which some tokens stand where an operand is next.
-/

/-- The tokens of expressions. -/
structure InfixText (Token : Type*) where
  unary : Token → Prop
  binary : Token → Prop
  opens : Token
  closes : Token
  operand : List Token → Prop

namespace InfixText

variable {Token Config Error : Type*} {s : InfixText Token}

/-- The beginnings of expressions; `true` where an operand is next. -/
inductive Begins (s : InfixText Token) : Bool → Nat → List Token → Prop where
  | start : s.Begins true 0 []
  | unary {d : Nat} {ts : List Token} {t : Token} (before : s.Begins true d ts) (is : s.unary t) :
      s.Begins true d (ts ++ [t])
  | opens {d : Nat} {ts : List Token} (before : s.Begins true d ts) :
      s.Begins true (d + 1) (ts ++ [s.opens])
  | operand {d : Nat} {ts us : List Token} (before : s.Begins true d ts) (is : s.operand us) :
      s.Begins false d (ts ++ us)
  | binary {d : Nat} {ts : List Token} {t : Token} (before : s.Begins false d ts)
      (is : s.binary t) : s.Begins true d (ts ++ [t])
  | closes {d : Nat} {ts : List Token} (before : s.Begins false (d + 1) ts) :
      s.Begins false d (ts ++ [s.closes])

/-- Some tokens stand where an operand is next. -/
def Meets (s : InfixText Token) (found : List Token → Prop) (ts : List Token) : Prop :=
  ∃ us vs ws d, ts = us ++ vs ++ ws ∧ s.Begins true d us ∧ found vs

theorem Meets.append {found : List Token → Prop} {ts : List Token} (meets : s.Meets found ts)
    (rest : List Token) : s.Meets found (ts ++ rest) := by
  obtain ⟨us, vs, ws, d, is, before, here⟩ := meets
  refine ⟨us, vs, ws ++ rest, d, ?_, before, here⟩
  rw [is]
  simp only [List.append_assoc]

/-- A reader that follows the rules; `at_` are its positions. -/
structure Reader (s : InfixText Token) (run : Config → List Token → Except Error Config)
    (at_ : Bool → Nat → Config → Prop) : Prop where
  append : ∀ c ts us, run c (ts ++ us) = (run c ts).bind fun c' => run c' us
  unary : ∀ d c t, at_ true d c → s.unary t → ∃ c', run c [t] = .ok c' ∧ at_ true d c'
  opens : ∀ d c, at_ true d c → ∃ c', run c [s.opens] = .ok c' ∧ at_ true (d + 1) c'
  operand : ∀ d c us, at_ true d c → s.operand us → ∃ c', run c us = .ok c' ∧ at_ false d c'
  binary : ∀ d c t, at_ false d c → s.binary t → ∃ c', run c [t] = .ok c' ∧ at_ true d c'
  closes : ∀ d c, at_ false (d + 1) c → ∃ c', run c [s.closes] = .ok c' ∧ at_ false d c'

/-- It reads every beginning, up to the position where it ends. -/
theorem Begins.reads {run : Config → List Token → Except Error Config}
    {at_ : Bool → Nat → Config → Prop} (reader : s.Reader run at_) {c : Config}
    (first : run c [] = .ok c) (start : at_ true 0 c) {next : Bool} {d : Nat} {ts : List Token}
    (begins : s.Begins next d ts) : ∃ c', run c ts = .ok c' ∧ at_ next d c' := by
  have go {ts us : List Token} {c' c'' : Config} (left : run c ts = .ok c')
      (right : run c' us = .ok c'') : run c (ts ++ us) = .ok c'' := by
    rw [reader.append, left]
    exact right
  induction begins with
  | start => exact ⟨c, first, start⟩
  | unary _ is ih =>
    obtain ⟨c', left, here⟩ := ih
    obtain ⟨c'', right, there⟩ := reader.unary _ c' _ here is
    exact ⟨c'', go left right, there⟩
  | opens _ ih =>
    obtain ⟨c', left, here⟩ := ih
    obtain ⟨c'', right, there⟩ := reader.opens _ c' here
    exact ⟨c'', go left right, there⟩
  | operand _ is ih =>
    obtain ⟨c', left, here⟩ := ih
    obtain ⟨c'', right, there⟩ := reader.operand _ c' _ here is
    exact ⟨c'', go left right, there⟩
  | binary _ is ih =>
    obtain ⟨c', left, here⟩ := ih
    obtain ⟨c'', right, there⟩ := reader.binary _ c' _ here is
    exact ⟨c'', go left right, there⟩
  | closes _ ih =>
    obtain ⟨c', left, here⟩ := ih
    obtain ⟨c'', right, there⟩ := reader.closes _ c' here
    exact ⟨c'', go left right, there⟩

end InfixText

import Ezilla.Lib.InfixText
import Ezilla.Xml.ExprArith

/-!
# Empty quoted strings in expressions

The scanner gives an empty quoted string as a null pointer. The comparisons test it where it
is a pattern, and nothing tests it where it is the name of an attribute.

* `boolText`, `arithText`: what the expressions of the two grammars begin with;
* `evalBool_undefined_iff`, `evalArith_undefined_iff`: when a null name is read.
-/

namespace Ezilla

open ExprToken

/-- The texts of the boolean expressions, up to names that are null. -/
def boolText : InfixText ExprToken where
  unary t := t = .chr '!'
  binary t := t = .chr '&' ∨ t = .chr '|'
  opens := .chr '('
  closes := .chr ')'
  operand us := ∃ (name : String) (op : CompareOp) (operand : Operand),
    operand.allows op = true ∧ us = .string (some name) :: op.tokens ++ [operand.token]

/-- A comparison of a null name. -/
def NullComparison (vs : List ExprToken) : Prop :=
  ∃ (op : CompareOp) (operand : Operand), operand.allows op = true ∧
    vs = .string none :: op.tokens ++ [operand.token]

/-- The texts of the arithmetic expressions, up to names that are null. -/
def arithText : InfixText ExprToken where
  unary t := t = .chr '-'
  binary t := ∃ op : ArithOp, t = .chr op.char
  opens := .chr '('
  closes := .chr ')'
  operand us := ∃ text name, us = [.integer text] ∨ us = [.float text] ∨
    us = [.string (some name)]

/-- A null name. -/
def NullName (vs : List ExprToken) : Prop := vs = [.string none]

section

variable {host : HostXml} {readFloat : String → ℚ}

/-! ## Boolean expressions -/

namespace ExprConfig

variable {c c' : ExprConfig} {t : ExprToken} {ts us vs : List ExprToken}

/-- What was read before a position. -/
def After : ExprConfig → List ExprToken → Prop
  | operand _ stack, us => boolText.Begins true stack.length us
  | attr name _ stack, us => ∃ ts, us = ts ++ [.string name] ∧
      boolText.Begins true stack.length ts
  | attrNot name _ stack, us => ∃ ts, us = ts ++ [.string name, .chr '!'] ∧
      boolText.Begins true stack.length ts
  | comparison name op _ stack, us => ∃ ts, us = ts ++ .string name :: op.tokens ∧
      boolText.Begins true stack.length ts
  | value _ stack, us => boolText.Begins false stack.length us

/-- A step goes on with what was read. -/
theorem step_after (after : c.After us) (taken : step host c t = .ok c') :
    c'.After (us ++ [t]) := by
  cases step_cases taken with
  | name => exact ⟨us, rfl, after⟩
  | not => exact after.unary rfl
  | opens => exact after.opens
  | operator is =>
    obtain ⟨ts, rfl, before⟩ := after
    exact ⟨ts, by simp [is], before⟩
  | unequal =>
    obtain ⟨ts, rfl, before⟩ := after
    exact ⟨ts, by simp, before⟩
  | unequalTo =>
    obtain ⟨ts, rfl, before⟩ := after
    exact ⟨ts, by simp [CompareOp.tokens], before⟩
  | @compared name op operand f stack allows =>
    obtain ⟨ts, rfl, before⟩ := after
    have whole := before.operand ⟨name, op, operand, allows, rfl⟩
    simpa only [After, List.append_assoc, List.cons_append] using whole
  | @binary b op stack =>
    cases op with
    | and => exact after.binary (Or.inl rfl)
    | or => exact after.binary (Or.inr rfl)
  | closes => exact after.closes

/-- The null pointer is read in a comparison. -/
theorem step_undefined (after : c.After us) (taken : step host c t = .error .undefined) :
    boolText.Meets NullComparison (us ++ [t]) := by
  obtain ⟨op, operand, f, stack, rfl, allows, rfl⟩ := step_undefined_iff.mp taken
  obtain ⟨ts, rfl, before⟩ := after
  refine ⟨ts, .string none :: op.tokens ++ [operand.token], [], stack.length, ?_, before,
    op, operand, allows, rfl⟩
  simp

theorem run_undefined (after : c.After us) (taken : run host c vs = .error .undefined) :
    boolText.Meets NullComparison (us ++ vs) := by
  induction vs generalizing c us with
  | nil => cases taken
  | cons t vs ih =>
    have split : us ++ t :: vs = us ++ [t] ++ vs := by simp
    rw [split]
    unfold run at taken
    cases first : step host c t with
    | ok mid =>
      rw [first] at taken
      exact ih (step_after after first) taken
    | error e =>
      rw [first] at taken
      cases taken
      exact (step_undefined after first).append vs

/-- The parser waits for an operand, or holds a value, inside some parentheses. -/
def At : Bool → Nat → ExprConfig → Prop
  | true, d, c => ∃ f stack, c = operand f stack ∧ stack.length = d
  | false, d, c => ∃ b stack, c = value b stack ∧ stack.length = d

theorem run_comparison (name : Option String) (op : CompareOp) (f : ExprFrame)
    (stack : List ExprFrame) (ts : List ExprToken) :
    run host (operand f stack) (.string name :: op.tokens ++ ts) =
      run host (comparison name op f stack) ts := by
  cases op <;> rfl

theorem run_singleton (c : ExprConfig) (t : ExprToken) : run host c [t] = step host c t := by
  unfold run
  cases step host c t <;> rfl

theorem reader : boolText.Reader (run host) At where
  append c ts us := run_append ts us
  unary d c t here is := by
    obtain ⟨f, stack, rfl, depth⟩ := here
    cases is
    exact ⟨_, rfl, _, stack, rfl, depth⟩
  opens d c here := by
    obtain ⟨f, stack, rfl, depth⟩ := here
    exact ⟨_, rfl, _, f :: stack, rfl, congrArg (· + 1) depth⟩
  operand d c us here is := by
    obtain ⟨f, stack, rfl, depth⟩ := here
    obtain ⟨name, op, operand, allows, rfl⟩ := is
    let b := (host.compare (some name) op operand).toOption.getD false
    refine ⟨.value (f.apply b) stack, ?_, f.apply b, stack, rfl, depth⟩
    rw [run_comparison, run_singleton, step_comparison allows, compared, compare_some]
    rfl
  binary d c t here is := by
    obtain ⟨b, stack, rfl, depth⟩ := here
    rcases is with rfl | rfl
    · exact ⟨_, rfl, _, stack, rfl, depth⟩
    · exact ⟨_, rfl, _, stack, rfl, depth⟩
  closes d c here := by
    obtain ⟨b, stack, rfl, depth⟩ := here
    cases stack with
    | nil => cases depth
    | cons f stack => exact ⟨_, rfl, _, stack, rfl, Nat.succ.inj depth⟩

end ExprConfig

/-- A requirements expression reads a null name exactly where one is compared after the
beginning of an expression. -/
theorem evalBool_undefined_iff (text : String) :
    evalBool host text = .error .undefined ↔
      boolText.Meets NullComparison (lex text.toList) := by
  rw [evalBool, evalTokens]
  constructor
  · intro taken
    cases run : ExprConfig.run host .start (lex text.toList) with
    | ok c =>
      rw [run] at taken
      cases c with
      | operand f stack =>
        obtain ⟨left, nots⟩ := f
        cases left <;> cases nots <;> cases stack <;> cases taken
      | value b stack => cases stack <;> cases taken
      | _ => cases taken
    | error e =>
      rw [run] at taken
      cases taken
      have after : ExprConfig.start.After [] := .start
      exact ExprConfig.run_undefined after run
  · intro meets
    obtain ⟨us, vs, ws, d, is, before, op, operand, allows, rfl⟩ := meets
    obtain ⟨c, first, f, stack, rfl, -⟩ := before.reads ExprConfig.reader rfl
      ⟨.fresh, [], rfl, rfl⟩
    have null : ExprConfig.run host .start (lex text.toList) = .error .undefined := by
      rw [is, List.append_assoc, ExprConfig.reader.append, show ExprConfig.run host .start us = _
        from first]
      show ExprConfig.run host (.operand f stack) (.string none :: op.tokens ++ [operand.token] ++
        ws) = _
      rw [ExprConfig.reader.append, ExprConfig.run_comparison, ExprConfig.run_singleton,
        ExprConfig.step_comparison allows]
      rfl
    rw [null]
    rfl

/-! ## Arithmetic expressions -/

namespace ArithConfig

variable {c c' : ArithConfig} {t : ExprToken} {us vs : List ExprToken}

/-- The parser waits for an operand, or holds a value, inside some parentheses. -/
def At : Bool → Nat → ArithConfig → Prop
  | true, d, c => ∃ pend stack, c = operand pend stack ∧ stack.length = d
  | false, d, c => ∃ v pend stack, c = value v pend stack ∧ stack.length = d

/-- What was read before a position. -/
def After : ArithConfig → List ExprToken → Prop
  | operand _ stack, us => arithText.Begins true stack.length us
  | value _ _ stack, us => arithText.Begins false stack.length us

/-- A step goes on with what was read. -/
theorem step_after (after : c.After us) (taken : step host readFloat c t = .ok c') :
    c'.After (us ++ [t]) := by
  unfold step at taken
  split at taken
  case h_1 text =>
    cases taken
    exact after.operand ⟨text, "", Or.inl rfl⟩
  case h_2 text =>
    cases taken
    exact after.operand ⟨text, "", Or.inr (Or.inl rfl)⟩
  case h_3 name =>
    cases taken
    exact after.operand ⟨[], name, Or.inr (Or.inr rfl)⟩
  case h_4 => cases taken
  case h_5 =>
    cases taken
    exact after.unary rfl
  case h_6 =>
    cases taken
    exact after.opens
  case h_7 =>
    cases taken
    exact after.binary ⟨.add, rfl⟩
  case h_8 =>
    cases taken
    exact after.binary ⟨.sub, rfl⟩
  case h_9 =>
    cases taken
    exact after.binary ⟨.mul, rfl⟩
  case h_10 =>
    cases taken
    exact after.binary ⟨.div, rfl⟩
  case h_11 =>
    cases taken
    exact after.closes
  case h_12 => cases taken

/-- The null pointer is read where an operand is next. -/
theorem step_undefined (after : c.After us) (taken : step host readFloat c t = .error .undefined) :
    arithText.Meets NullName (us ++ [t]) := by
  unfold step at taken
  split at taken
  case h_4 pend stack =>
    exact ⟨us, [.string none], [], stack.length, by rw [List.append_nil], after, rfl⟩
  all_goals cases taken

theorem run_undefined (after : c.After us)
    (taken : run host readFloat c vs = .error .undefined) :
    arithText.Meets NullName (us ++ vs) := by
  induction vs generalizing c us with
  | nil => cases taken
  | cons t vs ih =>
    have split : us ++ t :: vs = us ++ [t] ++ vs := by simp
    rw [split]
    unfold run at taken
    cases first : step host readFloat c t with
    | ok mid =>
      rw [first] at taken
      exact ih (step_after after first) taken
    | error e =>
      rw [first] at taken
      cases taken
      exact (step_undefined after first).append vs

theorem reader : arithText.Reader (run host readFloat) At where
  append := run_append
  unary d c t here is := by
    obtain ⟨pend, stack, rfl, depth⟩ := here
    cases is
    exact ⟨_, rfl, _, stack, rfl, depth⟩
  opens d c here := by
    obtain ⟨pend, stack, rfl, depth⟩ := here
    exact ⟨_, rfl, _, pend :: stack, rfl, congrArg (· + 1) depth⟩
  operand d c us here is := by
    obtain ⟨pend, stack, rfl, depth⟩ := here
    obtain ⟨text, name, is⟩ := is
    rcases is with rfl | rfl | rfl
    · exact ⟨_, rfl, _, pend, stack, rfl, depth⟩
    · exact ⟨_, rfl, _, pend, stack, rfl, depth⟩
    · exact ⟨_, rfl, _, pend, stack, rfl, depth⟩
  binary d c t here is := by
    obtain ⟨v, pend, stack, rfl, depth⟩ := here
    obtain ⟨op, rfl⟩ := is
    refine ⟨step.shift op v pend stack, ?_, _, stack, rfl, depth⟩
    rw [run, step_op]
    rfl
  closes d c here := by
    obtain ⟨v, pend, stack, rfl, depth⟩ := here
    cases stack with
    | nil => cases depth
    | cons pend' stack => exact ⟨_, rfl, _, pend', stack, rfl, Nat.succ.inj depth⟩

end ArithConfig

/-- A rank expression reads a null name exactly where one stands after the beginning of an
expression. -/
theorem evalArith_undefined_iff (text : String) :
    evalArith host readFloat text = .error .undefined ↔
      arithText.Meets NullName (lex text.toList) := by
  rw [evalArith, evalArithTokens]
  constructor
  · intro taken
    cases run : ArithConfig.run host readFloat (.operand [] []) (lex text.toList) with
    | ok c =>
      rw [run] at taken
      cases c with
      | operand pend stack => cases pend <;> cases stack <;> cases taken
      | value v pend stack => cases stack <;> cases taken
    | error e =>
      rw [run] at taken
      cases taken
      have after : (ArithConfig.operand [] []).After [] := .start
      exact ArithConfig.run_undefined after run
  · intro meets
    obtain ⟨us, vs, ws, d, is, before, null⟩ := meets
    obtain ⟨c, first, pend, stack, rfl, -⟩ := before.reads
      (@ArithConfig.reader host readFloat) rfl ⟨[], [], rfl, rfl⟩
    rw [is, null, List.append_assoc, ArithConfig.run_append, first]
    rfl

end

/-- The evaluators read no null name exactly when no empty quoted string is compared where a
requirements expression needs an operand, or stands where a rank expression needs one. -/
theorem evaluated_safely_iff (host : HostXml) (readFloat : String → ℚ) (text : String) :
    (evalBool host text ≠ .error .undefined ∧ evalArith host readFloat text ≠ .error .undefined) ↔
      ¬ boolText.Meets NullComparison (lex text.toList) ∧
        ¬ arithText.Meets NullName (lex text.toList) := by
  rw [Ne, Ne, evalBool_undefined_iff, evalArith_undefined_iff]

/-- A document without attributes: the requirements `"" = 1` and the rank `""` read the null
name. -/
theorem empty_string_is_read :
    evalBool ⟨fun _ => [], fun _ _ _ => false, fun _ _ => false⟩ "\"\" = 1" = .error .undefined ∧
      evalArith ⟨fun _ => [], fun _ _ _ => false, fun _ _ => false⟩ (fun _ => 0) "\"\"" =
        .error .undefined :=
  ⟨rfl, rfl⟩

end Ezilla

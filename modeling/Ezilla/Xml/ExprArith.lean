import Ezilla.Xml.ExprBool

/-!
# Rank expressions on hosts

The evaluation of a rank expression on the document of a host. The parser shifts a token or
reduces what is pending in the innermost parenthesis; the rule of the unary minus has the
precedence of the binary one, so it is not reduced before a `*` or a `/`. Numbers are exact:
a value is a rational, or `none` after a division by zero.

* `ArithConfig.step`, `evalArith`: `ObjectXML::eval_arith` up to the conversion of the value
  to an integer;
* `ArithTree.Usual`: the trees that the usual rules make of the tokens of an expression;
* `ArithTree.regroup`: the unary minus takes the products and quotients after it;
* `evalArithTokens_eq`: the parser gives the value of the regrouped tree.
-/

namespace Ezilla

open ExprToken

/-- The binary operators. -/
inductive ArithOp where
  | add
  | sub
  | mul
  | div
  deriving DecidableEq, Repr

namespace ArithOp

def char : ArithOp → Char
  | add => '+'
  | sub => '-'
  | mul => '*'
  | div => '/'

/-- The higher one of the two precedence levels. -/
def isMul : ArithOp → Bool
  | add | sub => false
  | mul | div => true

def apply (op : ArithOp) (a b : ℚ) : Option ℚ :=
  match op with
  | add => some (a + b)
  | sub => some (a - b)
  | mul => some (a * b)
  | div => if b = 0 then none else some (a / b)

end ArithOp

/-- `atof` on the text of a float token. -/
def atof (text : List Char) : ℚ :=
  let (minus, digits) := readSign text
  let whole := digits.takeWhile Char.isDigit
  let frac := (digits.dropWhile Char.isDigit).drop 1
  let v : ℚ := (digitsValue (whole ++ frac) : ℚ) / 10 ^ frac.length
  if minus then -v else v

/-! ## The parser -/

/-- What waits for an expression to its right. -/
inductive Pending where
  | binary (l : Option ℚ) (op : ArithOp)
  | minus
  deriving DecidableEq

namespace Pending

def apply : Pending → Option ℚ → Option ℚ
  | binary l op, r => l.bind fun a => r.bind fun b => op.apply a b
  | minus, r => r.map Neg.neg

/-- It is reduced when the operator is the next token. -/
def yields : Pending → ArithOp → Bool
  | binary _ op', op => op'.isMul || !op.isMul
  | minus, op => !op.isMul

/-- The reductions before an operator is shifted. -/
def reduce (op : ArithOp) : List Pending → Option ℚ → List Pending × Option ℚ
  | [], v => ([], v)
  | p :: pend, v => if p.yields op then reduce op pend (p.apply v) else (p :: pend, v)

/-- The reductions before a closing parenthesis and at the end. -/
def reduceAll (pend : List Pending) (v : Option ℚ) : Option ℚ :=
  pend.foldl (fun v p => p.apply v) v

end Pending

/-- The position of the parser; `stack` is what is pending around the open parentheses. -/
inductive ArithConfig where
  | operand (pend : List Pending) (stack : List (List Pending))
  | value (v : Option ℚ) (pend : List Pending) (stack : List (List Pending))
  deriving DecidableEq

section

-- `readFloat` reads a float from the text of an attribute, 0 where it begins with none
variable (host : HostXml) (readFloat : String → ℚ)

/-- The value of an attribute. -/
def HostXml.arithValue (attr : String) : ℚ :=
  ((host.getXmlValues attr).head?.map readFloat).getD 0

namespace ArithConfig

/-- One token. -/
def step : ArithConfig → ExprToken → Except ExprError ArithConfig
  | .operand pend stack, .integer text => .ok (.value (some (atoi text)) pend stack)
  | .operand pend stack, .float text => .ok (.value (some (atof text)) pend stack)
  | .operand pend stack, .string (some name) =>
    .ok (.value (some (host.arithValue readFloat name)) pend stack)
  | .operand _ _, .string none => .error .undefined
  | .operand pend stack, .chr '-' => .ok (.operand (.minus :: pend) stack)
  | .operand pend stack, .chr '(' => .ok (.operand [] (pend :: stack))
  | .value v pend stack, .chr '+' => .ok (shift .add v pend stack)
  | .value v pend stack, .chr '-' => .ok (shift .sub v pend stack)
  | .value v pend stack, .chr '*' => .ok (shift .mul v pend stack)
  | .value v pend stack, .chr '/' => .ok (shift .div v pend stack)
  | .value v pend (pend' :: stack), .chr ')' =>
    .ok (.value (Pending.reduceAll pend v) pend' stack)
  | _, _ => .error .unparsed
where
  /-- What an operator reduces, and the operator. -/
  shift (op : ArithOp) (v : Option ℚ) (pend : List Pending) (stack : List (List Pending)) :
      ArithConfig :=
    .operand (.binary (Pending.reduce op pend v).2 op :: (Pending.reduce op pend v).1) stack

/-- Some tokens. -/
def run : ArithConfig → List ExprToken → Except ExprError ArithConfig
  | c, [] => .ok c
  | c, t :: ts =>
    match step host readFloat c t with
    | .ok c' => run c' ts
    | .error e => .error e

/-- The end of the text; an empty expression is 0. -/
def finish : ArithConfig → Except ExprError (Option ℚ)
  | .value v pend [] => .ok (Pending.reduceAll pend v)
  | .operand [] [] => .ok (some 0)
  | _ => .error .unparsed

end ArithConfig

/-- The value of the tokens of an expression. -/
def evalArithTokens (tokens : List ExprToken) : Except ExprError (Option ℚ) :=
  (ArithConfig.run host readFloat (.operand [] []) tokens).bind ArithConfig.finish

/-- `ObjectXML::eval_arith`. -/
def evalArith (expr : String) : Except ExprError (Option ℚ) :=
  evalArithTokens host readFloat (lex expr.toList)

end

/-! ## Trees -/

/-- The trees of the grammar. -/
inductive ArithTree where
  | integer (text : List Char)
  | float (text : List Char)
  | attr (name : String)
  | minus (e : ArithTree)
  | binary (op : ArithOp) (l r : ArithTree)
  | paren (e : ArithTree)
  deriving DecidableEq, Repr

namespace ArithTree

def tokens : ArithTree → List ExprToken
  | integer text => [.integer text]
  | float text => [.float text]
  | attr name => [.string (some name)]
  | minus e => .chr '-' :: e.tokens
  | binary op l r => l.tokens ++ .chr op.char :: r.tokens
  | paren e => .chr '(' :: e.tokens ++ [.chr ')']

/-- The value of a tree, by the way integers and attributes are read. -/
def value (readInteger : List Char → ℚ) (readAttr : String → ℚ) : ArithTree → Option ℚ
  | integer text => some (readInteger text)
  | float text => some (atof text)
  | attr name => some (readAttr name)
  | minus e => (e.value readInteger readAttr).map Neg.neg
  | binary op l r => (l.value readInteger readAttr).bind fun a =>
      (r.value readInteger readAttr).bind fun b => op.apply a b
  | paren e => e.value readInteger readAttr

/-- An operand of `*` and `/` on the right, and of the unary minus. -/
def IsFactor : ArithTree → Prop
  | binary _ _ _ => False
  | _ => True

/-- An operand of `+` and `-` on the right, and of `*` and `/` on the left. -/
def IsTerm : ArithTree → Prop
  | binary op _ _ => op.isMul = true
  | _ => True

/-- The trees of the usual rules: the unary minus before `*` and `/`, these before `+` and
`-`, and operators of one level from left to right. -/
def Usual : ArithTree → Prop
  | minus e => e.Usual ∧ e.IsFactor
  | binary op l r => l.Usual ∧ r.Usual ∧
      (op.isMul = true → l.IsTerm ∧ r.IsFactor) ∧ (op.isMul = false → r.IsTerm)
  | paren e => e.Usual
  | _ => True

/-- The tree ends with the operand of a unary minus. -/
def isOpen : ArithTree → Bool
  | minus _ => true
  | binary op _ r => op.isMul && r.isOpen
  | _ => false

/-- The operator and its right operand are taken into the last unary minus. -/
def attach (op : ArithOp) (r : ArithTree) : ArithTree → ArithTree
  | minus e => minus (attach op r e)
  | binary op' l e =>
    if op'.isMul && e.isOpen then binary op' l (attach op r e) else binary op (binary op' l e) r
  | e => binary op e r

/-- Every unary minus takes the products and quotients after it. -/
def regroup : ArithTree → ArithTree
  | minus e => minus e.regroup
  | binary op l r => if op.isMul then attach op r.regroup l.regroup else binary op l.regroup r.regroup
  | paren e => paren e.regroup
  | e => e

end ArithTree

/-! ## What is pending -/

namespace Pending

variable {op : ArithOp} {pend rest : List Pending} {v : Option ℚ} {p : Pending}

theorem reduce_append (S : List Pending) (v : Option ℚ)
    (low : ∀ p ∈ rest.head?, p.yields op = false) :
    reduce op (S ++ rest) v = ((reduce op S v).1 ++ rest, (reduce op S v).2) := by
  induction S generalizing v with
  | nil =>
    cases rest with
    | nil => rfl
    | cons p rest =>
      have stays := low p rfl
      rw [List.nil_append]
      simp only [reduce, stays, Bool.false_eq_true, if_false, List.nil_append]
  | cons p S ih =>
    rw [List.cons_append, reduce, reduce]
    cases p.yields op with
    | true => exact ih _
    | false => rfl

/-- The unary minus is not reduced by `*` or `/`. -/
theorem reduce_append_minus (isMul : op.isMul = true) (S : List Pending) (v : Option ℚ) :
    reduce op (S ++ .minus :: rest) v = ((reduce op S v).1 ++ .minus :: rest, (reduce op S v).2) := by
  refine reduce_append S v fun p first => ?_
  cases first
  rw [yields, isMul]
  rfl

/-- Everything is reduced by `+` or `-`. -/
theorem reduce_additive (additive : op.isMul = false) (pend : List Pending) (v : Option ℚ) :
    reduce op pend v = ([], reduceAll pend v) := by
  induction pend generalizing v with
  | nil => rfl
  | cons p pend ih =>
    have yields : p.yields op = true := by
      cases p with
      | binary l op' => rw [Pending.yields, additive, Bool.not_false, Bool.or_true]
      | minus => rw [Pending.yields, additive, Bool.not_false]
    rw [reduce, if_pos yields, ih]
    rfl

theorem reduceAll_append (S : List Pending) (p : Pending) (v : Option ℚ) :
    reduceAll (S ++ [p]) v = p.apply (reduceAll S v) :=
  List.foldl_append

end Pending

section

variable {host : HostXml} {readFloat : String → ℚ}

namespace ArithConfig

theorem run_append (c : ArithConfig) (ts us : List ExprToken) :
    run host readFloat c (ts ++ us) = (run host readFloat c ts).bind fun c' =>
      run host readFloat c' us := by
  induction ts generalizing c with
  | nil => rfl
  | cons t ts ih =>
    rw [List.cons_append, run, run]
    cases step host readFloat c t with
    | ok c' => exact ih c'
    | error e => rfl

theorem step_op (op : ArithOp) (v : Option ℚ) (pend : List Pending)
    (stack : List (List Pending)) :
    step host readFloat (.value v pend stack) (.chr op.char) = .ok (step.shift op v pend stack) := by
  cases op <;> rfl

end ArithConfig

namespace ArithTree

open Pending (reduce reduceAll)

variable (host readFloat) in
/-- What is pending, and the value on the right, after the tokens of a tree. -/
def feed : ArithTree → List Pending → List Pending × Option ℚ
  | integer text, pend => (pend, some (atoi text))
  | float text, pend => (pend, some (atof text))
  | attr name, pend => (pend, some (host.arithValue readFloat name))
  | minus e, pend => e.feed (.minus :: pend)
  | binary op l r, pend =>
    let left := l.feed pend
    let shifted := reduce op left.1 left.2
    r.feed (.binary shifted.2 op :: shifted.1)
  | paren e, pend => (pend, reduceAll (e.feed []).1 (e.feed []).2)

theorem run_tokens (e : ArithTree) (pend : List Pending) (stack : List (List Pending)) :
    ArithConfig.run host readFloat (.operand pend stack) e.tokens =
      .ok (.value (e.feed host readFloat pend).2 (e.feed host readFloat pend).1 stack) := by
  induction e generalizing pend stack with
  | integer text => rfl
  | float text => rfl
  | attr name => rfl
  | minus e ih => exact ih (.minus :: pend) stack
  | binary op l r ihl ihr =>
    rw [tokens, ArithConfig.run_append, ihl]
    show ArithConfig.run host readFloat _ (.chr op.char :: r.tokens) = _
    rw [ArithConfig.run, ArithConfig.step_op]
    exact ihr _ stack
  | paren e ih =>
    show ArithConfig.run host readFloat (.operand [] (pend :: stack)) (e.tokens ++ [.chr ')']) = _
    rw [ArithConfig.run_append, ih]
    rfl

/-! ## The value that is pending -/

variable (host readFloat) in
/-- The value of a tree with the integers as they are scanned. -/
def scannedValue : ArithTree → Option ℚ :=
  value (fun text => atoi text) (host.arithValue readFloat)

variable (host readFloat) in
/-- What is pending along the right side of a tree, and the value at its end. -/
def spine : ArithTree → List Pending × Option ℚ
  | minus e => (e.spine.1 ++ [.minus], e.spine.2)
  | binary op l r => (r.spine.1 ++ [.binary (l.scannedValue host readFloat) op], r.spine.2)
  | e => ([], e.scannedValue host readFloat)

theorem reduceAll_spine (e : ArithTree) :
    reduceAll (e.spine host readFloat).1 (e.spine host readFloat).2 =
      e.scannedValue host readFloat := by
  induction e with
  | integer text => rfl
  | float text => rfl
  | attr name => rfl
  | minus e ih =>
    rw [spine, Pending.reduceAll_append, ih]
    rfl
  | binary op l r _ ihr =>
    rw [spine, Pending.reduceAll_append, ihr]
    rfl
  | paren e _ => rfl

/-- The right sides that regrouping leaves in products and quotients. -/
def Chain : ArithTree → Prop
  | minus e => e.Chain
  | binary op _ r => op.isMul = true ∧ r.IsFactor ∧ r.Chain
  | _ => True

/-- A right side that is not open has nothing pending. -/
theorem spine_of_not_isOpen {e : ArithTree} (factor : e.IsFactor) (closed : e.isOpen = false) :
    e.spine host readFloat = ([], e.scannedValue host readFloat) := by
  cases e with
  | minus e => cases closed
  | binary op l r => exact factor.elim
  | _ => rfl

theorem chain_attach {op : ArithOp} (isMul : op.isMul = true) {r e : ArithTree}
    (factor : r.IsFactor) (last : r.Chain) (chain : e.Chain) : (attach op r e).Chain := by
  induction e with
  | minus e ih => exact ih chain
  | binary op' l e _ ih =>
    rw [attach]
    split
    · rename_i both
      rw [Bool.and_eq_true] at both
      refine ⟨both.1, ?_, ih chain.2.2⟩
      cases e with
      | minus e => trivial
      | binary _ _ _ => exact chain.2.1.elim
      | _ => cases both.2
    · exact ⟨isMul, factor, last⟩
  | _ => exact ⟨isMul, factor, last⟩

/-- An operator reduces in the last unary minus only. -/
theorem spine_attach {op : ArithOp} (isMul : op.isMul = true) {r e : ArithTree} (chain : e.Chain) :
    (attach op r e).spine host readFloat =
      let shifted := reduce op (e.spine host readFloat).1 (e.spine host readFloat).2
      ((r.spine host readFloat).1 ++ .binary shifted.2 op :: shifted.1,
        (r.spine host readFloat).2) := by
  induction e with
  | minus e ih =>
    rw [attach, spine, ih chain, spine, Pending.reduce_append_minus isMul]
    simp only [List.append_assoc, List.cons_append]
  | binary op' l e _ ih =>
    obtain ⟨isMul', factor, chain⟩ := chain
    rw [attach, isMul', Bool.true_and]
    cases isOpen : e.isOpen with
    | true =>
      cases e with
      | minus e =>
        rw [if_pos rfl, spine, ih chain]
        simp only [spine, List.append_assoc, List.singleton_append]
        rw [Pending.reduce_append_minus isMul, Pending.reduce_append_minus isMul]
        simp only [List.append_assoc, List.cons_append, List.nil_append]
      | binary _ _ _ => exact factor.elim
      | _ => cases isOpen
    | false =>
      have closed : e.spine host readFloat = _ := spine_of_not_isOpen factor isOpen
      have yields : (Pending.binary (l.scannedValue host readFloat) op').yields op = true := by
        rw [Pending.yields, isMul', Bool.true_or]
      rw [if_neg Bool.false_ne_true, spine, spine, closed]
      simp only [List.nil_append, reduce, yields, if_true]
      rfl
  | _ => rfl

theorem regroup_factor {e : ArithTree} (usual : e.Usual) (factor : e.IsFactor) :
    e.regroup.IsFactor ∧ e.regroup.Chain := by
  induction e with
  | minus e ih => exact ⟨trivial, (ih usual.1 usual.2).2⟩
  | binary op l r => exact factor.elim
  | _ => exact ⟨trivial, trivial⟩

theorem regroup_term {e : ArithTree} (usual : e.Usual) (term : e.IsTerm) : e.regroup.Chain := by
  induction e with
  | minus e _ => exact (regroup_factor usual trivial).2
  | binary op l r ihl _ =>
    obtain ⟨usualL, usualR, mulOp, -⟩ := usual
    obtain ⟨termL, factorR⟩ := mulOp term
    obtain ⟨factor, chain⟩ := regroup_factor usualR factorR
    have isMul : op.isMul = true := term
    rw [regroup, if_pos isMul]
    exact chain_attach term factor chain (ihl usualL termL)
  | _ => trivial

/-- Nothing that is pending is reduced by `*` or `/`. -/
def Low (pend : List Pending) : Prop := ∀ op, op.isMul = true → ∀ p ∈ pend.head?,
  Pending.yields p op = false

/-- The parser holds the spine of the regrouped tree, on top of what is pending before. -/
theorem feed_eq {e : ArithTree} (usual : e.Usual) :
    (e.IsFactor → ∀ pend, e.feed host readFloat pend =
        ((e.regroup.spine host readFloat).1 ++ pend, (e.regroup.spine host readFloat).2)) ∧
      (e.IsTerm → ∀ pend, Low pend → e.feed host readFloat pend =
        ((e.regroup.spine host readFloat).1 ++ pend, (e.regroup.spine host readFloat).2)) ∧
      e.feed host readFloat [] = e.regroup.spine host readFloat := by
  -- a factor shifts no operator, a term only the higher ones, and these reduce nothing low
  have ofFactor {e : ArithTree} (all : ∀ pend, e.feed host readFloat pend =
      ((e.regroup.spine host readFloat).1 ++ pend, (e.regroup.spine host readFloat).2)) :
      (e.IsFactor → ∀ pend, e.feed host readFloat pend =
          ((e.regroup.spine host readFloat).1 ++ pend, (e.regroup.spine host readFloat).2)) ∧
        (e.IsTerm → ∀ pend, Low pend → e.feed host readFloat pend =
          ((e.regroup.spine host readFloat).1 ++ pend, (e.regroup.spine host readFloat).2)) ∧
        e.feed host readFloat [] = e.regroup.spine host readFloat := by
    refine ⟨fun _ => all, fun _ pend _ => all pend, ?_⟩
    rw [all, List.append_nil]
  induction e with
  | integer text => exact ofFactor fun pend => rfl
  | float text => exact ofFactor fun pend => rfl
  | attr name => exact ofFactor fun pend => rfl
  | minus e ih =>
    refine ofFactor fun pend => ?_
    rw [feed, (ih usual.1).1 usual.2, regroup, spine, List.append_assoc]
    rfl
  | paren e ih =>
    refine ofFactor fun pend => ?_
    rw [feed, (ih usual).2.2, reduceAll_spine, regroup]
    rfl
  | binary op l r ihl ihr =>
    obtain ⟨usualL, usualR, mulOp, addOp⟩ := usual
    cases isMul : op.isMul with
    | true =>
      obtain ⟨termL, factorR⟩ := mulOp isMul
      have term : ∀ pend, Low pend → (binary op l r).feed host readFloat pend =
          (((binary op l r).regroup.spine host readFloat).1 ++ pend,
            ((binary op l r).regroup.spine host readFloat).2) := by
        intro pend low
        rw [feed, (ihl usualL).2.1 termL pend low]
        simp only [Pending.reduce_append _ _ (low op isMul)]
        rw [(ihr usualR).1 factorR, regroup, if_pos isMul,
          spine_attach isMul (regroup_term usualL termL)]
        simp only [List.append_assoc, List.cons_append]
      refine ⟨False.elim, fun _ => term, ?_⟩
      have low : Low [] := fun _ _ _ none_ => by cases none_
      rw [term [] low, List.append_nil]
    | false =>
      refine ⟨False.elim, fun impossible => ?_, ?_⟩
      · rw [IsTerm, isMul] at impossible
        cases impossible
      · rw [feed, (ihl usualL).2.2]
        simp only [Pending.reduce_additive isMul, reduceAll_spine]
        have low : Low [.binary (l.regroup.scannedValue host readFloat) op] := by
          intro op' isMul' p first
          cases first
          rw [Pending.yields, isMul, isMul']
          rfl
        rw [(ihr usualR).2.1 (addOp isMul) _ low, regroup, isMul]
        rfl

/-- The parser gives the value of the regrouped tree. -/
theorem evalArithTokens_eq {e : ArithTree} (usual : e.Usual) :
    evalArithTokens host readFloat e.tokens = .ok (e.regroup.scannedValue host readFloat) := by
  rw [evalArithTokens, run_tokens, (feed_eq usual).2.2, ← reduceAll_spine]
  rfl

/-! ## When regrouping changes nothing -/

/-- No divisor ends with the operand of a unary minus. -/
def NoOpenDivisor : ArithTree → Prop
  | minus e => e.NoOpenDivisor
  | binary op l r => l.NoOpenDivisor ∧ r.NoOpenDivisor ∧ (op = .div → r.isOpen = false)
  | paren e => e.NoOpenDivisor
  | _ => True

section Values

variable {readInteger : List Char → ℚ} {readAttr : String → ℚ}

theorem value_binary (op : ArithOp) (l r : ArithTree) :
    (binary op l r).value readInteger readAttr = (l.value readInteger readAttr).bind fun a =>
      (r.value readInteger readAttr).bind fun b => op.apply a b := rfl

/-- A product or a quotient may be taken into a sign or a factor. -/
theorem value_attach {op : ArithOp} (isMul : op.isMul = true) {r e : ArithTree} (chain : e.Chain)
    (closed : e.NoOpenDivisor) : (attach op r e).value readInteger readAttr =
      (binary op e r).value readInteger readAttr := by
  induction e with
  | minus e ih =>
    have inside := ih chain closed
    rw [attach, value, inside, value_binary, value_binary, value]
    cases e.value readInteger readAttr with
    | none => rfl
    | some a =>
      cases r.value readInteger readAttr with
      | none => rfl
      | some b =>
        cases op with
        | mul => exact congrArg some (neg_mul a b).symm
        | div =>
          show (if b = 0 then none else some (a / b)).map Neg.neg =
            if b = 0 then none else some (-a / b)
          split
          · rfl
          · exact congrArg some (neg_div b a).symm
        | _ => cases isMul
  | binary op' l e _ ih =>
    obtain ⟨isMul', -, chain⟩ := chain
    obtain ⟨-, closedE, divisor⟩ := closed
    rw [attach, isMul', Bool.true_and]
    cases isOpen : e.isOpen with
    | false => rfl
    | true =>
      have inside := ih chain closedE
      have isMul' : op' = .mul := by
        cases op' with
        | mul => rfl
        | div =>
          rw [divisor rfl] at isOpen
          cases isOpen
        | _ => cases isMul'
      rw [if_pos rfl, isMul', value_binary, inside, value_binary, value_binary, value_binary]
      cases l.value readInteger readAttr with
      | none => rfl
      | some a =>
        cases e.value readInteger readAttr with
        | none => rfl
        | some b =>
          cases r.value readInteger readAttr with
          | none => rfl
          | some c =>
            cases op with
            | mul => exact congrArg some (mul_assoc a b c).symm
            | div =>
              show (if c = 0 then none else some (b / c)).bind (fun d => some (a * d)) =
                if c = 0 then none else some (a * b / c)
              split
              · rfl
              · exact congrArg some (mul_div_assoc a b c).symm
            | _ => cases isMul
  | _ => rfl

theorem noOpenDivisor_attach {op : ArithOp} {r e : ArithTree} (closed : e.NoOpenDivisor)
    (last : r.NoOpenDivisor) (divisor : op = .div → r.isOpen = false) :
    (attach op r e).NoOpenDivisor := by
  induction e with
  | minus e ih => exact ih closed
  | binary op' l e _ ih =>
    rw [attach]
    split
    · rename_i both
      rw [Bool.and_eq_true] at both
      refine ⟨closed.1, ih closed.2.1, fun isDiv => ?_⟩
      have contra := closed.2.2 isDiv
      rw [both.2] at contra
      cases contra
    · exact ⟨closed, last, divisor⟩
  | _ => exact ⟨closed, last, divisor⟩

theorem noOpenDivisor_regroup {e : ArithTree} (usual : e.Usual) (closed : e.NoOpenDivisor) :
    e.regroup.NoOpenDivisor := by
  induction e with
  | minus e ih => exact ih usual.1 closed
  | binary op l r ihl ihr =>
    obtain ⟨usualL, usualR, mulOp, -⟩ := usual
    have left := ihl usualL closed.1
    have right := ihr usualR closed.2.1
    rw [regroup]
    split
    · rename_i isMul
      refine noOpenDivisor_attach left right fun isDiv => ?_
      have factor := (mulOp isMul).2
      have isOpen := closed.2.2 isDiv
      cases r with
      | minus e => cases isOpen
      | binary _ _ _ => exact factor.elim
      | _ => rfl
    · rename_i additive
      exact ⟨left, right, fun isDiv => absurd (by rw [isDiv]; rfl) additive⟩
  | paren e ih => exact ih usual closed
  | _ => trivial

/-- Regrouping changes a value only through the divisors that end with a unary minus. -/
theorem value_regroup {e : ArithTree} (usual : e.Usual) (closed : e.NoOpenDivisor) :
    e.regroup.value readInteger readAttr = e.value readInteger readAttr := by
  induction e with
  | minus e ih =>
    rw [regroup, value, ih usual.1 closed]
    rfl
  | binary op l r ihl ihr =>
    obtain ⟨usualL, usualR, mulOp, -⟩ := usual
    rw [regroup]
    split
    · rename_i isMul
      rw [value_attach isMul (regroup_term usualL (mulOp isMul).1)
          (noOpenDivisor_regroup usualL closed.1), value_binary, value_binary,
        ihl usualL closed.1, ihr usualR closed.2.1]
    · rw [value_binary, value_binary, ihl usualL closed.1, ihr usualR closed.2.1]
  | paren e ih => exact ih usual closed
  | _ => rfl

end Values

end ArithTree

end

end Ezilla

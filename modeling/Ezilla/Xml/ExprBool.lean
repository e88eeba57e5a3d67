import Ezilla.Template
import Ezilla.Xml.ExprLexer

/-!
# Boolean expressions on hosts

The evaluation of a requirements expression on the document of a host. The operators `!`,
`&` and `|` share one precedence level and group to the left, so an expression is evaluated
as it is read: `ExprConfig` is the position of the parser, with the value to the left and
the operator that waits for its right side, for every parenthesis that is open.

* `HostXml.compare`: the comparisons;
* `evalBool`: `ObjectXML::eval_bool`, by `ExprConfig.step` on one token after the other;
* `BoolExpr`: the trees of the grammar, `BoolExpr.Grouped` the ones that its precedence
  leaves, and `evalTokens_eq_ok_iff`: the parser evaluates exactly these.

The text of an expression comes from a document and has no null character. Reading the
floats and matching the patterns is left to the host (`floatHolds`, `fnmatch`).
-/

namespace Ezilla

open ExprToken

/-- How an evaluation fails. -/
inductive ExprError where
  /-- a syntax error -/
  | unparsed
  /-- a null pointer is read as the name of an attribute -/
  | undefined
  deriving DecidableEq, Repr

/-- The operators of a comparison. -/
inductive CompareOp where
  | eq
  | ne
  | gt
  | lt
  deriving DecidableEq, Repr

def CompareOp.holds : CompareOp → Int → Int → Bool
  | .eq, a, b => a = b
  | .ne, a, b => a ≠ b
  | .gt, a, b => b < a
  | .lt, a, b => a < b

/-- The right side of a comparison. -/
inductive Operand where
  | integer (text : List Char)
  | float (text : List Char)
  | string (pattern : Option String)
  deriving DecidableEq, Repr

/-- The document of a host: the texts that an XPath finds, in the order of the document, and
the functions that compare floats and match patterns. -/
structure HostXml where
  values : String → List String
  floatHolds : String → CompareOp → List Char → Bool
  fnmatch : String → String → Bool

/-- `atoi`: the value as a long, which stops at its bounds, cut to an int. -/
def atoi (text : List Char) : Int :=
  let (minus, digits) := readSign text
  let v : Int := if minus then -(digitsValue digits : Int) else digitsValue digits
  (max (-2 ^ 63) (min v (2 ^ 63 - 1))).bmod (2 ^ 32)

namespace HostXml

/-- `get_xml_values`. -/
def getXmlValues (host : HostXml) (attr : String) : List String :=
  if attr.toList.head? = some '/' then host.values attr
  else
    host.values ("/HOST/TEMPLATE/" ++ attr ++ "|/HOST/HOST_SHARE/" ++ attr ++ "|/HOST/" ++ attr ++
      "|/HOST/CLUSTER_TEMPLATE/" ++ attr)

/-- `get_vm_ids`. -/
def getVmIds (host : HostXml) : List Int :=
  (host.getXmlValues "/HOST/VMS/ID").filterMap readInt

/-- The actions of the comparisons. An attribute that is missing, or whose text is not a
number, compares to false. -/
def compare (host : HostXml) (attr : Option String) (op : CompareOp) (operand : Operand) :
    Except ExprError Bool :=
  match attr with
  | none => .error .undefined
  | some attr =>
    .ok <|
      match operand with
      | .integer text =>
        if attr = "CURRENT_VMS" ∧ op = .eq then decide (atoi text ∈ host.getVmIds)
        else if attr = "CURRENT_VMS" ∧ op = .ne then decide (atoi text ∉ host.getVmIds)
        else ((host.getXmlValues attr).head?.bind readInt).any fun val => op.holds val (atoi text)
      | .float text => (host.getXmlValues attr).head?.any fun val => host.floatHolds val op text
      | .string none => false
      | .string (some pattern) =>
        (host.getXmlValues attr).head?.any fun val =>
          if op = .eq then host.fnmatch pattern val else !host.fnmatch pattern val

end HostXml

/-! ## The parser -/

/-- The operators between expressions. -/
inductive BoolOp where
  | and
  | or
  deriving DecidableEq, Repr

def BoolOp.apply : BoolOp → Bool → Bool → Bool
  | .and, a, b => a && b
  | .or, a, b => a || b

def BoolOp.token : BoolOp → ExprToken
  | .and => .chr '&'
  | .or => .chr '|'

/-- What waits for the next operand inside one parenthesis: the value to the left with its
operator, and the number of `!` before the operand. -/
structure ExprFrame where
  left : Option (Bool × BoolOp)
  nots : Nat
  deriving DecidableEq, Repr

/-- Nothing waits. -/
def ExprFrame.fresh : ExprFrame := ⟨none, 0⟩

/-- The value when the operand is there. -/
def ExprFrame.apply (f : ExprFrame) (b : Bool) : Bool :=
  match f.left with
  | some (a, op) => op.apply a (Nat.iterate not f.nots b)
  | none => Nat.iterate not f.nots b

/-- The position of the parser; `stack` are the frames of the open parentheses. -/
inductive ExprConfig where
  /-- an operand is next -/
  | operand (f : ExprFrame) (stack : List ExprFrame)
  /-- after the name of an attribute -/
  | attr (name : Option String) (f : ExprFrame) (stack : List ExprFrame)
  /-- after the name and a `!` -/
  | attrNot (name : Option String) (f : ExprFrame) (stack : List ExprFrame)
  /-- after the operator of a comparison -/
  | comparison (name : Option String) (op : CompareOp) (f : ExprFrame) (stack : List ExprFrame)
  /-- after an expression -/
  | value (b : Bool) (stack : List ExprFrame)
  deriving DecidableEq, Repr

namespace ExprConfig

/-- The start: an empty expression is true. -/
def start : ExprConfig := .operand .fresh []

/-- The right side of a comparison is read. -/
def compared (host : HostXml) (name : Option String) (op : CompareOp) (operand : Operand)
    (f : ExprFrame) (stack : List ExprFrame) : Except ExprError ExprConfig :=
  (host.compare name op operand).map fun b => .value (f.apply b) stack

/-- One token. -/
def step (host : HostXml) : ExprConfig → ExprToken → Except ExprError ExprConfig
  | .operand f stack, .string name => .ok (.attr name f stack)
  | .operand f stack, .chr '!' => .ok (.operand { f with nots := f.nots + 1 } stack)
  | .operand f stack, .chr '(' => .ok (.operand .fresh (f :: stack))
  | .attr name f stack, .chr '=' => .ok (.comparison name .eq f stack)
  | .attr name f stack, .chr '>' => .ok (.comparison name .gt f stack)
  | .attr name f stack, .chr '<' => .ok (.comparison name .lt f stack)
  | .attr name f stack, .chr '!' => .ok (.attrNot name f stack)
  | .attrNot name f stack, .chr '=' => .ok (.comparison name .ne f stack)
  | .comparison name op f stack, .integer text => compared host name op (.integer text) f stack
  | .comparison name op f stack, .float text => compared host name op (.float text) f stack
  | .comparison name .eq f stack, .string pattern =>
    compared host name .eq (.string pattern) f stack
  | .comparison name .ne f stack, .string pattern =>
    compared host name .ne (.string pattern) f stack
  | .value b stack, .chr '&' => .ok (.operand ⟨some (b, .and), 0⟩ stack)
  | .value b stack, .chr '|' => .ok (.operand ⟨some (b, .or), 0⟩ stack)
  | .value b (f :: stack), .chr ')' => .ok (.value (f.apply b) stack)
  | _, _ => .error .unparsed

/-- Some tokens. -/
def run (host : HostXml) : ExprConfig → List ExprToken → Except ExprError ExprConfig
  | c, [] => .ok c
  | c, t :: ts =>
    match step host c t with
    | .ok c' => run host c' ts
    | .error e => .error e

/-- The end of the text. -/
def finish : ExprConfig → Except ExprError Bool
  | .value b [] => .ok b
  | .operand ⟨none, 0⟩ [] => .ok true
  | _ => .error .unparsed

end ExprConfig

/-- The value of the tokens of an expression. -/
def evalTokens (host : HostXml) (tokens : List ExprToken) : Except ExprError Bool :=
  (ExprConfig.run host .start tokens).bind ExprConfig.finish

/-- `ObjectXML::eval_bool`. -/
def evalBool (host : HostXml) (expr : String) : Except ExprError Bool :=
  evalTokens host (lex expr.toList)

/-! ## The grammar -/

/-- The trees of the grammar. -/
inductive BoolExpr where
  | compare (name : String) (op : CompareOp) (operand : Operand)
  | binary (op : BoolOp) (l r : BoolExpr)
  | not (e : BoolExpr)
  | paren (e : BoolExpr)
  deriving DecidableEq, Repr

def CompareOp.tokens : CompareOp → List ExprToken
  | .eq => [.chr '=']
  | .ne => [.chr '!', .chr '=']
  | .gt => [.chr '>']
  | .lt => [.chr '<']

def Operand.token : Operand → ExprToken
  | .integer text => .integer text
  | .float text => .float text
  | .string pattern => .string pattern

/-- Strings are only compared for equality. -/
def Operand.allows : Operand → CompareOp → Bool
  | .string _, .gt => false
  | .string _, .lt => false
  | _, _ => true

namespace BoolExpr

/-- The text of a tree. -/
def tokens : BoolExpr → List ExprToken
  | compare name op operand => .string (some name) :: op.tokens ++ [operand.token]
  | binary op l r => l.tokens ++ op.token :: r.tokens
  | not e => .chr '!' :: e.tokens
  | paren e => .chr '(' :: e.tokens ++ [.chr ')']

/-- The value of a tree. -/
def eval (host : HostXml) : BoolExpr → Bool
  | compare name op operand => (host.compare (some name) op operand).toOption.getD false
  | binary op l r => op.apply (l.eval host) (r.eval host)
  | not e => !e.eval host
  | paren e => e.eval host

/-- The tree can be an operand of an operator to its left. -/
def IsUnary : BoolExpr → Prop
  | binary _ _ _ => False
  | _ => True

/-- The trees that the one left-associative precedence level leaves. -/
def Grouped : BoolExpr → Prop
  | compare _ op operand => operand.allows op = true
  | binary _ l r => l.Grouped ∧ r.Grouped ∧ r.IsUnary
  | not e => e.Grouped ∧ e.IsUnary
  | paren e => e.Grouped

end BoolExpr

namespace ExprConfig

variable {host : HostXml} {c c' : ExprConfig} {f : ExprFrame} {stack : List ExprFrame}

theorem run_append (ts us : List ExprToken) :
    run host c (ts ++ us) = (run host c ts).bind fun c' => run host c' us := by
  induction ts generalizing c with
  | nil => rfl
  | cons t ts ih =>
    rw [List.cons_append, run, run]
    cases step host c t with
    | error e => rfl
    | ok c' => exact ih

theorem run_append_of_ok {ts us : List ExprToken} (first : run host c ts = .ok c') :
    run host c (ts ++ us) = run host c' us := by
  rw [run_append, first]
  rfl

theorem run_cons_of_ok {t : ExprToken} {ts : List ExprToken} (first : step host c t = .ok c') :
    run host c (t :: ts) = run host c' ts := by
  rw [run, first]

theorem compare_some (name : String) (op : CompareOp) (operand : Operand) :
    host.compare (some name) op operand =
      .ok ((host.compare (some name) op operand).toOption.getD false) := rfl

/-- Reading a tree gives its value: to the frame before it when the tree is unary, and in
any case after an opening parenthesis. -/
theorem run_tokens (e : BoolExpr) (grouped : e.Grouped) :
    (∀ stack, run host (.operand .fresh stack) e.tokens = .ok (.value (e.eval host) stack)) ∧
      (e.IsUnary → ∀ f stack, run host (.operand f stack) e.tokens =
        .ok (.value (f.apply (e.eval host)) stack)) := by
  have fresh : ∀ b, ExprFrame.fresh.apply b = b := fun _ => rfl
  induction e with
  | compare name op operand =>
    have any : ∀ f stack, run host (.operand f stack) (BoolExpr.compare name op operand).tokens =
        .ok (.value (f.apply ((BoolExpr.compare name op operand).eval host)) stack) := by
      intro f stack
      cases op <;> cases operand <;> first | rfl | cases grouped
    exact ⟨fun stack => any .fresh stack, fun _ => any⟩
  | binary op l r ihl ihr =>
    obtain ⟨groupedL, groupedR, unary⟩ := grouped
    refine ⟨fun stack => ?_, fun no => absurd no id⟩
    rw [BoolExpr.tokens, run_append_of_ok ((ihl groupedL).1 stack)]
    have next : step host (.value (l.eval host) stack) op.token =
        .ok (.operand ⟨some (l.eval host, op), 0⟩ stack) := by
      cases op <;> rfl
    rw [run_cons_of_ok next, (ihr groupedR).2 unary]
    rfl
  | not e ih =>
    have any : ∀ f stack, run host (.operand f stack) e.not.tokens =
        .ok (.value (f.apply (e.not.eval host)) stack) := fun f stack =>
      (ih grouped.1).2 grouped.2 { f with nots := f.nots + 1 } stack
    exact ⟨fun stack => any .fresh stack, fun _ => any⟩
  | paren e ih =>
    have any : ∀ f stack, run host (.operand f stack) e.paren.tokens =
        .ok (.value (f.apply (e.paren.eval host)) stack) := fun f stack => by
      have inner := (ih grouped).1 (f :: stack)
      rw [BoolExpr.tokens, List.cons_append, run_cons_of_ok rfl,
        run_append_of_ok inner]
      rfl
    exact ⟨fun stack => any .fresh stack, fun _ => any⟩

/-! ## What a step does -/

/-- The steps that are no errors. -/
inductive Step (host : HostXml) : ExprConfig → ExprToken → ExprConfig → Prop where
  | name {name : Option String} {f : ExprFrame} {stack : List ExprFrame} :
      Step host (.operand f stack) (.string name) (.attr name f stack)
  | not {f : ExprFrame} {stack : List ExprFrame} :
      Step host (.operand f stack) (.chr '!') (.operand { f with nots := f.nots + 1 } stack)
  | opens {f : ExprFrame} {stack : List ExprFrame} :
      Step host (.operand f stack) (.chr '(') (.operand .fresh (f :: stack))
  | operator {name : Option String} {op : CompareOp} {x : Char} {f : ExprFrame}
      {stack : List ExprFrame} (is : op.tokens = [.chr x]) :
      Step host (.attr name f stack) (.chr x) (.comparison name op f stack)
  | unequal {name : Option String} {f : ExprFrame} {stack : List ExprFrame} :
      Step host (.attr name f stack) (.chr '!') (.attrNot name f stack)
  | unequalTo {name : Option String} {f : ExprFrame} {stack : List ExprFrame} :
      Step host (.attrNot name f stack) (.chr '=') (.comparison name .ne f stack)
  | compared {name : String} {op : CompareOp} {operand : Operand} {f : ExprFrame}
      {stack : List ExprFrame} (allows : operand.allows op = true) :
      Step host (.comparison (some name) op f stack) operand.token
        (.value (f.apply ((BoolExpr.compare name op operand).eval host)) stack)
  | binary {b : Bool} {op : BoolOp} {stack : List ExprFrame} :
      Step host (.value b stack) op.token (.operand ⟨some (b, op), 0⟩ stack)
  | closes {b : Bool} {f : ExprFrame} {stack : List ExprFrame} :
      Step host (.value b (f :: stack)) (.chr ')') (.value (f.apply b) stack)

theorem step_cases {t : ExprToken} (taken : step host c t = .ok c') : Step host c t c' := by
  have compared {name : Option String} {op : CompareOp} {operand : Operand} {f : ExprFrame}
      {stack : List ExprFrame} (allows : operand.allows op = true)
      (taken : compared host name op operand f stack = .ok c') :
      Step host (.comparison name op f stack) operand.token c' := by
    cases name with
    | none => cases taken
    | some name =>
      cases taken
      exact .compared allows
  unfold step at taken
  split at taken
  case h_1 => cases taken; exact .name
  case h_2 => cases taken; exact .not
  case h_3 => cases taken; exact .opens
  case h_4 => cases taken; exact .operator rfl
  case h_5 => cases taken; exact .operator rfl
  case h_6 => cases taken; exact .operator rfl
  case h_7 => cases taken; exact .unequal
  case h_8 => cases taken; exact .unequalTo
  case h_9 text => exact @compared _ _ (.integer text) _ _ rfl taken
  case h_10 text => exact @compared _ _ (.float text) _ _ rfl taken
  case h_11 pattern => exact @compared _ _ (.string pattern) _ _ rfl taken
  case h_12 pattern => exact @compared _ _ (.string pattern) _ _ rfl taken
  case h_13 => cases taken; exact @Step.binary _ _ .and _
  case h_14 => cases taken; exact @Step.binary _ _ .or _
  case h_15 => cases taken; exact .closes
  case h_16 => cases taken

theorem step_comparison {name : Option String} {op : CompareOp} {operand : Operand}
    {f : ExprFrame} {stack : List ExprFrame} (allows : operand.allows op = true) :
    step host (comparison name op f stack) operand.token =
      compared host name op operand f stack := by
  cases operand with
  | integer text => cases op <;> rfl
  | float text => cases op <;> rfl
  | string pattern =>
    cases op with
    | eq => rfl
    | ne => rfl
    | _ => cases allows

theorem Step.taken {t : ExprToken} (made : Step host c t c') : step host c t = .ok c' := by
  cases made with
  | @operator name op x f stack is => cases op <;> cases is <;> rfl
  | @compared name op operand f stack allows =>
    rw [step_comparison allows]
    rfl
  | @binary b op stack => cases op <;> rfl
  | _ => rfl

/-- The null pointer is read where the right side of a comparison follows. -/
theorem step_undefined_iff {t : ExprToken} : step host c t = .error .undefined ↔
    ∃ (op : CompareOp) (operand : Operand) (f : ExprFrame) (stack : List ExprFrame),
      c = .comparison none op f stack ∧ operand.allows op = true ∧ t = operand.token := by
  constructor
  · intro taken
    have compared {name : Option String} {op : CompareOp} {operand : Operand} {f : ExprFrame}
        {stack : List ExprFrame}
        (taken : compared host name op operand f stack = .error .undefined) : name = none := by
      cases name with
      | none => rfl
      | some name => cases taken
    unfold step at taken
    split at taken
    case h_9 text => exact ⟨_, .integer text, _, _, by rw [compared taken], rfl, rfl⟩
    case h_10 text => exact ⟨_, .float text, _, _, by rw [compared taken], rfl, rfl⟩
    case h_11 pattern => exact ⟨_, .string pattern, _, _, by rw [compared taken], rfl, rfl⟩
    case h_12 pattern => exact ⟨_, .string pattern, _, _, by rw [compared taken], rfl, rfl⟩
    all_goals cases taken
  · intro null
    obtain ⟨op, operand, f, stack, rfl, allows, rfl⟩ := null
    rw [step_comparison allows]
    rfl

/-! ## What the parser has read -/

/-- The tokens before the operand that a frame waits for. -/
inductive FrameReads (host : HostXml) : ExprFrame → List ExprToken → Prop where
  | first (n : Nat) : FrameReads host ⟨none, n⟩ (List.replicate n (.chr '!'))
  | right (e : BoolExpr) (op : BoolOp) (n : Nat) (grouped : e.Grouped) :
      FrameReads host ⟨some (e.eval host, op), n⟩
        (e.tokens ++ op.token :: List.replicate n (.chr '!'))

/-- The tokens before and with the last parenthesis that is open. -/
inductive StackReads (host : HostXml) : List ExprFrame → List ExprToken → Prop where
  | nil : StackReads host [] []
  | push {f : ExprFrame} {stack : List ExprFrame} {us vs : List ExprToken}
      (outer : StackReads host stack us) (frame : FrameReads host f vs) :
      StackReads host (f :: stack) (us ++ vs ++ [.chr '('])

/-- The tokens that lead to a position. -/
def Reads (host : HostXml) : ExprConfig → List ExprToken → Prop
  | .operand f stack, ts => ∃ us vs, StackReads host stack us ∧ FrameReads host f vs ∧ ts = us ++ vs
  | .attr name f stack, ts => ∃ us vs, StackReads host stack us ∧ FrameReads host f vs ∧
    ts = us ++ vs ++ [.string name]
  | .attrNot name f stack, ts => ∃ us vs, StackReads host stack us ∧ FrameReads host f vs ∧
    ts = us ++ vs ++ [.string name, .chr '!']
  | .comparison name op f stack, ts => ∃ us vs, StackReads host stack us ∧ FrameReads host f vs ∧
    ts = us ++ vs ++ .string name :: op.tokens
  | .value b stack, ts => ∃ us, ∃ e : BoolExpr, StackReads host stack us ∧ e.Grouped ∧ e.eval host = b ∧
    ts = us ++ e.tokens

/-- Any number of `!` before a tree that is an operand. -/
theorem exists_nots (n : Nat) (e : BoolExpr) (grouped : e.Grouped) (unary : e.IsUnary) :
    ∃ e' : BoolExpr, e'.Grouped ∧ e'.IsUnary ∧ e'.eval host = Nat.iterate not n (e.eval host) ∧
      e'.tokens = List.replicate n (.chr '!') ++ e.tokens := by
  induction n with
  | zero => exact ⟨e, grouped, unary, rfl, rfl⟩
  | succ n ih =>
    obtain ⟨e', grouped', unary', value, tokens⟩ := ih
    refine ⟨e'.not, ⟨grouped', unary'⟩, trivial, ?_, ?_⟩
    · rw [BoolExpr.eval, value, Function.iterate_succ_apply']
    · rw [BoolExpr.tokens, tokens, List.replicate_succ, List.cons_append]

/-- A frame and its operand are a tree together. -/
theorem exists_applied {vs : List ExprToken} (frame : FrameReads host f vs) (e : BoolExpr)
    (grouped : e.Grouped) (unary : e.IsUnary) : ∃ e' : BoolExpr, e'.Grouped ∧
      e'.eval host = f.apply (e.eval host) ∧ e'.tokens = vs ++ e.tokens := by
  cases frame with
  | first n =>
    obtain ⟨e', grouped', _, value, tokens⟩ := exists_nots n e grouped unary
    exact ⟨e', grouped', value, tokens⟩
  | right l op n groupedL =>
    obtain ⟨e', grouped', unary', value, tokens⟩ := exists_nots n e grouped unary
    refine ⟨.binary op l e', ⟨groupedL, grouped', unary'⟩, ?_, ?_⟩
    · rw [BoolExpr.eval, value]
      rfl
    · rw [BoolExpr.tokens, tokens, List.append_assoc, List.cons_append]

/-- One more token. -/
theorem step_reads {t : ExprToken} {ts : List ExprToken} (reads : Reads host c ts)
    (taken : step host c t = .ok c') : Reads host c' (ts ++ [t]) := by
  cases step_cases taken with
  | name =>
    obtain ⟨us, vs, outer, frame, rfl⟩ := reads
    exact ⟨us, vs, outer, frame, rfl⟩
  | not =>
    obtain ⟨us, vs, outer, frame, rfl⟩ := reads
    cases frame with
    | first n =>
      refine ⟨us, _, outer, .first (n + 1), ?_⟩
      rw [List.append_assoc, List.replicate_succ']
    | right e op n grouped =>
      refine ⟨us, _, outer, .right e op (n + 1) grouped, ?_⟩
      rw [List.append_assoc, List.append_assoc, List.cons_append, List.replicate_succ']
  | opens =>
    obtain ⟨us, vs, outer, frame, rfl⟩ := reads
    exact ⟨us ++ vs ++ [.chr '('], [], outer.push frame, .first 0, (List.append_nil _).symm⟩
  | operator is =>
    obtain ⟨us, vs, outer, frame, rfl⟩ := reads
    exact ⟨us, vs, outer, frame, by simp [is]⟩
  | unequal =>
    obtain ⟨us, vs, outer, frame, rfl⟩ := reads
    exact ⟨us, vs, outer, frame, by simp⟩
  | unequalTo =>
    obtain ⟨us, vs, outer, frame, rfl⟩ := reads
    exact ⟨us, vs, outer, frame, by simp [CompareOp.tokens]⟩
  | @compared name op operand f stack allows =>
    obtain ⟨us, vs, outer, frame, rfl⟩ := reads
    obtain ⟨e, grouped, value, tokens⟩ :=
      exists_applied frame (.compare name op operand) allows trivial
    refine ⟨us, e, outer, grouped, value, ?_⟩
    rw [tokens, BoolExpr.tokens]
    simp only [List.append_assoc, List.cons_append]
  | @binary b op stack =>
    obtain ⟨us, e, outer, grouped, rfl, rfl⟩ := reads
    exact ⟨us, _, outer, .right e op 0 grouped, by simp⟩
  | closes =>
    obtain ⟨us, e, outer, grouped, rfl, rfl⟩ := reads
    cases outer with
    | push outer frame =>
      obtain ⟨e', grouped', value, tokens⟩ := exists_applied frame e.paren grouped trivial
      refine ⟨_, e', outer, grouped', value, ?_⟩
      rw [tokens, BoolExpr.tokens]
      simp only [List.append_assoc, List.cons_append, List.nil_append]

theorem run_reads {ts us : List ExprToken} (reads : Reads host c ts)
    (taken : run host c us = .ok c') : Reads host c' (ts ++ us) := by
  induction us generalizing c ts with
  | nil =>
    cases taken
    rw [List.append_nil]
    exact reads
  | cons t us ih =>
    unfold run at taken
    cases first : step host c t with
    | error e =>
      rw [first] at taken
      cases taken
    | ok mid =>
      rw [first] at taken
      have rest := ih (step_reads reads first) taken
      rwa [List.append_assoc] at rest

/-! ## Inside more parentheses -/

/-- The same position with more open parentheses around it. -/
def push (base : List ExprFrame) : ExprConfig → ExprConfig
  | .operand f stack => .operand f (stack ++ base)
  | .attr name f stack => .attr name f (stack ++ base)
  | .attrNot name f stack => .attrNot name f (stack ++ base)
  | .comparison name op f stack => .comparison name op f (stack ++ base)
  | .value b stack => .value b (stack ++ base)

theorem Step.push {t : ExprToken} (base : List ExprFrame) (made : Step host c t c') :
    Step host (c.push base) t (c'.push base) := by
  cases made with
  | name => exact .name
  | not => exact .not
  | opens => exact .opens
  | operator is => exact .operator is
  | unequal => exact .unequal
  | unequalTo => exact .unequalTo
  | compared allows => exact .compared allows
  | binary => exact .binary
  | closes => exact .closes

/-- Inside more parentheses there are no other steps, but for those that close one of them. -/
theorem Step.of_push {t : ExprToken} {base : List ExprFrame} (made : Step host (c.push base) t c') :
    (∃ b, c = .value b [] ∧ t = .chr ')') ∨ ∃ c'', Step host c t c'' := by
  cases c with
  | operand f stack =>
    cases made with
    | name => exact .inr ⟨_, .name⟩
    | not => exact .inr ⟨_, .not⟩
    | opens => exact .inr ⟨_, .opens⟩
  | attr name f stack =>
    cases made with
    | operator is => exact .inr ⟨_, .operator is⟩
    | unequal => exact .inr ⟨_, .unequal⟩
  | attrNot name f stack =>
    cases made with
    | unequalTo => exact .inr ⟨_, .unequalTo⟩
  | comparison name op f stack =>
    cases made with
    | compared allows => exact .inr ⟨_, .compared allows⟩
  | value b stack =>
    cases stack with
    | nil =>
      generalize is : (value b []).push base = inner at made
      cases made with
      | binary => exact .inr ⟨_, .binary⟩
      | closes => exact .inl ⟨b, rfl, rfl⟩
      | _ => cases is
    | cons f stack =>
      cases made with
      | binary => exact .inr ⟨_, .binary⟩
      | closes => exact .inr ⟨_, .closes⟩

theorem undefined_push {t : ExprToken} (base : List ExprFrame) :
    step host (c.push base) t = .error .undefined ↔ step host c t = .error .undefined := by
  rw [step_undefined_iff, step_undefined_iff]
  constructor
  · intro null
    obtain ⟨op, operand, f, stack, is, allows, rfl⟩ := null
    cases c with
    | comparison name op' f' stack' =>
      cases is
      exact ⟨op, operand, f, stack', rfl, allows, rfl⟩
    | _ => cases is
  · intro null
    obtain ⟨op, operand, f, stack, rfl, allows, rfl⟩ := null
    exact ⟨op, operand, f, stack ++ base, rfl, allows, rfl⟩

/-- A token does the same inside more parentheses, unless it closes one of them. -/
theorem step_push (base : List ExprFrame) (t : ExprToken) :
    (∃ b, c = .value b [] ∧ t = .chr ')') ∨
      step host (c.push base) t = (step host c t).map (push base) := by
  cases alone : step host c t with
  | ok c' =>
    right
    rw [((step_cases alone).push base).taken]
    rfl
  | error e =>
    cases inside : step host (c.push base) t with
    | ok c' =>
      rcases (step_cases inside).of_push with closing | made
      · exact .inl closing
      · obtain ⟨c'', made⟩ := made
        rw [made.taken] at alone
        cases alone
    | error e' =>
      right
      have same := @undefined_push host c t base
      rw [inside, alone, Except.error.injEq, Except.error.injEq] at same
      show Except.error e' = Except.error e
      cases e with
      | undefined => rw [same.mpr rfl]
      | unparsed =>
        cases e' with
        | unparsed => rfl
        | undefined => cases same.mp rfl

/-- Some tokens inside more parentheses: either they do the same there, or the tokens before
one of them are an expression and that one closes a parenthesis. -/
theorem run_push (base : List ExprFrame) (ts : List ExprToken) :
    (∃ before after b, ts = before ++ .chr ')' :: after ∧ run host c before = .ok (.value b [])) ∨
      run host (c.push base) ts = (run host c ts).map (push base) := by
  induction ts generalizing c with
  | nil => exact .inr rfl
  | cons t ts ih =>
    rcases step_push (c := c) base t with ⟨b, rfl, rfl⟩ | same
    · exact .inl ⟨[], ts, b, rfl, rfl⟩
    · cases first : step host c t with
      | error e =>
        right
        rw [first] at same
        rw [run, run, same, first]
        rfl
      | ok c' =>
        rw [first] at same
        rcases ih (c := c') with ⟨before, after, b, rfl, value⟩ | rest
        · exact .inl ⟨t :: before, after, b, rfl, by rw [run_cons_of_ok first, value]⟩
        · right
          rw [run_cons_of_ok same, run_cons_of_ok first, rest]

end ExprConfig

/-- The parser evaluates the trees of the grammar, and the empty text, which is true. -/
theorem evalTokens_eq_ok_iff {host : HostXml} {ts : List ExprToken} {b : Bool} :
    evalTokens host ts = .ok b ↔
      ts = [] ∧ b = true ∨ ∃ e : BoolExpr, e.Grouped ∧ e.tokens = ts ∧ e.eval host = b := by
  unfold evalTokens
  constructor
  · intro evaluated
    cases taken : ExprConfig.run host .start ts with
    | error e =>
      rw [taken] at evaluated
      cases evaluated
    | ok c =>
      rw [taken] at evaluated
      have begun : ExprConfig.Reads host .start [] := ⟨[], [], .nil, .first 0, rfl⟩
      have reads := ExprConfig.run_reads begun taken
      rw [List.nil_append] at reads
      have finished : c.finish = .ok b := evaluated
      unfold ExprConfig.finish at finished
      split at finished
      · cases finished
        obtain ⟨us, e, outer, grouped, value, tokens⟩ := reads
        cases outer
        exact .inr ⟨e, grouped, tokens.symm, value⟩
      · cases finished
        obtain ⟨us, vs, outer, frame, tokens⟩ := reads
        cases outer
        cases frame
        exact .inl ⟨tokens, rfl⟩
      · cases finished
  · rintro (⟨rfl, rfl⟩ | ⟨e, grouped, rfl, rfl⟩)
    · rfl
    · rw [ExprConfig.start, (ExprConfig.run_tokens e grouped).1 []]
      rfl

end Ezilla

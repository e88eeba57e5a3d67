import Mathlib.Data.List.AList
import Mathlib.Data.List.Find

/-!
# Tables of packet filter rules

A table has chains of rules. The first rule of a chain that applies to a packet decides about
it, by a verdict or by what another chain says; a chain in which no rule decides leaves the
packet to the chain it was called from. The commands that change a table fail when they would
leave a rule without its chain.

* `Table.decide`: what a chain says about a packet;
* `Command.run`: the commands;
* `walk_filter`, `walk_eq_of_only`: which rules of a chain matter for a packet.
-/

namespace PacketFilter

variable {Name Match Packet : Type*}

/-- What happens to a packet. -/
inductive Verdict where
  | accept
  | drop
  deriving DecidableEq, Repr

/-- What a rule does with a packet it applies to. -/
inductive Target (Name : Type*) where
  | verdict (v : Verdict)
  | jump (chain : Name)
  deriving DecidableEq, Repr

/-- A rule applies to the packets that match all its conditions. -/
structure Rule (Name Match : Type*) where
  conditions : List Match
  target : Target Name
  deriving DecidableEq, Repr

/-- The chains by name. -/
abbrev Table (Name Match : Type*) := AList fun _ : Name => List (Rule Name Match)

/-! ## Meaning -/

section Meaning

variable (sees : Match → Packet → Bool)

def Target.decide (call : Name → Option Verdict) : Target Name → Option Verdict
  | .verdict v => some v
  | .jump chain => call chain

def Rule.applies (r : Rule Name Match) (p : Packet) : Bool := r.conditions.all (sees · p)

/-- What a rule says about a packet. -/
def Rule.decide (call : Name → Option Verdict) (p : Packet) (r : Rule Name Match) :
    Option Verdict :=
  if r.applies sees p then r.target.decide call else none

/-- What the rules of a chain say about a packet. -/
def walk (call : Name → Option Verdict) (p : Packet) (rules : List (Rule Name Match)) :
    Option Verdict :=
  rules.findSome? (Rule.decide sees call p)

/-- What a chain says about a packet, when chains call each other to some depth. -/
def Table.decide [DecidableEq Name] (t : Table Name Match) (p : Packet) : Nat → Name → Option Verdict
  | 0, _ => none
  | depth + 1, chain => walk sees (t.decide p depth) p ((t.lookup chain).getD [])

variable {sees} {call call' : Name → Option Verdict} {p : Packet} {r : Rule Name Match}
  {rules rest : List (Rule Name Match)}

theorem walk_append : walk sees call p (rules ++ rest) =
    (walk sees call p rules).or (walk sees call p rest) :=
  List.findSome?_append

theorem walk_eq_none : walk sees call p rules = none ↔
    ∀ r ∈ rules, r.decide sees call p = none :=
  List.findSome?_eq_none_iff

/-- Rules that do not apply can be left out. -/
theorem walk_eq_none_of_not_applies (no : ∀ r ∈ rules, r.applies sees p = false) :
    walk sees call p rules = none :=
  walk_eq_none.mpr fun r member => if_neg (by rw [no r member]; exact Bool.false_ne_true)

/-- Rules that do not decide can be left out. -/
theorem walk_filter {keep : Rule Name Match → Bool}
    (others : ∀ r ∈ rules, keep r = false → r.decide sees call p = none) :
    walk sees call p (rules.filter keep) = walk sees call p rules := by
  induction rules with
  | nil => rfl
  | cons r rest ih =>
    have rest := ih fun r' member => others r' (List.mem_cons_of_mem _ member)
    unfold walk at rest ⊢
    cases kept : keep r with
    | true => rw [List.filter_cons_of_pos kept, List.findSome?_cons, List.findSome?_cons, rest]
    | false =>
      rw [List.filter_cons_of_neg (by rw [kept]; exact Bool.false_ne_true), List.findSome?_cons,
        others r List.mem_cons_self kept, rest]

/-- Of rules that apply to different packets only one says something. -/
theorem walk_eq_of_only {r : Rule Name Match} (member : r ∈ rules)
    (only : ∀ r' ∈ rules, r'.applies sees p = true → r' = r) :
    walk sees call p rules = r.decide sees call p := by
  induction rules with
  | nil => cases member
  | cons first rest ih =>
    unfold walk at ih ⊢
    rw [List.findSome?_cons]
    cases applies : first.applies sees p with
    | true =>
      obtain rfl := only first List.mem_cons_self applies
      cases said : first.decide sees call p with
      | some verdict => rfl
      | none =>
        refine List.findSome?_eq_none_iff.mpr fun r' later => ?_
        by_cases same : r'.applies sees p = true
        · rw [only r' (List.mem_cons_of_mem _ later) same, said]
        · exact if_neg same
    | false =>
      have silent : first.decide sees call p = none :=
        if_neg (by rw [applies]; exact Bool.false_ne_true)
      rw [silent]
      rcases List.mem_cons.mp member with rfl | later
      · rw [silent]
        refine List.findSome?_eq_none_iff.mpr fun r' later => if_neg fun same => ?_
        cases only r' (List.mem_cons_of_mem _ later) same
        exact Bool.false_ne_true (applies.symm.trans same)
      · exact ih later fun r' there => only r' (List.mem_cons_of_mem _ there)

end Meaning

/-! ## Commands -/

/-- The commands that change a table. The rules of a chain are numbered from 1. -/
inductive Command (Name Match : Type*) where
  | newChain (chain : Name)
  | append (chain : Name) (rule : Rule Name Match)
  | deleteRule (chain : Name) (num : Nat)
  | flush (chain : Name)
  | deleteChain (chain : Name)
  deriving DecidableEq, Repr

variable [DecidableEq Name]

/-- No rule jumps to a chain. -/
def Table.Unused (t : Table Name Match) (chain : Name) : Prop :=
  ∀ entry ∈ t.entries, ∀ r ∈ entry.2, r.target ≠ .jump chain

instance (t : Table Name Match) (chain : Name) : Decidable (t.Unused chain) :=
  inferInstanceAs (Decidable (∀ entry ∈ t.entries, ∀ r ∈ entry.2, r.target ≠ .jump chain))

/-- The chain that a target jumps to is there. -/
def Target.There (t : Table Name Match) : Target Name → Prop
  | .verdict _ => True
  | .jump chain => chain ∈ t

instance (t : Table Name Match) (target : Target Name) : Decidable (target.There t) := by
  unfold Target.There
  split <;> infer_instance

/-- The table after a command; a rule may be refused as it is. -/
def Command.run (valid : Rule Name Match → Bool) (t : Table Name Match) :
    Command Name Match → Option (Table Name Match)
  | .newChain chain => if chain ∈ t then none else some (t.insert chain [])
  | .append chain rule =>
    match t.lookup chain with
    | none => none
    | some rules =>
      if valid rule = true ∧ rule.target.There t then some (t.insert chain (rules ++ [rule]))
      else none
  | .deleteRule chain num =>
    match t.lookup chain with
    | none => none
    | some rules =>
      if 1 ≤ num ∧ num ≤ rules.length then some (t.insert chain (rules.eraseIdx (num - 1)))
      else none
  | .flush chain =>
    match t.lookup chain with
    | none => none
    | some _ => some (t.insert chain [])
  | .deleteChain chain =>
    match t.lookup chain with
    | some [] => if t.Unused chain then some (t.erase chain) else none
    | _ => none

section Run

variable {valid : Rule Name Match → Bool} {t t' : Table Name Match} {chain : Name}
  {rules : List (Rule Name Match)} {rule : Rule Name Match}

theorem run_newChain (fresh : t.lookup chain = none) :
    (Command.newChain chain).run valid t = some (t.insert chain []) :=
  if_neg (AList.lookup_eq_none.mp fresh)

theorem run_append (there : t.lookup chain = some rules) (ok : valid rule = true)
    (target : rule.target.There t) :
    (Command.append chain rule).run valid t = some (t.insert chain (rules ++ [rule])) := by
  simp only [Command.run, there]
  exact if_pos ⟨ok, target⟩

theorem run_deleteRule {num : Nat} (there : t.lookup chain = some rules) (pos : 1 ≤ num)
    (le : num ≤ rules.length) :
    (Command.deleteRule chain num).run valid t =
      some (t.insert chain (rules.eraseIdx (num - 1))) := by
  simp only [Command.run, there]
  exact if_pos ⟨pos, le⟩

theorem run_flush (there : t.lookup chain = some rules) :
    (Command.flush chain).run valid t = some (t.insert chain []) := by
  simp only [Command.run, there]

theorem run_deleteChain (there : t.lookup chain = some []) (unused : t.Unused chain) :
    (Command.deleteChain chain).run valid t = some (t.erase chain) := by
  simp only [Command.run, there]
  exact if_pos unused

end Run

end PacketFilter

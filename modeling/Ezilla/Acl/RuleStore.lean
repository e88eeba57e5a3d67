import Ezilla.Acl.AclManager
import Mathlib.Data.List.Nodup
import Mathlib.Logic.Function.Basic

/-!
# The store of access control rules

`AclManager` keeps its rules three times: by user word in a multimap, by oid in
a map, and as rows of a table. `lastOID` is the oid of the last rule it stored.

* `RuleStore.addSection`, `RuleStore.delRule`: what `add_rule` and `del_rule` do
  while they hold the lock, for any answer of the database;
* `RuleStore.Consistent`: the three hold the same rules, with distinct oids and
  no two equal ones. Both operations keep it.
-/

namespace Ezilla

/-- `AclRule::operator==`: the words of the rules, not their oids. -/
def AclRule.sameWords (r s : AclRule) : Bool :=
  r.user = s.user ∧ r.resource = s.resource ∧ r.rights = s.rights

theorem AclRule.sameWords_iff {r s : AclRule} :
    r.sameWords s = true ↔ r.user = s.user ∧ r.resource = s.resource ∧ r.rights = s.rights :=
  decide_eq_true_iff

theorem AclRule.sameWords_self (r : AclRule) : r.sameWords r = true :=
  sameWords_iff.mpr ⟨rfl, rfl, rfl⟩

/-- The multimap without the first rule of those words. -/
def AclManager.erase (m : AclManager) (rule : AclRule) : AclManager where
  aclRules := m.aclRules.eraseP rule.sameWords
  wellFormed r member := m.wellFormed r (List.mem_of_mem_eraseP member)

/-- The two indexes, the table, and the last oid that was taken. -/
structure RuleStore where
  manager : AclManager
  oids : Int → Option AclRule
  rows : List AclRule
  lastOid : Int

namespace RuleStore

/-- Why `add_rule` stores no rule. -/
inductive AddFailure where
  | refused (e : AclManager.AddError)
  /-- -3, Error inserting rule in DB -/
  | insert
  deriving DecidableEq

/-- The largest oid. -/
def maxOid : Int := 2147483647

/-- The oid for the next rule; the oids start again after the largest one. -/
def nextOid (s : RuleStore) : Int :=
  (if s.lastOid = maxOid then -1 else s.lastOid) + 1

/-- The rule an addition stores. -/
def newRule (s : RuleStore) (user resource rights : BitVec 64) : AclRule :=
  ⟨s.nextOid, user, resource, rights⟩

/-- The row is inserted: the database answers so, and the oid is a primary key. -/
def insertRow (s : RuleStore) (rule : AclRule) (answer : Bool) : Bool :=
  answer && s.rows.all fun r => r.oid ≠ rule.oid

/-- The section of `AclManager::add_rule` under the lock. -/
def addSection (s : RuleStore) (user resource rights : BitVec 64) (answer : Bool) :
    Except AddFailure AclRule × RuleStore :=
  let rule := s.newRule user resource rights
  match s.manager.addRule rule with
  | .error e => (.error (.refused e), { s with lastOid := s.nextOid - 1 })
  | .ok manager =>
    if s.insertRow rule answer then
      (.ok rule,
        { manager
          oids := Function.update s.oids rule.oid ((s.oids rule.oid).or (some rule))
          rows := s.rows ++ [rule]
          lastOid := s.nextOid })
    else
      (.error .insert, { s with lastOid := s.nextOid - 1 })

/-- `AclManager::del_rule`, and the rule it deletes. The rule is looked up by oid
and then by its words. -/
def delRule (s : RuleStore) (oid : Int) (answer : Bool) : Option AclRule × RuleStore :=
  match s.oids oid with
  | none => (none, s)
  | some rule =>
    match s.manager.aclRules.find? rule.sameWords with
    | none => (none, s)
    | some found =>
      if answer then
        (some found,
          { manager := s.manager.erase rule
            oids := Function.update s.oids oid none
            rows := s.rows.filter fun r => r.oid ≠ oid
            lastOid := s.lastOid })
      else
        (none, s)

/-! ## One content -/

/-- The indexes and the table hold the same rules. -/
structure Consistent (s : RuleStore) : Prop where
  same : ∀ r, r ∈ s.manager.aclRules ↔ r ∈ s.rows
  once : s.manager.aclRules.Nodup
  distinct : (s.rows.map AclRule.oid).Nodup
  indexed : ∀ oid r, s.oids oid = some r ↔ r ∈ s.rows ∧ r.oid = oid
  apart : ∀ r ∈ s.rows, ∀ r' ∈ s.rows, r.sameWords r' = true → r = r'

/-- The addition stores its rule: no rule with its words is stored, it is not
malformed, and the row is inserted. -/
def Accepts (s : RuleStore) (user resource rights : BitVec 64) (answer : Bool) : Prop :=
  (∀ r ∈ s.manager.aclRules, ¬ (r.user = user ∧ r.resource = resource ∧ r.rights = rights)) ∧
    (s.newRule user resource rights).malformed = false ∧
    s.insertRow (s.newRule user resource rights) answer = true

instance (s : RuleStore) (user resource rights : BitVec 64) (answer : Bool) :
    Decidable (s.Accepts user resource rights answer) :=
  inferInstanceAs (Decidable (_ ∧ _ ∧ _))

section Operations

variable {s : RuleStore} {user resource rights : BitVec 64} {answer : Bool} {oid : Int}

/-- A failed addition has taken its oid back. -/
theorem addSection_failed (refused : ¬ s.Accepts user resource rights answer) :
    ∃ e, s.addSection user resource rights answer =
      (.error e, { s with lastOid := s.nextOid - 1 }) := by
  unfold addSection
  simp only []
  cases added : s.manager.addRule (s.newRule user resource rights) with
  | error e => exact ⟨_, rfl⟩
  | ok manager =>
    unfold AclManager.addRule at added
    split at added
    · cases added
    · rename_i fresh
      split at added
      · cases added
      · rename_i wellFormed
        simp only []
        rw [if_neg]
        · exact ⟨_, rfl⟩
        · intro inserted
          refine refused ⟨fun r member same => ?_, Bool.eq_false_iff.mpr wellFormed, inserted⟩
          exact fresh (List.any_eq_true.mpr ⟨r, member, decide_eq_true same⟩)

/-- What a successful addition stores. -/
theorem addSection_accepted (accepted : s.Accepts user resource rights answer) :
    ∃ s', s.addSection user resource rights answer =
        (.ok (s.newRule user resource rights), s') ∧
      s'.manager.aclRules = s.manager.aclRules ++ [s.newRule user resource rights] ∧
      s'.oids = Function.update s.oids s.nextOid
        ((s.oids s.nextOid).or (some (s.newRule user resource rights))) ∧
      s'.rows = s.rows ++ [s.newRule user resource rights] ∧ s'.lastOid = s.nextOid := by
  obtain ⟨fresh, wellFormed, inserted⟩ := accepted
  unfold addSection
  simp only []
  have unequal : (s.manager.aclRules.any fun r => r.user = (s.newRule user resource rights).user ∧
      r.resource = (s.newRule user resource rights).resource ∧
      r.rights = (s.newRule user resource rights).rights) = false :=
    List.any_eq_false.mpr fun r member same => fresh r member (of_decide_eq_true same)
  have added : ∃ m, s.manager.addRule (s.newRule user resource rights) = .ok m ∧
      m.aclRules = s.manager.aclRules ++ [s.newRule user resource rights] := by
    unfold AclManager.addRule
    rw [unequal, if_neg Bool.false_ne_true, dif_neg (by rw [wellFormed]; exact Bool.false_ne_true)]
    exact ⟨_, rfl, rfl⟩
  obtain ⟨m, added, rules⟩ := added
  rw [added]
  simp only []
  rw [if_pos inserted]
  exact ⟨_, rfl, rules, rfl, rfl, rfl⟩

/-- The oid of an inserted row is new. -/
theorem oid_new (accepted : s.Accepts user resource rights answer) :
    ∀ r ∈ s.rows, r.oid ≠ s.nextOid := by
  have inserted := accepted.2.2
  simp only [insertRow, Bool.and_eq_true, List.all_eq_true, decide_eq_true_eq] at inserted
  exact inserted.2

theorem Consistent.add (consistent : s.Consistent) :
    (s.addSection user resource rights answer).2.Consistent := by
  by_cases accepted : s.Accepts user resource rights answer
  · have unused := oid_new accepted
    obtain ⟨s', run, rules, oids, rows, -⟩ := addSection_accepted accepted
    rw [run]
    have absent : s.newRule user resource rights ∉ s.rows := fun member => unused _ member rfl
    have unindexed : s.oids s.nextOid = none := by
      refine Option.eq_none_iff_forall_ne_some.mpr fun r found => ?_
      obtain ⟨member, same⟩ := (consistent.indexed _ _).mp found
      exact unused r member same
    have words : ∀ r ∈ s.rows, ¬ (r.user = user ∧ r.resource = resource ∧ r.rights = rights) :=
      fun r member => accepted.1 r ((consistent.same r).mpr member)
    refine ⟨fun r => ?_, ?_, ?_, fun oid r => ?_, fun r member r' member' same => ?_⟩
    · rw [rules, rows, List.mem_append, List.mem_append, consistent.same]
    · rw [rules, List.nodup_append]
      refine ⟨consistent.once, List.nodup_singleton _, ?_⟩
      rintro r member _ new rfl
      exact absent (List.mem_singleton.mp new ▸ (consistent.same r).mp member)
    · rw [rows, List.map_append, List.nodup_append]
      refine ⟨consistent.distinct, List.nodup_singleton _, ?_⟩
      rintro oid member _ new rfl
      obtain ⟨r, within, same⟩ := List.mem_map.mp member
      exact unused r within (same.trans (List.mem_singleton.mp new))
    · rw [oids, rows, List.mem_append, List.mem_singleton]
      by_cases new : oid = s.nextOid
      · subst new
        rw [Function.update_self, unindexed, Option.none_or, Option.some.injEq]
        constructor
        · rintro rfl
          exact ⟨Or.inr rfl, rfl⟩
        · rintro ⟨member | rfl, same⟩
          · exact absurd same (unused r member)
          · rfl
      · rw [Function.update_of_ne new, consistent.indexed]
        constructor
        · rintro ⟨member, same⟩
          exact ⟨Or.inl member, same⟩
        · rintro ⟨member | rfl, same⟩
          · exact ⟨member, same⟩
          · exact absurd same.symm new
    · rw [rows, List.mem_append, List.mem_singleton] at member member'
      rcases member with member | rfl
      · rcases member' with member' | rfl
        · exact consistent.apart r member r' member' same
        · exact absurd (AclRule.sameWords_iff.mp same) (words r member)
      · rcases member' with member' | rfl
        · obtain ⟨user', resource', rights'⟩ := AclRule.sameWords_iff.mp same
          exact absurd ⟨user'.symm, resource'.symm, rights'.symm⟩ (words r' member')
        · rfl
  · obtain ⟨e, run⟩ := addSection_failed accepted
    rw [run]
    exact ⟨consistent.same, consistent.once, consistent.distinct, consistent.indexed,
      consistent.apart⟩

/-- A consistent store finds the rule of an oid under its words as well. -/
theorem Consistent.find (consistent : s.Consistent) {rule : AclRule}
    (indexed : s.oids oid = some rule) :
    s.manager.aclRules.find? rule.sameWords = some rule := by
  obtain ⟨member, -⟩ := (consistent.indexed _ _).mp indexed
  cases found : s.manager.aclRules.find? rule.sameWords with
  | none =>
    exact absurd rule.sameWords_self
      (List.find?_eq_none.mp found rule ((consistent.same rule).mpr member))
  | some other =>
    have within : other ∈ s.rows := (consistent.same other).mp (List.mem_of_find?_eq_some found)
    rw [consistent.apart rule member other within (List.find?_some found)]

/-- What a deletion does to a consistent store. -/
theorem Consistent.delRule_eq (consistent : s.Consistent) :
    s.delRule oid answer =
      match s.oids oid, answer with
      | some rule, true => (some rule,
          { manager := s.manager.erase rule
            oids := Function.update s.oids oid none
            rows := s.rows.filter fun r => r.oid ≠ oid
            lastOid := s.lastOid })
      | _, _ => (none, s) := by
  unfold delRule
  cases indexed : s.oids oid with
  | none => rfl
  | some rule =>
    simp only [consistent.find indexed]
    cases answer with
    | true => rfl
    | false => rfl

/-- One rule leaves the multimap. -/
theorem Consistent.mem_erase_iff (consistent : s.Consistent) {rule r : AclRule}
    (member : rule ∈ s.rows) :
    r ∈ (s.manager.erase rule).aclRules ↔ r ∈ s.rows ∧ r ≠ rule := by
  obtain ⟨other, front, back, -, words, split, left⟩ :=
    List.exists_of_eraseP ((consistent.same rule).mpr member) rule.sameWords_self
  have within : other ∈ s.rows := by
    rw [← consistent.same, split]
    exact List.mem_append_right _ List.mem_cons_self
  obtain rfl : rule = other := consistent.apart rule member other within words
  have once : (front ++ rule :: back).Nodup := split ▸ consistent.once
  rw [List.nodup_middle, List.nodup_cons] at once
  change r ∈ s.manager.aclRules.eraseP rule.sameWords ↔ _
  rw [left, ← consistent.same, split]
  simp only [List.mem_append, List.mem_cons] at once ⊢
  constructor
  · intro found
    refine ⟨found.imp_right Or.inr, ?_⟩
    rintro rfl
    exact once.1 found
  · rintro ⟨found | same | found, different⟩
    · exact Or.inl found
    · exact absurd same different
    · exact Or.inr found

theorem Consistent.mem_rows_ne_iff (consistent : s.Consistent) {rule r : AclRule}
    (member : rule ∈ s.rows) :
    r ∈ (s.rows.filter fun r => r.oid ≠ rule.oid) ↔ r ∈ s.rows ∧ r ≠ rule := by
  rw [List.mem_filter, decide_eq_true_eq]
  refine and_congr_right fun found => not_congr ⟨fun same => ?_, fun same => same ▸ rfl⟩
  exact List.inj_on_of_nodup_map consistent.distinct found member same

theorem Consistent.del (consistent : s.Consistent) : (s.delRule oid answer).2.Consistent := by
  rw [consistent.delRule_eq]
  split
  · rename_i rule indexed
    obtain ⟨member, rfl⟩ := (consistent.indexed _ _).mp indexed
    refine ⟨fun r => ?_, ?_, ?_, fun oid r => ?_, fun r found r' found' same => ?_⟩
    · rw [consistent.mem_erase_iff member, consistent.mem_rows_ne_iff member]
    · exact List.Nodup.eraseP _ consistent.once
    · exact consistent.distinct.sublist (List.filter_sublist.map _)
    · rw [consistent.mem_rows_ne_iff member]
      by_cases erased : oid = rule.oid
      · subst erased
        simp only [Function.update_self, reduceCtorEq, false_iff]
        rintro ⟨⟨found, different⟩, same⟩
        exact different (List.inj_on_of_nodup_map consistent.distinct found member same)
      · simp only [Function.update_of_ne erased, consistent.indexed]
        constructor
        · rintro ⟨found, rfl⟩
          exact ⟨⟨found, fun same => erased (congrArg AclRule.oid same)⟩, rfl⟩
        · rintro ⟨⟨found, -⟩, same⟩
          exact ⟨found, same⟩
    · exact consistent.apart r (List.mem_of_mem_filter found) r' (List.mem_of_mem_filter found')
        same
  · exact consistent

/-- The rules that are left after a deletion, and the rule it deleted. -/
theorem Consistent.mem_del_iff (consistent : s.Consistent) {r : AclRule} :
    r ∈ (s.delRule oid answer).2.rows ↔ r ∈ s.rows ∧ (s.delRule oid answer).1 ≠ some r := by
  rw [consistent.delRule_eq]
  split
  · rename_i rule indexed
    obtain ⟨member, rfl⟩ := (consistent.indexed _ _).mp indexed
    rw [consistent.mem_rows_ne_iff member, ne_eq, ne_eq, Option.some.injEq, eq_comm]
  · simp

end Operations

end RuleStore

end Ezilla

import Ezilla.Acl.AclMeaning
import Ezilla.Lib.BitSum
import Ezilla.Template
import Mathlib.Data.List.DropRight

/-!
# Rules as text

The command line reads a rule from a text such as `@105 VM+IMAGE/#3 USE+MANAGE`
(`Acl.parse_rule`) and sends its three numbers, and the daemon writes the text
of a rule it holds (`AclRule::build_str`).

* `RuleText.ruleNumbers`: the numbers of a text. The values of the names are added up;
* `RuleText.buildStr`: the text of a rule. Single bits of the words are tested;
* `RuleText.carries_iff`: when the numbers carry what the text names;
* `RuleText.ruleNumbers_buildStr_iff`: when the text of a rule is read back.
-/

namespace Ezilla

open BitSum PackedWord

/-- `PoolObjectSQL::type_to_str`. -/
def ObjectType.typeToStr : ObjectType → List Char
  | .vm => "VM".toList
  | .host => "HOST".toList
  | .net => "NET".toList
  | .image => "IMAGE".toList
  | .user => "USER".toList
  | .template => "TEMPLATE".toList
  | .group => "GROUP".toList
  | .acl => "ACL".toList
  | .datastore => "DATASTORE".toList
  | .cluster => "CLUSTER".toList
  | .document => "DOCUMENT".toList

/-- `AuthRequest::operation_to_str`. -/
def Operation.operationToStr : Operation → List Char
  | .use => "USE".toList
  | .manage => "MANAGE".toList
  | .admin => "ADMIN".toList
  | .create => "CREATE".toList

/-- The place of an operation in a rights word. -/
def Operation.flag : Operation → Nat
  | .use => 0
  | .manage => 1
  | .admin => 2
  | .create => 3

namespace RuleText

/-! ## Reading a text -/

/-- Why a text is refused. -/
inductive ParseError where
  /-- String needs three components: User, Resource, Rights -/
  | components
  /-- ID string 'id' malformed -/
  | malformedId (id : List Char)
  /-- Resource 'parts' malformed -/
  | malformedResource (parts : List (List Char))
  /-- Resource 'name' does not exist -/
  | noResource (name : List Char)
  /-- Right 'name' does not exist -/
  | noRight (name : List Char)
  deriving DecidableEq

/-- The values of the resource types, `RESOURCES`. -/
def resources : List (List Char × Nat) :=
  [("VM".toList, 0x1000000000), ("HOST".toList, 0x2000000000), ("NET".toList, 0x4000000000),
   ("IMAGE".toList, 0x8000000000), ("USER".toList, 0x10000000000),
   ("TEMPLATE".toList, 0x20000000000), ("GROUP".toList, 0x40000000000),
   ("DATASTORE".toList, 0x100000000000), ("CLUSTER".toList, 0x200000000000),
   ("DOCUMENT".toList, 0x400000000000)]

/-- The values of the rights, `RIGHTS`. -/
def rights : List (List Char × Nat) :=
  [("USE".toList, 0x1), ("MANAGE".toList, 0x2), ("ADMIN".toList, 0x4), ("CREATE".toList, 0x8)]

/-- `String#split` with a separator: empty parts at the end are dropped. -/
def splitAt (sep : Char) (s : List Char) : List (List Char) :=
  (s.splitOn sep).rdropWhile List.isEmpty

/-- `String#split` at blanks: there are no empty parts. -/
def words (s : List Char) : List (List Char) :=
  (s.splitOnP isBlank).filter fun w => !w.isEmpty

/-- `Acl.calculate_ids`. -/
def calculateIds (idStr : List Char) : Except ParseError Nat :=
  match idStr with
  | ['*'] => .ok 0x400000000
  | c :: digits =>
    if digits ≠ [] ∧ digits.all Char.isDigit then
      if c = '#' then .ok (digitsValue digits + 0x100000000)
      else if c = '@' then .ok (digitsValue digits + 0x200000000)
      else if c = '%' then .ok (digitsValue digits + 0x800000000)
      else .error (.malformedId idStr)
    else .error (.malformedId idStr)
  | [] => .error (.malformedId idStr)

/-- The loop over a list of names: their values are added up. -/
def addNames (table : List (List Char × Nat)) (missing : List Char → ParseError) :
    Nat → List (List Char) → Except ParseError Nat
  | ret, [] => .ok ret
  | ret, name :: names =>
    match table.lookup (name.map Char.toUpper) with
    | none => .error (missing name)
    | some value => addNames table missing (ret + value) names

/-- `Acl.parse_users`. -/
def parseUsers (users : List Char) : Except ParseError Nat :=
  calculateIds users

/-- `Acl.parse_resources`. -/
def parseResources (text : List Char) : Except ParseError Nat :=
  match splitAt '/' text with
  | [types, ids] =>
    match addNames resources .noResource 0 (splitAt '+' types), calculateIds ids with
    | .ok ret, .ok id => .ok (ret + id)
    | .error e, _ => .error e
    | .ok _, .error e => .error e
  | parts => .error (.malformedResource parts)

/-- `Acl.parse_rights`. -/
def parseRights (text : List Char) : Except ParseError Nat :=
  addNames rights .noRight 0 (splitAt '+' text)

/-- The error of a component. -/
def errorOf : Except ParseError Nat → Option ParseError
  | .error e => some e
  | .ok _ => none

/-- `Acl.parse_rule`: the three numbers that it returns as hexadecimal texts, or
the errors of the components. -/
def ruleNumbers (ruleStr : String) : Except (List ParseError) (Nat × Nat × Nat) :=
  match words ruleStr.toList with
  | [users, res, rights] =>
    match parseUsers users, parseResources res, parseRights rights with
    | .ok user, .ok resource, .ok right => .ok (user, resource, right)
    | user, resource, right => .error ([user, resource, right].filterMap errorOf)
  | _ => .error [.components]

/-! ## Writing a text -/

/-- `AclRule::pool_objects`. -/
def poolObjects : List ObjectType :=
  [.vm, .host, .net, .image, .user, .template, .group, .datastore, .cluster, .document]

/-- `AclRule::auth_operations`. -/
def authOperations : List Operation := [.use, .manage, .admin, .create]

/-- How a signed id is written. -/
def idText (id : BitVec 32) : List Char := (toString id.toInt).toList

/-- The user part of the text. -/
def userText (r : AclRule) : List Char :=
  if r.user &&& AclRule.groupId ≠ 0 then '@' :: idText r.userId
  else if r.user &&& AclRule.individualId ≠ 0 then '#' :: idText r.userId
  else if r.user &&& AclRule.allId ≠ 0 then ['*']
  else ['?', '?']

/-- The types of the text, with a plus between them. -/
def typesText (r : AclRule) : List Char :=
  ['+'].intercalate ((poolObjects.filter fun t => r.resource &&& t.code ≠ 0).map
    ObjectType.typeToStr)

/-- The resource selector of the text. -/
def selectorText (r : AclRule) : List Char :=
  if r.resource &&& AclRule.groupId ≠ 0 then '@' :: idText r.resourceId
  else if r.resource &&& AclRule.individualId ≠ 0 then '#' :: idText r.resourceId
  else if r.resource &&& AclRule.clusterId ≠ 0 then '%' :: idText r.resourceId
  else if r.resource &&& AclRule.allId ≠ 0 then ['*']
  else ['?', '?']

/-- The rights of the text. -/
def rightsText (r : AclRule) : List Char :=
  ['+'].intercalate ((authOperations.filter fun op => r.rights &&& op.code ≠ 0).map
    Operation.operationToStr)

/-- `AclRule::build_str`. -/
def buildStr (r : AclRule) : String :=
  String.ofList
    (userText r ++ ' ' :: (typesText r ++ '/' :: selectorText r) ++ ' ' :: rightsText r)

/-! ## What a text names -/

/-- The selector of an id component, by its bit. -/
def namedSelector : List Char → Nat
  | '#' :: _ => 0
  | '@' :: _ => 1
  | '*' :: _ => 2
  | _ => 3

/-- The id of an id component; everyone and everything have 0. -/
def namedId (ids : List Char) : Nat := digitsValue ids.tail

/-- The names of a list, as they are looked up. -/
def namesOf (text : List Char) : List (List Char) :=
  (splitAt '+' text).map fun name => name.map Char.toUpper

/-- The number has these flags in its upper half, this id in its lower half, and
no other bits. -/
def CarriesWord (n : Nat) (flags : Nat → Prop) (id : Nat) : Prop :=
  ∀ i, n.testBit i = true ↔ if i < 32 then id.testBit i = true else flags (i - 32)

/-- The ids that an int holds. -/
def Fits (id : Nat) : Prop := id < 2 ^ 31

/-- A text that is accepted has ids that fit, and numbers that carry exactly what
it names. -/
def Carries (ruleStr : String) : Prop :=
  ∀ users types ids rights res user resource right,
    words ruleStr.toList = [users, res, rights] → splitAt '/' res = [types, ids] →
    ruleNumbers ruleStr = .ok (user, resource, right) →
    Fits (namedId users) ∧ Fits (namedId ids) ∧
      CarriesWord user (fun i => i = namedSelector users) (namedId users) ∧
      CarriesWord resource (fun i => i = namedSelector ids ∨
        ∃ t : ObjectType, t.typeToStr ∈ namesOf types ∧ i = t.flag) (namedId ids) ∧
      ∀ i, right.testBit i = true ↔
        ∃ op : Operation, op.operationToStr ∈ namesOf rights ∧ i = op.flag

/-- Where the text is accepted, its ids fit and it repeats no name. -/
def Plain (ruleStr : String) : Prop :=
  ∀ users types ids rights res,
    words ruleStr.toList = [users, res, rights] → splitAt '/' res = [types, ids] →
    (∃ numbers, ruleNumbers ruleStr = .ok numbers) →
    Fits (namedId users) ∧ Fits (namedId ids) ∧ (namesOf types).Nodup ∧ (namesOf rights).Nodup

/-- The types of the rule have a text: they are neither `ACL` nor without a name. -/
def Named (r : AclRule) : Prop :=
  (flags r.resource).getLsbD 11 = false ∧ (flags r.resource).getLsbD 15 = false

/-! ## The numbers of a text -/

section Names

variable {α : Type} {name : α → List Char} (flag : α → Nat) {l : List α}
  {missing : List Char → ParseError}

/-- A table of names and single bits finds what is listed under the name. -/
theorem lookup_table_iff (apart : ∀ t t', name t = name t' → t = t') {key : List Char}
    {value : Nat} :
    (l.map fun t => (name t, 2 ^ flag t)).lookup key = some value ↔
      ∃ t ∈ l, name t = key ∧ value = 2 ^ flag t := by
  induction l with
  | nil => simp
  | cons t l ih =>
    rw [List.map_cons]
    rcases eq_or_ne (name t) key with same | differs
    · subst same
      rw [List.lookup_cons_self, Option.some.injEq]
      constructor
      · rintro rfl
        exact ⟨t, List.mem_cons_self, rfl, rfl⟩
      · rintro ⟨t', -, same, rfl⟩
        rw [apart t' t same]
    · have missed : (key == name t) = false := beq_eq_false_iff_ne.mpr differs.symm
      rw [List.lookup_cons, missed]
      simp only [ih, List.mem_cons, exists_eq_or_imp, differs, false_and, false_or]

/-- The loop accepts the lists of listed names, and adds up their bits. -/
theorem addNames_ok_iff (apart : ∀ t t', name t = name t' → t = t') {ret value : Nat}
    {names : List (List Char)} :
    addNames (l.map fun t => (name t, 2 ^ flag t)) missing ret names = .ok value ↔
      ∃ ts : List α, (∀ t ∈ ts, t ∈ l) ∧
        (names.map fun n => n.map Char.toUpper) = ts.map name ∧
        value = ret + ofPositions (ts.map flag) := by
  induction names generalizing ret with
  | nil =>
    constructor
    · intro run
      cases run
      exact ⟨[], fun _ impossible => absurd impossible List.not_mem_nil, rfl, rfl⟩
    · rintro ⟨ts, -, empty, rfl⟩
      obtain rfl := List.map_eq_nil_iff.mp empty.symm
      rfl
  | cons n names ih =>
    unfold addNames
    cases found : (l.map fun t => (name t, 2 ^ flag t)).lookup (n.map Char.toUpper) with
    | none =>
      refine iff_of_false (fun impossible => by cases impossible) ?_
      rintro ⟨ts, listed, same, -⟩
      cases ts with
      | nil => cases same
      | cons t ts =>
        rw [List.map_cons, List.map_cons, List.cons.injEq] at same
        have here := (lookup_table_iff flag apart).mpr
          ⟨t, listed t List.mem_cons_self, same.1.symm, rfl⟩
        rw [found] at here
        cases here
    | some bit =>
      obtain ⟨t, member, upper, rfl⟩ := (lookup_table_iff flag apart).mp found
      simp only [ih]
      constructor
      · rintro ⟨ts, listed, same, rfl⟩
        refine ⟨t :: ts, List.forall_mem_cons.mpr ⟨member, listed⟩, ?_, ?_⟩
        · rw [List.map_cons, List.map_cons, same, upper]
        · rw [List.map_cons, ofPositions_cons, Nat.add_assoc]
      · rintro ⟨ts, listed, same, rfl⟩
        cases ts with
        | nil => cases same
        | cons t' ts =>
          rw [List.map_cons, List.map_cons, List.cons.injEq] at same
          obtain rfl : t = t' := apart t t' (upper.trans same.1)
          refine ⟨ts, fun t member => listed t (List.mem_cons_of_mem _ member), same.2, ?_⟩
          rw [List.map_cons, ofPositions_cons, Nat.add_assoc]

end Names

theorem typeToStr_injective (t t' : ObjectType) (same : t.typeToStr = t'.typeToStr) : t = t' := by
  revert same
  cases t <;> cases t' <;> decide

theorem operationToStr_injective (op op' : Operation)
    (same : op.operationToStr = op'.operationToStr) : op = op' := by
  revert same
  cases op <;> cases op' <;> decide

theorem flag_injective {t t' : ObjectType} (same : t.flag = t'.flag) : t = t' := by
  revert same
  cases t <;> cases t' <;> decide

theorem operationFlag_injective {op op' : Operation} (same : op.flag = op'.flag) : op = op' := by
  revert same
  cases op <;> cases op' <;> decide

theorem four_le_flag (t : ObjectType) : 4 ≤ t.flag := by
  cases t <;> decide

theorem resources_eq :
    resources = poolObjects.map fun t => (t.typeToStr, 2 ^ (32 + t.flag)) := by decide

theorem rights_eq : rights = authOperations.map fun op => (op.operationToStr, 2 ^ op.flag) := by
  decide

theorem namedSelector_lt (ids : List Char) : namedSelector ids < 4 := by
  unfold namedSelector
  split <;> decide

/-- The number of an id component. -/
theorem calculateIds_ok {ids : List Char} {value : Nat} (run : calculateIds ids = .ok value) :
    value = 2 ^ 32 * 2 ^ namedSelector ids + namedId ids := by
  unfold calculateIds at run
  split at run
  · cases run
    rfl
  · rename_i c digits _
    split at run
    · split at run
      · rename_i hash
        cases run
        subst hash
        exact Nat.add_comm _ _
      · split at run
        · rename_i at_
          cases run
          subst at_
          exact Nat.add_comm _ _
        · split at run
          · rename_i percent
            cases run
            subst percent
            exact Nat.add_comm _ _
          · cases run
    · cases run
  · cases run

/-- A number with these positions in its upper half carries them, whatever the id. -/
theorem carriesWord_iff {positions : List Nat} {flags : Nat → Prop} {id : Nat} (small : id < 2 ^ 32)
    (same : ∀ j, flags j ↔ j ∈ positions) :
    CarriesWord (2 ^ 32 * ofPositions positions + id) flags id ↔ positions.Nodup := by
  rw [← testBit_ofPositions_iff_nodup]
  constructor
  · intro carries j
    have bit := carries (j + 32)
    rw [Nat.testBit_two_pow_mul_add _ small, if_neg (by omega), if_neg (by omega),
      Nat.add_sub_cancel, same] at bit
    exact bit
  · intro bits i
    rw [Nat.testBit_two_pow_mul_add _ small]
    split
    · exact Iff.rfl
    · rw [bits, same]

/-- The numbers of an accepted text, by the types and rights that it names. -/
theorem ruleNumbers_ok {ruleStr : String} {user resource right : Nat}
    {users res rightsPart types ids : List Char}
    (components : words ruleStr.toList = [users, res, rightsPart])
    (parts : splitAt '/' res = [types, ids])
    (run : ruleNumbers ruleStr = .ok (user, resource, right)) :
    user = 2 ^ 32 * 2 ^ namedSelector users + namedId users ∧
      (∃ ts : List ObjectType, (∀ t ∈ ts, t ∈ poolObjects) ∧
        namesOf types = ts.map ObjectType.typeToStr ∧
        resource = 2 ^ 32 * ofPositions (namedSelector ids :: ts.map ObjectType.flag) +
          namedId ids) ∧
      ∃ ops : List Operation, namesOf rightsPart = ops.map Operation.operationToStr ∧
        right = ofPositions (ops.map Operation.flag) := by
  unfold ruleNumbers at run
  simp only [components] at run
  cases usersRun : parseUsers users with
  | error e => simp only [usersRun] at run; cases run
  | ok user' =>
    cases resRun : parseResources res with
    | error e => simp only [usersRun, resRun] at run; cases run
    | ok resource' =>
      cases rightsRun : parseRights rightsPart with
      | error e => simp only [usersRun, resRun, rightsRun] at run; cases run
      | ok right' =>
        simp only [usersRun, resRun, rightsRun] at run
        cases run
        refine ⟨calculateIds_ok usersRun, ?_, ?_⟩
        · unfold parseResources at resRun
          simp only [parts] at resRun
          cases namesRun : addNames resources .noResource 0 (splitAt '+' types) with
          | error e => simp only [namesRun] at resRun; cases resRun
          | ok ret =>
            cases idRun : calculateIds ids with
            | error e => simp only [namesRun, idRun] at resRun; cases resRun
            | ok id =>
              simp only [namesRun, idRun] at resRun
              cases resRun
              rw [resources_eq] at namesRun
              obtain ⟨ts, listed, names, rfl⟩ :=
                (addNames_ok_iff (fun t : ObjectType => 32 + t.flag) typeToStr_injective).mp namesRun
              refine ⟨ts, listed, names, ?_⟩
              have moved : ofPositions (ts.map fun t => 32 + t.flag) =
                  2 ^ 32 * ofPositions (ts.map ObjectType.flag) := by
                rw [← ofPositions_map_add, List.map_map]
                rfl
              rw [calculateIds_ok idRun, moved, ofPositions_cons, Nat.mul_add]
              omega
        · unfold parseRights at rightsRun
          rw [rights_eq] at rightsRun
          obtain ⟨ops, -, names, rfl⟩ := (addNames_ok_iff _ operationToStr_injective).mp rightsRun
          exact ⟨ops, names, Nat.zero_add _⟩

/-- A list without repetition has names without repetition. -/
theorem nodup_names_iff {α : Type} {name : α → List Char} {flag : α → Nat} {ts : List α}
    (apart : ∀ t t', name t = name t' → t = t') (apart' : ∀ t t', flag t = flag t' → t = t') :
    (ts.map flag).Nodup ↔ (ts.map name).Nodup := by
  rw [List.nodup_map_iff fun t t' => apart' t t', List.nodup_map_iff fun t t' => apart t t']

/-- The number of a user component carries its selector and its id. -/
theorem user_carries {users : List Char} (fits : Fits (namedId users)) :
    CarriesWord (2 ^ 32 * 2 ^ namedSelector users + namedId users)
      (fun i => i = namedSelector users) (namedId users) := by
  have small : namedId users < 2 ^ 32 := Nat.lt_trans fits (by decide)
  have one : ofPositions [namedSelector users] = 2 ^ namedSelector users := by
    rw [ofPositions_cons, ofPositions_nil, Nat.add_zero]
  rw [← one]
  exact (carriesWord_iff small fun j => List.mem_singleton.symm).mpr (List.nodup_singleton _)

/-- The number of a resource component carries its types where none comes twice. -/
theorem resource_carries_iff {ids : List Char} (fits : Fits (namedId ids)) (ts : List ObjectType) :
    CarriesWord (2 ^ 32 * ofPositions (namedSelector ids :: ts.map ObjectType.flag) + namedId ids)
        (fun i => i = namedSelector ids ∨
          ∃ t : ObjectType, t.typeToStr ∈ ts.map ObjectType.typeToStr ∧ i = t.flag)
        (namedId ids) ↔
      (ts.map ObjectType.typeToStr).Nodup := by
  have small : namedId ids < 2 ^ 32 := Nat.lt_trans fits (by decide)
  have unselected : namedSelector ids ∉ ts.map ObjectType.flag := by
    intro member
    obtain ⟨t, -, same⟩ := List.mem_map.mp member
    have low := namedSelector_lt ids
    have high := four_le_flag t
    omega
  rw [carriesWord_iff small fun j => ?_, List.nodup_cons,
    nodup_names_iff typeToStr_injective fun _ _ => flag_injective]
  · exact and_iff_right unselected
  · rw [List.mem_cons, List.mem_map]
    simp only [List.mem_map_of_injective typeToStr_injective, eq_comm]

/-- The number of a rights component carries its rights where none comes twice. -/
theorem rights_carry_iff (ops : List Operation) :
    (∀ i, (ofPositions (ops.map Operation.flag)).testBit i = true ↔
        ∃ op : Operation, op.operationToStr ∈ ops.map Operation.operationToStr ∧ i = op.flag) ↔
      (ops.map Operation.operationToStr).Nodup := by
  rw [← nodup_names_iff operationToStr_injective fun _ _ => operationFlag_injective,
    ← testBit_ofPositions_iff_nodup]
  simp only [List.mem_map_of_injective operationToStr_injective, List.mem_map, eq_comm]

/-- The numbers of an accepted text carry what it names exactly where its ids fit
and it repeats no name. -/
theorem carries_iff (ruleStr : String) : Carries ruleStr ↔ Plain ruleStr := by
  unfold Carries Plain
  constructor
  · rintro carries users types ids rightsPart res components parts ⟨⟨user, resource, right⟩, run⟩
    obtain ⟨fits, fits', -, resourceCarries, rightCarries⟩ :=
      carries users types ids rightsPart res user resource right components parts run
    obtain ⟨-, ⟨ts, -, names, rfl⟩, ops, rightNames, rfl⟩ := ruleNumbers_ok components parts run
    rw [names] at resourceCarries ⊢
    rw [rightNames] at rightCarries ⊢
    exact ⟨fits, fits', (resource_carries_iff fits' ts).mp resourceCarries,
      (rights_carry_iff ops).mp rightCarries⟩
  · intro plain users types ids rightsPart res user resource right components parts run
    obtain ⟨fits, fits', typesOnce, rightsOnce⟩ :=
      plain users types ids rightsPart res components parts ⟨_, run⟩
    obtain ⟨rfl, ⟨ts, -, names, rfl⟩, ops, rightNames, rfl⟩ := ruleNumbers_ok components parts run
    rw [names] at typesOnce ⊢
    rw [rightNames] at rightsOnce ⊢
    exact ⟨fits, fits', user_carries fits, (resource_carries_iff fits' ts).mpr typesOnce,
      (rights_carry_iff ops).mpr rightsOnce⟩

/-! ## The text of a rule -/

section Text

variable {r : AclRule}

/-- An id that is not negative is written with its decimal digits. -/
theorem idText_eq {id : BitVec 32} (nonneg : id.msb = false) :
    idText id = Nat.toDigits 10 id.toNat := by
  unfold idText
  rw [BitVec.toInt_eq_toNat_of_msb nonneg]
  exact Nat.toList_repr

theorem idText_ne_nil {id : BitVec 32} (nonneg : id.msb = false) : idText id ≠ [] := by
  rw [idText_eq nonneg]
  exact Nat.toDigits_ne_nil

theorem isDigit_of_mem_idText {id : BitVec 32} (nonneg : id.msb = false) :
    ∀ c ∈ idText id, c.isDigit = true := fun c member =>
  Nat.isDigit_of_mem_toDigits (by decide) (by decide) (idText_eq nonneg ▸ member)

/-- A written id is read back. -/
theorem calculateIds_idText {c : Char} {id : BitVec 32} {i : Nat} (nonneg : id.msb = false)
    (selector : c = '#' ∧ i = 0 ∨ c = '@' ∧ i = 1 ∨ c = '%' ∧ i = 3) :
    calculateIds (c :: idText id) = .ok (2 ^ 32 * 2 ^ i + id.toNat) := by
  have digits : idText id ≠ [] ∧ (idText id).all Char.isDigit = true :=
    ⟨idText_ne_nil nonneg, List.all_eq_true.mpr (isDigit_of_mem_idText nonneg)⟩
  have number : digitsValue (idText id) = id.toNat := by
    rw [idText_eq nonneg, digitsValue_toDigits]
  have single : ¬ (c :: idText id) = ['*'] := by
    intro same
    rw [List.cons.injEq] at same
    exact digits.1 same.2
  unfold calculateIds
  split
  · rename_i star
    exact absurd star single
  · rename_i c' digits' _ same
    cases same
    rw [if_pos digits, number]
    rcases selector with ⟨rfl, rfl⟩ | ⟨rfl, rfl⟩ | ⟨rfl, rfl⟩ <;>
      exact congrArg Except.ok (Nat.add_comm _ _)
  · rename_i impossible
    cases impossible

/-- The characters of an id component are no blanks and no slashes. -/
theorem plain_of_mem_idText {id : BitVec 32} (nonneg : id.msb = false) {c : Char}
    (member : c ∈ idText id) : isBlank c = false ∧ c ≠ '/' := by
  have digit := isDigit_of_mem_idText nonneg c member
  refine ⟨isBlank_of_isDigit digit, ?_⟩
  rintro rfl
  cases digit

/-- The user part of a well-formed rule has the selector that is set, and its id. -/
theorem userText_spec (wellFormed : r.malformed = false) :
    ∃ i < 3, (flags r.user).getLsbD i = true ∧
      calculateIds (userText r) = .ok (2 ^ 32 * 2 ^ i + r.userId.toNat) ∧
      userText r ≠ [] ∧ ∀ c ∈ userText r, isBlank c = false := by
  obtain ⟨nonneg, selectors⟩ := AclRule.user_of_wellFormed wellFormed
  have text : userText r =
      if (flags r.user).getLsbD 1 = true then '@' :: idText r.userId
      else if (flags r.user).getLsbD 0 = true then '#' :: idText r.userId
      else if (flags r.user).getLsbD 2 = true then ['*'] else ['?', '?'] := by
    simp only [userText, individualId_eq, groupId_eq, allId_eq,
      and_flag_ne_zero_iff (show 0 < 32 by decide), and_flag_ne_zero_iff (show 1 < 32 by decide),
      and_flag_ne_zero_iff (show 2 < 32 by decide)]
  rcases selectors with ⟨ind, group, all⟩ | ⟨ind, group, all⟩ | ⟨ind, group, all, zero⟩
  · rw [group, ind, if_neg Bool.false_ne_true, if_pos rfl] at text
    refine ⟨0, by decide, ind, ?_, text ▸ List.cons_ne_nil _ _, ?_⟩
    · rw [text, calculateIds_idText nonneg (Or.inl ⟨rfl, rfl⟩)]
    · rw [text, List.forall_mem_cons]
      exact ⟨by decide, fun c member => (plain_of_mem_idText nonneg member).1⟩
  · rw [group, if_pos rfl] at text
    refine ⟨1, by decide, group, ?_, text ▸ List.cons_ne_nil _ _, ?_⟩
    · rw [text, calculateIds_idText nonneg (Or.inr (Or.inl ⟨rfl, rfl⟩))]
    · rw [text, List.forall_mem_cons]
      exact ⟨by decide, fun c member => (plain_of_mem_idText nonneg member).1⟩
  · rw [group, ind, all, if_neg Bool.false_ne_true, if_neg Bool.false_ne_true, if_pos rfl] at text
    refine ⟨2, by decide, all, ?_, text ▸ List.cons_ne_nil _ _, ?_⟩
    · rw [text, zero]
      rfl
    · rw [text]
      exact List.forall_mem_singleton.mpr (by decide)

/-- What the checks say about the other bits of the resource word and about the rights. -/
theorem rest_of_wellFormed (wellFormed : r.malformed = false) :
    ((flags r.resource).getLsbD 2 = true → r.resourceId = 0) ∧
      (∀ j, 16 ≤ j → (flags r.resource).getLsbD j = false) ∧ r.rights ≠ 0 := by
  have passed := List.any_eq_false.mp wellFormed
  simp only [AclRule.checks, List.mem_cons, List.not_mem_nil, or_false, forall_eq_or_imp, forall_eq,
    allId_eq, Bool.and_eq_true, decide_eq_true_eq,
    and_flag_ne_zero_iff (show 2 < 32 by decide)] at passed
  obtain ⟨-, -, -, -, -, -, -, -, -, -, allZero, -, known, some_right, -⟩ := passed
  refine ⟨fun all => ?_, fun j high => ?_, some_right⟩
  · by_contra nonzero
    exact allZero ⟨all, nonzero⟩
  · rw [not_ne_iff, show (0xFFFF000000000000#64) = 0xFFFF0000#32 ++ 0#32 by decide,
      show (0 : BitVec 64) = 0#32 ++ 0#32 by decide, and_append_zero_eq_iff] at known
    by_cases inside : j < 32
    · have bit := congrArg (fun x => BitVec.getLsbD x j) known
      have masked : (0xFFFF0000#32).getLsbD j = true := by
        interval_cases j <;> decide
      rw [BitVec.getLsbD_and, masked, Bool.and_true] at bit
      simpa using bit
    · exact BitVec.getLsbD_of_ge _ _ (by omega)

/-- The selector part of a well-formed rule has the selector that is set, and its id. -/
theorem selectorText_spec (wellFormed : r.malformed = false) :
    ∃ i < 4, (∀ j < 4, (flags r.resource).getLsbD j = decide (j = i)) ∧
      calculateIds (selectorText r) = .ok (2 ^ 32 * 2 ^ i + r.resourceId.toNat) ∧
      selectorText r ≠ [] ∧ ∀ c ∈ selectorText r, isBlank c = false ∧ c ≠ '/' := by
  obtain ⟨nonneg, selectors⟩ := AclRule.resource_of_wellFormed wellFormed
  obtain ⟨zero, -⟩ := rest_of_wellFormed wellFormed
  have text : selectorText r =
      if (flags r.resource).getLsbD 1 = true then '@' :: idText r.resourceId
      else if (flags r.resource).getLsbD 0 = true then '#' :: idText r.resourceId
      else if (flags r.resource).getLsbD 3 = true then '%' :: idText r.resourceId
      else if (flags r.resource).getLsbD 2 = true then ['*'] else ['?', '?'] := by
    simp only [selectorText, individualId_eq, groupId_eq, allId_eq, clusterId_eq,
      and_flag_ne_zero_iff (show 0 < 32 by decide), and_flag_ne_zero_iff (show 1 < 32 by decide),
      and_flag_ne_zero_iff (show 2 < 32 by decide), and_flag_ne_zero_iff (show 3 < 32 by decide)]
  have bits : ∀ i, (flags r.resource).getLsbD 0 = decide (0 = i) →
      (flags r.resource).getLsbD 1 = decide (1 = i) →
      (flags r.resource).getLsbD 2 = decide (2 = i) →
      (flags r.resource).getLsbD 3 = decide (3 = i) →
      ∀ j < 4, (flags r.resource).getLsbD j = decide (j = i) := by
    intro i bit₀ bit₁ bit₂ bit₃ j low
    interval_cases j
    exacts [bit₀, bit₁, bit₂, bit₃]
  rcases selectors with ⟨ind, group, all, cluster⟩ | ⟨ind, group, all, cluster⟩ |
    ⟨ind, group, all, cluster⟩ | ⟨ind, group, all, cluster⟩
  · rw [group, ind, if_neg Bool.false_ne_true, if_pos rfl] at text
    refine ⟨0, by decide, bits 0 ind group all cluster, ?_, text ▸ List.cons_ne_nil _ _, ?_⟩
    · rw [text, calculateIds_idText nonneg (Or.inl ⟨rfl, rfl⟩)]
    · rw [text, List.forall_mem_cons]
      exact ⟨by decide, fun c member => plain_of_mem_idText nonneg member⟩
  · rw [group, if_pos rfl] at text
    refine ⟨1, by decide, bits 1 ind group all cluster, ?_, text ▸ List.cons_ne_nil _ _, ?_⟩
    · rw [text, calculateIds_idText nonneg (Or.inr (Or.inl ⟨rfl, rfl⟩))]
    · rw [text, List.forall_mem_cons]
      exact ⟨by decide, fun c member => plain_of_mem_idText nonneg member⟩
  · rw [group, ind, cluster, all, if_neg Bool.false_ne_true, if_neg Bool.false_ne_true,
      if_neg Bool.false_ne_true, if_pos rfl] at text
    refine ⟨2, by decide, bits 2 ind group all cluster, ?_, text ▸ List.cons_ne_nil _ _, ?_⟩
    · rw [text, zero all]
      rfl
    · rw [text]
      exact List.forall_mem_singleton.mpr (by decide)
  · rw [group, ind, cluster, if_neg Bool.false_ne_true, if_neg Bool.false_ne_true,
      if_pos rfl] at text
    refine ⟨3, by decide, bits 3 ind group all cluster, ?_, text ▸ List.cons_ne_nil _ _, ?_⟩
    · rw [text, calculateIds_idText nonneg (Or.inr (Or.inr ⟨rfl, rfl⟩))]
    · rw [text, List.forall_mem_cons]
      exact ⟨by decide, fun c member => plain_of_mem_idText nonneg member⟩

/-! ## The components of a written text -/

/-- The characters of a list of names are those of the names and the pluses. -/
theorem mem_intercalate {names : List (List Char)} {c : Char}
    (member : c ∈ ['+'].intercalate names) : c = '+' ∨ ∃ n ∈ names, c ∈ n := by
  induction names with
  | nil => exact absurd member List.not_mem_nil
  | cons n names ih =>
    cases names with
    | nil => exact Or.inr ⟨n, List.mem_cons_self, by simpa using member⟩
    | cons n' names =>
      rw [List.intercalate_cons_cons, List.mem_append, List.mem_append] at member
      rcases member with (here | plus) | later
      · exact Or.inr ⟨n, List.mem_cons_self, here⟩
      · exact Or.inl (List.mem_singleton.mp plus)
      · rcases ih later with plus | ⟨m, within, here⟩
        · exact Or.inl plus
        · exact Or.inr ⟨m, List.mem_cons_of_mem _ within, here⟩

/-- A list of names that was written is split again. -/
theorem splitAt_intercalate {names : List (List Char)}
    (plain : ∀ n ∈ names, '+' ∉ n ∧ n ≠ []) : splitAt '+' (['+'].intercalate names) = names := by
  unfold splitAt
  cases names with
  | nil => rfl
  | cons n names =>
    rw [List.splitOn_intercalate '+' (fun m member => (plain m member).1) (List.cons_ne_nil n names),
      List.rdropWhile_eq_self_iff]
    intro nonempty last
    exact (plain _ (List.getLast_mem nonempty)).2 (List.isEmpty_iff.mp last)

theorem splitAt_slash {front back : List Char} (plain : '/' ∉ front) (plain' : '/' ∉ back)
    (nonempty : back ≠ []) : splitAt '/' (front ++ '/' :: back) = [front, back] := by
  have parts : (front ++ '/' :: back).splitOn '/' = [front, back] := by
    rw [List.splitOn_eq_splitOnP, List.splitOnP_append_cons_of_forall_mem _ '/' rfl,
      List.splitOnP_eq_singleton]
    · intro c member
      exact beq_eq_false_iff_ne.mpr fun same => plain' (same ▸ member)
    · intro c member
      exact beq_eq_false_iff_ne.mpr fun same => plain (same ▸ member)
  unfold splitAt
  rw [parts, List.rdropWhile_eq_self_iff]
  intro _ last
  exact nonempty (List.isEmpty_iff.mp last)

theorem words_append {front back : List Char} (plain : ∀ c ∈ front, isBlank c = false)
    (nonempty : front ≠ []) : words (front ++ ' ' :: back) = front :: words back := by
  unfold words
  rw [List.splitOnP_append_cons_of_forall_mem plain ' ' (by decide)]
  exact List.filter_cons_of_pos (by simpa using nonempty)

theorem words_single {text : List Char} (plain : ∀ c ∈ text, isBlank c = false) :
    words text = if text = [] then [] else [text] := by
  unfold words
  rw [List.splitOnP_eq_singleton plain]
  split
  · rename_i empty
    rw [empty]
    rfl
  · rename_i nonempty
    exact List.filter_cons_of_pos (by simpa using nonempty)

theorem plain_typeToStr (t : ObjectType) :
    (∀ c ∈ t.typeToStr, isBlank c = false ∧ c ≠ '/') ∧ '+' ∉ t.typeToStr ∧ t.typeToStr ≠ [] ∧
      t.typeToStr.map Char.toUpper = t.typeToStr := by
  have plain : t.typeToStr.all (fun c => !isBlank c && c != '/') = true := by
    cases t <;> decide
  refine ⟨fun c member => ?_, ?_⟩
  · simpa using List.all_eq_true.mp plain c member
  · cases t <;> decide

theorem plain_operationToStr (op : Operation) :
    (∀ c ∈ op.operationToStr, isBlank c = false) ∧ '+' ∉ op.operationToStr ∧
      op.operationToStr ≠ [] ∧ op.operationToStr.map Char.toUpper = op.operationToStr := by
  have plain : op.operationToStr.all (fun c => !isBlank c) = true := by
    cases op <;> decide
  refine ⟨fun c member => ?_, ?_⟩
  · simpa using List.all_eq_true.mp plain c member
  · cases op <;> decide

/-- The types that a rule has, by their bits. -/
def typesOf (r : AclRule) : List ObjectType :=
  poolObjects.filter fun t => r.resource &&& t.code ≠ 0

/-- The rights that a rule has, by their bits. -/
def rightsOf (r : AclRule) : List Operation :=
  authOperations.filter fun op => r.rights &&& op.code ≠ 0

theorem splitAt_typesText : splitAt '+' (typesText r) = (typesOf r).map ObjectType.typeToStr := by
  refine splitAt_intercalate fun n member => ?_
  obtain ⟨t, -, rfl⟩ := List.mem_map.mp member
  exact ⟨(plain_typeToStr t).2.1, (plain_typeToStr t).2.2.1⟩

theorem splitAt_rightsText :
    splitAt '+' (rightsText r) = (rightsOf r).map Operation.operationToStr := by
  refine splitAt_intercalate fun n member => ?_
  obtain ⟨op, -, rfl⟩ := List.mem_map.mp member
  exact ⟨(plain_operationToStr op).2.1, (plain_operationToStr op).2.2.1⟩

theorem plain_typesText : ∀ c ∈ typesText r, isBlank c = false ∧ c ≠ '/' := by
  intro c member
  rcases mem_intercalate member with rfl | ⟨n, within, here⟩
  · decide
  · obtain ⟨t, -, rfl⟩ := List.mem_map.mp within
    exact (plain_typeToStr t).1 c here

theorem plain_rightsText : ∀ c ∈ rightsText r, isBlank c = false := by
  intro c member
  rcases mem_intercalate member with rfl | ⟨n, within, here⟩
  · decide
  · obtain ⟨op, -, rfl⟩ := List.mem_map.mp within
    exact (plain_operationToStr op).1 c here

theorem rightsText_eq_nil_iff : rightsText r = [] ↔ rightsOf r = [] := by
  constructor
  · intro empty
    have split := splitAt_rightsText (r := r)
    rw [empty] at split
    exact List.map_eq_nil_iff.mp split.symm
  · intro none
    unfold rightsText
    change ['+'].intercalate ((rightsOf r).map Operation.operationToStr) = []
    rw [none]
    rfl

/-- The words of the text of a rule; without rights there are only two. -/
theorem words_buildStr (wellFormed : r.malformed = false) :
    words (buildStr r).toList =
      userText r :: (typesText r ++ '/' :: selectorText r) ::
        if rightsOf r = [] then [] else [rightsText r] := by
  obtain ⟨-, -, -, -, nonempty, plain⟩ := userText_spec wellFormed
  obtain ⟨-, -, -, -, -, plain'⟩ := selectorText_spec wellFormed
  have middle : ∀ c ∈ typesText r ++ '/' :: selectorText r, isBlank c = false := by
    intro c member
    rw [List.mem_append, List.mem_cons] at member
    rcases member with types | rfl | selector
    · exact (plain_typesText c types).1
    · decide
    · exact (plain' c selector).1
  unfold buildStr
  rw [String.toList_ofList, List.append_assoc, List.cons_append, words_append plain nonempty,
    words_append middle (by simp), words_single plain_rightsText]
  simp only [rightsText_eq_nil_iff]

/-- The types of a written resource part are read back. -/
theorem parseResources_buildStr (wellFormed : r.malformed = false) :
    ∃ i < 4, (∀ j < 4, (flags r.resource).getLsbD j = decide (j = i)) ∧
      parseResources (typesText r ++ '/' :: selectorText r) =
        .ok (2 ^ 32 * ofPositions (i :: (typesOf r).map ObjectType.flag) + r.resourceId.toNat) := by
  obtain ⟨i, low, bits, ids, nonempty, plain⟩ := selectorText_spec wellFormed
  have parts : splitAt '/' (typesText r ++ '/' :: selectorText r) = [typesText r, selectorText r] :=
    splitAt_slash (fun member => (plain_typesText _ member).2 rfl)
      (fun member => (plain _ member).2 rfl) nonempty
  have names : addNames resources .noResource 0 (splitAt '+' (typesText r)) =
      .ok (0 + ofPositions ((typesOf r).map fun t => 32 + t.flag)) := by
    rw [resources_eq, splitAt_typesText]
    refine (addNames_ok_iff (fun t : ObjectType => 32 + t.flag) typeToStr_injective).mpr
      ⟨typesOf r, fun t member => List.mem_of_mem_filter member, ?_, rfl⟩
    rw [List.map_map]
    exact List.map_congr_left fun t _ => (plain_typeToStr t).2.2.2
  have moved : ofPositions ((typesOf r).map fun t => 32 + t.flag) =
      2 ^ 32 * ofPositions ((typesOf r).map ObjectType.flag) := by
    rw [← ofPositions_map_add, List.map_map]
    rfl
  refine ⟨i, low, bits, ?_⟩
  unfold parseResources
  simp only [parts, names, ids]
  rw [moved, ofPositions_cons, Nat.mul_add]
  exact congrArg Except.ok (by omega)

/-- The rights of a written rights part are read back. -/
theorem parseRights_rightsText :
    parseRights (rightsText r) = .ok (ofPositions ((rightsOf r).map Operation.flag)) := by
  unfold parseRights
  rw [rights_eq, splitAt_rightsText]
  refine (addNames_ok_iff Operation.flag operationToStr_injective).mpr
    ⟨rightsOf r, fun op member => List.mem_of_mem_filter member, ?_, (Nat.zero_add _).symm⟩
  rw [List.map_map]
  exact List.map_congr_left fun op _ => (plain_operationToStr op).2.2.2

/-! ## The words of a rule -/

/-- The two halves of a word, as a number. -/
theorem toNat_append (hi lo : BitVec 32) : (hi ++ lo).toNat = 2 ^ 32 * hi.toNat + lo.toNat := by
  rw [BitVec.toNat_append, ← Nat.shiftLeft_add_eq_or_of_lt lo.isLt, Nat.shiftLeft_eq, Nat.mul_comm]

theorem toNat_halves (x : BitVec 64) : x.toNat = 2 ^ 32 * (flags x).toNat + (ident x).toNat := by
  rw [← toNat_append, append_flags_ident]

theorem mem_typesOf_iff {t : ObjectType} :
    t ∈ typesOf r ↔ t ≠ .acl ∧ (flags r.resource).getLsbD t.flag = true := by
  unfold typesOf
  rw [List.mem_filter, decide_eq_true_eq, ObjectType.code_eq, and_flag_ne_zero_iff t.flag_lt]
  refine and_congr_left fun _ => ?_
  cases t <;> decide

/-- The flags of a resource word are the selector and the types of the rule. -/
theorem resource_eq (wellFormed : r.malformed = false) (named : Named r) {i : Nat} (low : i < 4)
    (bits : ∀ j < 4, (flags r.resource).getLsbD j = decide (j = i)) :
    r.resource.toNat =
      2 ^ 32 * ofPositions (i :: (typesOf r).map ObjectType.flag) + r.resourceId.toNat := by
  obtain ⟨-, high, -⟩ := rest_of_wellFormed wellFormed
  have once : (i :: (typesOf r).map ObjectType.flag).Nodup := by
    refine List.nodup_cons.mpr ⟨fun member => ?_, ?_⟩
    · obtain ⟨t, -, same⟩ := List.mem_map.mp member
      have above := four_le_flag t
      omega
    · have listed : poolObjects.Nodup := by decide
      exact (listed.filter _).map fun _ _ => flag_injective
  have upper : (flags r.resource).toNat = ofPositions (i :: (typesOf r).map ObjectType.flag) := by
    refine Nat.eq_of_testBit_eq fun j => Bool.eq_iff_iff.mpr ?_
    rw [testBit_ofPositions once, List.mem_cons, List.mem_map]
    change (flags r.resource).getLsbD j = true ↔ _
    constructor
    · intro set
      by_cases below : j < 4
      · rw [bits j below] at set
        exact Or.inl (of_decide_eq_true set)
      · by_cases type : j < 16
        · right
          have at_ : ∃ t : ObjectType, t ≠ .acl ∧ t.flag = j := by
            have unnamed : j ≠ 11 ∧ j ≠ 15 := by
              constructor
              · rintro rfl
                exact Bool.false_ne_true (named.1.symm.trans set)
              · rintro rfl
                exact Bool.false_ne_true (named.2.symm.trans set)
            have above : 4 ≤ j := not_lt.mp below
            obtain ⟨ne, ne'⟩ := unnamed
            interval_cases j
            exacts [⟨.vm, by decide, rfl⟩, ⟨.host, by decide, rfl⟩, ⟨.net, by decide, rfl⟩,
              ⟨.image, by decide, rfl⟩, ⟨.user, by decide, rfl⟩, ⟨.template, by decide, rfl⟩,
              ⟨.group, by decide, rfl⟩, absurd rfl ne, ⟨.datastore, by decide, rfl⟩,
              ⟨.cluster, by decide, rfl⟩, ⟨.document, by decide, rfl⟩, absurd rfl ne']
          obtain ⟨t, other, rfl⟩ := at_
          exact ⟨t, mem_typesOf_iff.mpr ⟨other, set⟩, rfl⟩
        · rw [high j (not_lt.mp type)] at set
          cases set
    · rintro (rfl | ⟨t, member, rfl⟩)
      · rw [bits j low, decide_eq_true rfl]
      · exact (mem_typesOf_iff.mp member).2
  rw [toNat_halves, upper]
  rfl

/-- The rights of the text are the four lowest bits of the rights word. -/
theorem rights_eq_mod : ofPositions ((rightsOf r).map Operation.flag) = r.rights.toNat % 2 ^ 4 := by
  have once : ((rightsOf r).map Operation.flag).Nodup := by
    have listed : authOperations.Nodup := by decide
    exact (listed.filter _).map fun _ _ => operationFlag_injective
  have code : ∀ op : Operation, op.code = BitVec.twoPow 64 op.flag := by
    intro op
    cases op <;> decide
  have small : ∀ op : Operation, op.flag < 4 := by
    intro op
    cases op <;> decide
  have set_iff : ∀ op : Operation, op ∈ rightsOf r ↔ r.rights.getLsbD op.flag = true := by
    intro op
    have listed : op ∈ authOperations := by cases op <;> decide
    have below := small op
    unfold rightsOf
    rw [List.mem_filter, decide_eq_true_eq, code, ne_eq, and_twoPow_eq_zero_iff (by omega),
      Bool.not_eq_false]
    exact and_iff_right listed
  refine Nat.eq_of_testBit_eq fun j => Bool.eq_iff_iff.mpr ?_
  rw [testBit_ofPositions once, List.mem_map, Nat.testBit_mod_two_pow, Bool.and_eq_true,
    decide_eq_true_eq]
  change _ ↔ j < 4 ∧ r.rights.getLsbD j = true
  constructor
  · rintro ⟨op, member, rfl⟩
    exact ⟨small op, (set_iff op).mp member⟩
  · rintro ⟨low, set⟩
    have at_ : ∃ op : Operation, op.flag = j := by
      interval_cases j
      exacts [⟨.use, rfl⟩, ⟨.manage, rfl⟩, ⟨.admin, rfl⟩, ⟨.create, rfl⟩]
    obtain ⟨op, rfl⟩ := at_
    exact ⟨op, (set_iff op).mpr set, rfl⟩

/-- The text of a well-formed rule whose types have names is read back exactly
where its words have no bits that the text does not show. -/
theorem ruleNumbers_buildStr_iff (wellFormed : r.malformed = false) (named : Named r) :
    ruleNumbers (buildStr r) = .ok (r.user.toNat, r.resource.toNat, r.rights.toNat) ↔
      r.CleanUser ∧ r.rights.toNat < 2 ^ 4 := by
  obtain ⟨i, low, set, ids, -, -⟩ := userText_spec wellFormed
  obtain ⟨k, low', bits, parsed⟩ := parseResources_buildStr wellFormed
  have userWord : 2 ^ 32 * 2 ^ i + r.userId.toNat = r.user.toNat ↔ r.CleanUser := by
    have word : (BitVec.twoPow 32 i ++ r.userId).toNat = 2 ^ 32 * 2 ^ i + r.userId.toNat := by
      rw [toNat_append, BitVec.toNat_twoPow_of_lt (by omega)]
    rw [← word, BitVec.toNat_inj, eq_comm, AclRule.user_eq_iff wellFormed low]
    exact ⟨fun all => all.1, fun clean => ⟨clean, set, rfl⟩⟩
  have rightsWord : ofPositions ((rightsOf r).map Operation.flag) = r.rights.toNat ↔
      r.rights.toNat < 2 ^ 4 := by
    rw [rights_eq_mod, Nat.mod_eq_iff_lt (by decide)]
  unfold ruleNumbers
  rw [words_buildStr wellFormed]
  by_cases none : rightsOf r = []
  · -- a rule without named rights has only two words
    rw [if_pos none]
    refine iff_of_false (fun impossible => by cases impossible) ?_
    rintro ⟨-, small⟩
    rw [← rightsWord, none] at small
    refine (rest_of_wellFormed wellFormed).2.2 ?_
    rw [← BitVec.toNat_inj, ← small]
    rfl
  · rw [if_neg none]
    simp only [parseUsers, ids, parsed, parseRights_rightsText, Except.ok.injEq, Prod.mk.injEq,
      userWord, rightsWord, ← resource_eq wellFormed named low' bits, true_and]

end Text

/-- What the two directions promise: the numbers of a text carry exactly what it
names, and the text of a well-formed rule with named types is read back. -/
theorem text_iff (ruleStr : String) (r : AclRule) :
    (Carries ruleStr ↔ Plain ruleStr) ∧
      (r.malformed = false → Named r →
        (ruleNumbers (buildStr r) = .ok (r.user.toNat, r.resource.toNat, r.rights.toNat) ↔
          r.CleanUser ∧ r.rights.toNat < 2 ^ 4)) :=
  ⟨carries_iff ruleStr, ruleNumbers_buildStr_iff⟩

/-- A type that is named twice becomes the next type. -/
theorem repeated_type_becomes_host :
    ¬ ((∀ ruleStr : String, Carries ruleStr) ∧
      ∀ r : AclRule, r.malformed = false → Named r →
        ruleNumbers (buildStr r) = .ok (r.user.toNat, r.resource.toNat, r.rights.toNat)) := by
  rintro ⟨carries, -⟩
  have run : ruleNumbers "#5 VM+VM/#3 USE" = .ok (0x100000005, 0x2100000003, 1) := by decide +kernel
  have named := (carries "#5 VM+VM/#3 USE" "#5".toList "VM+VM".toList "#3".toList "USE".toList
    "VM+VM/#3".toList _ _ _ (by decide +kernel) (by decide +kernel) run).2.2.2.1
  -- bit 37 is the one of the hosts
  have host := (named 37).mp (by decide +kernel)
  rw [if_neg (by decide)] at host
  rcases host with selector | ⟨t, member, flag⟩
  · exact absurd selector (by decide)
  · obtain rfl : ObjectType.host = t := flag_injective flag
    exact absurd member (by decide +kernel)

end RuleText

end Ezilla

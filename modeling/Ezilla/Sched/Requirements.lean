import Ezilla.Xml.ExprBool

/-!
# Scheduling requirements

The daemon computes the automatic requirements of a VM from the clusters of its disks,
kernel, ramdisk and networks; the scheduler joins them with the requirements of the user, as
text, and evaluates the result on every host.

`Narrows` says that the user can only narrow the automatic requirements. The text of the
user is not parsed before it is joined, so it can close the parenthesis that the scheduler
opens: `Contained` are the texts that do no harm, and `narrows_iff` that these are all.
-/

namespace Ezilla

open ExprToken ExprConfig

/-! ## The requirements of the daemon -/

/-- The errors of `automatic_requirements`, with the cluster of the elements before. -/
inductive ClusterError where
  /-- Incompatible clusters in DISK. Datastore for DISK i is not the same as the one used by
  other VM elements (cluster id) -/
  | disk (i : Nat) (clusterId : String)
  /-- Incompatible cluster in KERNEL datastore, it should be in cluster id. -/
  | kernel (clusterId : String)
  /-- Incompatible cluster in INITRD datastore, it should be in cluster id. -/
  | initrd (clusterId : String)
  /-- Incompatible clusters in NIC. Network for NIC i is not the same as the one used by
  other VM elements (cluster id) -/
  | nic (i : Nat) (clusterId : String)
  deriving DecidableEq, Repr

/-- The CLUSTER_ID of the elements of a VM, empty where there is none. -/
structure VmClusters where
  disks : List String
  kernel : String
  initrd : String
  nics : List String
  deriving DecidableEq, Repr

/-- `check_and_set_cluster_id`. -/
def checkAndSetClusterId (vattClusterId clusterId : String) : Option String :=
  if vattClusterId = "" then some clusterId
  else if clusterId = "" then some vattClusterId
  else if clusterId ≠ vattClusterId then none
  else some clusterId

/-- The loops over the DISK and the NIC attributes, from number `i` on. -/
def checkClusterIds (error : Nat → String → ClusterError) :
    Nat → List String → String → Except ClusterError String
  | _, [], clusterId => .ok clusterId
  | i, vatt :: vatts, clusterId =>
    match checkAndSetClusterId vatt clusterId with
    | some clusterId' => checkClusterIds error (i + 1) vatts clusterId'
    | none => .error (error i clusterId)

/-- `VirtualMachine::automatic_requirements`; the empty text stands for no attribute. -/
def automaticRequirements (vm : VmClusters) : Except ClusterError String := do
  let clusterId ← checkClusterIds .disk 0 vm.disks ""
  let clusterId ← checkClusterIds (fun _ => .kernel) 0 [vm.kernel] clusterId
  let clusterId ← checkClusterIds (fun _ => .initrd) 0 [vm.initrd] clusterId
  let clusterId ← checkClusterIds .nic 0 vm.nics clusterId
  return if clusterId ≠ "" then "CLUSTER_ID = " ++ clusterId else ""

/-! ## The scheduler -/

/-- `VirtualMachineXML::init_attributes`: the requirements of a VM. -/
def initRequirements (automatic : String) (user : Option String) : String :=
  match user with
  | none => automatic
  | some user => if automatic ≠ "" then automatic ++ " & ( " ++ user ++ " )" else user

/-- `Scheduler::match` on the requirements. -/
def matched (host : HostXml) (reqs : String) : Except ExprError Bool :=
  if reqs ≠ "" then evalBool host reqs else .ok true

/-- The requirements of the user narrow the automatic ones on a host. -/
def Narrows (host : HostXml) (automatic user : String) : Prop :=
  (matched host (initRequirements automatic (some user)) = .ok true →
    matched host automatic = .ok true) ∧
  ∀ a u, matched host automatic = .ok a → matched host user = .ok u →
    (matched host (initRequirements automatic (some user)) = .ok true ↔ a = true ∧ u = true)

/-! ## The texts that leave the parenthesis -/

/-- A quoted string that the automatic requirements leave open ends in the text of the user. -/
def Spans (automatic user : String) : Prop :=
  ¬ Even (automatic.toList.count '"') ∧ '"' ∈ user.toList

/-- The user leaves the parenthesis that the scheduler opens for him: the parser is at a
position outside of it, and the tokens that follow are the user's. -/
inductive Leaves (host : HostXml) (automatic user : String) : ExprConfig → List ExprToken → Prop where
  /-- An expression, and a parenthesis that closes the one of the scheduler. -/
  | parenthesis {a b : Bool} {stack : List ExprFrame} {before after : List ExprToken}
      (apart : ¬ Spans automatic user)
      (first : run host .start (lex automatic.toList) = .ok (.value a stack))
      (split : lex user.toList = before ++ .chr ')' :: after) (some : before ≠ [])
      (evaluated : evalTokens host before = .ok b) :
      Leaves host automatic user (.value (a && b) stack) after
  /-- A quote that closes a string of the automatic requirements, with the parenthesis of the
  scheduler in the string. -/
  | quote {p q r t : List Char} {c : ExprConfig} (left : automatic.toList = p ++ '"' :: q)
      (even : Even (p.count '"')) (last : '"' ∉ q) (right : user.toList = r ++ '"' :: t)
      (first : '"' ∉ r)
      (taken : run host .start
        (lex p ++ [.string (some (String.ofList (q ++ " & ( ".toList ++ r)))]) = .ok c) :
      Leaves host automatic user c (lex t)

/-- The user leaves the parenthesis, and what follows, with the parenthesis that the scheduler
closes, makes the whole true. -/
def Escapes (host : HostXml) (automatic user : String) : Prop :=
  ∃ c rest, Leaves host automatic user c rest ∧
    (run host c (rest ++ [.chr ')'])).bind finish = .ok true

/-- The texts of the user that do no harm. Where the automatic requirements are not met, he
does not escape. Where they are met, his text has a token; and where it ends a string of the
automatic requirements, the whole has the value of his text alone. -/
def Contained (host : HostXml) (automatic user : String) : Prop :=
  (matched host automatic ≠ .ok true → ¬ Escapes host automatic user) ∧
  (matched host automatic = .ok true → ¬ Spans automatic user → lex user.toList ≠ []) ∧
  (matched host automatic = .ok true → Spans automatic user →
    ∀ u, matched host user = .ok u → (Escapes host automatic user ↔ u = true))

/-! ## The joined text -/

variable {host : HostXml} {automatic user : String} {a : Bool} {stack : List ExprFrame}

theorem matched_eq (reqs : String) : matched host reqs = evalBool host reqs := by
  unfold matched
  split
  · rfl
  · rename_i empty
    rw [not_not.mp empty]
    rfl

/-- The tokens of the joined text, where no string goes over its parts. -/
theorem lex_joined (apart : ¬ Spans automatic user) :
    lex (automatic ++ " & ( " ++ user ++ " )").toList =
      lex automatic.toList ++ .chr '&' :: .chr '(' :: (lex user.toList ++ [.chr ')']) := by
  have text : (automatic ++ " & ( " ++ user ++ " )").toList = automatic.toList ++ ' ' ::
      ("& (".toList ++ ' ' :: (user.toList ++ ' ' :: ")".toList)) := by
    simp [String.toList_append]
  have opening : lex "& (".toList = [.chr '&', .chr '('] := by decide
  have closing : lex ")".toList = [.chr ')'] := by decide
  have quotes : Even (automatic.toList.count '"') ∨
      '"' ∉ ' ' :: ("& (".toList ++ ' ' :: (user.toList ++ ' ' :: ")".toList)) := by
    refine (not_and_or.mp apart).imp not_not.mp fun none there => none ?_
    simpa using there
  rw [text, lex_append stops_blank quotes, lex_blank,
    lex_append stops_blank (.inl (by decide)), lex_blank,
    lex_append stops_blank (.inr (by decide)), lex_blank, opening, closing]
  rfl

/-- The tokens of the joined text, where a string goes over the parenthesis. -/
theorem lex_joined_quote {p q r t : List Char} (left : automatic.toList = p ++ '"' :: q)
    (even : Even (p.count '"')) (last : '"' ∉ q) (right : user.toList = r ++ '"' :: t)
    (first : '"' ∉ r) : lex (automatic ++ " & ( " ++ user ++ " )").toList =
      lex p ++ [.string (some (String.ofList (q ++ " & ( ".toList ++ r)))] ++
        (lex t ++ [.chr ')']) := by
  have text : (automatic ++ " & ( " ++ user ++ " )").toList =
      p ++ '"' :: ((q ++ " & ( ".toList ++ r) ++ '"' :: (t ++ ' ' :: ")".toList)) := by
    simp [String.toList_append, left, right]
  have closing : lex ")".toList = [.chr ')'] := by decide
  have inside : '"' ∉ q ++ " & ( ".toList ++ r := by
    simp [last, first]
  rw [text, lex_append stops_quote (.inl even), lex_quoted (by simp) inside,
    lex_append stops_blank (.inr (by decide)), lex_blank, closing]
  simp only [List.append_assoc, List.cons_append, List.nil_append]

/-- Tokens that have a value lead the parser to it, inside any parentheses. -/
theorem run_of_evalTokens {ts : List ExprToken} (some : ts ≠ [])
    (evaluated : evalTokens host ts = .ok a) (stack : List ExprFrame) :
    run host (.operand .fresh stack) ts = .ok (.value a stack) := by
  rcases evalTokens_eq_ok_iff.mp evaluated with ⟨none, _⟩ | ⟨e, grouped, rfl, rfl⟩
  · exact absurd none some
  · exact (run_tokens e grouped).1 stack

/-- The frame that the automatic requirements leave for the user. -/
def userFrame (a : Bool) : ExprFrame := ⟨some (a, .and), 0⟩

/-- Only an expression that fills the parenthesis has a value behind it, where no other
parenthesis is open. -/
theorem close_eq_ok_iff {c : ExprConfig} {b : Bool} :
    (run host (c.push (userFrame a :: stack)) [.chr ')']).bind finish = .ok b ↔
      ∃ u, c = .value u [] ∧ stack = [] ∧ b = (a && u) := by
  constructor
  · intro closed
    cases c with
    | value u inner =>
      cases inner with
      | nil =>
        cases stack with
        | nil =>
          cases closed
          exact ⟨u, rfl, rfl, rfl⟩
        | cons f stack => cases closed
      | cons f inner =>
        -- another parenthesis of the user is still open
        cases inner <;> cases closed
    | operand f inner => cases closed
    | attr name f inner => cases closed
    | attrNot name f inner => cases closed
    | comparison name op f inner => cases closed
  · rintro ⟨u, rfl, rfl, rfl⟩
    rfl

/-- Behind a parenthesis that the user closes. -/
theorem run_escape {before after : List ExprToken} {b : Bool} (some : before ≠ [])
    (evaluated : evalTokens host before = .ok b) :
    run host (.operand .fresh (userFrame a :: stack)) (before ++ .chr ')' :: after ++ [.chr ')']) =
      run host (.value (a && b) stack) (after ++ [.chr ')']) := by
  rw [List.append_assoc, run_append_of_ok (run_of_evalTokens some evaluated _), List.cons_append,
    run_cons_of_ok rfl]
  rfl

/-- The user's tokens in the parenthesis: either they are an expression, which fills it, or
they close it. -/
theorem parenthesis_eq_true_iff {us : List ExprToken} :
    (run host (.operand .fresh (userFrame a :: stack)) (us ++ [.chr ')'])).bind finish = .ok true ↔
      (a = true ∧ stack = [] ∧ us ≠ [] ∧ evalTokens host us = .ok true) ∨
        ∃ before after b, us = before ++ .chr ')' :: after ∧ before ≠ [] ∧
          evalTokens host before = .ok b ∧
          (run host (.value (a && b) stack) (after ++ [.chr ')'])).bind finish = .ok true := by
  constructor
  · intro joined
    rcases run_push (c := start) (userFrame a :: stack) us with
      ⟨before, after, b, split, taken⟩ | same
    · right
      have some : before ≠ [] := by
        intro none
        rw [none] at taken
        cases taken
      have value : evalTokens host before = .ok b := by
        rw [evalTokens, taken]
        rfl
      rw [split, run_escape some value] at joined
      exact ⟨before, after, b, split, some, value, joined⟩
    · left
      have pushed : ExprConfig.start.push (userFrame a :: stack) =
        .operand .fresh (userFrame a :: stack) := rfl
      rw [pushed] at same
      rw [run_append, same] at joined
      cases taken : run host start us with
      | error e =>
        rw [taken] at joined
        cases joined
      | ok c =>
        rw [taken] at joined
        obtain ⟨u, rfl, closed, both⟩ := close_eq_ok_iff.mp joined
        obtain ⟨rfl, rfl⟩ := Bool.and_eq_true_iff.mp both.symm
        refine ⟨rfl, closed, ?_, ?_⟩
        · intro none
          rw [none] at taken
          cases taken
        · rw [evalTokens, taken]
          rfl
  · rintro (⟨rfl, rfl, some, value⟩ | ⟨before, after, b, rfl, some, value, rest⟩)
    · rw [run_append_of_ok (run_of_evalTokens some value _)]
      rfl
    · rw [run_escape some value]
      exact rest

/-- Before the parenthesis there is a value. -/
theorem step_and {c : ExprConfig} {c' : ExprConfig} (taken : step host c (.chr '&') = .ok c') :
    ∃ a stack, c = .value a stack ∧ c' = .operand (userFrame a) stack := by
  cases c with
  | value a stack =>
    cases taken
    exact ⟨a, stack, rfl, rfl⟩
  | operand f stack => cases taken
  | attr name f stack => cases taken
  | attrNot name f stack => cases taken
  | comparison name op f stack => cases op <;> cases taken

/-- What the joined text evaluates to, where no string goes over its parts. -/
theorem evalBool_joined (apart : ¬ Spans automatic user) :
    evalBool host (automatic ++ " & ( " ++ user ++ " )") = .ok true ↔
      ∃ a stack, run host .start (lex automatic.toList) = .ok (.value a stack) ∧
        (run host (.operand .fresh (userFrame a :: stack)) (lex user.toList ++ [.chr ')'])).bind
          finish = .ok true := by
  unfold evalBool evalTokens
  rw [lex_joined apart, run_append]
  constructor
  · intro joined
    cases first : run host .start (lex automatic.toList) with
    | error e =>
      rw [first] at joined
      cases joined
    | ok c =>
      rw [first] at joined
      cases next : step host c (.chr '&') with
      | error e =>
        have fails : ((run host c (.chr '&' :: .chr '(' :: (lex user.toList ++ [.chr ')']))).bind
          finish) = .ok true := joined
        rw [run, next] at fails
        cases fails
      | ok c' =>
        obtain ⟨a, stack, rfl, rfl⟩ := step_and next
        exact ⟨a, stack, rfl, joined⟩
  · rintro ⟨a, stack, first, rest⟩
    rw [first]
    exact rest

/-- The joined text is true where the user fills the parenthesis with a true expression behind
true automatic requirements, and where he escapes. -/
theorem joined_eq_true_iff (some : lex automatic.toList ≠ []) :
    evalBool host (automatic ++ " & ( " ++ user ++ " )") = .ok true ↔
      (¬ Spans automatic user ∧ evalBool host automatic = .ok true ∧ lex user.toList ≠ [] ∧
        evalBool host user = .ok true) ∨ Escapes host automatic user := by
  constructor
  · intro joined
    rcases em (Spans automatic user) with ⟨odd, quote⟩ | apart
    · obtain ⟨p, q, left, even, last⟩ := exists_open_quote odd
      obtain ⟨r, t, right, first⟩ := List.eq_append_cons_of_mem quote
      right
      unfold evalBool evalTokens at joined
      rw [lex_joined_quote left even last right first, run_append] at joined
      cases taken : run host .start
          (lex p ++ [.string (.some (String.ofList (q ++ " & ( ".toList ++ r)))]) with
      | error e =>
        rw [taken] at joined
        cases joined
      | ok c =>
        rw [taken] at joined
        exact ⟨c, lex t, .quote left even last right first taken, joined⟩
    · obtain ⟨a, stack, taken, rest⟩ := (evalBool_joined apart).mp joined
      rcases parenthesis_eq_true_iff.mp rest with
        ⟨rfl, rfl, some', value⟩ | ⟨before, after, b, split, some', value, rest'⟩
      · refine .inl ⟨apart, ?_, some', value⟩
        rw [evalBool, evalTokens, taken]
        rfl
      · exact .inr ⟨_, after, .parenthesis apart taken split some' value, rest'⟩
  · rintro (⟨apart, first, some', value⟩ | ⟨c, rest, leaves, whole⟩)
    · refine (evalBool_joined apart).mpr ⟨true, [], run_of_evalTokens some first [], ?_⟩
      exact parenthesis_eq_true_iff.mpr (.inl ⟨rfl, rfl, some', value⟩)
    · cases leaves with
      | parenthesis apart first split some' value =>
        refine (evalBool_joined apart).mpr ⟨_, _, first, ?_⟩
        exact parenthesis_eq_true_iff.mpr (.inr ⟨_, _, _, split, some', value, whole⟩)
      | quote left even last right first taken =>
        unfold evalBool evalTokens
        rw [lex_joined_quote left even last right first, run_append_of_ok taken]
        exact whole

/-- Who escapes by a parenthesis has no expression. -/
theorem not_escapes_of_evaluated (apart : ¬ Spans automatic user) {u : Bool}
    (evaluated : evalBool host user = .ok u) : ¬ Escapes host automatic user := by
  rintro ⟨c, rest, leaves, -⟩
  cases leaves with
  | parenthesis _ first split some value =>
    rw [evalBool, split, evalTokens, start, run_append_of_ok (run_of_evalTokens some value [])]
      at evaluated
    cases evaluated
  | quote left even last right first taken =>
    refine apart ⟨?_, ?_⟩
    · rw [left, List.count_append, List.count_cons_self, List.count_eq_zero.mpr last]
      grind
    · rw [right]
      exact List.mem_append_right _ List.mem_cons_self

/-! ## The texts of the daemon -/

theorem automaticRequirements_ok {vm : VmClusters} (made : automaticRequirements vm = .ok automatic) :
    automatic = "" ∨ ∃ clusterId, automatic = "CLUSTER_ID = " ++ clusterId := by
  simp only [automaticRequirements, bind, Except.bind, pure, Except.pure] at made
  repeat' split at made
  all_goals cases made
  · exact .inr ⟨_, rfl⟩
  · exact .inl rfl

/-- What the daemon writes has tokens. -/
theorem lex_clusterId (clusterId : String) : lex ("CLUSTER_ID = " ++ clusterId).toList ≠ [] := by
  have text : ("CLUSTER_ID = " ++ clusterId).toList =
      "CLUSTER_ID =".toList ++ ' ' :: clusterId.toList := by
    simp [String.toList_append]
  have name : lex "CLUSTER_ID =".toList ≠ [] := by decide
  rw [text, lex_append stops_blank (.inl (by decide))]
  exact fun none => name (List.append_eq_nil_iff.mp none).1

/-! ## The requirements of the user -/

theorem initRequirements_empty : initRequirements "" (some user) = user := rfl

/-- Where the daemon requires nothing, the user has the whole say. -/
theorem narrows_empty : Narrows host "" user := by
  have free : matched host "" = .ok true := rfl
  refine ⟨fun _ => free, fun a u first value => ?_⟩
  rw [free] at first
  cases first
  rw [initRequirements_empty, value]
  exact ⟨fun same => ⟨rfl, Except.ok.inj same⟩, fun both => by rw [both.2]⟩

theorem ne_empty_of_lex (some : lex automatic.toList ≠ []) : automatic ≠ "" := by
  intro empty
  rw [empty] at some
  exact some rfl

/-- The texts that do no harm to requirements with a token. -/
theorem narrows_iff_contained (some : lex automatic.toList ≠ []) :
    Narrows host automatic user ↔ Contained host automatic user := by
  have joined : matched host (initRequirements automatic (.some user)) = .ok true ↔
      (¬ Spans automatic user ∧ matched host automatic = .ok true ∧ lex user.toList ≠ [] ∧
        matched host user = .ok true) ∨ Escapes host automatic user := by
    rw [initRequirements, if_pos (ne_empty_of_lex some)]
    simp only [matched_eq]
    exact joined_eq_true_iff some
  unfold Narrows Contained
  rw [joined]
  constructor
  · rintro ⟨met, both⟩
    refine ⟨fun unmet escapes => unmet (met (.inr escapes)), fun first apart none => ?_,
      fun first spans u value => ?_⟩
    · -- a text without tokens is true by itself, and the joined text has no value
      have value : matched host user = .ok true := by
        rw [matched_eq, evalBool, none]
        rfl
      rcases (both true true first value).mpr ⟨rfl, rfl⟩ with filled | escapes
      · exact filled.2.2.1 none
      · exact not_escapes_of_evaluated apart (matched_eq user ▸ value) escapes
    · have same := both true u first value
      rw [or_iff_right fun filled => filled.1 spans] at same
      exact same.trans (and_iff_right rfl)
  · rintro ⟨unmet, token, string⟩
    have met : (¬ Spans automatic user ∧ matched host automatic = .ok true ∧
        lex user.toList ≠ [] ∧ matched host user = .ok true) ∨ Escapes host automatic user →
        matched host automatic = .ok true := by
      rintro (filled | escapes)
      · exact filled.2.1
      · exact not_not.mp fun no => unmet no escapes
    refine ⟨met, fun a u first value => ?_⟩
    cases a with
    | false =>
      refine ⟨fun true_ => ?_, fun no => nomatch no.1⟩
      have both := met true_
      rw [first] at both
      cases both
    | true =>
      rcases em (Spans automatic user) with spans | apart
      · rw [or_iff_right fun filled => filled.1 spans, string first spans u value]
        exact (and_iff_right rfl).symm
      · have inside := not_escapes_of_evaluated apart (matched_eq user ▸ value)
        rw [or_iff_left inside, value]
        exact ⟨fun filled => ⟨rfl, Except.ok.inj filled.2.2.2⟩,
          fun both => ⟨apart, first, token first apart, by rw [both.2]⟩⟩

/-- The requirements of the user narrow those of the daemon exactly where he is contained. -/
theorem narrows_iff {vm : VmClusters} (made : automaticRequirements vm = .ok automatic) :
    Narrows host automatic user ↔ automatic = "" ∨ Contained host automatic user := by
  rcases automaticRequirements_ok made with rfl | ⟨clusterId, rfl⟩
  · exact iff_of_true narrows_empty (.inl rfl)
  · have some := lex_clusterId clusterId
    rw [or_iff_right (ne_empty_of_lex some)]
    exact narrows_iff_contained some

/-- A host of cluster 101 with the attribute `B`. -/
def hostOfCluster101 : HostXml where
  values path :=
    if path = "/HOST/TEMPLATE/CLUSTER_ID|/HOST/HOST_SHARE/CLUSTER_ID|/HOST/CLUSTER_ID|" ++
      "/HOST/CLUSTER_TEMPLATE/CLUSTER_ID" then ["101"]
    else if path = "/HOST/TEMPLATE/B|/HOST/HOST_SHARE/B|/HOST/B|/HOST/CLUSTER_TEMPLATE/B" then ["1"]
    else []
  floatHolds _ _ _ := false
  fnmatch pattern text := pattern = text

/-- A disk in cluster 100, and a text that stays in its parenthesis. -/
theorem narrows_iff_disk :
    automaticRequirements ⟨["100"], "", "", []⟩ = .ok "CLUSTER_ID = 100" ∧
      (Narrows hostOfCluster101 "CLUSTER_ID = 100" "B = 1" ↔
        "CLUSTER_ID = 100" = "" ∨ Contained hostOfCluster101 "CLUSTER_ID = 100" "B = 1") :=
  have made : automaticRequirements ⟨["100"], "", "", []⟩ = .ok "CLUSTER_ID = 100" := by decide
  ⟨made, narrows_iff made⟩

/-- A text that closes the parenthesis takes the VM of cluster 100 to a host of cluster 101. -/
theorem closed_parenthesis_not_narrows :
    automaticRequirements ⟨["100"], "", "", []⟩ = .ok "CLUSTER_ID = 100" ∧
      matched hostOfCluster101 "CLUSTER_ID = 100" = .ok false ∧
      matched hostOfCluster101
        (initRequirements "CLUSTER_ID = 100" (some "A = 1 ) | ( B = 1")) = .ok true ∧
      ¬ Narrows hostOfCluster101 "CLUSTER_ID = 100" "A = 1 ) | ( B = 1" := by
  have unmet : matched hostOfCluster101 "CLUSTER_ID = 100" = .ok false := by decide
  have met : matched hostOfCluster101
      (initRequirements "CLUSTER_ID = 100" (some "A = 1 ) | ( B = 1")) = .ok true := by decide
  refine ⟨by decide, unmet, met, fun narrows => ?_⟩
  have both := narrows.1 met
  rw [unmet] at both
  cases both

end Ezilla

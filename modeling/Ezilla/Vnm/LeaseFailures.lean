import Ezilla.Vnm.LeaseSearch

/-!
# Lease operations that fail

An operation on the leases of a network reports an error when its arguments are wrong, when no
lease is free, or when the database refuses the statement. A ranged network writes the row
first and the map after it, a fixed one changes the lease in the map and then writes it.

* `VnLeases.operate`: the operations with their answers, for every answer of the database;
* `VirtualNetwork.nicAttribute`: the lease of a NIC;
* `VnLeases.unchanged_iff`: when an operation that fails leaves everything as it was.
-/

namespace Ezilla

open Transition

/-- What becomes of a statement of a lease operation. The text of a lease that cannot be escaped
is not sent. -/
inductive LeaseAnswer where
  | done
  | failed
  | notEscaped
  deriving DecidableEq

namespace LeaseAnswer

/-- The statement was executed. -/
def ok (a : LeaseAnswer) : Bool := a = done

end LeaseAnswer

/-- The error that an operation reports. -/
def reported {α : Type} : Except LeaseError α → Option LeaseError
  | .ok _ => none
  | .error e => some e

namespace VnLeases

/-- `update_lease` of a fixed network moves the count after the text was escaped and before the
statement is sent. -/
def restoreCount (before after : VnLeases) (a : LeaseAnswer) : VnLeases :=
  match before, after, a with
  | .fixed f, .fixed f', .notEscaped => .fixed { f' with nUsed := f.nUsed }
  | _, after, _ => after

/-- `Leases::get`. -/
def getAnswered (v : VnLeases) (db : Nat → LeaseAnswer) (vid : Int) :
    Option (Except LeaseError Nat × VnLeases) :=
  (v.get (fun i => (db i).ok) vid).map fun out => (out.1, v.restoreCount out.2 (db 0))

/-- `Leases::set`. -/
def setAnswered (v : VnLeases) (a : LeaseAnswer) (vid : Int) (ip : String) :
    Except LeaseError Nat × VnLeases :=
  ((v.set a.ok vid ip).1, v.restoreCount (v.set a.ok vid ip).2 a)

/-- An operation, with the error that it reports; `none` stands for undefined behaviour. -/
def operate (v : VnLeases) (op : LeaseOp) (db : Nat → LeaseAnswer) :
    Option (Option LeaseError × VnLeases) :=
  match op with
  | .get vid => (v.getAnswered db vid).map fun out => (reported out.1, out.2)
  | .set vid ip =>
    let out := v.setAnswered (db 0) vid ip
    some (reported out.1, out.2)
  | .release ip => some (none, v.restoreCount (v.release (db 0).ok ip) (db 0))
  | .addLeases lease? =>
    match v with
    | .ranged r => some (some .addUnsupported, .ranged r)
    | .fixed f =>
      let out := f.addLeases (db 0).ok lease?
      some (reported out.1, .fixed out.2)
  | .removeLeases ip? =>
    match v with
    | .ranged r => some (some .removeUnsupported, .ranged r)
    | .fixed f =>
      let out := f.removeLeases (db 0).ok ip?
      some (reported out.1, .fixed out.2)
  | .holdLeases ip? =>
    let out := v.holdLeases (db 0).ok ip?
    some (reported out.1, v.restoreCount out.2 (db 0))
  | .freeLeases ip? =>
    let out := v.freeLeases (db 0).ok ip?
    some (reported out.1, v.restoreCount out.2 (db 0))

end VnLeases

/-! ## The lease of a NIC -/

/-- The network of a NIC. The prefixes are the texts of the template and their numbers. -/
structure VirtualNetwork where
  oid : Int
  name : String
  bridge : String
  global : String
  globalBin : Nat × Nat
  site : String
  siteBin : Nat × Nat
  vlan : Bool
  phydev : String
  vlanId : String
  clusterId : Int
  leases : VnLeases

/-- One byte as two hexadecimal digits. -/
def hexByte (n : Nat) : String :=
  String.ofList [Nat.digitChar (n / 16 % 16), Nat.digitChar (n % 16)]

/-- `Leases::Lease::mac_to_string`. -/
def macToString (high low : Nat) : String :=
  ":".intercalate [hexByte (high / 256), hexByte high, hexByte (low / 256 ^ 3),
    hexByte (low / 256 ^ 2), hexByte (low / 256), hexByte low]

/-- `Leases::Lease::mac_to_eui64`: the upper and the lower word. -/
def macToEui64 (high low : Nat) : Nat × Nat :=
  (((high + 512) * 2 ^ 16 + low / 2 ^ 24 * 2 ^ 8 + 255) % 2 ^ 32,
    (4261412864 + low % 2 ^ 24) % 2 ^ 32)

/-- `Leases::Lease::ip6_to_string`, where `inetNtop` gives the text of the four words. -/
def ip6ToString (inetNtop : Nat → Nat → Nat → Nat → String) (eui64 : Nat × Nat)
    (bits : Nat × Nat) : String :=
  if bits.1 ≠ 0 ∨ bits.2 ≠ 0 then inetNtop bits.1 bits.2 eui64.1 eui64.2
  else inetNtop 0xfe800000 0 eui64.1 eui64.2

namespace VirtualNetwork

variable (inetNtop : Nat → Nat → Nat → Nat → String)

/-- The attributes of a NIC that has a lease. -/
def leaseValues (net : VirtualNetwork) (nic : List (String × String)) (ip : String)
    (lease : Lease) : List (String × String) :=
  let optional (name value : String) (nic : List (String × String)) : List (String × String) :=
    if value = "" then nic else Attribute.replace nic name value
  let eui64 := macToEui64 lease.macPrefix lease.macSuffix
  let nic := Attribute.replace nic "NETWORK" net.name
  let nic := Attribute.replace nic "NETWORK_ID" (toString net.oid)
  let nic := Attribute.replace nic "BRIDGE" net.bridge
  let nic := Attribute.replace nic "MAC" (macToString lease.macPrefix lease.macSuffix)
  let nic := Attribute.replace nic "IP" ip
  let nic := Attribute.replace nic "IP6_LINK" (ip6ToString inetNtop eui64 (0, 0))
  let nic :=
    if net.global = "" then nic
    else Attribute.replace nic "IP6_GLOBAL" (ip6ToString inetNtop eui64 net.globalBin)
  let nic :=
    if net.site = "" then nic
    else Attribute.replace nic "IP6_SITE" (ip6ToString inetNtop eui64 net.siteBin)
  let nic := Attribute.replace nic "VLAN" (if net.vlan then "YES" else "NO")
  let nic := optional "PHYDEV" net.phydev nic
  let nic := optional "VLAN_ID" net.vlanId nic
  if net.clusterId ≠ -1 then Attribute.replace nic "CLUSTER_ID" (toString net.clusterId) else nic

/-- `VirtualNetwork::nic_attribute`: whether it succeeds, the NIC and the network. -/
def nicAttribute (net : VirtualNetwork) (nic : List (String × String)) (vid : Int)
    (db : Nat → LeaseAnswer) : Option (Bool × List (String × String) × VirtualNetwork) :=
  let ip := Attribute.vectorValue nic "IP"
  let leased := if ip = "" then net.leases.getAnswered db vid
    else some (net.leases.setAnswered (db 0) vid ip)
  leased.map fun out =>
    match out.1 with
    | .error _ => (false, nic, { net with leases := out.2 })
    | .ok numIp =>
      let lease := (out.2.base.leases.lookup numIp).getD
        ⟨numIp, out.2.base.macPrefix, numIp, vid, true⟩
      (true, leaseValues inetNtop net nic (if ip = "" then ipToString numIp else ip) lease,
        { net with leases := out.2 })

end VirtualNetwork

namespace VnLeases

variable {v w : VnLeases} {op : LeaseOp} {db : Nat → LeaseAnswer}

/-! ## An operation that fails -/

/-- The leases with their flags and owners, and the count of the used ones. -/
def SameLeases (v w : VnLeases) : Prop :=
  w.base.leases = v.base.leases ∧ w.base.nUsed = v.base.nUsed

/-- If the operation reports an error then it has changed nothing. -/
def Unchanged (v : VnLeases) (op : LeaseOp) (db : Nat → LeaseAnswer) : Prop :=
  match v.operate op db with
  | none => False
  | some (none, _) => True
  | some (some _, w) => v.SameLeases w

/-- An operation that takes a lease of a fixed network has an answer to its statement, or there
is no such lease that is free. -/
def Safe (v : VnLeases) (op : LeaseOp) (db : Nat → LeaseAnswer) : Prop :=
  match v, op with
  | .ranged _, _ => True
  | .fixed f, .get _ =>
    f.leases.keys = [] ∨ f.current ≠ .dangling ∧ (db 0 = .done ∨
      ∀ k lease, f.leases.lookup k = some lease → lease.used = true)
  | .fixed f, .set _ ip => db 0 = .done ∨
      ∀ k lease, ipToNumber ip = some k → f.leases.lookup k = some lease → lease.used = true
  | .fixed f, .holdLeases (some ip) => db 0 = .done ∨
      ∀ k lease, ipToNumber ip = some k → f.leases.lookup k = some lease → lease.used = true
  | .fixed _, _ => True

theorem base_restoreCount (v w : VnLeases) (a : LeaseAnswer) :
    (v.restoreCount w a).base.leases = w.base.leases := by
  unfold restoreCount
  split <;> rfl

/-- An operation that has changed nothing has not moved the count either. -/
theorem SameLeases.restoreCount {a : LeaseAnswer} (same : v.SameLeases w) :
    v.SameLeases (v.restoreCount w a) := by
  refine ⟨(base_restoreCount v w a).trans same.1, ?_⟩
  unfold VnLeases.restoreCount
  split
  · rfl
  · exact same.2

end VnLeases

/-! ### Ranged networks -/

namespace RangedLeases

variable {r : RangedLeases} {dbs : Nat → Bool} {db : Bool} {vid : Int} {n : Nat} {e : LeaseError}

/-- A search that finds nothing moves only the search position. -/
theorem getLoop_error (out : (getLoop dbs vid n r).1 = none) :
    (getLoop dbs vid n r).2.toLeases = r.toLeases := by
  induction n generalizing r with
  | zero => rfl
  | succ n ih =>
    have rest := @ih { r with current := (r.current + 1) % r.size }
    unfold getLoop at out ⊢
    cases checked : r.check ((r.ipStart + r.current) % 2 ^ 32) with
    | true =>
      simp only [checked, if_true] at out ⊢
      exact rest out
    | false =>
      simp only [checked, Bool.false_eq_true, if_false] at out ⊢
      split at out
      · cases out
      · exact rest out

theorem get_error (failed : (r.get dbs vid).1 = .error e) :
    (r.get dbs vid).2.toLeases = r.toLeases := by
  have loop := @getLoop_error r dbs vid r.size
  unfold get at failed ⊢
  split at failed
  · cases failed
  · rename_i out
    rw [out] at loop
    exact loop rfl

theorem set_error {ip : String} (failed : (r.set db vid ip).1 = .error e) :
    (r.set db vid ip).2 = r := by
  unfold set at failed ⊢
  split
  · rfl
  · split
    · rfl
    · split
      · rfl
      · rename_i numIp read outside leased
        simp only [read, if_neg outside, if_neg leased] at failed
        split
        · rfl
        · rename_i added
          rw [added] at failed
          cases failed

end RangedLeases

/-! ### Fixed networks -/

namespace FixedLeases

variable {f : FixedLeases} {db : Bool} {vid : Int} {k : Nat} {lease : Lease} {e : LeaseError}

theorem addLeases_error {lease? : Option (String × String)}
    (failed : (f.addLeases db lease?).1 = .error e) : (f.addLeases db lease?).2 = f := by
  unfold addLeases at failed ⊢
  split
  · rfl
  · rename_i ip mac
    split
    · rfl
    · rename_i added
      simp only [added] at failed
      cases failed

theorem removeLeases_error {ip? : Option String}
    (failed : (f.removeLeases db ip?).1 = .error e) : (f.removeLeases db ip?).2 = f := by
  unfold removeLeases at failed ⊢
  split
  · rfl
  · split
    · rfl
    · rename_i removed
      simp only [removed] at failed
      cases failed

/-- A free lease is under an address. -/
def FreeUnder (f : FixedLeases) (ip : String) : Prop :=
  ∃ k lease, ipToNumber ip = some k ∧ f.leases.lookup k = some lease ∧ lease.used = false

theorem not_freeUnder_iff {ip : String} : ¬ f.FreeUnder ip ↔
    ∀ k lease, ipToNumber ip = some k → f.leases.lookup k = some lease → lease.used = true := by
  constructor
  · intro none k lease read found
    cases used : lease.used with
    | true => rfl
    | false => exact absurd ⟨k, lease, read, found, used⟩ none
  · intro all free
    obtain ⟨k, lease, read, found, unused⟩ := free
    have used := all k lease read found
    rw [unused] at used
    cases used

/-- `set` where no lease is free. -/
theorem set_of_not_freeUnder {ip : String} (none : ¬ f.FreeUnder ip) :
    f.set db vid ip = (.error .notFree, f) := by
  have used := not_freeUnder_iff.mp none
  unfold set
  split
  · rfl
  · rename_i numIp read
    split
    · rfl
    · rename_i lease found
      rw [if_pos (used numIp lease read found)]

/-- `set` of a free lease. -/
theorem set_of_free {ip : String} (read : ipToNumber ip = some k)
    (found : f.leases.lookup k = some lease) (free : lease.used = false) :
    f.set db vid ip = (if db then .ok k else .error .notFree,
      f.updateLease db k { lease with used := true, vid := vid }) := by
  unfold set
  simp only [read, found, free, Bool.false_eq_true, if_false]

/-- A lease that was free is taken in the map. -/
theorem updateLease_ne (found : f.leases.lookup k = some lease) (free : lease.used = false) :
    (f.updateLease db k { lease with used := true, vid := vid }).leases ≠ f.leases := by
  intro same
  have stored : (f.leases.insert k { lease with used := true, vid := vid }).lookup k =
      some { lease with used := true, vid := vid } := AList.lookup_insert _
  have same : f.leases.insert k { lease with used := true, vid := vid } = f.leases := same
  rw [same, found] at stored
  have used := congrArg Lease.used (Option.some.inj stored)
  rw [free] at used
  cases used

end FixedLeases

/-! ### Either kind -/

namespace VnLeases

variable {v : VnLeases} {op : LeaseOp} {db : Nat → LeaseAnswer} {vid : Int} {f : FixedLeases}

theorem ok_iff {a : LeaseAnswer} : a.ok = true ↔ a = .done := decide_eq_true_iff

/-- `set` reports an error and changes nothing, or the database has done its statement. -/
theorem set_keeps_iff {a : LeaseAnswer} {ip : String} :
    (∀ e, ((VnLeases.fixed f).setAnswered a vid ip).1 = .error e →
        (VnLeases.fixed f).SameLeases ((VnLeases.fixed f).setAnswered a vid ip).2) ↔
      a = .done ∨ ∀ k lease, ipToNumber ip = some k → f.leases.lookup k = some lease →
        lease.used = true := by
  rw [← FixedLeases.not_freeUnder_iff]
  unfold setAnswered set
  dsimp only
  by_cases free : f.FreeUnder ip
  · obtain ⟨k, lease, read, found, unused⟩ := free
    rw [or_iff_left (not_not.mpr ⟨k, lease, read, found, unused⟩),
      FixedLeases.set_of_free read found unused]
    by_cases done : a = .done
    · rw [ok_iff.mpr done]
      refine iff_of_true (fun e failed => ?_) done
      cases failed
    · have refused : a.ok = false := Bool.eq_false_iff.mpr fun ok => done (ok_iff.mp ok)
      rw [refused]
      refine iff_of_false (fun same => ?_) done
      have changed := (same .notFree rfl).1
      rw [base_restoreCount] at changed
      exact FixedLeases.updateLease_ne found unused changed
  · rw [FixedLeases.set_of_not_freeUnder free]
    refine iff_of_true (fun e _ => ?_) (.inr free)
    exact SameLeases.restoreCount ⟨rfl, rfl⟩

/-- `get` on a fixed network. -/
theorem unchanged_get_iff (kept : f.Kept) :
    (VnLeases.fixed f).Unchanged (.get vid) db ↔ (VnLeases.fixed f).Safe (.get vid) db := by
  unfold Unchanged Safe operate getAnswered get
  dsimp only
  by_cases empty : f.leases.keys = []
  · have got : f.get (db 0).ok vid = some (.error .notFree, f) := if_pos empty
    rw [got]
    exact iff_of_true (SameLeases.restoreCount ⟨rfl, rfl⟩) (.inl empty)
  · rw [or_iff_right empty]
    have valid := FixedLeases.valid_of_search kept empty
    cases ended : f.search f.size f.current with
    | undefined =>
      have got : f.get (db 0).ok vid = none := by rw [FixedLeases.get, if_neg empty, ended]
      rw [got]
      refine iff_of_false id fun safe => ?_
      have searched := FixedLeases.search_spec (n := f.size) empty
        (kept.current.resolve_right safe.1)
      rw [ended] at searched
      exact searched
    | exhausted c =>
      rw [ended] at valid
      have valid := valid (by simp)
      have got : f.get (db 0).ok vid = some (.error .notFree, { f with current := c }) := by
        rw [FixedLeases.get, if_neg empty, ended]
      rw [got]
      refine iff_of_true (SameLeases.restoreCount ⟨rfl, rfl⟩)
        ⟨fun dangling => by rw [dangling] at valid; exact valid, .inr fun k lease found => ?_⟩
      have member : k ∈ f.leases.keys := AList.lookup_isSome.mp (by rw [found]; rfl)
      obtain ⟨lease', found', used⟩ := FixedLeases.search_exhausted kept valid ended k member
      rw [found] at found'
      cases found'
      exact used
    | found ip lease =>
      rw [ended] at valid
      have valid := valid (by simp)
      have defined : f.current ≠ .dangling := fun dangling => by rw [dangling] at valid; exact valid
      have searched := FixedLeases.search_spec (n := f.size) empty valid
      rw [ended] at searched
      have notAll : ¬ ∀ k lease, f.leases.lookup k = some lease → lease.used = true := fun all => by
        have used := all ip lease searched.1
        rw [searched.2] at used
        cases used
      rw [and_iff_right defined, or_iff_left notAll]
      have got : ∃ f', f'.leases = (f.updateLease (db 0).ok ip
          { lease with used := true, vid := vid }).leases ∧ f.get (db 0).ok vid =
            some (if (db 0).ok then .ok lease.ip else .error .notFree, f') := by
        rw [FixedLeases.get, if_neg empty, ended]
        refine ⟨_, ?_, rfl⟩
        rfl
      obtain ⟨f', leases, got⟩ := got
      rw [got]
      by_cases done : db 0 = .done
      · rw [ok_iff.mpr done]
        exact iff_of_true trivial done
      · have refused : (db 0).ok = false := Bool.eq_false_iff.mpr fun ok => done (ok_iff.mp ok)
        rw [refused]
        refine iff_of_false (fun same => ?_) done
        have changed := same.1
        rw [base_restoreCount] at changed
        exact FixedLeases.updateLease_ne searched.1 searched.2 (leases.symm.trans changed)

/-- `hold_leases` changes what `set` changes. -/
theorem unchanged_hold_iff {ip : String} :
    (VnLeases.fixed f).Unchanged (.holdLeases (some ip)) db ↔
      (VnLeases.fixed f).Safe (.holdLeases (some ip)) db := by
  unfold Unchanged Safe operate holdLeases
  dsimp only
  by_cases inUse : (ipToNumber ip).any (VnLeases.fixed f).base.check = true
  · rw [if_pos inUse]
    refine iff_of_true (SameLeases.restoreCount ⟨rfl, rfl⟩) (.inr fun k lease read found => ?_)
    rw [read] at inUse
    have checked : f.check k = true := inUse
    rw [Leases.check_of_lookup found] at checked
    exact checked
  · rw [if_neg inUse, ← @set_keeps_iff (-1) f (db 0) ip]
    unfold setAnswered
    dsimp only
    cases out : (VnLeases.fixed f).set (db 0).ok (-1) ip with
    | mk rc w =>
      cases rc with
      | ok numIp =>
        refine iff_of_true trivial fun e failed => ?_
        cases failed
      | error e =>
        exact ⟨fun same _ _ => same, fun same => same e rfl⟩

/-- `free_leases` reports an error before it changes anything. -/
theorem unchanged_free {ip? : Option String} : v.Unchanged (.freeLeases ip?) db := by
  have same : v.SameLeases (v.restoreCount v (db 0)) := SameLeases.restoreCount ⟨rfl, rfl⟩
  unfold Unchanged operate freeLeases
  cases ip? with
  | none => exact same
  | some ip =>
    dsimp only
    cases ipToNumber ip with
    | none => exact same
    | some numIp =>
      dsimp only
      cases v.base.leases.lookup numIp with
      | none => exact same
      | some lease =>
        dsimp only
        by_cases notOnHold : (!lease.used || decide (lease.vid ≠ -1)) = true
        · rw [if_pos notOnHold]
          exact same
        · rw [if_neg notOnHold]
          trivial

/-- An operation on a ranged network that reports an error has changed nothing. -/
theorem unchanged_ranged (r : RangedLeases) : (VnLeases.ranged r).Unchanged op db := by
  have setSame : ∀ a vid ip e, (r.set a vid ip).1 = .error e →
      (VnLeases.ranged r).SameLeases (.ranged (r.set a vid ip).2) := fun a vid ip e failed => by
    rw [RangedLeases.set_error failed]
    exact ⟨rfl, rfl⟩
  cases op with
  | get vid =>
    unfold Unchanged operate getAnswered get
    dsimp only [Option.map]
    cases got : (r.get (fun i => (db i).ok) vid).1 with
    | ok numIp => trivial
    | error e =>
      have same := RangedLeases.get_error got
      exact ⟨congrArg Leases.leases same, congrArg Leases.nUsed same⟩
  | set vid ip =>
    unfold Unchanged operate setAnswered set
    dsimp only
    cases got : (r.set (db 0).ok vid ip).1 with
    | ok numIp => trivial
    | error e => exact setSame _ _ _ e got
  | release ip => trivial
  | addLeases lease? => exact ⟨rfl, rfl⟩
  | removeLeases ip? => exact ⟨rfl, rfl⟩
  | holdLeases ip? =>
    unfold Unchanged operate holdLeases
    cases ip? with
    | none => exact ⟨rfl, rfl⟩
    | some ip =>
      dsimp only
      by_cases inUse : (ipToNumber ip).any (VnLeases.ranged r).base.check = true
      · rw [if_pos inUse]
        exact ⟨rfl, rfl⟩
      · rw [if_neg inUse]
        unfold set
        dsimp only
        cases got : (r.set (db 0).ok (-1) ip).1 with
        | ok numIp => trivial
        | error e => exact setSame _ _ _ e got
  | freeLeases ip? => exact unchanged_free

/-- In every network, an operation that reports an error has changed nothing exactly when it is
safe. -/
theorem unchanged_iff_safe (kept : v.Kept) (op : LeaseOp) (db : Nat → LeaseAnswer) :
    v.Unchanged op db ↔ v.Safe op db := by
  cases v with
  | ranged r => exact iff_of_true (unchanged_ranged r) trivial
  | fixed f =>
    cases op with
    | get vid => exact unchanged_get_iff kept
    | set vid ip =>
      refine Iff.trans ?_ (@set_keeps_iff vid f (db 0) ip)
      unfold Unchanged operate
      dsimp only
      cases ((VnLeases.fixed f).setAnswered (db 0) vid ip).1 with
      | ok numIp => exact iff_of_true trivial fun e failed => by cases failed
      | error e => exact ⟨fun same _ _ => same, fun same => same e rfl⟩
    | release ip => exact iff_of_true trivial trivial
    | addLeases lease? =>
      refine iff_of_true ?_ trivial
      unfold Unchanged operate
      dsimp only
      cases failed : (f.addLeases (db 0).ok lease?).1 with
      | ok _ => trivial
      | error e =>
        have same := FixedLeases.addLeases_error failed
        exact ⟨congrArg (fun f => f.leases) same, congrArg (fun f => f.nUsed) same⟩
    | removeLeases ip? =>
      refine iff_of_true ?_ trivial
      unfold Unchanged operate
      dsimp only
      cases failed : (f.removeLeases (db 0).ok ip?).1 with
      | ok _ => trivial
      | error e =>
        have same := FixedLeases.removeLeases_error failed
        exact ⟨congrArg (fun f => f.leases) same, congrArg (fun f => f.nUsed) same⟩
    | holdLeases ip? =>
      cases ip? with
      | none => exact iff_of_true (SameLeases.restoreCount ⟨rfl, rfl⟩) trivial
      | some ip => exact unchanged_hold_iff
    | freeLeases ip? => exact iff_of_true unchanged_free trivial

/-! ## Runs -/

/-- A network as it was created, whatever the database answered. -/
inductive CreatedAnswered : VnLeases → Prop where
  | ranged (macPrefix ipStart ipEnd : Nat) (ordered : ipStart ≤ ipEnd) (word : ipEnd < 2 ^ 32) :
      CreatedAnswered (.ranged (RangedLeases.new macPrefix ipStart ipEnd ordered word))
  | fixed (macPrefix : Nat) (dbs : Nat → Bool) (vectorLeases : List (String × String)) :
      CreatedAnswered (.fixed (FixedLeases.new macPrefix dbs vectorLeases))

/-- An operation that is defined, with the answers of the database. -/
def StepAnswered (v : VnLeases) (l : LeaseOp × (Nat → LeaseAnswer)) (w : VnLeases) : Prop :=
  ∃ error?, v.operate l.1 l.2 = some (error?, w)

theorem restoreCount_kept {w : VnLeases} {a : LeaseAnswer} (kept : w.Kept) :
    (v.restoreCount w a).Kept := by
  unfold restoreCount
  split
  · exact ⟨⟨kept.key_ip, kept.current⟩, kept.size⟩
  · exact kept

/-- An operation with its answers is a step whose count may be restored. -/
theorem operate_kept {w : VnLeases} {error? : Option LeaseError} (kept : v.Kept)
    (done : v.operate op db = some (error?, w)) : w.Kept := by
  have step := fun w' taken => @step_kept v w' op (fun i => (db i).ok) kept taken
  cases op with
  | get vid =>
    obtain ⟨_, answered, is⟩ := Option.map_eq_some_iff.mp done
    cases is
    obtain ⟨out, got, rfl⟩ := Option.map_eq_some_iff.mp answered
    refine restoreCount_kept (step out.2 ?_)
    cases v with
    | ranged r =>
      cases got
      rfl
    | fixed f =>
      obtain ⟨out', got', rfl⟩ := Option.map_eq_some_iff.mp got
      exact Option.map_eq_some_iff.mpr ⟨out', got', rfl⟩
  | set vid ip =>
    cases done
    exact restoreCount_kept (step _ rfl)
  | release ip =>
    cases done
    exact restoreCount_kept (step _ rfl)
  | addLeases lease? =>
    cases v with
    | ranged r =>
      cases done
      exact kept
    | fixed f =>
      cases done
      exact step _ rfl
  | removeLeases ip? =>
    cases v with
    | ranged r =>
      cases done
      exact kept
    | fixed f =>
      cases done
      exact step _ rfl
  | holdLeases ip? =>
    cases done
    exact restoreCount_kept (step _ rfl)
  | freeLeases ip? =>
    cases done
    exact restoreCount_kept (step _ rfl)

theorem kept_of_answered (reached : Reachable CreatedAnswered StepAnswered v) : v.Kept := by
  refine reached.invariant (fun w created => ?_) fun _ _ _ kept taken => ?_
  · cases created with
    | ranged => exact RangedLeases.new_good
    | fixed => exact FixedLeases.new_kept
  · obtain ⟨_, done⟩ := taken
    exact operate_kept kept done

/-- If a NIC gets no lease then it and the leases are as before. -/
def NicUnchanged (inetNtop : Nat → Nat → Nat → Nat → String) (net : VirtualNetwork)
    (nic : List (String × String)) (vid : Int) (db : Nat → LeaseAnswer) : Prop :=
  match net.nicAttribute inetNtop nic vid db with
  | none => False
  | some (true, _, _) => True
  | some (false, nic', net') => nic' = nic ∧ net.leases.SameLeases net'.leases

/-- The operation that gives a NIC its lease. -/
def nicOp (nic : List (String × String)) (vid : Int) : LeaseOp :=
  if Attribute.vectorValue nic "IP" = "" then .get vid
  else .set vid (Attribute.vectorValue nic "IP")

/-- A NIC that gets no lease stays as it is. -/
theorem nicUnchanged_iff (inetNtop : Nat → Nat → Nat → Nat → String) (net : VirtualNetwork)
    (nic : List (String × String)) (vid : Int) (db : Nat → LeaseAnswer) :
    NicUnchanged inetNtop net nic vid db ↔ net.leases.Unchanged (nicOp nic vid) db := by
  unfold NicUnchanged VirtualNetwork.nicAttribute nicOp Unchanged
  dsimp only
  by_cases empty : Attribute.vectorValue nic "IP" = ""
  · rw [if_pos empty, if_pos empty]
    unfold operate
    dsimp only
    cases net.leases.getAnswered db vid with
    | none => exact Iff.rfl
    | some out =>
      obtain ⟨rc, w⟩ := out
      cases rc with
      | ok numIp => exact Iff.rfl
      | error e => exact and_iff_right rfl
  · rw [if_neg empty, if_neg empty]
    unfold operate
    dsimp only
    cases net.leases.setAnswered (db 0) vid (Attribute.vectorValue nic "IP") with
    | mk rc w =>
      cases rc with
      | ok numIp => exact Iff.rfl
      | error e => exact and_iff_right rfl

/-- In every network that the database may have left behind, an operation that reports an error
has changed nothing exactly when it is safe, and so has a NIC that gets no lease. -/
theorem unchanged_iff (reached : Reachable CreatedAnswered StepAnswered v) :
    (∀ op db, v.Unchanged op db ↔ v.Safe op db) ∧
      ∀ inetNtop net nic vid db, net.leases = v →
        (NicUnchanged inetNtop net nic vid db ↔ v.Safe (nicOp nic vid) db) := by
  have kept := kept_of_answered reached
  refine ⟨unchanged_iff_safe kept, fun inetNtop net nic vid db of => ?_⟩
  subst of
  exact (nicUnchanged_iff inetNtop net nic vid db).trans (unchanged_iff_safe kept _ _)

/-- A fixed network of one lease. -/
def oneLease : VnLeases := .fixed (FixedLeases.new 512 answers [("10.0.0.1", "")])

/-- The lease is given to a VM, and not to a second one. -/
theorem unchanged_iff_used :
    ∃ v, oneLease.operate (.get 7) (fun _ => .done) = some (none, v) ∧
      (v.operate (.set 8 "10.0.0.1") fun _ => .done).map Prod.fst = some (some .notFree) ∧
      v.Unchanged (.set 8 "10.0.0.1") fun _ => .done := by
  have run : (oneLease.operate (.get 7) fun _ => .done).map (fun out => (out.1,
      (out.2.operate (.set 8 "10.0.0.1") fun _ => .done).map Prod.fst)) =
      some (none, some (some .notFree)) := by
    decide +kernel
  obtain ⟨⟨error?, v⟩, got, fails⟩ := Option.map_eq_some_iff.mp run
  obtain ⟨rfl, fails⟩ := Prod.mk.injEq .. ▸ fails
  refine ⟨v, got, fails, ((unchanged_iff (.step (l := (.get 7, fun _ => .done))
    (.init (.fixed 512 answers [("10.0.0.1", "")])) ⟨none, got⟩)).1 _ _).mpr ?_⟩
  cases v with
  | ranged r => trivial
  | fixed f => exact .inl rfl

/-- The database refuses the only lease of a fixed network. The error is reported, and the lease
is used. -/
theorem failed_get_takes_lease :
    let v := VnLeases.fixed (FixedLeases.new 512 answers [("10.0.0.1", "")])
    Reachable CreatedAnswered StepAnswered v ∧ ¬ v.Unchanged (.get 7) (fun _ => .failed) ∧
      ((v.operate (.get 7) fun _ => .failed).map fun out =>
        (out.1, out.2.base.check 167772161, out.2.base.nUsed)) =
        some (some .notFree, true, 1) := by
  have taken : ((VnLeases.fixed (FixedLeases.new 512 answers [("10.0.0.1", "")])).operate (.get 7)
      fun _ => .failed).map (fun out => (out.1, out.2.base.check 167772161, out.2.base.nUsed)) =
      some (some .notFree, true, 1) := by decide +kernel
  refine ⟨.init (.fixed 512 answers _), fun same => ?_, taken⟩
  obtain ⟨out, done, is⟩ := Option.map_eq_some_iff.mp taken
  unfold Unchanged at same
  rw [done] at same
  obtain ⟨error?, w⟩ := out
  have reports : error? = some .notFree := congrArg Prod.fst is
  rw [reports] at same
  have counted : w.base.nUsed = 1 := congrArg (fun x => x.2.2) is
  have before : (VnLeases.fixed (FixedLeases.new 512 answers [("10.0.0.1", "")])).base.nUsed =
      0 := by decide +kernel
  have unmoved := same.2
  rw [counted, before] at unmoved
  cases unmoved

end VnLeases

end Ezilla

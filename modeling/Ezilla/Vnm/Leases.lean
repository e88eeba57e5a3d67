import Ezilla.Vnm.LeaseAddress
import Mathlib.Data.List.AList

/-!
# Lease tables of virtual networks

A virtual network keeps its leases in a map from the address to the lease, with a count
of the used ones, and the same leases as rows of the database. A fixed network has the
leases that were added to it, used or not; a ranged network has only the used ones and
creates them on demand. The vid -1 of a used lease marks a lease on hold.

* `RangedLeases.get`, `set`, `del`: the leases of a range of addresses;
* `FixedLeases.add`, `remove`, `unset`, `get`, `set`: the leases of a list;
* `VnLeases.step`: one operation on either kind.

An operation takes the answers of the database to the statements it executes: `db i` is
whether statement number `i` succeeds.
-/

namespace Ezilla

/-- `Leases::Lease`. The EUI-64 numbers follow from the MAC address. -/
structure Lease where
  ip : Nat
  macPrefix : Nat
  macSuffix : Nat
  vid : Int
  used : Bool
  deriving DecidableEq, Repr

/-- A map from addresses to leases. -/
abbrev LeaseMap := AList fun _ : Nat => Lease

/-- The errors of the lease operations; the plain -1 of `get` and `set` is `notFree`. -/
inductive LeaseError where
  /-- no free lease, or the wanted one is not free or not part of the network -/
  | notFree
  /-- Empty lease description. -/
  | emptyDescription
  /-- Lease is in use. -/
  | inUse
  /-- Lease is not part of the NET. -/
  | notPart
  /-- Wrong Lease format. -/
  | wrongFormat
  /-- Lease is not on hold. -/
  | notOnHold
  /-- Adding new leases is only supported for FIXED networks. -/
  | addUnsupported
  /-- Removing leases is only supported for FIXED networks. -/
  | removeUnsupported
  /-- Both IP and MAC cannot be empty -/
  | noIpMac
  /-- Error inserting lease, malformed IP = ip -/
  | malformedIp (ip : String)
  /-- Error inserting lease, malformed MAC = mac -/
  | malformedMac (mac : String)
  /-- Error inserting lease, IP ip already exists -/
  | duplicate (ip : String)
  /-- Error inserting lease in database. -/
  | database
  /-- Error deleting lease, malformed IP = ip -/
  | deleteMalformedIp (ip : String)
  /-- Error deleting lease, IP ip is not part of NET -/
  | deleteNotPart (ip : String)
  /-- Error deleting lease, IP ip is currently in use -/
  | deleteInUse (ip : String)
  deriving DecidableEq, Repr

/-- `Leases`: what both kinds share. `rows` are the rows of the network in the lease table
of the database, by address. -/
structure Leases where
  leases : LeaseMap
  nUsed : Int
  macPrefix : Nat
  rows : LeaseMap

namespace Leases

/-- `Leases::check(unsigned int)`: the address is leased. -/
def check (l : Leases) (ip : Nat) : Bool :=
  match l.leases.lookup ip with
  | some lease => lease.used
  | none => false

/-- `Leases::is_owner`, for an address that can be read. -/
def isOwner (l : Leases) (ip : Nat) (vid : Int) : Bool :=
  match l.leases.lookup ip with
  | some lease => lease.vid = vid
  | none => false

/-- `INSERT INTO leases`, which also fails when the address has a row. -/
def insertRow (l : Leases) (db : Bool) (lease : Lease) : Option LeaseMap :=
  if db ∧ l.rows.lookup lease.ip = none then some (l.rows.insert lease.ip lease) else none

/-- `UPDATE leases ... WHERE ip`, without effect when the address has no row. -/
def updateRow (l : Leases) (lease : Lease) : LeaseMap :=
  if l.rows.lookup lease.ip = none then l.rows else l.rows.insert lease.ip lease

end Leases

/-! ## Ranged networks -/

/-- `RangedLeases`, on a range that `process_template` let through. -/
structure RangedLeases extends Leases where
  ipStart : Nat
  ipEnd : Nat
  current : Nat
  ordered : ipStart ≤ ipEnd
  word : ipEnd < 2 ^ 32

namespace RangedLeases

/-- The number of addresses of the range, an unsigned int. -/
def size (r : RangedLeases) : Nat := (r.ipEnd - r.ipStart + 1) % 2 ^ 32

/-- The constructor: no address of the range is leased. -/
def new (macPrefix ipStart ipEnd : Nat) (ordered : ipStart ≤ ipEnd) (word : ipEnd < 2 ^ 32) :
    RangedLeases :=
  { leases := ∅, nUsed := 0, macPrefix, rows := ∅, ipStart, ipEnd, current := 0, ordered, word }

/-- `RangedLeases::add`: a new used lease, stored in the database first. -/
def add (r : RangedLeases) (db : Bool) (ip : Nat) (vid : Int) : Option RangedLeases :=
  let lease : Lease := ⟨ip, r.macPrefix, ip, vid, true⟩
  match r.insertRow db lease with
  | none => none
  | some rows =>
    some { r with
      -- `map::insert` keeps a lease that is already under the address
      leases := if r.leases.lookup ip = none then r.leases.insert ip lease else r.leases
      rows
      nUsed := r.nUsed + 1 }

/-- The loop of `RangedLeases::get`: `n` addresses are left to look at. -/
def getLoop (db : Nat → Bool) (vid : Int) : Nat → RangedLeases → Option Nat × RangedLeases
  | 0, r => (none, r)
  | n + 1, r =>
    let ip := (r.ipStart + r.current) % 2 ^ 32
    let next : RangedLeases := { r with current := (r.current + 1) % r.size }
    if r.check ip then
      getLoop db vid n next
    else
      match r.add (db (r.size - (n + 1))) ip vid with
      | some r' => (some ip, r')
      | none => getLoop db vid n next

/-- `RangedLeases::get` of any address. -/
def get (r : RangedLeases) (db : Nat → Bool) (vid : Int) : Except LeaseError Nat × RangedLeases :=
  match getLoop db vid r.size r with
  | (some ip, r') => (.ok ip, r')
  | (none, r') => (.error .notFree, r')

/-- `RangedLeases::set`: a given address. -/
def set (r : RangedLeases) (db : Bool) (vid : Int) (ip : String) :
    Except LeaseError Nat × RangedLeases :=
  match ipToNumber ip with
  | none => (.error .notFree, r)
  | some numIp =>
    if numIp < r.ipStart ∨ r.ipEnd < numIp then
      (.error .notFree, r)
    else if r.check numIp then
      (.error .notFree, r)
    else
      match r.add db numIp vid with
      | none => (.error .notFree, r)
      | some r' => (.ok numIp, r')

/-- `RangedLeases::del`: the lease is taken out of the database and of the map. -/
def del (r : RangedLeases) (db : Bool) (ip : String) : RangedLeases :=
  match ipToNumber ip with
  | none => r
  | some numIp =>
    match r.leases.lookup numIp with
    | none => r
    | some _ =>
      if db then
        { r with
          leases := r.leases.erase numIp
          rows := r.rows.erase numIp
          nUsed := r.nUsed - 1 }
      else
        r

end RangedLeases

/-! ## Fixed networks -/

/-- The iterator `FixedLeases::current`. Erasing the lease it refers to leaves it
dangling, and using it then is undefined behaviour. -/
inductive LeaseCursor where
  | past
  | on (ip : Nat)
  | dangling
  deriving DecidableEq, Repr

/-- `FixedLeases`. -/
structure FixedLeases extends Leases where
  size : Nat
  current : LeaseCursor

namespace FixedLeases

/-- `leases.begin()`: the lowest address. -/
def first (f : FixedLeases) : LeaseCursor :=
  match f.leases.keys.min? with
  | some ip => .on ip
  | none => .past

/-- The lease after an address in the order of the map. -/
def next (f : FixedLeases) (ip : Nat) : LeaseCursor :=
  match (f.leases.keys.filter (ip < ·)).min? with
  | some ip' => .on ip'
  | none => .past

/-- `FixedLeases::add`. -/
def add (f : FixedLeases) (db : Bool) (ip mac : String) (vid : Int) (used : Bool) :
    Except LeaseError FixedLeases :=
  if ip = "" ∧ mac = "" then
    .error .noIpMac
  else
    let ip? := if ip = "" then some none else (ipToNumber ip).map some
    let mac? := if mac = "" then some none else (macToNumber mac).map some
    match ip?, mac? with
    | none, _ => .error (.malformedIp ip)
    | some _, none => .error (.malformedMac mac)
    | some numIp?, some numMac? =>
      -- an address that is missing is generated from the other one
      let numIp := numIp?.getD (numMac?.getD (0, 0)).2
      let numMac := numMac?.getD (f.macPrefix, numIp)
      if (f.leases.lookup numIp).isSome then
        .error (.duplicate ip)
      else
        let lease : Lease := ⟨numIp, numMac.1, numMac.2, vid, used⟩
        match f.insertRow db lease with
        | none => .error .database
        | some rows =>
          .ok { f with
            leases := f.leases.insert numIp lease
            rows
            nUsed := if used then f.nUsed + 1 else f.nUsed }

/-- `FixedLeases::remove`. The iterator is not moved away from the lease it erases. -/
def remove (f : FixedLeases) (db : Bool) (ip : String) : Except LeaseError FixedLeases :=
  match ipToNumber ip with
  | none => .error (.deleteMalformedIp ip)
  | some numIp =>
    match f.leases.lookup numIp with
    | none => .error (.deleteNotPart ip)
    | some lease =>
      if lease.used then
        .error (.deleteInUse ip)
      else if db then
        .ok { f with
          leases := f.leases.erase numIp
          rows := f.rows.erase numIp
          current := if f.current = .on numIp then .dangling else f.current }
      else
        .error .database

/-- `FixedLeases::update_lease`, for the lease that was changed in the map under `key`.
The count moves before the database answers. -/
def updateLease (f : FixedLeases) (db : Bool) (key : Nat) (lease : Lease) : FixedLeases :=
  { f with
    leases := f.leases.insert key lease
    nUsed := if lease.used then f.nUsed + 1 else f.nUsed - 1
    rows := if db then f.updateRow lease else f.rows }

/-- `FixedLeases::unset`: the lease is free again, also when it was. -/
def unset (f : FixedLeases) (db : Bool) (ip : String) : FixedLeases :=
  match ipToNumber ip with
  | none => f
  | some numIp =>
    match f.leases.lookup numIp with
    | none => f
    | some lease => f.updateLease db numIp { lease with used := false, vid := -1 }

/-- What the search of `FixedLeases::get` ends with. -/
inductive Search where
  | found (ip : Nat) (lease : Lease)
  | exhausted (current : LeaseCursor)
  | undefined
  deriving DecidableEq

/-- The loop of `FixedLeases::get`: `n` steps are left, and the search wraps at the end of
the map. -/
def search (f : FixedLeases) : Nat → LeaseCursor → Search
  | 0, current => .exhausted current
  | n + 1, current =>
    match (if current = .past then f.first else current) with
    | .on ip =>
      match f.leases.lookup ip with
      | some lease => if lease.used then search f n (f.next ip) else .found ip lease
      | none => .undefined
    | _ => .undefined

/-- `FixedLeases::get` of any lease; `none` stands for undefined behaviour. -/
def get (f : FixedLeases) (db : Bool) (vid : Int) :
    Option (Except LeaseError Nat × FixedLeases) :=
  if f.leases.keys = [] then
    some (.error .notFree, f)
  else
    match f.search f.size f.current with
    | .undefined => none
    | .exhausted current => some (.error .notFree, { f with current })
    | .found ip lease =>
      let f' := f.updateLease db ip { lease with used := true, vid := vid }
      let f' := { f' with current := f'.next ip }
      some (if db then .ok lease.ip else .error .notFree, f')

/-- `FixedLeases::set`: a given lease. -/
def set (f : FixedLeases) (db : Bool) (vid : Int) (ip : String) :
    Except LeaseError Nat × FixedLeases :=
  match ipToNumber ip with
  | none => (.error .notFree, f)
  | some numIp =>
    match f.leases.lookup numIp with
    | none => (.error .notFree, f)
    | some lease =>
      if lease.used then
        (.error .notFree, f)
      else
        (if db then .ok numIp else .error .notFree,
          f.updateLease db numIp { lease with used := true, vid := vid })

/-- The constructor on a list of lease descriptions (their `IP` and `MAC`): each one is
added, an error is only logged. -/
def new (macPrefix : Nat) (db : Nat → Bool) (vectorLeases : List (String × String)) :
    FixedLeases :=
  let empty : FixedLeases :=
    { leases := ∅, nUsed := 0, macPrefix, rows := ∅, size := 0, current := .past }
  let f := vectorLeases.zipIdx.foldl (fun f (lease, i) =>
    match f.add (db i) lease.1 lease.2 (-1) false with
    | .ok f' => f'
    | .error _ => f) empty
  { f with size := f.leases.keys.length }

/-- `FixedLeases::add_leases`: the first lease description, `none` if there is none. -/
def addLeases (f : FixedLeases) (db : Bool) (lease? : Option (String × String)) :
    Except LeaseError Unit × FixedLeases :=
  match lease? with
  | none => (.error .emptyDescription, f)
  | some (ip, mac) =>
    match f.add db ip mac (-1) false with
    | .error e => (.error e, f)
    | .ok f' => (.ok (), { f' with size := f'.leases.keys.length })

/-- `FixedLeases::remove_leases`. -/
def removeLeases (f : FixedLeases) (db : Bool) (ip? : Option String) :
    Except LeaseError Unit × FixedLeases :=
  match ip? with
  | none => (.error .emptyDescription, f)
  | some ip =>
    match f.remove db ip with
    | .error e => (.error e, f)
    | .ok f' => (.ok (), { f' with size := f'.leases.keys.length })

end FixedLeases

/-! ## Either kind -/

/-- The leases of a virtual network. -/
inductive VnLeases where
  | ranged (r : RangedLeases)
  | fixed (f : FixedLeases)

/-- The operations on the leases of a network. A lease description is `none` where the
request has no lease vector. -/
inductive LeaseOp where
  | get (vid : Int)
  | set (vid : Int) (ip : String)
  | release (ip : String)
  | addLeases (lease? : Option (String × String))
  | removeLeases (ip? : Option String)
  | holdLeases (ip? : Option String)
  | freeLeases (ip? : Option String)
  deriving DecidableEq, Repr

namespace VnLeases

/-- What both kinds share. -/
def base : VnLeases → Leases
  | .ranged r => r.toLeases
  | .fixed f => f.toLeases

/-- The virtual `Leases::set`. -/
def set (v : VnLeases) (db : Bool) (vid : Int) (ip : String) : Except LeaseError Nat × VnLeases :=
  match v with
  | .ranged r => let (rc, r') := r.set db vid ip; (rc, .ranged r')
  | .fixed f => let (rc, f') := f.set db vid ip; (rc, .fixed f')

/-- The virtual `Leases::release`. -/
def release (v : VnLeases) (db : Bool) (ip : String) : VnLeases :=
  match v with
  | .ranged r => .ranged (r.del db ip)
  | .fixed f => .fixed (f.unset db ip)

/-- `Leases::hold_leases`. The address that `check` looks at when the text has a wrong
format is not initialised, so which of the two errors is given then is open. -/
def holdLeases (v : VnLeases) (db : Bool) (ip? : Option String) :
    Except LeaseError Unit × VnLeases :=
  match ip? with
  | none => (.error .emptyDescription, v)
  | some ip =>
    if (ipToNumber ip).any v.base.check then
      (.error .inUse, v)
    else
      match v.set db (-1) ip with
      | (.ok _, v') => (.ok (), v')
      | (.error _, v') => (.error .notPart, v')

/-- `Leases::free_leases`. -/
def freeLeases (v : VnLeases) (db : Bool) (ip? : Option String) :
    Except LeaseError Unit × VnLeases :=
  match ip? with
  | none => (.error .emptyDescription, v)
  | some ip =>
    match ipToNumber ip with
    | none => (.error .wrongFormat, v)
    | some numIp =>
      match v.base.leases.lookup numIp with
      | none => (.error .notOnHold, v)
      | some lease =>
        if !lease.used || lease.vid ≠ -1 then (.error .notOnHold, v)
        else (.ok (), v.release db ip)

/-- One operation; `none` stands for undefined behaviour. -/
def step (v : VnLeases) (op : LeaseOp) (db : Nat → Bool) : Option VnLeases :=
  match op with
  | .get vid =>
    match v with
    | .ranged r => some (.ranged (r.get db vid).2)
    | .fixed f => (f.get (db 0) vid).map fun out => .fixed out.2
  | .set vid ip => some (v.set (db 0) vid ip).2
  | .release ip => some (v.release (db 0) ip)
  | .addLeases lease? =>
    match v with
    | .ranged r => some (.ranged r)
    | .fixed f => some (.fixed (f.addLeases (db 0) lease?).2)
  | .removeLeases ip? =>
    match v with
    | .ranged r => some (.ranged r)
    | .fixed f => some (.fixed (f.removeLeases (db 0) ip?).2)
  | .holdLeases ip? => some (v.holdLeases (db 0) ip?).2
  | .freeLeases ip? => some (v.freeLeases (db 0) ip?).2

end VnLeases

end Ezilla

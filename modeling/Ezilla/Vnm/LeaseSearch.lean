import Ezilla.Lib.CyclicScan
import Ezilla.Vnm.LeaseRuns
import Ezilla.Vnm.RangedTemplate

/-!
# The search for a free lease

`get` looks at the leases one after the other from where the last search ended, a ranged
network by an offset into the range and a fixed one by an iterator of the map.

* `VnLeases.Kept`: what every operation keeps of these positions, whatever the database
  answers and also where the count of used leases goes wrong;
* `VnLeases.Finds`: a lease is found whenever one is free;
* `VnLeases.finds_iff`: the states of a network in which this is so.
-/

namespace Ezilla

open Transition

/-! ## Ranged networks -/

namespace RangedLeases

variable {r r' : RangedLeases} {db : Bool} {dbs : Nat → Bool} {ip k i n : Nat} {vid : Int}

theorem add_false : r.add false ip vid = none := by
  unfold add
  simp [Leases.insertRow]

/-- A lease that could be stored keeps the network good. -/
theorem add_good (good : r.Good) (free : r.check ip = false)
    (inside : r.ipStart ≤ ip ∧ ip ≤ r.ipEnd) (added : r.add db ip vid = some r') : r'.Good := by
  cases db with
  | true =>
    obtain ⟨r'', added', _, good'⟩ := @add_spec (fun _ => False) r ip vid good free inside
    rw [added] at added'
    cases added'
    exact good'
  | false =>
    rw [add_false] at added
    cases added

theorem getLoop_good (good : r.Good) (bound : n ≤ r.size) :
    (getLoop dbs vid n r).2.Good := by
  induction n generalizing r with
  | zero => exact good
  | succ n ih =>
    have moved := ih good.move (Nat.le_of_succ_le bound)
    unfold getLoop
    cases checked : r.check ((r.ipStart + r.current) % 2 ^ 32) with
    | true =>
      simp only [checked, if_true]
      exact moved
    | false =>
      simp only [checked, Bool.false_eq_true, if_false]
      split
      · rename_i added
        exact add_good good checked (good.position (by omega)) added
      · exact moved

theorem get_good (good : r.Good) : (r.get dbs vid).2.Good := by
  have loop := @getLoop_good r dbs _ vid good (Nat.le_refl r.size)
  unfold get
  split
  · rename_i out
    rw [out] at loop
    exact loop
  · rename_i out
    rw [out] at loop
    exact loop

theorem set_good {text : String} (good : r.Good) : (r.set db vid text).2.Good := by
  unfold set
  split
  · exact good
  · split
    · exact good
    · rename_i inside
      push Not at inside
      split
      · exact good
      · rename_i free
        split
        · exact good
        · rename_i added
          exact add_good good (Bool.eq_false_of_not_eq_true free) inside added

theorem del_good {text : String} (good : r.Good) : (r.del db text).Good := by
  cases db with
  | true => exact (@del_spec (fun _ => True) r text good fun _ _ => trivial).2
  | false =>
    unfold del
    split
    · exact good
    · split
      · exact good
      · exact good

/-- The address at an offset from the search position. -/
def addressAt (r : RangedLeases) (i : Nat) : Nat := (r.ipStart + (r.current + i) % r.size) % 2 ^ 32

/-- A search that ends without a lease has seen that the addresses it looked at are leased. -/
theorem getLoop_none (good : r.Good) (bound : n ≤ r.size)
    (out : (getLoop answers vid n r).1 = none) : ∀ i < n, r.check (r.addressAt i) = true := by
  induction n generalizing r with
  | zero => exact fun i below => absurd below (Nat.not_lt_zero i)
  | succ n ih =>
    have current : r.current < r.size := good.current.resolve_right (by omega)
    unfold getLoop at out
    cases checked : r.check ((r.ipStart + r.current) % 2 ^ 32) with
    | true =>
      simp only [checked, if_true] at out
      have rest := ih good.move (Nat.le_of_succ_le bound) out
      intro i below
      cases i with
      | zero =>
        rw [addressAt, Nat.add_zero, Nat.mod_eq_of_lt current]
        exact checked
      | succ i =>
        have seen := rest i (by omega)
        have same : ((r.current + 1) % r.size + i) % r.size = (r.current + (i + 1)) % r.size := by
          rw [Nat.mod_add_mod, Nat.add_assoc, Nat.add_comm 1 i]
        rw [addressAt, ← same]
        exact seen
    | false =>
      obtain ⟨r', added, _, _⟩ :=
        @add_spec (fun _ => False) r _ vid good checked (good.position (by omega))
      simp only [checked, Bool.false_eq_true, if_false, answers, added] at out
      cases out

/-- The address that a search finds was free. -/
theorem getLoop_some (good : r.Good) (bound : n ≤ r.size)
    (out : (getLoop dbs vid n r).1 = some ip) :
    r.ipStart ≤ ip ∧ ip ≤ r.ipEnd ∧ r.check ip = false := by
  induction n generalizing r with
  | zero => cases out
  | succ n ih =>
    have rest := fun out => @ih { r with current := (r.current + 1) % r.size } good.move
      (Nat.le_of_succ_le bound) out
    unfold getLoop at out
    cases checked : r.check ((r.ipStart + r.current) % 2 ^ 32) with
    | true =>
      simp only [checked, if_true] at out
      exact rest out
    | false =>
      simp only [checked, Bool.false_eq_true, if_false] at out
      split at out
      · cases out
        have position := good.position (by omega)
        exact ⟨position.1, position.2, checked⟩
      · exact rest out

/-- A range that is not all addresses has as many as its ends say. -/
theorem size_eq (part : r.size ≠ 0) : r.size = r.ipEnd - r.ipStart + 1 := by
  have word := r.word
  have small : r.ipEnd - r.ipStart + 1 ≤ 2 ^ 32 := by omega
  rcases small.eq_or_lt with all | less
  · exact absurd (by rw [size, all, Nat.mod_self]) part
  · exact Nat.mod_eq_of_lt less

/-- Every address of the range is at some offset. -/
theorem exists_addressAt (good : r.Good) (part : r.size ≠ 0) (inside : r.ipStart ≤ k ∧ k ≤ r.ipEnd) :
    ∃ i < r.size, r.addressAt i = k := by
  have count := size_eq part
  have current : r.current < r.size := good.current.resolve_right part
  have word := r.word
  have ordered := r.ordered
  refine ⟨(k - r.ipStart + r.size - r.current) % r.size, Nat.mod_lt _ (by omega), ?_⟩
  have offset : (r.current + (k - r.ipStart + r.size - r.current) % r.size) % r.size =
      k - r.ipStart := by
    rw [Nat.add_mod_mod]
    have sum : r.current + (k - r.ipStart + r.size - r.current) = k - r.ipStart + r.size := by
      omega
    rw [sum, Nat.add_mod_right, Nat.mod_eq_of_lt (by omega)]
  rw [addressAt, offset, Nat.mod_eq_of_lt (by omega)]
  omega

end RangedLeases

/-! ## Fixed networks -/

namespace FixedLeases

variable {f f' : FixedLeases} {c : LeaseCursor} {db : Bool} {ip k key n : Nat} {vid : Int}
  {before after : Lease}

/-- The leases are under their addresses, and the search position is one of them or the end
until its lease is removed. -/
structure Placed (f : FixedLeases) : Prop where
  key_ip : ∀ k lease, f.leases.lookup k = some lease → lease.ip = k
  current : f.Valid f.current ∨ f.current = .dangling

/-- What every operation keeps on a fixed network. -/
structure Kept (f : FixedLeases) : Prop extends f.Placed where
  size : f.size = f.leases.keys.length

theorem Placed.resize (placed : f.Placed) :
    Kept { f with size := f.leases.keys.length } :=
  ⟨⟨placed.key_ip, placed.current⟩, rfl⟩

theorem length_keys_insert (found : f.leases.lookup key = some before) :
    (f.leases.insert key after).keys.length = f.leases.keys.length := by
  have member : key ∈ f.leases.keys := AList.lookup_isSome.mp (by rw [found]; rfl)
  have positive := List.length_pos_of_mem member
  rw [AList.keys_insert, List.length_cons, List.length_erase_of_mem member]
  omega

theorem updateLease_kept (kept : f.Kept) (found : f.leases.lookup key = some before)
    (ip : after.ip = key) : (f.updateLease db key after).Kept := by
  refine ⟨⟨fun k lease stored => ?_, kept.current.imp (fun valid => valid.insert rfl) id⟩, ?_⟩
  · have stored : (f.leases.insert key after).lookup k = some lease := stored
    rcases eq_or_ne k key with same | other
    · rw [same, AList.lookup_insert] at stored
      cases stored
      rw [ip, same]
    · rw [AList.lookup_insert_ne other] at stored
      exact kept.key_ip k lease stored
  · exact kept.size.trans (length_keys_insert found).symm

theorem add_placed {ipText mac : String} {used : Bool} (placed : f.Placed)
    (added : f.add db ipText mac vid used = .ok f') : f'.Placed := by
  unfold add at added
  split at added
  · cases added
  · dsimp only at added
    split at added
    · cases added
    · cases added
    · split at added
      · cases added
      · split at added
        · cases added
        · cases added
          refine ⟨fun k lease stored => ?_, placed.current.imp (fun valid => valid.insert rfl) id⟩
          rename_i numIp? numMac? _ _ _ _ _ _
          generalize numIp?.getD (numMac?.getD (0, 0)).2 = numIp at stored
          rcases eq_or_ne k numIp with same | other
          · rw [same, AList.lookup_insert] at stored
            cases stored
            exact same.symm
          · rw [AList.lookup_insert_ne other] at stored
            exact placed.key_ip k lease stored

theorem remove_placed {text : String} (placed : f.Placed) (removed : f.remove db text = .ok f') :
    f'.Placed := by
  unfold remove at removed
  split at removed
  · cases removed
  · rename_i numIp _
    split at removed
    · cases removed
    · split at removed
      · cases removed
      · split at removed
        · cases removed
          refine ⟨fun k lease stored => ?_, ?_⟩
          · have stored : (f.leases.erase numIp).lookup k = some lease := stored
            rcases eq_or_ne k numIp with same | other
            · rw [same, AList.lookup_erase] at stored
              cases stored
            · rw [AList.lookup_erase_ne other] at stored
              exact placed.key_ip k lease stored
          · -- the search position dangles when it was at the lease that is erased
            cases position : f.current with
            | past => exact .inl trivial
            | dangling => exact .inr rfl
            | on k =>
              rcases eq_or_ne k numIp with here | other
              · right
                simp [here]
              · left
                have valid : k ∈ f.leases.keys := by
                  rcases placed.current with valid | dangling
                  · rw [position] at valid
                    exact valid
                  · rw [position] at dangling
                    cases dangling
                have apart : LeaseCursor.on k ≠ .on numIp := fun same => other (by cases same; rfl)
                simp only [if_neg apart]
                have member : k ∈ f.leases.erase numIp := AList.mem_erase.mpr ⟨other, valid⟩
                exact member
        · cases removed

theorem unset_kept {text : String} (kept : f.Kept) : (f.unset db text).Kept := by
  unfold unset
  split
  · exact kept
  · split
    · exact kept
    · rename_i lease found
      exact updateLease_kept kept found (kept.key_ip _ lease found)

theorem set_kept {text : String} (kept : f.Kept) : (f.set db vid text).2.Kept := by
  unfold set
  split
  · exact kept
  · split
    · exact kept
    · rename_i lease found
      split
      · exact kept
      · exact updateLease_kept kept found (kept.key_ip _ lease found)

theorem addLeases_kept {lease? : Option (String × String)} (kept : f.Kept) :
    (f.addLeases db lease?).2.Kept := by
  unfold addLeases
  split
  · exact kept
  · split
    · exact kept
    · rename_i added
      exact (add_placed kept.toPlaced added).resize

theorem removeLeases_kept {ip? : Option String} (kept : f.Kept) :
    (f.removeLeases db ip?).2.Kept := by
  unfold removeLeases
  split
  · exact kept
  · split
    · exact kept
    · rename_i removed
      exact (remove_placed kept.toPlaced removed).resize

theorem new_kept {macPrefix : Nat} {dbs : Nat → Bool} {vectorLeases : List (String × String)} :
    (new macPrefix dbs vectorLeases).Kept := by
  have empty : Placed ⟨⟨∅, 0, macPrefix, ∅⟩, 0, .past⟩ := by
    refine ⟨fun k lease found => ?_, .inl trivial⟩
    cases found
  unfold new
  apply Placed.resize
  apply List.foldlRecOn _ _ empty
  intro f placed row _
  dsimp only
  split
  · rename_i added
    exact add_placed placed added
  · exact placed

/-! ### The search -/

/-- A search position as an element of the map or its end. -/
def position : LeaseCursor → Option Nat
  | .on ip => some ip
  | _ => none

/-- The lease under an address is used. -/
def InUse (f : FixedLeases) (k : Nat) : Prop :=
  ∃ lease, f.leases.lookup k = some lease ∧ lease.used = true

theorem next_isNext (f : FixedLeases) (ip : Nat) :
    CyclicScan.IsNext f.leases.keys.toFinset ip (position (f.next ip)) := by
  unfold next
  cases lowest : (f.leases.keys.filter (ip < ·)).min? with
  | none =>
    have none := List.min?_eq_none_iff.mp lowest
    intro k member
    refine Nat.not_lt.mp fun above => ?_
    have inside : k ∈ f.leases.keys.filter (ip < ·) :=
      List.mem_filter.mpr ⟨List.mem_toFinset.mp member, decide_eq_true above⟩
    rw [none] at inside
    cases inside
  | some ip' =>
    obtain ⟨member, least⟩ := List.min?_eq_some_iff.mp lowest
    have inside := List.mem_filter.mp member
    refine ⟨List.mem_toFinset.mpr inside.1, of_decide_eq_true inside.2, fun k other above => ?_⟩
    exact least k (List.mem_filter.mpr ⟨List.mem_toFinset.mp other, decide_eq_true above⟩)

/-- A search that ends without a lease was a scan of used leases. -/
theorem search_scans {c' : LeaseCursor} (valid : f.Valid c) (ended : f.search n c = .exhausted c') :
    CyclicScan.Scans f.leases.keys.toFinset f.InUse n (position c) := by
  induction n generalizing c with
  | zero => exact .done
  | succ n ih =>
    have from_lease : ∀ ip, c = .on ip ∨ c = .past ∧ f.first = .on ip →
        ip ∈ f.leases.keys →
        CyclicScan.Scans f.leases.keys.toFinset f.InUse (n + 1) (some ip) := by
      intro ip starts member
      have at_lease : (if c = .past then f.first else c) = .on ip := by
        rcases starts with rfl | ⟨rfl, first⟩
        · rfl
        · exact first
      unfold search at ended
      rw [at_lease] at ended
      dsimp only at ended
      split at ended
      · rename_i lease found
        split at ended
        · rename_i used
          exact .step (List.mem_toFinset.mpr member) ⟨lease, found, used⟩ (f.next_isNext ip)
            (ih (f.next_valid ip) ended)
        · cases ended
      · cases ended
    cases c with
    | on ip => exact from_lease ip (.inl rfl) valid
    | dangling => exact absurd valid id
    | past =>
      cases first : f.first with
      | on ip =>
        unfold FixedLeases.first at first
        split at first
        · rename_i lowest
          cases first
          obtain ⟨member, least⟩ := List.min?_eq_some_iff.mp lowest
          refine .wrap (fun k other => least k (List.mem_toFinset.mp other))
            (from_lease ip (.inr ⟨rfl, ?_⟩) member)
          rw [FixedLeases.first, lowest]
        · cases first
      | past =>
        unfold search at ended
        rw [if_pos rfl, first] at ended
        cases ended
      | dangling =>
        unfold search at ended
        rw [if_pos rfl, first] at ended
        cases ended

/-- A search over the whole network that ends without a lease has seen them all used. -/
theorem search_exhausted {c' : LeaseCursor} (kept : f.Kept) (valid : f.Valid f.current)
    (ended : f.search f.size f.current = .exhausted c') : ∀ k ∈ f.leases.keys, f.InUse k := by
  have scans := search_scans valid ended
  have nodup : f.leases.keys.Nodup := f.leases.keys_nodup
  rw [kept.size, ← List.toFinset_card_of_nodup nodup] at scans
  exact fun k member => scans.passes_all k (List.mem_toFinset.mpr member)

/-- A search that is defined has started at a valid position. -/
theorem valid_of_search (kept : f.Kept) (nonempty : f.leases.keys ≠ [])
    (defined : f.search f.size f.current ≠ .undefined) : f.Valid f.current := by
  rcases kept.current with valid | dangling
  · exact valid
  · have positive := List.length_pos_of_ne_nil nonempty
    obtain ⟨n, more⟩ := Nat.exists_eq_succ_of_ne_zero (show f.size ≠ 0 by rw [kept.size]; omega)
    rw [more, dangling] at defined
    exact absurd rfl defined

theorem get_kept {out : Except LeaseError Nat × FixedLeases} (kept : f.Kept)
    (got : f.get db vid = some out) : out.2.Kept := by
  unfold get at got
  split at got
  · cases got
    exact kept
  · rename_i nonempty
    have valid := valid_of_search kept nonempty
    cases ended : f.search f.size f.current with
    | undefined =>
      rw [ended] at got
      cases got
    | exhausted c =>
      rw [ended] at got valid
      have searched := search_spec (n := f.size) nonempty (valid (by simp))
      rw [ended] at searched
      cases got
      exact ⟨⟨kept.key_ip, .inl searched⟩, kept.size⟩
    | found ip lease =>
      rw [ended] at got valid
      have searched := search_spec (n := f.size) nonempty (valid (by simp))
      rw [ended] at searched
      have updated := @updateLease_kept f db ip lease { lease with used := true, vid := vid } kept
        searched.1 (kept.key_ip ip lease searched.1)
      cases got
      exact ⟨⟨updated.key_ip, .inl (next_valid _ ip)⟩, updated.size⟩

end FixedLeases

/-! ## Either kind -/

namespace VnLeases

variable {v w : VnLeases} {op : LeaseOp} {vid : Int} {db : Bool} {dbs : Nat → Bool}

/-- The virtual `Leases::get`; `none` stands for undefined behaviour. -/
def get (v : VnLeases) (dbs : Nat → Bool) (vid : Int) :
    Option (Except LeaseError Nat × VnLeases) :=
  match v with
  | .ranged r => some ((r.get dbs vid).1, .ranged (r.get dbs vid).2)
  | .fixed f => (f.get (dbs 0) vid).map fun out => (out.1, .fixed out.2)

/-- What every operation keeps, whatever the database answers. -/
def Kept : VnLeases → Prop
  | .ranged r => r.Good
  | .fixed f => f.Kept

/-- A ranged network as its template defines it. -/
theorem created_of_template {log : Nat → ℚ} {defaultSize : Int} {tmpl tmpl' : Template}
    {macPrefix ipStart ipEnd : Nat}
    (accepted : RangedLeases.processTemplate log defaultSize tmpl =
      some (.ok (ipStart, ipEnd, tmpl'))) :
    ∃ ordered word, Created (.ranged (RangedLeases.new macPrefix ipStart ipEnd ordered word)) :=
  have range := RangedLeases.processTemplate_ordered accepted
  ⟨range.1, range.2, .ranged macPrefix ipStart ipEnd range.1 range.2⟩

theorem Created.kept (created : Created v) : v.Kept := by
  cases created with
  | ranged => exact RangedLeases.new_good
  | fixed => exact FixedLeases.new_kept

theorem set_kept {ip : String} (kept : v.Kept) : (v.set db vid ip).2.Kept := by
  cases v with
  | ranged r => exact RangedLeases.set_good kept
  | fixed f => exact FixedLeases.set_kept kept

theorem release_kept {ip : String} (kept : v.Kept) : (v.release db ip).Kept := by
  cases v with
  | ranged r => exact RangedLeases.del_good kept
  | fixed f => exact FixedLeases.unset_kept kept

theorem holdLeases_kept {ip? : Option String} (kept : v.Kept) :
    (v.holdLeases db ip?).2.Kept := by
  unfold holdLeases
  split
  · exact kept
  · rename_i ip
    have held := @set_kept v (-1) db ip kept
    split
    · exact kept
    · split
      · rename_i out
        rw [out] at held
        exact held
      · rename_i out
        rw [out] at held
        exact held

theorem freeLeases_kept {ip? : Option String} (kept : v.Kept) :
    (v.freeLeases db ip?).2.Kept := by
  unfold freeLeases
  split
  · exact kept
  · split
    · exact kept
    · split
      · exact kept
      · split
        · exact kept
        · exact release_kept kept

/-- Every operation that is defined keeps the network as it should be for the search. -/
theorem step_kept (kept : v.Kept) (taken : v.step op dbs = some w) : w.Kept := by
  cases op with
  | get vid =>
    cases v with
    | ranged r =>
      cases taken
      exact RangedLeases.get_good kept
    | fixed f =>
      obtain ⟨out, got, rfl⟩ := Option.map_eq_some_iff.mp taken
      exact FixedLeases.get_kept kept got
  | set vid ip =>
    cases taken
    exact set_kept kept
  | release ip =>
    cases taken
    exact release_kept kept
  | addLeases lease? =>
    cases v with
    | ranged r =>
      cases taken
      exact kept
    | fixed f =>
      cases taken
      exact FixedLeases.addLeases_kept kept
  | removeLeases ip? =>
    cases v with
    | ranged r =>
      cases taken
      exact kept
    | fixed f =>
      cases taken
      exact FixedLeases.removeLeases_kept kept
  | holdLeases ip? =>
    cases taken
    exact holdLeases_kept kept
  | freeLeases ip? =>
    cases taken
    exact freeLeases_kept kept

/-! ## A lease is found whenever one is free -/

/-- An address of the network that is neither used nor on hold. -/
def FreeAddress : VnLeases → Nat → Prop
  | .ranged r, k => r.ipStart ≤ k ∧ k ≤ r.ipEnd ∧ r.check k = false
  | .fixed f, k => ∃ lease, f.leases.lookup k = some lease ∧ lease.used = false

/-- `get` gives an address that was free, and fails only if there is none. -/
def Finds (v : VnLeases) (vid : Int) : Prop :=
  match v.get answers vid with
  | none => False
  | some (.ok ip, _) => v.FreeAddress ip
  | some (.error _, _) => ∀ k, ¬ v.FreeAddress k

/-- A ranged network does not have all 2^32 addresses, or none of them is free; the search of a
fixed network with leases does not start at a lease that was removed. -/
def Searchable : VnLeases → Prop
  | .ranged r => ¬ (r.ipStart = 0 ∧ r.ipEnd = 2 ^ 32 - 1) ∨ ∀ k, r.ipStart ≤ k → k ≤ r.ipEnd →
      r.check k = true
  | .fixed f => f.leases.keys = [] ∨ f.current ≠ .dangling

/-- A step of a run in which every search of a fixed network is defined. -/
def SearchGuard (v : VnLeases) : LeaseOp → Prop
  | .get _ =>
    match v with
    | .ranged _ => True
    | .fixed _ => v.Searchable
  | _ => True

theorem size_eq_zero_iff {r : RangedLeases} :
    r.size = 0 ↔ r.ipStart = 0 ∧ r.ipEnd = 2 ^ 32 - 1 := by
  have word := r.word
  have ordered := r.ordered
  unfold RangedLeases.size
  omega

theorem finds_ranged_iff {r : RangedLeases} (good : r.Good) :
    (VnLeases.ranged r).Finds vid ↔ (VnLeases.ranged r).Searchable := by
  unfold Finds Searchable get
  dsimp only
  rw [← size_eq_zero_iff]
  cases loop : RangedLeases.getLoop answers vid r.size r with
  | mk found r' =>
    have whole := Nat.le_refl r.size
    cases found with
    | some ip =>
      have got : (r.get answers vid).1 = .ok ip := by rw [RangedLeases.get, loop]
      rw [got]
      have free := RangedLeases.getLoop_some good whole (congrArg Prod.fst loop)
      refine iff_of_true free (.inl fun empty => ?_)
      rw [empty] at loop
      cases loop
    | none =>
      have got : (r.get answers vid).1 = .error .notFree := by rw [RangedLeases.get, loop]
      rw [got]
      have seen := RangedLeases.getLoop_none good whole (congrArg Prod.fst loop)
      have leased : ∀ k, ¬ (VnLeases.ranged r).FreeAddress k ↔
          (r.ipStart ≤ k → k ≤ r.ipEnd → r.check k = true) := by
        intro k
        constructor
        · intro none lower upper
          cases checked : r.check k with
          | true => rfl
          | false => exact absurd ⟨lower, upper, checked⟩ none
        · intro leased free
          have used := leased free.1 free.2.1
          rw [free.2.2] at used
          cases used
      rw [forall_congr' leased]
      refine ⟨.inr, fun searchable => ?_⟩
      rcases searchable with part | all
      · intro k lower upper
        obtain ⟨i, below, rfl⟩ := RangedLeases.exists_addressAt good part ⟨lower, upper⟩
        exact seen i below
      · exact all

theorem finds_fixed_iff {f : FixedLeases} (kept : f.Kept) :
    (VnLeases.fixed f).Finds vid ↔ (VnLeases.fixed f).Searchable := by
  unfold Finds Searchable get
  dsimp only
  by_cases empty : f.leases.keys = []
  · have got : f.get (answers 0) vid = some (.error .notFree, f) := if_pos empty
    rw [got]
    refine iff_of_true (fun k free => ?_) (.inl empty)
    obtain ⟨lease, found, _⟩ := free
    have member : k ∈ f.leases.keys := AList.lookup_isSome.mp (by rw [found]; rfl)
    rw [empty] at member
    cases member
  · rw [or_iff_right empty]
    have valid := FixedLeases.valid_of_search kept empty
    cases ended : f.search f.size f.current with
    | undefined =>
      have got : f.get (answers 0) vid = none := by
        rw [FixedLeases.get, if_neg empty, ended]
      rw [got]
      refine iff_of_false id fun defined => ?_
      have searched := FixedLeases.search_spec (n := f.size) empty
        (kept.current.resolve_right defined)
      rw [ended] at searched
      exact searched
    | exhausted c =>
      rw [ended] at valid
      have valid := valid (by simp)
      have got : f.get (answers 0) vid = some (.error .notFree, { f with current := c }) := by
        rw [FixedLeases.get, if_neg empty, ended]
      rw [got]
      refine iff_of_true (fun k free => ?_) fun dangling => by rw [dangling] at valid; exact valid
      obtain ⟨lease, found, unused⟩ := free
      have member : k ∈ f.leases.keys := AList.lookup_isSome.mp (by rw [found]; rfl)
      obtain ⟨lease', found', used⟩ := FixedLeases.search_exhausted kept valid ended k member
      rw [found] at found'
      cases found'
      rw [unused] at used
      cases used
    | found ip lease =>
      rw [ended] at valid
      have valid := valid (by simp)
      have searched := FixedLeases.search_spec (n := f.size) empty valid
      rw [ended] at searched
      have got : ∃ f', f.get (answers 0) vid = some (.ok lease.ip, f') := by
        rw [FixedLeases.get, if_neg empty, ended]
        exact ⟨_, rfl⟩
      obtain ⟨f', got⟩ := got
      rw [got]
      refine iff_of_true ?_ fun dangling => by rw [dangling] at valid; exact valid
      rw [kept.key_ip ip lease searched.1]
      exact ⟨lease, searched⟩

/-- A search that does not start at a lease that was removed is defined. -/
theorem step_defined (kept : v.Kept) (guard : v.SearchGuard op) : v.step op dbs ≠ none := by
  cases op with
  | get vid =>
    cases v with
    | ranged r => exact Option.some_ne_none _
    | fixed f =>
      unfold step
      rw [ne_eq, Option.map_eq_none_iff]
      unfold FixedLeases.get
      split
      · exact Option.some_ne_none _
      · rename_i nonempty
        have searched := FixedLeases.search_spec (n := f.size) nonempty
          (kept.current.resolve_right (guard.resolve_left nonempty))
        split
        · rename_i ended
          rw [ended] at searched
          exact absurd searched id
        · exact Option.some_ne_none _
        · exact Option.some_ne_none _
  | set vid ip => exact Option.some_ne_none _
  | release ip => exact Option.some_ne_none _
  | addLeases lease? => cases v <;> exact Option.some_ne_none _
  | removeLeases ip? => cases v <;> exact Option.some_ne_none _
  | holdLeases ip? => exact Option.some_ne_none _
  | freeLeases ip? => exact Option.some_ne_none _

/-- A run in which every search is defined keeps the network as it should be. -/
theorem kept_of_reached (reached : Reachable Created (Guarded SearchGuard Step) v) : v.Kept := by
  refine reached.invariant (fun _ => Created.kept) fun v op w kept taken => ?_
  have step := taken.2
  unfold Step at step
  cases after : v.step op answers with
  | some after' =>
    rw [after] at step
    rw [step]
    exact step_kept kept after
  | none => exact absurd after (step_defined kept taken.1)

/-- In the runs of a network in which every search is defined, a lease is found whenever one is
free exactly in the states that are searchable. -/
theorem finds_iff (reached : Reachable Created (Guarded SearchGuard Step) v) (vid : Int) :
    v.Finds vid ↔ v.Searchable := by
  have kept := kept_of_reached reached
  cases v with
  | ranged r => exact finds_ranged_iff kept
  | fixed f => exact finds_fixed_iff kept

/-- A fixed network of three leases. -/
def freshLeases : FixedLeases :=
  FixedLeases.new 512 answers [("10.0.0.1", ""), ("10.0.0.2", ""), ("10.0.0.3", "")]

theorem current_freshLeases : freshLeases.current ≠ .dangling := by
  decide +kernel

/-- A lease is given to a VM, and another one is held and freed again. -/
def getHoldFree (v : VnLeases) : Option VnLeases := do
  let v ← v.step (.get 7) answers
  let v ← v.step (.holdLeases (some "10.0.0.2")) answers
  v.step (.freeLeases (some "10.0.0.2")) answers

/-- The search goes on in what is left. -/
theorem finds_iff_freed : ∃ v, getHoldFree (.fixed freshLeases) = some v ∧ v.base.nUsed = 1 ∧
    (v.Finds 8 ↔ v.Searchable) := by
  obtain ⟨start, is, created, guard, run⟩ : ∃ v, v = .fixed freshLeases ∧ Created v ∧
      SearchGuard v (.get 7) ∧ (getHoldFree v).map (fun v => v.base.nUsed) = some 1 :=
    ⟨_, rfl, .fixed 512 _, .inr current_freshLeases, by decide +kernel⟩
  rw [← is]
  obtain ⟨v, ends, used⟩ := Option.map_eq_some_iff.mp run
  have parts := ends
  unfold getHoldFree at parts
  obtain ⟨v₁, got, rest⟩ := Option.bind_eq_some_iff.mp parts
  obtain ⟨v₂, held, freed⟩ := Option.bind_eq_some_iff.mp rest
  have step {v w : VnLeases} {op : LeaseOp} (taken : v.step op answers = some w) : Step v op w := by
    unfold Step
    rw [taken]
  exact ⟨v, ends, used, finds_iff (.step (l := .freeLeases (some "10.0.0.2"))
    (.step (l := .holdLeases (some "10.0.0.2")) (.step (.init created) ⟨guard, step got⟩)
      ⟨trivial, step held⟩) ⟨trivial, step freed⟩) 8⟩

/-- A network of all addresses, which its template defines by MAC addresses, finds no lease
although all are free. A fixed network whose next lease is removed has undefined behaviour. -/
theorem no_lease_found :
    RangedLeases.processTemplate Binary64.roundedLog 254
        [.single "MAC_START" "02:00:00:00:00:00", .single "NETWORK_SIZE" "4294967295"] =
        some (.ok (0, 4294967295, [])) ∧
      ¬ (VnLeases.ranged (RangedLeases.new 512 0 4294967295 (by decide) (by decide))).Finds 7 ∧
      ∃ v, Reachable Created Step v ∧ ¬ v.Finds 7 := by
  refine ⟨by decide +kernel, fun finds => ?_, ?_⟩
  · exact finds 0 ⟨Nat.le_refl 0, Nat.zero_le _, rfl⟩
  · have run : ([LeaseOp.get 7, .removeLeases (some "10.0.0.2")].foldlM
        (fun v op => VnLeases.step v op answers)
        (.fixed (FixedLeases.new 512 answers [("10.0.0.1", ""), ("10.0.0.2", ""),
          ("10.0.0.3", "")]))).map (fun v => (v.get answers 7).isNone) = some true := by
      decide +kernel
    obtain ⟨v, reached, undefined⟩ := Option.map_eq_some_iff.mp run
    refine ⟨v, .foldlM _ _ (fun v op w taken => ?_) (.init (.fixed 512 _)) reached,
      fun finds => ?_⟩
    · unfold Step
      rw [taken]
    · unfold Finds at finds
      rw [Option.isNone_iff_eq_none.mp undefined] at finds
      exact finds

end VnLeases

end Ezilla

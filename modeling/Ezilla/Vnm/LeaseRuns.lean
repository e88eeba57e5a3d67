import Ezilla.Vnm.LeaseInvariant

/-!
# The runs of a virtual network

Each operation of `VnLeases.step` is one `LeaseChange`, from tables that are consistent and
with a database that answers every statement. `VnLeases.Good` is what the operations keep
beyond the tables: a ranged network has only used leases inside its range and its search
position stays inside too, and the search position of a fixed network is the end of the
map or one of its leases until that lease is removed.

Two operations do not fit when they are called in the wrong place. `release` on a free
lease of a fixed network counts it down although it was not used, and `get` on a fixed
network follows the search position, which is dangling after the lease there was removed.
`LeaseOp.Proper` excludes these two, and `reachable_consistent` is about the runs without
them.
-/

namespace Ezilla

open Transition

/-- A database that does not fail. -/
def answers (_ : Nat) : Bool := true

theorem Leases.Consistent.insertRow {l : Leases} {lease : Lease} (consistent : l.Consistent)
    (absent : l.leases.lookup lease.ip = none) :
    l.insertRow true lease = some (l.rows.insert lease.ip lease) := by
  have noRow : l.rows.lookup lease.ip = none := by rw [consistent.rows, absent]
  simp [Leases.insertRow, noRow]

/-! ## Ranged networks -/

namespace RangedLeases

variable {freed : Nat → Prop} {r r' : RangedLeases} {ip : Nat} {vid : Int}

/-- What the operations keep on a ranged network. -/
structure Good (r : RangedLeases) : Prop where
  consistent : r.Consistent
  used : ∀ k lease, r.leases.lookup k = some lease → lease.used = true
  inside : ∀ k lease, r.leases.lookup k = some lease → r.ipStart ≤ k ∧ k ≤ r.ipEnd
  current : r.current < r.size ∨ r.size = 0

theorem new_good {macPrefix ipStart ipEnd : Nat} {ordered : ipStart ≤ ipEnd}
    {word : ipEnd < 2 ^ 32} : (new macPrefix ipStart ipEnd ordered word).Good := by
  refine ⟨⟨fun k lease found => ?_, rfl, fun k => rfl⟩, fun k lease found => ?_,
    fun k lease found => ?_, ?_⟩
  · cases found
  · cases found
  · cases found
  · exact (Nat.eq_zero_or_pos _).symm

theorem Good.lookup_eq_none (good : r.Good) (free : r.check ip = false) :
    r.leases.lookup ip = none := by
  cases found : r.leases.lookup ip with
  | none => rfl
  | some lease =>
    rw [Leases.check_of_lookup found, good.used ip lease found] at free
    cases free

/-- Moving the search position inside the range keeps the network good. -/
theorem Good.move (good : r.Good) : Good { r with current := (r.current + 1) % r.size } := by
  refine ⟨good.consistent, good.used, good.inside, ?_⟩
  rcases Nat.eq_zero_or_pos r.size with empty | positive
  · exact .inr empty
  · exact .inl (Nat.mod_lt _ positive)

/-- `add` on an address of the range that is not leased. -/
theorem add_spec (good : r.Good) (free : r.check ip = false)
    (inside : r.ipStart ≤ ip ∧ ip ≤ r.ipEnd) :
    ∃ r', r.add true ip vid = some r' ∧ LeaseChange freed r.toLeases r'.toLeases ∧ r'.Good := by
  have absent := good.lookup_eq_none free
  have stored : r.insertRow true ⟨ip, r.macPrefix, ip, vid, true⟩ =
      some (r.rows.insert ip ⟨ip, r.macPrefix, ip, vid, true⟩) :=
    good.consistent.insertRow absent
  unfold add
  simp only [stored, absent, if_true]
  refine ⟨_, rfl, ?_⟩
  have change : LeaseChange freed r.toLeases
      { r.toLeases with
        leases := r.leases.insert ip ⟨ip, r.macPrefix, ip, vid, true⟩
        rows := r.rows.insert ip ⟨ip, r.macPrefix, ip, vid, true⟩
        nUsed := r.nUsed + 1 } :=
    .take ⟨ip, r.macPrefix, ip, vid, true⟩ free rfl rfl rfl rfl
  refine ⟨change, good.consistent.change change, fun k lease found => ?_,
    fun k lease found => ?_, good.current⟩
  · rcases eq_or_ne k ip with same | other
    · subst same
      rw [AList.lookup_insert] at found
      cases found
      rfl
    · rw [AList.lookup_insert_ne other] at found
      exact good.used k lease found
  · rcases eq_or_ne k ip with same | other
    · rw [same]
      exact inside
    · rw [AList.lookup_insert_ne other] at found
      exact good.inside k lease found

/-- The address that the search looks at is in the range. -/
theorem Good.position (good : r.Good) (some : r.size ≠ 0) :
    r.ipStart ≤ (r.ipStart + r.current) % 2 ^ 32 ∧
      (r.ipStart + r.current) % 2 ^ 32 ≤ r.ipEnd := by
  have bound : r.current < r.size := good.current.resolve_right some
  have size_le : r.size ≤ r.ipEnd - r.ipStart + 1 := Nat.mod_le _ _
  have ordered := r.ordered
  have word := r.word
  have small : r.ipStart + r.current < 2 ^ 32 := by omega
  rw [Nat.mod_eq_of_lt small]
  omega

theorem getLoop_spec {n : Nat} (good : r.Good) (bound : n ≤ r.size) :
    LeaseChange freed r.toLeases (getLoop answers vid n r).2.toLeases ∧
      (getLoop answers vid n r).2.Good := by
  induction n generalizing r with
  | zero => exact ⟨.same rfl rfl rfl, good⟩
  | succ n ih =>
    have moved := ih good.move (Nat.le_of_succ_le bound)
    unfold getLoop
    cases checked : r.check ((r.ipStart + r.current) % 2 ^ 32) with
    | true =>
      simp only [checked, if_true]
      exact moved
    | false =>
      obtain ⟨r', added, change, good'⟩ :=
        @add_spec freed r _ vid good checked (good.position (by omega))
      simp only [checked, Bool.false_eq_true, if_false, answers, added]
      exact ⟨change, good'⟩

theorem get_spec (good : r.Good) :
    LeaseChange freed r.toLeases (r.get answers vid).2.toLeases ∧
      (r.get answers vid).2.Good := by
  have loop := @getLoop_spec freed r vid _ good (Nat.le_refl r.size)
  unfold get
  split <;> rename_i out
  · rw [out] at loop
    exact loop
  · rw [out] at loop
    exact loop

theorem set_spec {ip : String} (good : r.Good) :
    LeaseChange freed r.toLeases (r.set true vid ip).2.toLeases ∧
      (r.set true vid ip).2.Good := by
  have same : LeaseChange freed r.toLeases r.toLeases ∧ r.Good := ⟨.same rfl rfl rfl, good⟩
  unfold set
  split
  · exact same
  · split
    · exact same
    · rename_i numIp _ inside
      push Not at inside
      split
      · exact same
      · rename_i free
        obtain ⟨r', added, change, good'⟩ :=
          @add_spec freed r _ vid good (Bool.eq_false_of_not_eq_true free) inside
        rw [added]
        exact ⟨change, good'⟩

theorem del_spec {ip : String} (good : r.Good) (allowed : ∀ k, ipToNumber ip = some k → freed k) :
    LeaseChange freed r.toLeases (r.del true ip).toLeases ∧ (r.del true ip).Good := by
  have same : LeaseChange freed r.toLeases r.toLeases ∧ r.Good := ⟨.same rfl rfl rfl, good⟩
  unfold del
  split
  · exact same
  · rename_i numIp read
    split
    · exact same
    · rename_i lease found
      have used : r.check numIp = true := by
        rw [Leases.check_of_lookup found, good.used numIp lease found]
      have change : LeaseChange freed r.toLeases
          { r.toLeases with
            leases := r.leases.erase numIp
            rows := r.rows.erase numIp
            nUsed := r.nUsed - 1 } :=
        .drop numIp (allowed numIp read) used rfl rfl rfl
      simp only [if_true]
      refine ⟨change, good.consistent.change change, fun k lease found => ?_,
        fun k lease found => ?_, good.current⟩
      · rcases eq_or_ne k numIp with here | other
        · rw [here, AList.lookup_erase] at found
          cases found
        · rw [AList.lookup_erase_ne other] at found
          exact good.used k lease found
      · rcases eq_or_ne k numIp with here | other
        · rw [here, AList.lookup_erase] at found
          cases found
        · rw [AList.lookup_erase_ne other] at found
          exact good.inside k lease found

end RangedLeases

/-! ## Fixed networks -/

namespace FixedLeases

variable {freed : Nat → Prop} {f : FixedLeases} {c : LeaseCursor} {vid : Int}

/-- A search position that `get` can start from. -/
def Valid (f : FixedLeases) : LeaseCursor → Prop
  | .past => True
  | .on ip => ip ∈ f.leases.keys
  | .dangling => False

/-- What the operations keep on a fixed network. -/
structure Good (f : FixedLeases) : Prop where
  consistent : f.Consistent
  current : f.Valid f.current ∨ f.current = .dangling

theorem first_valid (f : FixedLeases) : f.Valid f.first := by
  unfold first
  cases lowest : f.leases.keys.min? with
  | none => trivial
  | some ip => exact List.min?_mem lowest

theorem first_of_ne_nil (nonempty : f.leases.keys ≠ []) : ∃ ip, f.first = .on ip := by
  unfold first
  cases lowest : f.leases.keys.min? with
  | none => exact absurd (List.min?_eq_none_iff.mp lowest) nonempty
  | some ip => exact ⟨ip, rfl⟩

theorem next_valid (f : FixedLeases) (ip : Nat) : f.Valid (f.next ip) := by
  unfold next
  cases lowest : (f.leases.keys.filter (ip < ·)).min? with
  | none => trivial
  | some ip' => exact List.mem_of_mem_filter (List.min?_mem lowest)

/-- A search from a valid position in a network with leases ends at a lease that is not
used, or at a valid position. -/
theorem search_spec {n : Nat} (nonempty : f.leases.keys ≠ []) (valid : f.Valid c) :
    match f.search n c with
    | .found ip lease => f.leases.lookup ip = some lease ∧ lease.used = false
    | .exhausted c' => f.Valid c'
    | .undefined => False := by
  induction n generalizing c with
  | zero => exact valid
  | succ n ih =>
    have start : ∃ ip, (if c = .past then f.first else c) = .on ip ∧ ip ∈ f.leases.keys := by
      cases c with
      | past =>
        obtain ⟨ip, first⟩ := first_of_ne_nil nonempty
        have member := f.first_valid
        rw [first] at member
        exact ⟨ip, first, member⟩
      | on ip => exact ⟨ip, rfl, valid⟩
      | dangling => exact absurd valid id
    obtain ⟨ip, position, member⟩ := start
    obtain ⟨lease, found⟩ := Option.isSome_iff_exists.mp (AList.lookup_isSome.mpr member)
    unfold search
    rw [position]
    simp only [found]
    cases used : lease.used with
    | true =>
      simp only [if_true]
      exact ih (f.next_valid ip)
    | false =>
      simp only [Bool.false_eq_true, if_false]
      exact ⟨found, used⟩

/-- Adding leases to the map leaves the search position valid. -/
theorem Valid.insert {f' : FixedLeases} {ip : Nat} {lease : Lease} (valid : f.Valid c)
    (leases : f'.leases = f.leases.insert ip lease) : f'.Valid c := by
  cases c with
  | past => trivial
  | on k =>
    have member : k ∈ f.leases.insert ip lease := AList.mem_insert _ |>.mpr (.inr valid)
    rw [← leases] at member
    exact member
  | dangling => exact absurd valid id

/-- Writing back a lease whose flag is flipped. -/
theorem updateLease_spec {key : Nat} {before after : Lease} (good : f.Good)
    (found : f.leases.lookup key = some before) (ip : after.ip = key)
    (flipped : after.used = !before.used) (allowed : before.used = true → freed key) :
    LeaseChange freed f.toLeases (f.updateLease true key after).toLeases ∧
      (f.updateLease true key after).Good := by
  subst ip
  have row : f.rows.lookup after.ip ≠ none := by
    rw [good.consistent.rows, found]
    exact Option.some_ne_none _
  have rows : f.updateRow after = f.rows.insert after.ip after := if_neg row
  have change : LeaseChange freed f.toLeases (f.updateLease true after.ip after).toLeases := by
    cases used : before.used with
    | true =>
      rw [used] at flipped
      refine .free after (allowed used) ?_ flipped rfl rows ?_
      · rw [Leases.check_of_lookup found, used]
      · exact if_neg (by rw [flipped]; decide)
    | false =>
      rw [used] at flipped
      refine .take after ?_ flipped rfl rows ?_
      · rw [Leases.check_of_lookup found, used]
      · exact if_pos flipped
  refine ⟨change, good.consistent.change change, ?_⟩
  rcases good.current with valid | dangling
  · left
    exact valid.insert rfl
  · exact .inr dangling

/-- A new lease is offered, whichever of its two addresses was given. -/
theorem add_spec {ip mac : String} {f' : FixedLeases} (good : f.Good)
    (added : f.add true ip mac (-1) false = .ok f') :
    LeaseChange freed f.toLeases f'.toLeases ∧ f'.Good := by
  unfold add at added
  split at added
  · cases added
  · dsimp only at added
    split at added
    · cases added
    · cases added
    · rename_i numIp? numMac? _ _
      generalize numIp?.getD (numMac?.getD (0, 0)).2 = numIp at added
      generalize numMac?.getD (f.macPrefix, numIp) = numMac at added
      split at added
      · cases added
      · rename_i absent
        rw [Option.not_isSome_iff_eq_none] at absent
        have stored : f.insertRow true ⟨numIp, numMac.1, numMac.2, -1, false⟩ =
            some (f.rows.insert numIp ⟨numIp, numMac.1, numMac.2, -1, false⟩) :=
          good.consistent.insertRow absent
        rw [stored] at added
        cases added
        have change : LeaseChange freed f.toLeases
            { f.toLeases with
              leases := f.leases.insert numIp ⟨numIp, numMac.1, numMac.2, -1, false⟩
              rows := f.rows.insert numIp ⟨numIp, numMac.1, numMac.2, -1, false⟩ } :=
          .offer ⟨numIp, numMac.1, numMac.2, -1, false⟩ absent rfl rfl rfl rfl
        exact ⟨change, good.consistent.change change,
          good.current.imp (fun valid => valid.insert rfl) id⟩

theorem remove_spec {ip : String} {f' : FixedLeases} (good : f.Good)
    (removed : f.remove true ip = .ok f') :
    LeaseChange freed f.toLeases f'.toLeases ∧ f'.Good := by
  unfold remove at removed
  split at removed
  · cases removed
  · rename_i numIp _
    split at removed
    · cases removed
    · rename_i lease found
      split at removed
      · cases removed
      · rename_i unused
        simp only [if_true] at removed
        cases removed
        have free : f.check numIp = false := by
          rw [Leases.check_of_lookup found]
          exact Bool.eq_false_of_not_eq_true unused
        have change : LeaseChange freed f.toLeases
            { f.toLeases with
              leases := f.leases.erase numIp
              rows := f.rows.erase numIp } :=
          .remove numIp free rfl rfl rfl
        refine ⟨change, good.consistent.change change, ?_⟩
        rcases good.current with valid | dangling
        · -- the search position dangles when it was at the lease that is erased
          cases at? : f.current with
          | past => exact .inl trivial
          | dangling => exact .inr rfl
          | on k =>
            rw [at?] at valid
            rcases eq_or_ne k numIp with here | other
            · right
              simp [here]
            · left
              have apart : LeaseCursor.on k ≠ .on numIp := fun same => other (by cases same; rfl)
              simp only [if_neg apart]
              have member : k ∈ f.leases.erase numIp := AList.mem_erase.mpr ⟨other, valid⟩
              exact member
        · right
          simp [dangling]

theorem unset_spec {ip : String} (good : f.Good) (allowed : ∀ k, ipToNumber ip = some k → freed k)
    (proper : ∀ k lease, ipToNumber ip = some k → f.leases.lookup k = some lease →
      lease.used = true) :
    LeaseChange freed f.toLeases (f.unset true ip).toLeases ∧ (f.unset true ip).Good := by
  have same : LeaseChange freed f.toLeases f.toLeases ∧ f.Good := ⟨.same rfl rfl rfl, good⟩
  unfold unset
  split
  · exact same
  · rename_i numIp read
    split
    · exact same
    · rename_i lease found
      have used : lease.used = true := proper numIp lease read found
      exact updateLease_spec good found (good.consistent.key_ip numIp lease found)
        (by rw [used]; rfl) fun _ => allowed numIp read

theorem set_spec {ip : String} (good : f.Good) :
    LeaseChange freed f.toLeases (f.set true vid ip).2.toLeases ∧
      (f.set true vid ip).2.Good := by
  have same : LeaseChange freed f.toLeases f.toLeases ∧ f.Good := ⟨.same rfl rfl rfl, good⟩
  unfold set
  split
  · exact same
  · split
    · exact same
    · rename_i numIp _ _ lease found
      split
      · exact same
      · rename_i unused
        have free : lease.used = false := Bool.eq_false_of_not_eq_true unused
        exact updateLease_spec good found (good.consistent.key_ip numIp lease found)
          (by rw [free]; rfl) fun used => absurd used unused

/-- `get` is defined unless its search position is dangling. -/
theorem get_spec (good : f.Good) (valid : f.current ≠ .dangling) :
    ∃ out, f.get true vid = some out ∧ LeaseChange freed f.toLeases out.2.toLeases ∧
      out.2.Good := by
  unfold get
  split
  · exact ⟨_, rfl, .same rfl rfl rfl, good⟩
  · rename_i nonempty
    have searched := search_spec (n := f.size) nonempty (good.current.resolve_right valid)
    cases ended : f.search f.size f.current with
    | undefined =>
      rw [ended] at searched
      exact absurd searched id
    | exhausted c =>
      rw [ended] at searched
      exact ⟨_, rfl, .same rfl rfl rfl, good.consistent, .inl searched⟩
    | found ip lease =>
      rw [ended] at searched
      obtain ⟨found, free⟩ := searched
      obtain ⟨change, good'⟩ := @updateLease_spec freed f ip lease
        { lease with used := true, vid := vid } good found
        (good.consistent.key_ip ip lease found) (by rw [free]; rfl)
        fun used => by rw [free] at used; cases used
      exact ⟨_, rfl, change, good'.consistent, .inl (next_valid _ ip)⟩

theorem addLeases_spec {lease? : Option (String × String)} (good : f.Good) :
    LeaseChange freed f.toLeases (f.addLeases true lease?).2.toLeases ∧
      (f.addLeases true lease?).2.Good := by
  have same : LeaseChange freed f.toLeases f.toLeases ∧ f.Good := ⟨.same rfl rfl rfl, good⟩
  unfold addLeases
  split
  · exact same
  · split
    · exact same
    · rename_i f' added
      obtain ⟨change, good'⟩ := add_spec good added
      exact ⟨change, good'.consistent, good'.current⟩

theorem removeLeases_spec {ip? : Option String} (good : f.Good) :
    LeaseChange freed f.toLeases (f.removeLeases true ip?).2.toLeases ∧
      (f.removeLeases true ip?).2.Good := by
  have same : LeaseChange freed f.toLeases f.toLeases ∧ f.Good := ⟨.same rfl rfl rfl, good⟩
  unfold removeLeases
  split
  · exact same
  · split
    · exact same
    · rename_i f' removed
      obtain ⟨change, good'⟩ := remove_spec good removed
      exact ⟨change, good'.consistent, good'.current⟩

theorem new_good {macPrefix : Nat} {vectorLeases : List (String × String)} :
    (new macPrefix answers vectorLeases).Good := by
  have empty : Good ⟨⟨∅, 0, macPrefix, ∅⟩, 0, .past⟩ := by
    refine ⟨⟨fun k lease found => ?_, rfl, fun _ => rfl⟩, .inl trivial⟩
    cases found
  have resized : ∀ {f : FixedLeases} {n : Nat}, f.Good → Good { f with size := n } :=
    fun good => ⟨good.consistent, good.current⟩
  unfold new
  apply resized
  apply List.foldlRecOn _ _ empty
  intro f good row _
  dsimp only [answers]
  split
  · rename_i added
    exact (@add_spec (fun _ => False) _ _ _ _ good added).2
  · exact good

end FixedLeases

/-! ## Either kind -/

/-- The addresses whose lease an operation frees: the given one, which has to be on hold
for `freeLeases`. -/
def LeaseOp.Frees (v : VnLeases) : LeaseOp → Nat → Prop
  | .release ip, k => ipToNumber ip = some k
  | .freeLeases (some ip), k =>
    ipToNumber ip = some k ∧ ∃ lease, v.base.leases.lookup k = some lease ∧ lease.vid = -1
  | _, _ => False

/-- An operation in the right place: `release` is for an address that is leased, if it is in
the map, and `get` on a fixed network needs a search position that was not removed. -/
def LeaseOp.Proper (v : VnLeases) : LeaseOp → Prop
  | .release ip => ∀ k lease, ipToNumber ip = some k → v.base.leases.lookup k = some lease →
    lease.used = true
  | .get _ =>
    match v with
    | .ranged _ => True
    | .fixed f => f.current ≠ .dangling
  | _ => True

namespace VnLeases

variable {v w : VnLeases} {op : LeaseOp} {vid : Int}

/-- A network as it was created. -/
inductive Created : VnLeases → Prop where
  | ranged (macPrefix ipStart ipEnd : Nat) (ordered : ipStart ≤ ipEnd) (word : ipEnd < 2 ^ 32) :
      Created (.ranged (RangedLeases.new macPrefix ipStart ipEnd ordered word))
  | fixed (macPrefix : Nat) (vectorLeases : List (String × String)) :
      Created (.fixed (FixedLeases.new macPrefix answers vectorLeases))

/-- An operation, with a database that answers. Undefined behaviour goes anywhere. -/
def Step (v : VnLeases) (op : LeaseOp) (w : VnLeases) : Prop :=
  match v.step op answers with
  | some after => w = after
  | none => True

/-- What the operations keep. -/
def Good : VnLeases → Prop
  | .ranged r => r.Good
  | .fixed f => f.Good

theorem Created.good (created : Created v) : v.Good := by
  cases created with
  | ranged => exact RangedLeases.new_good
  | fixed => exact FixedLeases.new_good

theorem Good.consistent (good : v.Good) : v.base.Consistent := by
  cases v with
  | ranged r => exact RangedLeases.Good.consistent good
  | fixed f => exact FixedLeases.Good.consistent good

theorem set_spec {freed : Nat → Prop} {ip : String} (good : v.Good) :
    LeaseChange freed v.base (v.set true vid ip).2.base ∧ (v.set true vid ip).2.Good := by
  cases v with
  | ranged r => exact RangedLeases.set_spec good
  | fixed f => exact FixedLeases.set_spec good

theorem release_spec {freed : Nat → Prop} {ip : String} (good : v.Good)
    (allowed : ∀ k, ipToNumber ip = some k → freed k)
    (proper : ∀ k lease, ipToNumber ip = some k → v.base.leases.lookup k = some lease →
      lease.used = true) :
    LeaseChange freed v.base (v.release true ip).base ∧ (v.release true ip).Good := by
  cases v with
  | ranged r => exact RangedLeases.del_spec good allowed
  | fixed f => exact FixedLeases.unset_spec good allowed proper

theorem holdLeases_spec {freed : Nat → Prop} {ip? : Option String} (good : v.Good) :
    LeaseChange freed v.base (v.holdLeases true ip?).2.base ∧
      (v.holdLeases true ip?).2.Good := by
  have same : LeaseChange freed v.base v.base ∧ v.Good := ⟨.same rfl rfl rfl, good⟩
  unfold holdLeases
  split
  · exact same
  · rename_i ip
    have held := @set_spec v (-1) freed ip good
    split
    · exact same
    · split <;> rename_i out <;> rw [out] at held <;> exact held

theorem freeLeases_spec {ip? : Option String} (good : v.Good) :
    LeaseChange (LeaseOp.Frees v (.freeLeases ip?)) v.base (v.freeLeases true ip?).2.base ∧
      (v.freeLeases true ip?).2.Good := by
  have same : LeaseChange (LeaseOp.Frees v (.freeLeases ip?)) v.base v.base ∧ v.Good :=
    ⟨.same rfl rfl rfl, good⟩
  unfold freeLeases
  split
  · exact same
  · split
    · exact same
    · rename_i numIp read
      split
      · exact same
      · rename_i lease found
        split
        · exact same
        · rename_i onHold
          simp only [Bool.or_eq_true, Bool.not_eq_true', decide_eq_true_eq, not_or,
            Bool.not_eq_false, not_not] at onHold
          refine release_spec good (fun k read' => ⟨read', lease, ?_, onHold.2⟩)
            fun k stored read' found' => ?_
          · rw [read] at read'
            cases read'
            exact found
          · rw [read] at read'
            cases read'
            rw [found] at found'
            cases found'
            exact onHold.1

/-- Every operation in the right place is defined, changes the tables in one of the five
ways, frees only its own address and keeps the network good. -/
theorem step_spec (good : v.Good) (proper : op.Proper v) :
    ∃ after, v.step op answers = some after ∧ LeaseChange (op.Frees v) v.base after.base ∧
      after.Good := by
  cases op with
  | get vid =>
    cases v with
    | ranged r => exact ⟨_, rfl, RangedLeases.get_spec good⟩
    | fixed f =>
      obtain ⟨out, defined, change, good'⟩ := FixedLeases.get_spec good proper
      have mapped : (f.get true vid).map (fun out => fixed out.2) = some (.fixed out.2) := by
        rw [defined, Option.map_some]
      exact ⟨.fixed out.2, mapped, change, good'⟩
  | set vid ip => exact ⟨_, rfl, set_spec good⟩
  | release ip => exact ⟨_, rfl, release_spec good (fun _ read => read) proper⟩
  | addLeases lease? =>
    cases v with
    | ranged r => exact ⟨_, rfl, .same rfl rfl rfl, good⟩
    | fixed f => exact ⟨_, rfl, FixedLeases.addLeases_spec good⟩
  | removeLeases ip? =>
    cases v with
    | ranged r => exact ⟨_, rfl, .same rfl rfl rfl, good⟩
    | fixed f => exact ⟨_, rfl, FixedLeases.removeLeases_spec good⟩
  | holdLeases ip? => exact ⟨_, rfl, holdLeases_spec good⟩
  | freeLeases ip? => exact ⟨_, rfl, freeLeases_spec good⟩

theorem Step.spec (good : v.Good) (proper : op.Proper v) (taken : v.Step op w) :
    LeaseChange (op.Frees v) v.base w.base ∧ w.Good := by
  obtain ⟨after, defined, change, good'⟩ := step_spec good proper
  unfold Step at taken
  rw [defined] at taken
  rw [taken]
  exact ⟨change, good'⟩

/-- The states of a network whose operations were all called in the right place. -/
abbrev Reached : VnLeases → Prop := Reachable Created (Guarded (fun v op => op.Proper v) Step)

theorem Reached.good (reached : v.Reached) : v.Good :=
  reached.invariant (fun _ => Created.good) fun _ _ _ good taken =>
    (Step.spec good taken.1 taken.2).2

/-- The leases of a ranged network are in its range. -/
def InRange : VnLeases → Prop
  | .ranged r => ∀ k lease, r.leases.lookup k = some lease → r.ipStart ≤ k ∧ k ≤ r.ipEnd
  | .fixed _ => True

/-- No address is leased to two VMs. -/
def Exclusive (v : VnLeases) : Prop :=
  ∀ k k' lease lease', v.base.leases.lookup k = some lease →
    v.base.leases.lookup k' = some lease' → lease.ip = lease'.ip → lease = lease'

/-- No operation in the right place takes over a used lease: the lease stays as it is, or
it is the one that the operation frees. -/
def NoTakeover (v : VnLeases) : Prop :=
  ∀ op w, op.Proper v → v.Step op w → ∀ k lease, v.base.leases.lookup k = some lease →
    lease.used = true →
    w.base.leases.lookup k = some lease ∨ op.Frees v k ∧ w.base.check k = false

/-- The lease tables stay consistent in the runs whose operations are in the right place. -/
theorem reachable_consistent (reached : v.Reached) :
    v.base.Consistent ∧ v.Exclusive ∧ v.InRange ∧ v.NoTakeover := by
  have good := reached.good
  refine ⟨good.consistent, fun k k' lease lease' found found' same => ?_, ?_,
    fun op w proper taken k lease found used => ?_⟩
  · rw [good.consistent.key_ip k lease found, good.consistent.key_ip k' lease' found'] at same
    subst same
    rw [found] at found'
    cases found'
    rfl
  · cases v with
    | ranged r => exact RangedLeases.Good.inside good
    | fixed f => trivial
  · exact (Step.spec good proper taken).1.used_kept found used

/-- A VM takes a lease of the range 10.0.0.1 to 10.0.0.9. -/
theorem reachable_consistent_get :
    let v := ranged ((RangedLeases.new 512 167772161 167772169 (by decide)
      (by decide)).get answers 7).2
    v.base.Consistent ∧ v.Exclusive ∧ v.InRange ∧ v.NoTakeover :=
  reachable_consistent (.step (l := .get 7)
    (.init (.ranged 512 167772161 167772169 (by decide) (by decide))) ⟨trivial, rfl⟩)

/-- A free lease of a fixed network is released, and the count of used leases is -1. -/
theorem release_free_inconsistent :
    ∃ v, Reachable Created Step v ∧ ¬ v.base.Consistent := by
  refine ⟨.fixed ((FixedLeases.new 512 answers [("10.0.0.1", "")]).unset true "10.0.0.1"),
    .step (l := .release "10.0.0.1") (.init (.fixed 512 [("10.0.0.1", "")])) rfl,
    fun consistent => ?_⟩
  have count := consistent.count
  have below : ((FixedLeases.new 512 answers [("10.0.0.1", "")]).unset true "10.0.0.1").nUsed =
      -1 := by decide +kernel
  unfold base at count
  rw [below] at count
  omega

end VnLeases

end Ezilla

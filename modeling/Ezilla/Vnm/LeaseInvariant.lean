import Ezilla.Lib.KeyedTable
import Ezilla.Lib.Transition
import Ezilla.Vnm.Leases

/-!
# The lease tables stay consistent

Every operation changes the tables of a network in one of five ways (`LeaseChange`): it
takes a free or a new lease, offers a new free one, frees a used one, drops a used one or
removes a free one, and otherwise leaves the tables as they are. Each of these keeps the
map, the count and the rows in step.

No change takes a used lease over: it stays as it is, or its address is freed.
-/

namespace Ezilla

open KeyedTable

/-! ## Consistent tables -/

/-- The number of used leases of a map. -/
def usedCount (leases : LeaseMap) : Nat := count Lease.used leases

/-- The map, the count and the rows of a network agree. -/
structure Leases.Consistent (l : Leases) : Prop where
  key_ip : ∀ k lease, l.leases.lookup k = some lease → lease.ip = k
  count : l.nUsed = usedCount l.leases
  rows : ∀ k, l.rows.lookup k = l.leases.lookup k

/-- What an operation does to the tables of a network. `freed` are the addresses whose lease
it may free. -/
inductive LeaseChange (freed : Nat → Prop) (l : Leases) : Leases → Prop where
  /-- The tables are as before. -/
  | same {l' : Leases} (leases : l'.leases = l.leases) (rows : l'.rows = l.rows)
      (nUsed : l'.nUsed = l.nUsed) : LeaseChange freed l l'
  /-- An address that is free or new is leased. -/
  | take {l' : Leases} (lease : Lease) (free : l.check lease.ip = false)
      (used : lease.used = true) (leases : l'.leases = l.leases.insert lease.ip lease)
      (rows : l'.rows = l.rows.insert lease.ip lease) (nUsed : l'.nUsed = l.nUsed + 1) :
      LeaseChange freed l l'
  /-- A new address is added, free. -/
  | offer {l' : Leases} (lease : Lease) (absent : l.leases.lookup lease.ip = none)
      (free : lease.used = false) (leases : l'.leases = l.leases.insert lease.ip lease)
      (rows : l'.rows = l.rows.insert lease.ip lease) (nUsed : l'.nUsed = l.nUsed) :
      LeaseChange freed l l'
  /-- A lease that was used is free again. -/
  | free {l' : Leases} (lease : Lease) (allowed : freed lease.ip)
      (used : l.check lease.ip = true) (free : lease.used = false)
      (leases : l'.leases = l.leases.insert lease.ip lease)
      (rows : l'.rows = l.rows.insert lease.ip lease) (nUsed : l'.nUsed = l.nUsed - 1) :
      LeaseChange freed l l'
  /-- A lease that was used is taken out. -/
  | drop {l' : Leases} (ip : Nat) (allowed : freed ip) (used : l.check ip = true)
      (leases : l'.leases = l.leases.erase ip) (rows : l'.rows = l.rows.erase ip)
      (nUsed : l'.nUsed = l.nUsed - 1) : LeaseChange freed l l'
  /-- A free lease is taken out. -/
  | remove {l' : Leases} (ip : Nat) (free : l.check ip = false)
      (leases : l'.leases = l.leases.erase ip) (rows : l'.rows = l.rows.erase ip)
      (nUsed : l'.nUsed = l.nUsed) : LeaseChange freed l l'

namespace Leases

variable {freed : Nat → Prop} {l l' : Leases} {ip k : Nat} {lease : Lease}

/-- What an address adds to the count of used leases is what `check` answers. -/
theorem weight_lookup : weight Lease.used (l.leases.lookup ip) = if l.check ip then 1 else 0 := by
  unfold check
  cases l.leases.lookup ip <;> rfl

theorem check_of_lookup (found : l.leases.lookup ip = some lease) : l.check ip = lease.used := by
  rw [check, found]

theorem check_of_lookup_none (absent : l.leases.lookup ip = none) : l.check ip = false := by
  rw [check, absent]

/-- Storing a lease under its own address, in the map and in its row, keeps the tables
consistent when the count follows. -/
theorem Consistent.insert (consistent : l.Consistent)
    (leases : l'.leases = l.leases.insert lease.ip lease)
    (rows : l'.rows = l.rows.insert lease.ip lease)
    (nUsed : l'.nUsed + weight Lease.used (l.leases.lookup lease.ip) =
      l.nUsed + weight Lease.used (some lease)) : l'.Consistent := by
  refine ⟨fun k stored found => ?_, ?_, fun k => ?_⟩
  · rw [leases] at found
    by_cases here : k = lease.ip
    · subst here
      rw [AList.lookup_insert] at found
      cases found
      rfl
    · rw [AList.lookup_insert_ne here] at found
      exact consistent.key_ip k stored found
  · have moved := count_insert (p := Lease.used) (t := l.leases) (a := lease.ip) (b := lease)
    have before := consistent.count
    rw [usedCount] at before
    rw [leases, usedCount]
    omega
  · rw [leases, rows]
    by_cases here : k = lease.ip
    · subst here
      rw [AList.lookup_insert, AList.lookup_insert]
    · rw [AList.lookup_insert_ne here, AList.lookup_insert_ne here]
      exact consistent.rows k

/-- Taking an address out of the map and of the rows keeps the tables consistent when the
count follows. -/
theorem Consistent.erase (consistent : l.Consistent) (leases : l'.leases = l.leases.erase ip)
    (rows : l'.rows = l.rows.erase ip)
    (nUsed : l'.nUsed + weight Lease.used (l.leases.lookup ip) = l.nUsed) :
    l'.Consistent := by
  refine ⟨fun k stored found => ?_, ?_, fun k => ?_⟩
  · rw [leases] at found
    by_cases here : k = ip
    · subst here
      rw [AList.lookup_erase] at found
      cases found
    · rw [AList.lookup_erase_ne here] at found
      exact consistent.key_ip k stored found
  · have moved := count_erase (p := Lease.used) (t := l.leases) (a := ip)
    have before := consistent.count
    rw [usedCount] at before
    rw [leases, usedCount]
    omega
  · rw [leases, rows]
    by_cases here : k = ip
    · subst here
      rw [AList.lookup_erase, AList.lookup_erase]
    · rw [AList.lookup_erase_ne here, AList.lookup_erase_ne here]
      exact consistent.rows k

/-- Every change keeps consistent tables consistent. -/
theorem Consistent.change (consistent : l.Consistent) (changed : LeaseChange freed l l') :
    l'.Consistent := by
  cases changed with
  | same leases rows nUsed =>
    refine ⟨fun k stored found => ?_, ?_, fun k => ?_⟩
    · rw [leases] at found
      exact consistent.key_ip k stored found
    · rw [nUsed, leases]
      exact consistent.count
    · rw [leases, rows]
      exact consistent.rows k
  | take lease free used leases rows nUsed =>
    exact consistent.insert leases rows (by simp [weight_lookup, free, used, nUsed])
  | offer lease absent free leases rows nUsed =>
    exact consistent.insert leases rows (by simp [absent, free, nUsed])
  | free lease _ used free leases rows nUsed =>
    exact consistent.insert leases rows (by simp [weight_lookup, used, free, nUsed])
  | drop ip _ used leases rows nUsed =>
    exact consistent.erase leases rows (by simp [weight_lookup, used, nUsed])
  | remove ip free leases rows nUsed =>
    exact consistent.erase leases rows (by simp [weight_lookup, free, nUsed])

end Leases

/-- A used lease stays as it is, or its address is freed and is not leased after that. -/
theorem LeaseChange.used_kept {freed : Nat → Prop} {l l' : Leases} {k : Nat} {lease : Lease}
    (changed : LeaseChange freed l l') (found : l.leases.lookup k = some lease)
    (inUse : lease.used = true) :
    l'.leases.lookup k = some lease ∨ freed k ∧ l'.check k = false := by
  have checked : l.check k = true := by rw [Leases.check_of_lookup found, inUse]
  cases changed with
  | same leases _ _ =>
    left
    rw [leases, found]
  | take taken free _ leases _ _ =>
    have other : k ≠ taken.ip := fun same => by rw [same, free] at checked; cases checked
    left
    rw [leases, AList.lookup_insert_ne other, found]
  | offer offered absent _ leases _ _ =>
    have other : k ≠ offered.ip := fun same => by rw [same, absent] at found; cases found
    left
    rw [leases, AList.lookup_insert_ne other, found]
  | free gone allowed _ free leases _ _ =>
    rcases eq_or_ne k gone.ip with same | other
    · have now : l'.leases.lookup gone.ip = some gone := by rw [leases, AList.lookup_insert]
      right
      rw [same, Leases.check_of_lookup now]
      exact ⟨allowed, free⟩
    · left
      rw [leases, AList.lookup_insert_ne other, found]
  | drop ip allowed _ leases _ _ =>
    rcases eq_or_ne k ip with same | other
    · have now : l'.leases.lookup ip = none := by rw [leases, AList.lookup_erase]
      right
      rw [same, Leases.check_of_lookup_none now]
      exact ⟨allowed, rfl⟩
    · left
      rw [leases, AList.lookup_erase_ne other, found]
  | remove ip free leases _ _ =>
    have other : k ≠ ip := fun same => by rw [same, free] at checked; cases checked
    left
    rw [leases, AList.lookup_erase_ne other, found]

end Ezilla

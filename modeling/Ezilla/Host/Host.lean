import Ezilla.Lib.MachineInt
import Mathlib.Data.Finset.Basic

/-!
# Host capacity

The share of a host counts the capacity its VMs were given, and its collection the
VMs themselves. The fields that only the monitoring driver writes are left out.
-/

namespace Ezilla

/-- `(int) (cpu * 100)`: the percent of a CPU, which is a float. -/
def percent (cpu : ℚ) : Int32 := toInt32 (Binary32.nearest (cpu * 100))

/-- `HostShare`: usage in MB of disk, KB of memory and percent of CPU. -/
@[ext]
structure HostShare where
  diskUsage : Int32
  memUsage : Int32
  cpuUsage : Int32
  maxDisk : Int32
  maxMem : Int32
  maxCpu : Int32
  runningVms : Int32
  deriving DecidableEq, Repr

namespace HostShare

/-- `HostShare::add`. -/
def add (share : HostShare) (cpu mem disk : Int32) : HostShare :=
  { share with
    cpuUsage := share.cpuUsage + cpu
    memUsage := share.memUsage + mem
    diskUsage := share.diskUsage + disk
    runningVms := share.runningVms + 1 }

/-- `HostShare::update`. -/
def update (share : HostShare) (cpu mem disk : Int32) : HostShare :=
  { share with
    cpuUsage := share.cpuUsage + cpu
    memUsage := share.memUsage + mem
    diskUsage := share.diskUsage + disk }

/-- `HostShare::del`. -/
def del (share : HostShare) (cpu mem disk : Int32) : HostShare :=
  { share with
    cpuUsage := share.cpuUsage - cpu
    memUsage := share.memUsage - mem
    diskUsage := share.diskUsage - disk
    runningVms := share.runningVms - 1 }

/-- `HostShare::test`. -/
def test (share : HostShare) (cpu mem disk : Int32) : Bool :=
  share.maxCpu - share.cpuUsage ≥ cpu && share.maxMem - share.memUsage ≥ mem &&
    share.maxDisk - share.diskUsage ≥ disk

theorem update_update (share : HostShare) (cpu mem disk cpu' mem' disk' : Int32) :
    (share.update cpu mem disk).update cpu' mem' disk' =
      share.update (cpu + cpu') (mem + mem') (disk + disk') := by
  simp only [update, Int32.add_assoc]

theorem update_eq_self_iff (share : HostShare) (cpu mem disk : Int32) :
    share.update cpu mem disk = share ↔ cpu = 0 ∧ mem = 0 ∧ disk = 0 := by
  simp only [update, HostShare.ext_iff, and_true, Int32.add_eq_left]
  constructor
  · rintro ⟨disk, mem, cpu⟩
    exact ⟨cpu, mem, disk⟩
  · rintro ⟨cpu, mem, disk⟩
    exact ⟨disk, mem, cpu⟩

end HostShare

/-- A host: its share and the ids of the VMs it holds. -/
structure Host where
  share : HostShare
  vmCollection : Finset Nat

namespace Host

/-- `Host::add_capacity`: a VM that is already in the host is logged and not counted. -/
def addCapacity (host : Host) (vmId : Nat) (cpu mem disk : Int32) : Host :=
  if vmId ∈ host.vmCollection then host
  else ⟨host.share.add cpu mem disk, insert vmId host.vmCollection⟩

/-- `Host::del_capacity`: a VM that is not in the host is logged and not counted. -/
def delCapacity (host : Host) (vmId : Nat) (cpu mem disk : Int32) : Host :=
  if vmId ∈ host.vmCollection then
    ⟨host.share.del cpu mem disk, host.vmCollection.erase vmId⟩
  else host

/-- `Host::update_capacity`. -/
def updateCapacity (host : Host) (cpu mem disk : Int32) : Host :=
  { host with share := host.share.update cpu mem disk }

/-- `Host::test_capacity`. -/
def testCapacity (host : Host) (cpu mem disk : Int32) : Bool :=
  host.share.test cpu mem disk

end Host

end Ezilla

import Ezilla.Template
import Ezilla.Um.Quota
import Ezilla.Um.QuotaEntries
import Ezilla.Um.QuotaCheck
import Ezilla.Host.Host
import Ezilla.Rm.VirtualMachineResize
import Ezilla.Rm.EnforcedPlacement
import Ezilla.Rm.ResizeFailure
import Ezilla.Acl.AclManager
import Ezilla.Lib.PackedWord
import Ezilla.Acl.AclMeaning
import Ezilla.Lib.KeyedTable
import Ezilla.Lib.Transition
import Ezilla.Vnm.LeaseAddress
import Ezilla.Vnm.Leases
import Ezilla.Vnm.LeaseInvariant
import Ezilla.Vnm.LeaseRuns
import Ezilla.Image.Image
import Ezilla.Image.ImageManager
import Ezilla.Image.CloneRequests
import Ezilla.Image.CloneRuns
import Ezilla.Image.ImageUsage
import Ezilla.Xml.ExprBool
import Ezilla.Sched.Requirements
import Ezilla.Sched.HostAuthorization
import Ezilla.Host.HostUsage
import Ezilla.Lcm.LifeCycleActions
import Ezilla.Lcm.LifeCycleManager
import Ezilla.Lcm.Recover
import Ezilla.Dm.DispatchManagerActions
import Ezilla.Dm.DispatchManagerStates
import Ezilla.Lcm.HotplugRuns
import Ezilla.Lcm.LifeCycleRuns
import Ezilla.Lcm.LifeCycleSteps
import Ezilla.Lcm.PlacementRuns
import Ezilla.Lcm.ResumeRuns
import Ezilla.Lcm.StepOutcomes
import Ezilla.Lcm.DriverAnswers
import Ezilla.Lcm.CleanUpRuns
import Ezilla.Dm.DispatchManagerLocks
import Ezilla.Tm.TransferManager
import Ezilla.Rm.PlacementLocks
import Ezilla.Rm.RestrictedRequests
import Ezilla.Acl.RuleStore
import Ezilla.Acl.RuleStoreRuns
import Ezilla.Acl.RuleText
import Ezilla.Acl.PoolListing
import Ezilla.Um.Sessions
import Ezilla.Um.QuotaLimits
import Ezilla.Um.QuotaSections
import Ezilla.Um.QuotaRuns
import Ezilla.Cluster.Cluster
import Ezilla.Cluster.MembershipRuns
import Ezilla.Um.UsageLedger
import Ezilla.Rm.Chown
import Ezilla.Rm.ChownRuns
import Ezilla.Image.ImagePool
import Ezilla.Rm.DiskRequests
import Ezilla.Sched.Dispatch
import Ezilla.Mad.ActionManager
import Ezilla.Lib.UniqueTable
import Ezilla.Pool.ObjectNames
import Ezilla.Sched.TemplateUpdates
import Ezilla.Tm.TransferScripts
import Ezilla.Lib.XmlScanner
import Ezilla.Lib.XmlPieces
import Ezilla.Xml.TemplateXml
import Ezilla.Xml.TemplateRoundTrip
import Ezilla.Rm.SaveDisk
import Ezilla.Rm.SaveDiskFailures
import Ezilla.Acl.DocumentedRules
import Ezilla.Onedb.Fsck
import Ezilla.Um.QuotaDefinitions
import Ezilla.Um.QuotaUndo
import Ezilla.Image.DeletionRuns
import Ezilla.Rm.UserTemplate
import Ezilla.Xml.ExprArith
import Ezilla.Xml.RankExpr
import Ezilla.Lib.InfixText
import Ezilla.Xml.NullNames
import Ezilla.Xml.IntegerComparisons
import Ezilla.Xml.TemplateScanner
import Ezilla.Xml.TemplateText
import Ezilla.Pool.ObjectIds
import Ezilla.Lib.PrefixMask
import Ezilla.Vnm.RangedTemplate
import Ezilla.Lib.CyclicScan
import Ezilla.Vnm.LeaseSearch
import Ezilla.Vnm.LeaseFailures
import Ezilla.Vm.DiskImages
import Ezilla.Vm.OsFiles
import Ezilla.Vm.ClusterBinding
import Ezilla.Lib.StartConditions
import Ezilla.Vm.VariableText
import Ezilla.Vm.DiskTargets
import Ezilla.Vm.DiskRuns
import Ezilla.Host.Monitoring
import Ezilla.Tm.PrologScript
import Ezilla.Vnm.SearchPosition
import Ezilla.Vnm.AddressConversions
import Ezilla.Host.CapacityArithmetic
import Ezilla.Pool.NameIndex
import Ezilla.Lib.ShellWords
import Ezilla.Vm.ContextFile
import Ezilla.Lib.XmlReader
import Ezilla.Lib.XmlWriter
import Ezilla.Vmm.KvmDescription
import Ezilla.Vmm.KvmEscapes
import Ezilla.Lib.WriteBack
import Ezilla.Vm.HistoryStore
import Ezilla.Lcm.HistoryCalls
import Ezilla.Lcm.HistoryRuns
import Ezilla.Lib.PacketFilter
import Ezilla.Vnm.Firewall
import Ezilla.Vnm.FirewallRules
import Ezilla.Vnm.FirewallRuns
import Ezilla.Lib.Rollback
import Ezilla.Vmm.ExecDriver
import Ezilla.Vmm.ExecAnswers
import Ezilla.Lcm.RestartRuns

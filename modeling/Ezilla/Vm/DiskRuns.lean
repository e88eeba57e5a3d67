import Ezilla.Lib.Transition
import Ezilla.Vm.DiskTargets
import Ezilla.Vm.FileVariables
import Ezilla.Vm.VariableText
import Ezilla.Vm.VirtualMachine
import Ezilla.Xml.TemplateXml

/-!
# The disks of a VM in hotplug

A VM is created with disks and a context, whose variables are replaced last. Disks are attached
to it and detached from it, one after the other: a new disk gets the number after the largest
one, and the search over the letters if it has no target. The search ends at the last letter,
used or not.

* `parseContext`, `DiskCreation.vm`: the disks and the context of a new VM;
* `getDiskInfo`, `setUpAttachDisk`: a disk that is attached;
* `DiskRuns.next`: the requests and the answers of the driver;
* `DiskRuns.apart_of_reachable`: in runs where a letter is free for each disk that needs one,
  numbers and targets are different.
-/

namespace Ezilla

/-! ## The context -/

/-- `VectorAttribute::marshall`, `none` for an attribute without values. -/
def Attribute.marshall (sep : String) (values : List (String × String)) : Option String :=
  if values = [] then none
  else some (sep.intercalate ((TemplateXml.ordered values).map fun v => v.1 ++ "=" ++ v.2))

/-- The pieces of a text between separators. `skip` characters of one are still to come. -/
def splitAt (sep : List Char) : Nat → List Char → List Char → List (List Char)
  | _, piece, [] => [piece]
  | skip + 1, piece, _ :: cs => splitAt sep skip piece cs
  | 0, piece, c :: cs =>
    if sep.isPrefixOf (c :: cs) then piece :: splitAt sep (sep.length - 1) [] cs
    else splitAt sep 0 (piece ++ [c]) cs

/-- `VectorAttribute::unmarshall`. A name that comes twice keeps its first value. -/
def Attribute.unmarshall (sep text : String) : List (String × String) :=
  (splitAt sep.toList 0 [] text.toList).foldl (fun values piece =>
    let name := String.ofList (piece.takeWhile (· ≠ '='))
    if '=' ∉ piece ∨ values.any fun v => v.1 = name then values
    else values ++ [(name, String.ofList ((piece.dropWhile (· ≠ '=')).drop 1))]) []

/-- What `parse_context` reads of an image. -/
structure ContextImage where
  source : String
  name : String
  type : ImageType

/-- The pools while the CONTEXT is parsed. -/
structure ContextWorld where
  /-- what the `FILE` variables of a text are looked up in -/
  scope : FileScope
  image : Int → Option ContextImage

/-- The errors of `parse_context`. -/
inductive ContextError where
  /-- Only one CONTEXT attribute can be defined. -/
  | oneContext
  /-- Wrong format for CONTEXT attribute. -/
  | wrongFormat
  /-- Cannot marshall CONTEXT -/
  | marshall
  /-- the error of `parse_template_attribute` -/
  | parse
  /-- the error of `parse_file_attribute` -/
  | parseFile
  /-- Only images of type CONTEXT can be used in FILE_DS attribute. -/
  | imageType
  deriving DecidableEq, Repr

namespace ContextWorld

/-- The files of the images; those that are gone are passed over. -/
def files (w : ContextWorld) : List Int → Except ContextError String
  | [] => .ok ""
  | iid :: ids =>
    match w.image iid with
    | none => w.files ids
    | some img =>
      if img.type ≠ .context then .error .imageType
      else (w.files ids).map fun rest => img.source ++ ":'" ++ img.name ++ "' " ++ rest

/-- The value of FILES_DS with the files that its variables name. -/
def filesDs (w : ContextWorld) (filesDs : String) : Except ContextError String :=
  if filesDs = "" then .ok ""
  else
    match w.scope.parseFileAttribute filesDs with
    | none => .error .parseFile
    | some ids => w.files ids

end ContextWorld

/-- `VirtualMachine::parse_context` on the CONTEXT attributes. -/
def parseContext (w : ContextWorld) (scope : VariableScope) :
    List Attribute → Except ContextError (Option (List (String × String)))
  | [] => .ok none
  | [.single _ _] => .error .wrongFormat
  | [.vector _ context] =>
    let filesDs := Attribute.vectorValue context "FILES_DS"
    match Attribute.marshall " @^_^@ " (Attribute.remove context "FILES_DS") with
    | none => .error .marshall
    | some str =>
      match VariableText.parseTemplateAttribute scope str with
      | none => .error .parse
      | some parsed => (w.filesDs filesDs).map fun files =>
        let context := Attribute.unmarshall " @^_^@ " parsed
        some (if files ≠ "" then Attribute.replace context "FILES_DS" files else context)
  | _ => .error .oneContext

/-- The request for a VM, with the pools at the moments when they are read. -/
structure DiskCreation where
  images : Nat → DiskWorld
  defaultDevPrefix : String
  files : ContextWorld
  scope : VariableScope
  tmpl : Template

namespace DiskCreation

/-- The disks and the context after `get_disk_images`. -/
def disks (r : DiskCreation) (vmId : Nat) (uid : Int) : Option VmDisks :=
  (VmDisks.getDiskImages r.images r.defaultDevPrefix vmId uid (r.tmpl.get "CONTEXT")
    (r.tmpl.get "DISK")).toOption

/-- The CONTEXT attributes that `parse_context` finds. -/
def contexts (r : DiskCreation) (vm : VmDisks) : List Attribute :=
  match r.tmpl.get "CONTEXT", vm.context with
  | .vector name _ :: contexts, some context => .vector name context :: contexts
  | contexts, _ => contexts

/-- The disks and the context of the VM. -/
def vm (r : DiskCreation) (vmId : Nat) (uid : Int) : Option VmDisks :=
  (r.disks vmId uid).bind fun vm =>
    (parseContext r.files r.scope (r.contexts vm)).toOption.map fun context => { vm with context }

/-- The target and the number of the context come out of `parse_context` as they were. -/
def KeepsContext (r : DiskCreation) (vmId : Nat) (uid : Int) : Prop :=
  ∀ before after, r.disks vmId uid = some before → r.vm vmId uid = some after →
    after.textAt "TARGET" .context = before.textAt "TARGET" .context ∧
      after.textAt "DISK_ID" .context = before.textAt "DISK_ID" .context

end DiskCreation

/-! ## A disk that is attached -/

/-- The largest number that is read. The variable keeps its value where none is read. -/
def maxDiskId : Int → Int → List String → Int
  | _, maxId, [] => maxId
  | diskId, maxId, text :: texts =>
    let diskId := (readInt text).getD diskId
    maxDiskId diskId (if diskId > maxId then diskId else maxId) texts

/-- `VirtualMachine::get_disk_info`. The variable of the loop is not initialized. -/
def VmDisks.getDiskInfo (vm : VmDisks) (diskId : Int) : Int × List String :=
  (maxDiskId diskId (-1) (vm.texts "DISK_ID"), (vm.texts "TARGET").filter (· ≠ ""))

/-- The number after the largest one, in a machine integer. -/
def nextDiskId (maxId : Int) : Int := (maxId + 1).bmod (2 ^ 32)

/-- The errors of `set_up_attach_disk`. -/
inductive AttachError where
  /-- The template must contain one DISK attribute -/
  | oneDisk
  /-- Internal error parsing DISK attribute -/
  | internal
  /-- the error of `disk_attribute` -/
  | attribute
  /-- Target is already in use. -/
  | targetInUse (target : String)
  deriving DecidableEq, Repr

/-- `VirtualMachine::set_up_attach_disk` on the DISK attributes of the request. -/
def setUpAttachDisk (w : DiskWorld) (vmId : Nat) (uid : Int) (used : List String) (maxId : Int) :
    List Attribute → Except AttachError (List (String × String))
  | [.single _ _] => .error .internal
  | [.vector _ values] =>
    match w.diskAttribute vmId uid values (nextDiskId maxId) with
    | none => .error .attribute
    | some answer =>
      let target := Attribute.vectorValue answer.disk "TARGET"
      if target ≠ "" then
        if target ∈ used then .error (.targetInUse target) else .ok answer.disk
      else .ok (Attribute.replace answer.disk "TARGET" (chooseTarget used answer.devPrefix))
  | _ => .error .oneDisk

/-- The position of the disk that `get_disk` returns. -/
def getDisk (diskId : Int) : Int → List Attribute → Option Nat
  | _, [] => none
  | read, .single _ _ :: disks => (getDisk diskId read disks).map (· + 1)
  | read, .vector _ values :: disks =>
    let read := (readInt (Attribute.vectorValue values "DISK_ID")).getD read
    if read = diskId then some 0 else (getDisk diskId read disks).map (· + 1)

/-- `ATTACH=YES` -/
def Attribute.attaching : Attribute → Bool
  | single _ _ => false
  | vector _ values => vectorValue values "ATTACH" = "YES"

/-- `VirtualMachine::clear_attach_disk`. -/
def VmDisks.clearAttachDisk (vm : VmDisks) : VmDisks :=
  { vm with
    disks := clearFirst Attribute.attaching (Attribute.modify (Attribute.remove · "ATTACH"))
      vm.disks }

/-- `VirtualMachine::delete_attach_disk`. -/
def VmDisks.deleteAttachDisk (vm : VmDisks) : VmDisks :=
  { vm with disks := (deleteFirst Attribute.attaching vm.disks).2 }

namespace DiskRuns

/-! ## Requests and answers -/

/-- How far the operation on the VM has come. -/
inductive Stage where
  | running
  /-- the VM is unlocked while a disk is set up, with what `get_disk_info` gave -/
  | settingUp (maxId : Int) (used : List String)
  /-- the driver was asked -/
  | hotplug
  deriving DecidableEq, Repr

/-- A VM and the operation on it. -/
structure State where
  vm : VmDisks
  stage : Stage
  deriving DecidableEq, Repr

/-- What can come. `read` is what an uninitialized variable holds. -/
inductive Label where
  | attach (read : Int)
  | setUp (w : DiskWorld) (disks : List Attribute)
  | detach (diskId read : Int)
  /-- an attachment that succeeded or a detachment that failed keeps the disk -/
  | answer (keeps : Bool)

/-- One step; what cannot come now changes nothing. -/
def next (vmId : Nat) (uid : Int) (s : State) : Label → State
  | .attach read =>
    match s.stage with
    | .running =>
      let info := s.vm.getDiskInfo read
      { s with stage := .settingUp info.1 info.2 }
    | _ => s
  | .setUp w disks =>
    match s.stage with
    | .settingUp maxId used =>
      match setUpAttachDisk w vmId uid used maxId disks with
      | .error _ => { s with stage := .running }
      | .ok disk =>
        let disk := Attribute.vector "DISK" (Attribute.replace disk "ATTACH" "YES")
        { vm := { s.vm with disks := s.vm.disks ++ [disk] }, stage := .hotplug }
    | _ => s
  | .detach diskId read =>
    match s.stage, getDisk diskId read s.vm.disks with
    | .running, some i =>
      { vm := s.vm.modify (fun disk => Attribute.replace disk "ATTACH" "YES") (.disk i)
        stage := .hotplug }
    | _, _ => s
  | .answer keeps =>
    match s.stage with
    | .hotplug =>
      { vm := if keeps then s.vm.clearAttachDisk else s.vm.deleteAttachDisk, stage := .running }
    | _ => s

/-- The VM was just created. -/
def Created (vmId : Nat) (uid : Int) (s : State) : Prop :=
  s.stage = .running ∧ ∃ r : DiskCreation, r.KeepsContext vmId uid ∧ r.vm vmId uid = some s.vm

/-- The number after the largest one exists, and some letter is free for a disk that needs one. -/
def Fits (vmId : Nat) (uid : Int) (s : State) : Label → Prop
  | .setUp w [.vector _ values] =>
    match s.stage with
    | .settingUp maxId used => ∀ answer,
      w.diskAttribute vmId uid values (nextDiskId maxId) = some answer →
        maxId < 2 ^ 31 - 1 ∧ (Attribute.vectorValue answer.disk "TARGET" = "" →
          ∃ target ∈ candidates answer.devPrefix, target ∉ used)
    | _ => True
  | _ => True

end DiskRuns

/-- The disks and the context have different numbers and different targets. -/
structure VmDisks.Apart (vm : VmDisks) : Prop where
  numbers : ((vm.texts "DISK_ID").map readInt).Nodup
  targets : (vm.texts "TARGET").Nodup

/-! ## What the steps keep -/

/-- The disks and the context are apart, and their numbers are those of the daemon. -/
structure VmDisks.Numbers (vm : VmDisks) : Prop where
  apart : (vm.texts "DISK_ID").Nodup
  written : ∀ text ∈ vm.texts "DISK_ID", ∃ i : Int, 0 ≤ i ∧ i < 2 ^ 31 ∧ text = toString i

/-- What `get_disk_info` gave while a disk is set up. -/
structure DiskInfo (vm : VmDisks) (maxId : Int) (used : List String) : Prop where
  lower : -1 ≤ maxId
  upper : ∀ i : Int, toString i ∈ vm.texts "DISK_ID" → i ≤ maxId
  targets : ∀ target ∈ vm.texts "TARGET", target ≠ "" → target ∈ used

variable {vm vm' : VmDisks} {name key value : String}

/-- The values under a name change with the disks only. -/
theorem VmDisks.texts_append {a : Attribute} :
    (VmDisks.texts { vm with disks := vm.disks ++ [a] } name).Perm
      ((a.text? name).toList ++ vm.texts name) := by
  unfold texts
  rw [List.filterMap_append, List.append_assoc, ← List.append_assoc (a.text? name).toList]
  have last : [a].filterMap (Attribute.text? name) = (a.text? name).toList := by
    cases found : a.text? name with
    | none => rw [List.filterMap_cons_none found]; rfl
    | some text => rw [List.filterMap_cons_some found]; rfl
  rw [last, ← List.append_assoc]
  exact List.Perm.append_right _ List.perm_append_comm

/-- Disks that go take their values with them. -/
theorem VmDisks.texts_sublist {disks : List Attribute} (fewer : disks.Sublist vm.disks) :
    (VmDisks.texts { vm with disks } name).Sublist (vm.texts name) :=
  (fewer.filterMap _).append (List.Sublist.refl _)

theorem Attribute.text?_modify {f : List (String × String) → List (String × String)} {a : Attribute}
    (kept : ∀ values, vectorValue (f values) name = vectorValue values name) :
    (a.modify f).text? name = a.text? name := by
  cases a with
  | single _ _ => rfl
  | vector _ values => exact congrArg some (kept values)

/-- ATTACH is no number and no target. -/
theorem texts_mark {i : Nat} (other : name ≠ "ATTACH") :
    (vm.modify (fun disk => Attribute.replace disk "ATTACH" "YES") (.disk i)).texts name =
      vm.texts name := by
  unfold VmDisks.texts VmDisks.modify
  dsimp only
  refine congrArg (· ++ _) ?_
  generalize vm.disks = disks
  induction disks generalizing i with
  | nil => cases i <;> rfl
  | cons a disks ih =>
    cases i with
    | zero =>
      rw [List.modify_zero_cons]
      have same : (a.modify fun disk => Attribute.replace disk "ATTACH" "YES").text? name =
          a.text? name :=
        Attribute.text?_modify fun _ => Attribute.vectorValue_replace_ne other
      simp only [List.filterMap_cons, same]
    | succ i => simp only [List.modify_succ_cons, List.filterMap_cons, ih]

theorem texts_clearAttachDisk (other : name ≠ "ATTACH") :
    vm.clearAttachDisk.texts name = vm.texts name := by
  unfold VmDisks.texts VmDisks.clearAttachDisk
  dsimp only
  refine congrArg (· ++ _) ?_
  generalize vm.disks = disks
  induction disks with
  | nil => rfl
  | cons a disks ih =>
    rw [clearFirst]
    split
    · have same : (a.modify (Attribute.remove · "ATTACH")).text? name = a.text? name :=
        Attribute.text?_modify fun _ => Attribute.vectorValue_remove_ne other
      simp only [List.filterMap_cons, same]
    · simp only [List.filterMap_cons, ih]

theorem deleteFirst_sublist {α : Type} (p : α → Bool) (xs : List α) :
    (deleteFirst p xs).2.Sublist xs := by
  induction xs with
  | nil => exact List.Sublist.refl _
  | cons x xs ih =>
    rw [deleteFirst]
    split
    · exact List.sublist_cons_self x xs
    · exact ih.cons_cons x

/-- The largest number is not below any. -/
theorem le_maxDiskId {texts : List String} {diskId maxId : Int} (written : ∀ text ∈ texts,
    ∃ i : Int, 0 ≤ i ∧ i < 2 ^ 31 ∧ text = toString i) :
    maxId ≤ maxDiskId diskId maxId texts ∧
      ∀ i : Int, toString i ∈ texts → i ≤ maxDiskId diskId maxId texts := by
  induction texts generalizing diskId maxId with
  | nil => exact ⟨Int.le_refl _, fun i member => absurd member List.not_mem_nil⟩
  | cons text texts ih =>
    obtain ⟨j, lower, upper, rfl⟩ := written text List.mem_cons_self
    have read : readInt (toString j) = some j :=
      readInt_of_parseInt (parseInt_toString_int (by omega) upper)
    rw [maxDiskId, read, Option.getD_some]
    obtain ⟨above, others⟩ := @ih j (if j > maxId then j else maxId) fun text member =>
      written text (List.mem_cons_of_mem _ member)
    have larger : j ≤ (if j > maxId then j else maxId) ∧ maxId ≤ if j > maxId then j else maxId := by
      split
      · omega
      · omega
    refine ⟨larger.2.trans above, fun i member => ?_⟩
    rcases List.mem_cons.mp member with same | member
    · rw [toString_int_inj.mp same]
      exact larger.1.trans above
    · exact others i member

theorem VmDisks.Numbers.diskInfo (numbers : vm.Numbers) (read : Int) :
    DiskInfo vm (vm.getDiskInfo read).1 (vm.getDiskInfo read).2 := by
  obtain ⟨above, others⟩ := @le_maxDiskId _ read (-1) numbers.written
  exact ⟨above, others, fun target member some =>
    List.mem_filter.mpr ⟨member, decide_eq_true some⟩⟩

theorem VmDisks.Numbers.apart_numbers (numbers : vm.Numbers) :
    ((vm.texts "DISK_ID").map readInt).Nodup := by
  have read : ∀ text ∈ vm.texts "DISK_ID", ∃ i : Int, readInt text = some i ∧ text = toString i := by
    intro text member
    obtain ⟨i, lower, upper, rfl⟩ := numbers.written text member
    exact ⟨i, readInt_of_parseInt (parseInt_toString_int (by omega) upper), rfl⟩
  refine List.Nodup.map_on (fun text first text' second same => ?_) numbers.apart
  obtain ⟨i, left, rfl⟩ := read text first
  obtain ⟨j, right, rfl⟩ := read text' second
  rw [left, right] at same
  rw [Option.some.inj same]

/-- Disks that go leave different numbers. -/
theorem VmDisks.Numbers.sublist {disks : List Attribute} (fewer : disks.Sublist vm.disks)
    (numbers : vm.Numbers) : VmDisks.Numbers { vm with disks } where
  apart := (VmDisks.texts_sublist fewer).nodup numbers.apart
  written text member := numbers.written text ((VmDisks.texts_sublist fewer).subset member)

/-- A disk with a new number comes. -/
theorem VmDisks.Numbers.append {a : Attribute} {i : Int} (own : a.text? "DISK_ID" = some (toString i))
    (lower : 0 ≤ i) (upper : i < 2 ^ 31) (fresh : toString i ∉ vm.texts "DISK_ID")
    (numbers : vm.Numbers) : VmDisks.Numbers { vm with disks := vm.disks ++ [a] } := by
  have texts := @VmDisks.texts_append vm "DISK_ID" a
  rw [own] at texts
  constructor
  · exact texts.nodup_iff.mpr (List.nodup_cons.mpr ⟨fresh, numbers.apart⟩)
  · intro text member
    rcases List.mem_cons.mp (texts.mem_iff.mp member) with rfl | member
    · exact ⟨i, lower, upper, rfl⟩
    · exact numbers.written text member

theorem vector_of_setUpAttachDisk {w : DiskWorld} {vmId : Nat} {uid maxId : Int}
    {used : List String} {disks : List Attribute} {disk : List (String × String)}
    (done : setUpAttachDisk w vmId uid used maxId disks = .ok disk) :
    ∃ name values, disks = [.vector name values] := by
  unfold setUpAttachDisk at done
  split at done
  · cases done
  · exact ⟨_, _, rfl⟩
  · cases done

/-- What `set_up_attach_disk` gives, where a letter is free. -/
theorem of_setUpAttachDisk {w : DiskWorld} {vmId : Nat} {uid maxId : Int} {used : List String}
    {values disk : List (String × String)}
    (fits : ∀ answer, w.diskAttribute vmId uid values (nextDiskId maxId) = some answer →
      maxId < 2 ^ 31 - 1 ∧ (Attribute.vectorValue answer.disk "TARGET" = "" →
        ∃ target ∈ candidates answer.devPrefix, target ∉ used)) (lower : -1 ≤ maxId)
    (done : setUpAttachDisk w vmId uid used maxId [.vector name values] = .ok disk) :
    maxId + 1 < 2 ^ 31 ∧ Attribute.vectorValue disk "DISK_ID" = toString (maxId + 1) ∧
      Attribute.vectorValue disk "TARGET" ≠ "" ∧ Attribute.vectorValue disk "TARGET" ∉ used := by
  unfold setUpAttachDisk at done
  dsimp only at done
  split at done
  · cases done
  · rename_i answer filled
    obtain ⟨small, free⟩ := fits answer filled
    obtain ⟨number, _⟩ := DiskWorld.of_diskAttribute filled
    have next : nextDiskId maxId = maxId + 1 := by
      unfold nextDiskId
      exact Int.bmod_eq_of_le (by omega) (by omega)
    rw [next] at number
    refine ⟨by omega, ?_⟩
    split at done
    · rename_i given
      split at done
      · cases done
      · rename_i fresh
        cases done
        exact ⟨number, given, fresh⟩
    · rename_i missing
      cases done
      have free := free (not_not.mp missing)
      rw [Attribute.vectorValue_replace_ne (by decide), Attribute.vectorValue_replace]
      exact ⟨number, chooseTarget_ne_empty, chooseTarget_not_mem_iff.mpr free⟩

/-! ## Runs -/

namespace DiskRuns

open Transition

variable {vmId : Nat} {uid : Int} {s : State} {l : Label}

/-- What every state of a run has. -/
structure Good (s : State) : Prop where
  numbers : s.vm.Numbers
  targets : (s.vm.texts "TARGET").Nodup
  info : ∀ maxId used, s.stage = .settingUp maxId used → DiskInfo s.vm maxId used

/-- `parse_context` changes the context only. -/
theorem texts_of_keepsContext {r : DiskCreation} (keeps : r.KeepsContext vmId uid) {vm : VmDisks}
    (created : r.vm vmId uid = some vm) : ∃ before, r.disks vmId uid = some before ∧
      vm.texts "TARGET" = before.texts "TARGET" ∧ vm.texts "DISK_ID" = before.texts "DISK_ID" := by
  obtain ⟨before, found, parsed⟩ := Option.bind_eq_some_iff.mp created
  obtain ⟨target, number⟩ := keeps before vm found created
  obtain ⟨context, _, rfl⟩ := Option.map_eq_some_iff.mp parsed
  have same : ∀ name, VmDisks.textAt { before with context } name .context =
      before.textAt name .context → VmDisks.texts { before with context } name =
        before.texts name := fun name same => congrArg (_ ++ Option.toList ·) same
  exact ⟨before, found, same _ target, same _ number⟩

theorem Created.good (created : Created vmId uid s) : Good s := by
  obtain ⟨running, r, keeps, done⟩ := created
  obtain ⟨before, found, target, number⟩ := texts_of_keepsContext keeps done
  obtain ⟨targets, apart, small⟩ := VmDisks.nodup_of_getDiskImages (toOption_eq_some_iff.mp found)
  refine ⟨⟨number ▸ apart, fun text member => ?_⟩, target ▸ targets, fun maxId used setting => ?_⟩
  · obtain ⟨i, le, same⟩ := small text (number ▸ member)
    exact ⟨i, by omega, by omega, same⟩
  · rw [running] at setting
    cases setting

/-- A VM with other disks, while none is set up. -/
theorem Good.of_stage {stage : Stage} (numbers : vm.Numbers) (targets : (vm.texts "TARGET").Nodup)
    (ready : ∀ maxId used, stage ≠ .settingUp maxId used) : Good ⟨vm, stage⟩ :=
  ⟨numbers, targets, fun maxId used setting => absurd setting (ready maxId used)⟩

theorem Good.next (fits : Fits vmId uid s l) (good : Good s) : Good (next vmId uid s l) := by
  obtain ⟨numbers, targets, info⟩ := good
  cases l with
  | attach read =>
    unfold DiskRuns.next
    dsimp only
    split
    · refine ⟨numbers, targets, fun maxId used setting => ?_⟩
      cases setting
      exact numbers.diskInfo read
    · exact ⟨numbers, targets, info⟩
  | setUp w disks =>
    unfold DiskRuns.next
    dsimp only
    split
    · rename_i maxId used stage
      split
      · exact .of_stage numbers targets nofun
      · rename_i disk done
        obtain ⟨name, values, rfl⟩ := vector_of_setUpAttachDisk done
        have known := info maxId used stage
        unfold Fits at fits
        rw [stage] at fits
        obtain ⟨small, number, given, fresh⟩ := of_setUpAttachDisk fits known.lower done
        have number : (Attribute.vector "DISK" (Attribute.replace disk "ATTACH" "YES")).text?
            "DISK_ID" = some (toString (maxId + 1)) :=
          congrArg some ((Attribute.vectorValue_replace_ne (by decide)).trans number)
        have target : (Attribute.vector "DISK" (Attribute.replace disk "ATTACH" "YES")).text?
            "TARGET" = some (Attribute.vectorValue disk "TARGET") :=
          congrArg some (Attribute.vectorValue_replace_ne (by decide))
        have lower := known.lower
        refine .of_stage (numbers.append number (by omega) small fun member => ?_) ?_ nofun
        · have bound := known.upper _ member
          omega
        · have texts := @VmDisks.texts_append s.vm "TARGET"
            (.vector "DISK" (Attribute.replace disk "ATTACH" "YES"))
          rw [target] at texts
          refine texts.nodup_iff.mpr (List.nodup_cons.mpr ⟨fun member => ?_, targets⟩)
          exact fresh (known.targets _ member given)
    · exact ⟨numbers, targets, info⟩
  | detach diskId read =>
    unfold DiskRuns.next
    dsimp only
    split
    · refine .of_stage ⟨?_, ?_⟩ ?_ nofun
      · rw [texts_mark (by decide)]
        exact numbers.apart
      · rw [texts_mark (by decide)]
        exact numbers.written
      · rw [texts_mark (by decide)]
        exact targets
    · exact ⟨numbers, targets, info⟩
  | answer keeps =>
    unfold DiskRuns.next
    dsimp only
    split
    · cases keeps with
      | true =>
        refine .of_stage ⟨?_, ?_⟩ ?_ nofun
        · rw [if_pos rfl, texts_clearAttachDisk (by decide)]
          exact numbers.apart
        · rw [if_pos rfl, texts_clearAttachDisk (by decide)]
          exact numbers.written
        · rw [if_pos rfl, texts_clearAttachDisk (by decide)]
          exact targets
      | false =>
        have fewer := deleteFirst_sublist Attribute.attaching s.vm.disks
        exact .of_stage (numbers.sublist fewer) ((VmDisks.texts_sublist fewer).nodup targets) nofun
    · exact ⟨numbers, targets, info⟩

/-- In every run whose steps fit, from a context that keeps its target and its number, the disks
and the context have different numbers and different targets. -/
theorem apart_of_reachable
    (reached : Reachable (Created vmId uid)
      (Guarded (Fits vmId uid) fun s l s' => DiskRuns.next vmId uid s l = s') s) : s.vm.Apart := by
  have good : Good s := by
    refine reached.invariant (fun s created => created.good) fun s l s' good taken => ?_
    obtain ⟨fits, rfl⟩ := taken
    exact good.next fits
  exact ⟨good.numbers.apart_numbers, good.targets⟩

/-- No images. -/
def noImages : ImageWorld where
  users _ := none
  images _ := none
  byName _ _ := none
  datastores _ := false
  acls := ⟨[], AclManager.wellFormed_nil⟩

/-- The pools when a volatile disk is set up. -/
def volatileWorld : DiskWorld where
  users := noImages
  pool := noImages
  details _ := ⟨"", .file, []⟩
  datastore _ := none
  defaultDevPrefix := "hd"

/-- A request for a VM with a template. -/
def requestFor (tmpl : Template) : DiskCreation where
  images _ := volatileWorld
  defaultDevPrefix := "hd"
  files := ⟨⟨oneadminId, oneadminId, noImages, noImages⟩, fun _ => none⟩
  scope := ⟨0, "oneadmin", 0, "oneadmin", "one", "", [], [], fun _ => none, fun _ => none, none⟩
  tmpl := tmpl

/-- A volatile disk is attached. -/
def attachVolatile : List Label :=
  [.attach 0, .setUp volatileWorld [.vector "DISK" [("TYPE", "fs")]], .answer true]

/-- A VM with a context and a volatile disk. -/
def smallTemplate : Template :=
  [.vector "CONTEXT" [("HOSTNAME", "$NAME")], .vector "DISK" [("TYPE", "fs")]]

/-- What is created of it. -/
def smallVm : State where
  vm :=
    { context := some [("DISK_ID", "1"), ("HOSTNAME", "one"), ("TARGET", "hda")]
      disks := [.vector "DISK"
        [("TARGET", "hdb"), ("DISK_ID", "0"), ("DEV_PREFIX", "hd"), ("TYPE", "fs")]] }
  stage := .running

theorem apart_of_reachable_small : (requestFor smallTemplate).vm 3 0 = some smallVm.vm ∧
    (attachVolatile.foldl (next 3 0) smallVm).vm.Apart := by
  have done : (requestFor smallTemplate).vm 3 0 = some smallVm.vm := by decide +kernel
  have created : Created 3 0 smallVm := by
    refine ⟨rfl, requestFor smallTemplate, fun before after first last => ?_, done⟩
    have found : (requestFor smallTemplate).disks 3 0 = some { smallVm.vm with
        context := some [("TARGET", "hda"), ("DISK_ID", "1"), ("HOSTNAME", "$NAME")] } := by
      decide +kernel
    cases found.symm.trans first
    cases done.symm.trans last
    exact ⟨rfl, rfl⟩
  have fits : Fits 3 0 ⟨smallVm.vm, .settingUp 1 ["hdb", "hda"]⟩
      (.setUp volatileWorld [.vector "DISK" [("TYPE", "fs")]]) := by
    intro answer filled
    have devPrefix : (volatileWorld.diskAttribute 3 0 [("TYPE", "fs")] (nextDiskId 1)).map
        DiskAnswer.devPrefix = some "hd" := by decide +kernel
    rw [filled] at devPrefix
    rw [Option.some.inj devPrefix]
    exact ⟨by decide, fun _ => ⟨"hdc", by decide, by decide⟩⟩
  have setting : next 3 0 smallVm (.attach 0) = ⟨smallVm.vm, .settingUp 1 ["hdb", "hda"]⟩ := by
    decide +kernel
  have meets : Along (next 3 0) (Fits 3 0) smallVm attachVolatile :=
    ⟨trivial, setting ▸ fits, trivial, trivial⟩
  exact ⟨done, apart_of_reachable (.foldl attachVolatile (.init created) meets)⟩

/-- The 27th disk with the same prefix gets the target of the 26th. -/
theorem last_letter_used_twice : ∃ start : State, Created 3 0 start ∧
    Reachable (Created 3 0) (fun s l s' => next 3 0 s l = s')
      ((List.replicate 27 attachVolatile).flatten.foldl (next 3 0) start) ∧
    ¬ ((List.replicate 27 attachVolatile).flatten.foldl (next 3 0) start).vm.Apart := by
  have done : (requestFor []).vm 3 0 = some ⟨none, []⟩ := by decide +kernel
  have created : Created 3 0 ⟨⟨none, []⟩, .running⟩ := by
    refine ⟨rfl, requestFor [], fun before after first last => ?_, done⟩
    have found : (requestFor []).disks 3 0 = some ⟨none, []⟩ := by decide +kernel
    cases found.symm.trans first
    cases done.symm.trans last
    exact ⟨rfl, rfl⟩
  refine ⟨_, created, .run _ (.init created), fun apart => ?_⟩
  have twice : ¬ (((List.replicate 27 attachVolatile).flatten.foldl (next 3 0)
      ⟨⟨none, []⟩, .running⟩).vm.texts "TARGET").Nodup := by decide +kernel
  exact twice apart.targets

end DiskRuns

end Ezilla

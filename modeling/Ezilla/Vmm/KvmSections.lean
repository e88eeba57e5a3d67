import Ezilla.Vmm.KvmDescription
import Mathlib.Data.List.Nodup

/-!
# The sections of the deployment description

What the lines of the document say, section by section.

* `Stands`: all values in some lines stand for themselves;
* `stands_description`: when those of the document do;
* `regular_description`: its names are names, and only blanks stand between the tags.
-/

namespace Ezilla

open Xml

/-! ## The lines that are read as they are meant -/

section Stands

open Kvm

variable {ws ws' : List Written} {w : Written} {tabs name value : String}
  {attributes : List (String × String)}

/-- All values in some lines stand for themselves. -/
def Stands (ws : List Written) : Prop :=
  (∀ v ∈ allQuoted ws, Quotable v) ∧ ∀ v ∈ allContained ws, Containable v

theorem allQuoted_append (ws ws' : List Written) :
    allQuoted (ws ++ ws') = allQuoted ws ++ allQuoted ws' := by
  induction ws with
  | nil => rfl
  | cons w ws ih => rw [List.cons_append, allQuoted, allQuoted, ih, List.append_assoc]

theorem allContained_append (ws ws' : List Written) :
    allContained (ws ++ ws') = allContained ws ++ allContained ws' := by
  induction ws with
  | nil => rfl
  | cons w ws ih => rw [List.cons_append, allContained, allContained, ih, List.append_assoc]

theorem stands_nil : Stands [] ↔ True :=
  iff_of_true ⟨fun _ member => absurd member List.not_mem_nil,
    fun _ member => absurd member List.not_mem_nil⟩ trivial

theorem stands_append : Stands (ws ++ ws') ↔ Stands ws ∧ Stands ws' := by
  unfold Stands
  rw [allQuoted_append, allContained_append, List.forall_mem_append, List.forall_mem_append,
    and_and_and_comm]

theorem forall_attributesOf : (∀ v ∈ (attributesOf attributes).map Prod.snd, Quotable v) ↔
    ∀ a ∈ attributes, Quotable a.2.toList := by
  unfold attributesOf
  rw [List.forall_mem_map, List.forall_mem_map]

theorem stands_space {t : List Char} : Stands (.space t :: ws) ↔ Stands ws :=
  Iff.rfl

theorem stands_line : Stands (line tabs w) ↔ Stands [w] := by
  have split : line tabs w = .space tabs.toList :: ([w] ++ [.space ['\n']]) := rfl
  rw [split, stands_space, stands_append, stands_space, stands_nil, and_true]

theorem stands_leaf : Stands [leaf name attributes value] ↔
    (∀ a ∈ attributes, Quotable a.2.toList) ∧ Containable value.toList := by
  rw [← forall_attributesOf]
  unfold Stands leaf
  rw [allQuoted, allContained, allQuoted, allContained, Written.quoted, Written.contained,
    List.append_nil, List.append_nil, List.forall_mem_singleton]

theorem stands_empty : Stands [empty name attributes] ↔
    ∀ a ∈ attributes, Quotable a.2.toList := by
  rw [← forall_attributesOf]
  unfold Stands empty
  rw [allQuoted, allContained, allQuoted, allContained, Written.quoted, Written.contained,
    List.append_nil, List.append_nil]
  exact and_iff_left fun _ member => absurd member List.not_mem_nil

theorem stands_block : Stands (block tabs name attributes ws) ↔
    (∀ a ∈ attributes, Quotable a.2.toList) ∧ Stands ws := by
  have inner : Stands (.space ['\n'] :: (ws ++ [.space tabs.toList])) ↔ Stands ws := by
    rw [stands_space, stands_append, stands_space, stands_nil, and_true]
  rw [block, stands_line, ← inner, ← forall_attributesOf]
  unfold Stands
  rw [allQuoted, allContained, allQuoted, allContained, Written.quoted, Written.contained,
    List.append_nil, List.append_nil, List.forall_mem_append, and_assoc]

theorem stands_ite {c : Prop} [Decidable c] : Stands (if c then ws else ws') ↔
    (c → Stands ws) ∧ (¬ c → Stands ws') := by
  split
  · rename_i holds
    exact ⟨fun stands => ⟨fun _ => stands, fun no => absurd holds no⟩, fun both => both.1 holds⟩
  · rename_i fails
    exact ⟨fun stands => ⟨fun yes => absurd yes fails, fun _ => stands⟩, fun both => both.2 fails⟩

theorem stands_flatMap {α : Type} {items : List α} {write : α → List Written} :
    Stands (items.flatMap write) ↔ ∀ a ∈ items, Stands (write a) := by
  induction items with
  | nil => exact iff_of_true (stands_nil.mpr trivial) fun _ member => absurd member List.not_mem_nil
  | cons a items ih => rw [List.flatMap_cons, stands_append, ih, List.forall_mem_cons]

theorem quotable_ne_empty : (value ≠ "" → Quotable value.toList) ↔ Quotable value.toList := by
  refine ⟨fun some_value => ?_, fun quotable _ => quotable⟩
  rcases eq_or_ne value "" with rfl | other
  · exact rfl
  · exact some_value other

theorem containable_ne_empty :
    (value ≠ "" → Containable value.toList) ↔ Containable value.toList := by
  refine ⟨fun some_value => ?_, fun containable _ => containable⟩
  rcases eq_or_ne value "" with rfl | other
  · exact ⟨rfl, by decide⟩
  · exact some_value other

theorem quotable_append {v v' : List Char} : Quotable (v ++ v') ↔ Quotable v ∧ Quotable v' := by
  unfold Quotable
  rw [List.all_append, Bool.and_eq_true]

theorem forall_attributeIf {key : String} :
    (∀ a ∈ attributeIf key value, Quotable a.2.toList) ↔ Quotable value.toList := by
  rw [← quotable_ne_empty]
  unfold attributeIf
  split
  · rename_i other
    rw [List.forall_mem_singleton]
    exact (imp_iff_right other).symm
  · rename_i empty
    exact iff_of_true (fun _ member => absurd member List.not_mem_nil) fun other =>
      absurd other empty

theorem stands_lineIf {key : String} :
    Stands (LibVirtDriver.lineIf name key value) ↔ Quotable value.toList := by
  unfold LibVirtDriver.lineIf
  rw [stands_ite, stands_line, stands_empty, List.forall_mem_singleton, quotable_ne_empty]
  exact and_iff_left fun _ => stands_nil.mpr trivial

end Stands

/-! ## The sections that are read as they are meant -/

namespace LibVirtDriver

open Kvm

section Sections

variable {driver : LibVirtDriver} {vm : KvmVm} {values : List (String × String)}
  {lines : List Written}

/-- What a success of `devices` comes from. -/
theorem devices_eq_ok (written : driver.devices vm = .ok lines) : ∃ disks context',
    driver.disks vm (vm.tmpl.vectors "DISK") = .ok disks ∧ context vm = .ok context' ∧
      lines = block "\t" "devices" [] (line "\t\t" (leaf "emulator" [] driver.emulatorPath) ++ disks ++
        context' ++ (vm.tmpl.vectors "NIC").flatMap (driver.nic vm) ++
        ((firstVector vm "GRAPHICS").map graphics).getD [] ++
        ((firstVector vm "INPUT").map input).getD []) := by
  unfold devices at written
  split at written
  · cases written
  · rename_i disks disks_are
    cases found : context vm with
    | error e =>
      rw [found] at written
      cases written
    | ok context' =>
      rw [found] at written
      cases written
      exact ⟨disks, context', disks_are, rfl, rfl⟩

/-- What a success of `description` comes from. -/
theorem description_eq_ok (written : driver.description vm = .ok lines) : ∃ memory os' devices',
    driver.os vm = .ok os' ∧ driver.devices vm = .ok devices' ∧
      lines = .space ['\n'] :: (driver.resources vm memory ++ os' ++ devices' ++ driver.features vm) := by
  unfold description at written
  split at written
  · cases written
  · split at written
    · cases written
    · rename_i os' os_is
      cases found : driver.devices vm with
      | error e =>
        rw [found] at written
        cases written
      | ok devices' =>
        rw [found] at written
        cases written
        exact ⟨_, os', devices', os_is, rfl, rfl⟩

theorem stands_os (written : driver.os vm = .ok lines) : Stands lines ↔
    (∀ v ∈ [driver.osValue vm "ARCH", driver.osValue vm "BOOT"], Quotable v.toList) ∧
      ∀ v ∈ (if driver.osValue vm "KERNEL" ≠ "" then
        [driver.osValue vm "KERNEL", driver.osValue vm "INITRD", driver.kernelCmd vm]
        else [driver.osValue vm "BOOTLOADER"]), Containable v.toList := by
  have hvm : Containable "hvm".toList := by decide
  unfold os at written
  dsimp only at written
  split at written
  · cases written
  split at written
  · cases written
  cases written
  by_cases kernel : driver.osValue vm "KERNEL" ≠ ""
  · rw [if_pos kernel, if_pos kernel]
    simp only [stands_block, stands_append, stands_line, stands_empty, stands_leaf, stands_ite,
      stands_nil, List.forall_mem_cons, List.not_mem_nil, false_implies, implies_true, hvm, true_and,
      and_true, containable_ne_empty]
    constructor
    · intro ⟨⟨arch, ⟨kernel, initrd⟩, cmd⟩, boot⟩
      exact ⟨⟨arch, boot⟩, kernel, initrd, cmd⟩
    · intro ⟨⟨arch, boot⟩, kernel, initrd, cmd⟩
      exact ⟨⟨arch, ⟨kernel, initrd⟩, cmd⟩, boot⟩
  · rw [if_neg kernel, if_neg kernel]
    simp only [stands_block, stands_append, stands_line, stands_empty, stands_leaf, stands_ite,
      stands_nil, List.forall_mem_cons, List.not_mem_nil, false_implies, implies_true, hvm, true_and,
      and_true, containable_ne_empty]
    rw [and_right_comm]

theorem quotable_rbdName : Quotable (rbdName vm values).toList ↔
    Quotable (Attribute.vectorValue values "SOURCE").toList := by
  have hyphen : Quotable "-".toList := by decide
  have number : Quotable (toString vm.oid).toList := quotable_toString (vm.oid : Int)
  unfold rbdName
  split
  · rw [String.toList_append, String.toList_append, String.toList_append, String.toList_append,
      quotable_append, quotable_append, quotable_append, quotable_append]
    simp only [hyphen, number, quotable_toString, and_true]
  · rfl

/-- The number of a disk can always be read. -/
theorem quotable_diskFile :
    Quotable (diskFile vm values).toList ↔ Quotable vm.remoteSystemDir.toList := by
  have slash : Quotable "/disk.".toList := by decide
  unfold diskFile
  rw [String.toList_append, String.toList_append, quotable_append, quotable_append]
  simp only [slash, quotable_toString, and_true]

theorem stands_disk (written : driver.disk vm values = .ok lines) :
    Stands lines ↔ ∀ v ∈ driver.diskQuoted vm values, Quotable v.toList := by
  have source : (∀ a ∈ (diskSource vm values).2.2, Quotable a.2.toList) ↔
      Quotable (if diskType values = "RBD" then Attribute.vectorValue values "SOURCE"
        else vm.remoteSystemDir).toList := by
    have rbd : Quotable "rbd".toList := by decide
    unfold diskSource
    by_cases block : diskType values = "BLOCK"
    · have other : ¬ diskType values = "RBD" := by
        rw [block]
        decide
      rw [if_pos block, if_neg other, List.forall_mem_singleton, quotable_diskFile]
    · rw [if_neg block]
      split
      · rw [List.forall_mem_cons, List.forall_mem_singleton, and_iff_right rbd, quotable_rbdName]
      · split
        · rw [List.forall_mem_singleton, quotable_diskFile]
        · rw [List.forall_mem_singleton, quotable_diskFile]
  have words : ∀ text ∈ ["block", "disk", "network", "file", "cdrom"], Quotable text.toList := by
    decide
  simp only [List.forall_mem_cons, List.not_mem_nil, false_implies, implies_true, and_true] at words
  have kind : Quotable (diskSource vm values).1.toList ∧
      Quotable (diskSource vm values).2.1.toList := by
    unfold diskSource
    split_ifs
    · exact ⟨words.1, words.2.1⟩
    · exact ⟨words.2.2.1, words.2.1⟩
    · exact ⟨words.2.2.2.1, words.2.2.2.2⟩
    · exact ⟨words.2.2.2.1, words.2.1⟩
  have qemu : Quotable "qemu".toList := by decide
  unfold disk at written
  dsimp only at written
  split at written
  · cases written
  · cases written
    unfold diskQuoted
    simp only [stands_block, stands_append, stands_line, stands_empty, stands_ite, stands_nil,
      List.forall_mem_cons, List.forall_mem_append, forall_attributeIf, source, kind, qemu,
      List.not_mem_nil, false_implies, implies_true, true_and, and_true, and_assoc]

theorem stands_disks {disks : List (List (String × String))} (written : driver.disks vm disks = .ok lines) :
    Stands lines ↔ ∀ v ∈ disks.flatMap (driver.diskQuoted vm), Quotable v.toList := by
  induction disks generalizing lines with
  | nil =>
    cases written
    exact iff_of_true (stands_nil.mpr trivial) fun _ member => absurd member List.not_mem_nil
  | cons values rest ih =>
    rw [disks] at written
    split at written
    · cases written
    · rename_i first here
      cases later : driver.disks vm rest with
      | error e =>
        rw [later] at written
        cases written
      | ok others =>
        rw [later] at written
        cases written
        rw [stands_append, stands_disk here, ih later, List.flatMap_cons, List.forall_mem_append]

theorem stands_context (written : context vm = .ok lines) :
    Stands lines ↔ ∀ v ∈ contextQuoted vm, Quotable v.toList := by
  have words : ∀ text ∈ ["file", "cdrom", "qemu", "raw"], Quotable text.toList := by decide
  simp only [List.forall_mem_cons, List.not_mem_nil, false_implies, implies_true, and_true] at words
  unfold context at written
  unfold contextQuoted
  split at written
  · cases written
  · rename_i found
    dsimp only at written ⊢
    rw [found]
    dsimp only
    split at written
    · rename_i target
      cases written
      rw [if_pos target]
      simp only [stands_block, stands_append, stands_line, stands_empty, List.forall_mem_cons, words,
        List.not_mem_nil, false_implies, implies_true, true_and, and_true, quotable_diskFile]
    · rename_i target
      cases written
      rw [if_neg target]
      exact iff_of_true (stands_nil.mpr trivial) fun _ member => absurd member List.not_mem_nil
  · rename_i _ vector
    cases written
    split
    · rename_i found
      exact absurd found (vector _ _)
    · exact iff_of_true (stands_nil.mpr trivial) fun _ member => absurd member List.not_mem_nil

theorem stands_nic : Stands (driver.nic vm values) ↔
    ∀ v ∈ driver.nicQuoted values, Quotable v.toList := by
  have words : ∀ text ∈ ["openvswitch", "IP"], Quotable text.toList := by decide
  simp only [List.forall_mem_cons, List.not_mem_nil, false_implies, implies_true, and_true] at words
  have kind : Quotable (if Attribute.vectorValue values "BRIDGE" = "" then "ethernet"
      else "bridge").toList := by
    split
    · decide
    · decide
  have filtered : (Attribute.vectorValue values "IP" ≠ "" ∧ driver.nicFilter values ≠ "" →
      Quotable (driver.nicFilter values).toList ∧
        Quotable (Attribute.vectorValue values "IP").toList) ↔
      ∀ v ∈ (if Attribute.vectorValue values "IP" ≠ "" ∧ driver.nicFilter values ≠ "" then
        [Attribute.vectorValue values "IP", driver.nicFilter values] else []),
          Quotable v.toList := by
    split
    · rename_i both
      rw [imp_iff_right both, List.forall_mem_cons, List.forall_mem_singleton, and_comm]
    · rename_i no
      exact iff_of_true (fun both => absurd both no) fun _ member => absurd member List.not_mem_nil
  unfold nic nicQuoted
  simp only [stands_block, stands_append, stands_line, stands_empty, stands_ite, stands_nil,
    stands_lineIf, List.forall_mem_cons, List.forall_mem_append, kind, words, filtered,
    List.not_mem_nil, false_implies, implies_true, true_and, and_true, and_assoc]

theorem stands_graphics : Stands (graphics values) ↔
    ∀ v ∈ graphicsQuoted values, Quotable v.toList := by
  have words : ∀ text ∈ ["vnc", "spice"], Quotable text.toList := by decide
  unfold graphics graphicsQuoted
  dsimp only
  split
  · rename_i known
    have kind : Quotable (graphicsType values).toList := by
      rcases known with vnc | spice
      · rw [vnc]
        exact words _ List.mem_cons_self
      · rw [spice]
        exact words _ (List.mem_cons_of_mem _ List.mem_cons_self)
    simp only [stands_line, stands_empty, List.forall_mem_append, List.forall_mem_cons,
      forall_attributeIf, kind, List.not_mem_nil, false_implies, implies_true, true_and, and_true,
      and_assoc]
  · exact iff_of_true (stands_nil.mpr trivial) fun _ member => absurd member List.not_mem_nil

theorem stands_input : Stands (input values) ↔ ∀ v ∈ inputQuoted values, Quotable v.toList := by
  unfold input inputQuoted
  dsimp only
  split
  · simp only [stands_line, stands_empty, List.forall_mem_append, List.forall_mem_cons,
      forall_attributeIf, List.not_mem_nil, false_implies, implies_true, and_true]
  · exact iff_of_true (stands_nil.mpr trivial) fun _ member => absurd member List.not_mem_nil

theorem stands_features : Stands (driver.features vm) := by
  unfold features
  split
  · have none : ∀ a ∈ ([] : List (String × String)), Quotable a.2.toList := fun _ member =>
      absurd member List.not_mem_nil
    have pae : Stands (if driver.feature vm "PAE" then line "\t\t" (empty "pae" []) else []) :=
      stands_ite.mpr ⟨fun _ => stands_line.mpr (stands_empty.mpr none), fun _ => stands_nil.mpr trivial⟩
    have acpi : Stands (if driver.feature vm "ACPI" then line "\t\t" (empty "acpi" []) else []) :=
      stands_ite.mpr ⟨fun _ => stands_line.mpr (stands_empty.mpr none), fun _ => stands_nil.mpr trivial⟩
    exact stands_block.mpr ⟨none, stands_append.mpr ⟨pae, acpi⟩⟩
  · exact stands_nil.mpr trivial

theorem stands_resources (memory : Int) : Stands (driver.resources vm memory) ↔
    Containable (driver.vcpu vm).toList ∧
      ∀ v ∈ ((vm.tmpl.getFloat "CPU").map driver.shares).toList, Containable v.toList := by
  have name : Containable ("one-" ++ toString vm.oid).toList := by
    have letters : "one-".toList.all (fun c => containable c && decide (c ≠ ']')) = true := by decide
    rw [String.toList_append]
    refine containable_of_forall (List.forall_mem_append.mpr ⟨fun c member => ?_, fun c member => ?_⟩)
    · obtain ⟨contained, other⟩ := Bool.and_eq_true_iff.mp (List.all_eq_true.mp letters c member)
      exact ⟨contained, of_decide_eq_true other⟩
    · exact (number_stands (vm.oid : Int) c member).2
  have cpu : Stands (((vm.tmpl.getFloat "CPU").map fun cpu =>
      block "\t" "cputune" [] (line "\t\t" (leaf "shares" [] (driver.shares cpu)))).getD []) ↔
        ∀ v ∈ ((vm.tmpl.getFloat "CPU").map driver.shares).toList, Containable v.toList := by
    cases vm.tmpl.getFloat "CPU" with
    | none =>
      exact iff_of_true (stands_nil.mpr trivial) fun _ member => absurd member List.not_mem_nil
    | some cpu =>
      simp only [Option.map_some, Option.getD_some, Option.toList_some, stands_block, stands_line,
        stands_leaf, List.forall_mem_cons, List.not_mem_nil, false_implies, implies_true, true_and,
        and_true]
  unfold resources
  simp only [stands_append, stands_line, stands_leaf, stands_ite, stands_nil, cpu, name,
    containable_toString, containable_ne_empty, List.not_mem_nil, false_implies, implies_true,
    true_and, and_true]

theorem stands_devices (written : driver.devices vm = .ok lines) : Stands lines ↔
    Containable driver.emulatorPath.toList ∧
      ∀ v ∈ (vm.tmpl.vectors "DISK").flatMap (driver.diskQuoted vm) ++ contextQuoted vm ++
        (vm.tmpl.vectors "NIC").flatMap driver.nicQuoted ++
        ((firstVector vm "GRAPHICS").map graphicsQuoted).getD [] ++
        ((firstVector vm "INPUT").map inputQuoted).getD [], Quotable v.toList := by
  have nics : Stands ((vm.tmpl.vectors "NIC").flatMap (driver.nic vm)) ↔
      ∀ v ∈ (vm.tmpl.vectors "NIC").flatMap driver.nicQuoted, Quotable v.toList := by
    rw [stands_flatMap, List.forall_mem_flatMap]
    exact forall₂_congr fun values _ => stands_nic
  have graphics_iff : Stands (((firstVector vm "GRAPHICS").map graphics).getD []) ↔
      ∀ v ∈ ((firstVector vm "GRAPHICS").map graphicsQuoted).getD [], Quotable v.toList := by
    cases firstVector vm "GRAPHICS" with
    | none =>
      exact iff_of_true (stands_nil.mpr trivial) fun _ member => absurd member List.not_mem_nil
    | some values => exact stands_graphics
  have input_iff : Stands (((firstVector vm "INPUT").map input).getD []) ↔
      ∀ v ∈ ((firstVector vm "INPUT").map inputQuoted).getD [], Quotable v.toList := by
    cases firstVector vm "INPUT" with
    | none =>
      exact iff_of_true (stands_nil.mpr trivial) fun _ member => absurd member List.not_mem_nil
    | some values => exact stands_input
  obtain ⟨disks, context', disks_are, found, rfl⟩ := devices_eq_ok written
  simp only [stands_block, stands_append, stands_line, stands_leaf, stands_disks disks_are,
    stands_context found, nics, graphics_iff, input_iff, List.forall_mem_append,
    List.not_mem_nil, false_implies, implies_true, true_and, and_assoc]

/-- All values of the document stand for themselves just where these values do. -/
theorem stands_description (written : driver.description vm = .ok lines) : Stands lines ↔
    (∀ v ∈ driver.quotedValues vm, Quotable v.toList) ∧
      ∀ v ∈ driver.containedValues vm, Containable v.toList := by
  obtain ⟨memory, os', devices', os_is, found, rfl⟩ := description_eq_ok written
  rw [stands_space, stands_append, stands_append, stands_append, stands_resources,
    stands_os os_is, stands_devices found, and_iff_left stands_features]
  unfold quotedValues containedValues
  simp only [List.forall_mem_append, List.forall_mem_cons, List.not_mem_nil, false_implies,
    implies_true, and_true]
  constructor
  · intro ⟨⟨⟨vcpu, shares⟩, os, kernel⟩, emulator, ⟨⟨⟨disks, context⟩, nics⟩, graphics⟩, input⟩
    exact ⟨⟨⟨⟨⟨⟨os, disks⟩, context⟩, nics⟩, graphics⟩, input⟩, ⟨⟨vcpu, emulator⟩, shares⟩,
      kernel⟩
  · intro ⟨⟨⟨⟨⟨⟨os, disks⟩, context⟩, nics⟩, graphics⟩, input⟩, ⟨⟨vcpu, emulator⟩, shares⟩, kernel⟩
    exact ⟨⟨⟨vcpu, shares⟩, os, kernel⟩, emulator, ⟨⟨⟨disks, context⟩, nics⟩, graphics⟩, input⟩

end Sections

/-! ## Names and blanks -/

section Regular

variable {driver : LibVirtDriver} {vm : KvmVm} {values : List (String × String)}
  {lines ws ws' : List Written} {w : Written} {tabs name : String} {keys : List String}
  {attributes : List (String × String)}

/-- A text that is a name in XML. -/
def isNameText (text : String) : Bool :=
  text.toList.head?.any isNameStart && text.toList.tail.all isNameChar

/-- A name and different names of attributes. -/
def wellNamed (name : String) (keys : List String) : Bool :=
  isNameText name && keys.all isNameText && decide keys.Nodup

theorem isName_of_isNameText {text : String} (named : isNameText text = true) :
    Scanner.IsName text.toList := by
  unfold isNameText at named
  obtain ⟨start, part⟩ := Bool.and_eq_true_iff.mp named
  cases letters : text.toList with
  | nil =>
    rw [letters] at start
    cases start
  | cons c rest =>
    rw [letters] at start part
    exact ⟨c, rest, rfl, start, List.all_eq_true.mp part⟩

theorem named_of_keys (sub : (attributes.map Prod.fst).Sublist keys)
    (named : wellNamed name keys = true) : Named name.toList (attributesOf attributes) := by
  unfold wellNamed at named
  obtain ⟨names, unequal⟩ := Bool.and_eq_true_iff.mp named
  obtain ⟨first, all⟩ := Bool.and_eq_true_iff.mp names
  have keys_are : (attributesOf attributes).map Prod.fst =
      (attributes.map Prod.fst).map String.toList := by
    unfold attributesOf
    rw [List.map_map, List.map_map]
    rfl
  refine ⟨isName_of_isNameText first, fun a member => ?_, ?_⟩
  · obtain ⟨b, known, rfl⟩ := List.mem_map.mp member
    exact isName_of_isNameText (List.all_eq_true.mp all _
      (sub.subset (List.mem_map_of_mem known)))
  · rw [keys_are]
    exact List.Nodup.map (fun a b same => String.toList_inj.mp same)
      ((of_decide_eq_true unequal).sublist sub)

theorem allRegular_append : AllRegular (ws ++ ws') ↔ AllRegular ws ∧ AllRegular ws' := by
  induction ws with
  | nil => exact (and_iff_right trivial).symm
  | cons w ws ih => rw [List.cons_append, AllRegular, AllRegular, ih, and_assoc]

theorem regular_line (spaces : tabs.toList.all (· = '\t') = true) (regular : w.Regular) :
    AllRegular (line tabs w) := by
  refine ⟨fun c member => ?_, regular, fun c member => ?_, trivial⟩
  · exact Or.inr (Or.inl (of_decide_eq_true (List.all_eq_true.mp spaces c member)))
  · exact Or.inr (Or.inr (List.mem_singleton.mp member))

theorem regular_emptyLine (keys : List String) (sub : (attributes.map Prod.fst).Sublist keys)
    (named : wellNamed name keys = true) (spaces : tabs.toList.all (· = '\t') = true) :
    AllRegular (line tabs (empty name attributes)) :=
  regular_line spaces (named_of_keys sub named)

theorem regular_leafLine {value : String} (keys : List String)
    (sub : (attributes.map Prod.fst).Sublist keys) (named : wellNamed name keys = true)
    (spaces : tabs.toList.all (· = '\t') = true) :
    AllRegular (line tabs (leaf name attributes value)) :=
  regular_line spaces (named_of_keys sub named)

theorem regular_block (keys : List String) (sub : (attributes.map Prod.fst).Sublist keys)
    (named : wellNamed name keys = true) (spaces : tabs.toList.all (· = '\t') = true)
    (regular : AllRegular ws) : AllRegular (block tabs name attributes ws) := by
  refine regular_line spaces ⟨named_of_keys sub named, fun c member => ?_, ?_⟩
  · exact Or.inr (Or.inr (List.mem_singleton.mp member))
  · refine allRegular_append.mpr ⟨regular, fun c member => ?_, trivial⟩
    exact Or.inr (Or.inl (of_decide_eq_true (List.all_eq_true.mp spaces c member)))

theorem regular_ite {c : Prop} [Decidable c] (first : AllRegular ws) (second : AllRegular ws') :
    AllRegular (if c then ws else ws') := by
  split
  · exact first
  · exact second

theorem attributeIf_sublist (key value : String) :
    ((attributeIf key value).map Prod.fst).Sublist [key] := by
  unfold attributeIf
  split
  · exact List.Sublist.refl [key]
  · exact List.nil_sublist [key]

theorem regular_os (written : driver.os vm = .ok lines) : AllRegular lines := by
  have none : AllRegular [] := trivial
  unfold os at written
  dsimp only at written
  split at written
  · cases written
  split at written
  · cases written
  cases written
  refine regular_block [] (List.Sublist.refl []) rfl rfl ?_
  refine allRegular_append.mpr ⟨allRegular_append.mpr ⟨?_, ?_⟩, ?_⟩
  · exact regular_leafLine ["arch"] (List.Sublist.refl _) rfl rfl
  · have plain : ∀ name value, wellNamed name [] = true → AllRegular (line "\t\t" (leaf name [] value)) :=
      fun name value named => regular_leafLine [] (List.Sublist.refl []) named rfl
    refine regular_ite ?_ (regular_ite (plain _ _ rfl) none)
    refine allRegular_append.mpr ⟨allRegular_append.mpr ⟨plain _ _ rfl, ?_⟩, ?_⟩
    · exact regular_ite (plain _ _ rfl) none
    · exact regular_ite (plain _ _ rfl) none
  · exact regular_emptyLine ["dev"] (List.Sublist.refl _) rfl rfl

theorem regular_disk (written : driver.disk vm values = .ok lines) : AllRegular lines := by
  have source : ∃ key, ((diskSource vm values).2.2.map Prod.fst).Sublist key ∧
      wellNamed "source" key = true := by
    unfold diskSource
    split_ifs
    · exact ⟨["dev"], List.Sublist.refl _, rfl⟩
    · exact ⟨["protocol", "name"], List.Sublist.refl _, rfl⟩
    · exact ⟨["file"], List.Sublist.refl _, rfl⟩
    · exact ⟨["file"], List.Sublist.refl _, rfl⟩
  obtain ⟨keys, sub, named⟩ := source
  unfold disk at written
  dsimp only at written
  split at written
  · cases written
  · cases written
    refine regular_block ["type", "device"] (List.Sublist.refl _) rfl rfl ?_
    refine allRegular_append.mpr ⟨allRegular_append.mpr ⟨allRegular_append.mpr ⟨?_, ?_⟩, ?_⟩, ?_⟩
    · exact regular_emptyLine keys sub named rfl
    · exact regular_emptyLine ["dev"] (List.Sublist.refl _) rfl rfl
    · exact regular_ite (regular_emptyLine [] (List.Sublist.refl _) rfl rfl) trivial
    · refine regular_emptyLine ["name", "type", "cache", "io"] ?_ rfl rfl
      rw [List.map_append]
      exact (List.Sublist.refl ["name", "type", "cache"]).append (attributeIf_sublist _ _)

theorem regular_disks {disks : List (List (String × String))}
    (written : driver.disks vm disks = .ok lines) : AllRegular lines := by
  induction disks generalizing lines with
  | nil =>
    cases written
    trivial
  | cons values rest ih =>
    rw [disks] at written
    split at written
    · cases written
    · rename_i first here
      cases later : driver.disks vm rest with
      | error e =>
        rw [later] at written
        cases written
      | ok others =>
        rw [later] at written
        cases written
        exact allRegular_append.mpr ⟨regular_disk here, ih later⟩

theorem regular_context (written : context vm = .ok lines) : AllRegular lines := by
  unfold context at written
  split at written
  · cases written
  · dsimp only at written
    split at written
    · cases written
      refine regular_block ["type", "device"] (List.Sublist.refl _) rfl rfl ?_
      refine allRegular_append.mpr ⟨allRegular_append.mpr ⟨allRegular_append.mpr ⟨?_, ?_⟩, ?_⟩, ?_⟩
      · exact regular_emptyLine ["file"] (List.Sublist.refl _) rfl rfl
      · exact regular_emptyLine ["dev"] (List.Sublist.refl _) rfl rfl
      · exact regular_emptyLine [] (List.Sublist.refl _) rfl rfl
      · exact regular_emptyLine ["name", "type"] (List.Sublist.refl _) rfl rfl
    · cases written
      trivial
  · cases written
    trivial

theorem regular_nic : AllRegular (driver.nic vm values) := by
  have lineIf_regular : ∀ name key value, wellNamed name [key] = true →
      AllRegular (lineIf name key value) := fun name key value named =>
    regular_ite (regular_emptyLine [key] (List.Sublist.refl _) named rfl) trivial
  refine regular_block ["type"] (List.Sublist.refl _) rfl rfl ?_
  refine allRegular_append.mpr ⟨?_, regular_ite ?_ trivial⟩
  · refine allRegular_append.mpr ⟨allRegular_append.mpr ⟨allRegular_append.mpr
      ⟨allRegular_append.mpr ⟨allRegular_append.mpr ⟨?_, ?_⟩, ?_⟩, ?_⟩, ?_⟩, ?_⟩
    · exact lineIf_regular _ _ _ rfl
    · exact regular_ite (regular_emptyLine ["type"] (List.Sublist.refl _) rfl rfl) trivial
    · exact lineIf_regular _ _ _ rfl
    · exact lineIf_regular _ _ _ rfl
    · exact lineIf_regular _ _ _ rfl
    · exact lineIf_regular _ _ _ rfl
  · exact regular_block ["filter"] (List.Sublist.refl _) rfl rfl
      (regular_emptyLine ["name", "value"] (List.Sublist.refl _) rfl rfl)

theorem regular_graphics : AllRegular (graphics values) := by
  refine regular_ite ?_ trivial
  refine regular_emptyLine ["type", "listen", "port", "passwd", "keymap"] ?_ rfl rfl
  rw [List.map_append, List.map_append, List.map_append, List.map_append]
  exact ((((List.Sublist.refl ["type"]).append (attributeIf_sublist _ _)).append
    (attributeIf_sublist _ _)).append (attributeIf_sublist _ _)).append (attributeIf_sublist _ _)

theorem regular_input : AllRegular (input values) := by
  refine regular_ite ?_ trivial
  refine regular_emptyLine ["type", "bus"] ?_ rfl rfl
  rw [List.map_append]
  exact (List.Sublist.refl ["type"]).append (attributeIf_sublist _ _)

theorem regular_devices (written : driver.devices vm = .ok lines) : AllRegular lines := by
  have nics : ∀ nics : List (List (String × String)), AllRegular (nics.flatMap (driver.nic vm)) := by
    intro nics
    induction nics with
    | nil => trivial
    | cons values nics ih =>
      rw [List.flatMap_cons]
      exact allRegular_append.mpr ⟨regular_nic, ih⟩
  have section_regular : ∀ (section_ : Option (List (String × String))) (write : _ → List Written),
      (∀ values, AllRegular (write values)) → AllRegular ((section_.map write).getD []) := by
    intro section_ write each
    cases section_ with
    | none => trivial
    | some values => exact each values
  obtain ⟨disks, context', disks_are, found, rfl⟩ := devices_eq_ok written
  refine regular_block [] (List.Sublist.refl []) rfl rfl ?_
  refine allRegular_append.mpr ⟨allRegular_append.mpr ⟨allRegular_append.mpr
    ⟨allRegular_append.mpr ⟨allRegular_append.mpr ⟨?_, ?_⟩, ?_⟩, ?_⟩, ?_⟩, ?_⟩
  · exact regular_leafLine [] (List.Sublist.refl []) rfl rfl
  · exact regular_disks disks_are
  · exact regular_context found
  · exact nics _
  · exact section_regular _ _ fun values => regular_graphics
  · exact section_regular _ _ fun values => regular_input

theorem regular_description (written : driver.description vm = .ok lines) : AllRegular lines := by
  have features : AllRegular (driver.features vm) := by
    refine regular_ite (regular_block [] (List.Sublist.refl []) rfl rfl ?_) trivial
    refine allRegular_append.mpr ⟨?_, ?_⟩
    · exact regular_ite (regular_emptyLine [] (List.Sublist.refl []) rfl rfl) trivial
    · exact regular_ite (regular_emptyLine [] (List.Sublist.refl []) rfl rfl) trivial
  have resources : ∀ memory, AllRegular (driver.resources vm memory) := by
    intro memory
    refine allRegular_append.mpr ⟨allRegular_append.mpr ⟨allRegular_append.mpr ⟨?_, ?_⟩, ?_⟩, ?_⟩
    · exact regular_leafLine [] (List.Sublist.refl []) rfl rfl
    · exact regular_ite (regular_leafLine [] (List.Sublist.refl []) rfl rfl) trivial
    · cases vm.tmpl.getFloat "CPU" with
      | none => trivial
      | some cpu =>
        exact regular_block [] (List.Sublist.refl []) rfl rfl
          (regular_leafLine [] (List.Sublist.refl []) rfl rfl)
    · exact regular_leafLine [] (List.Sublist.refl []) rfl rfl
  obtain ⟨memory, os', devices', os_is, found, rfl⟩ := description_eq_ok written
  refine ⟨fun c member => Or.inr (Or.inr (List.mem_singleton.mp member)), ?_⟩
  exact allRegular_append.mpr ⟨allRegular_append.mpr ⟨allRegular_append.mpr
    ⟨resources _, regular_os os_is⟩, regular_devices found⟩, features⟩

end Regular

end LibVirtDriver

end Ezilla

import Ezilla.Vmm.KvmSections

/-!
# Values that escape from the deployment description

* `encloses_iff`: when the document is read with each value in its place;
* `SameBranches`, `Encloses.outline_eq_of_sameBranches`: two templates that differ in values only
  give the same tree then.
-/

namespace Ezilla

open Xml

namespace LibVirtDriver

open Kvm

/-! ## When values cannot escape -/

section Encloses

variable {driver : LibVirtDriver} {vm : KvmVm} {lines : List Written} {others : List Info}

/-- The description encloses the values of a template if and only if those between quotes have no
quote, ampersand, `<` or space but blanks, and those in elements no ampersand, `<`, return or end of
a CDATA section. RAW is to be well formed. -/
theorem encloses_iff (written : driver.description vm = .ok lines)
    (raw : content true ((driver.raw vm).toList ++ domainEnd) = some (others, domainEnd)) :
    driver.Encloses vm others ↔
      (∀ v ∈ driver.quotedValues vm, Quotable v.toList) ∧
        ∀ v ∈ driver.containedValues vm, Containable v.toList := by
  have named : Named "domain".toList (attributesOf domainAttributes) :=
    named_of_keys (List.Sublist.refl ["type", "xmlns:qemu"]) rfl
  have own : ∀ a ∈ attributesOf domainAttributes, Quotable a.2 := by decide
  have read := information_iff named (regular_description written) raw
  rw [and_iff_right own] at read
  have text : driver.deploymentDescriptionKvm vm true = .ok ('<' :: ("domain".toList ++
      (attributesText (attributesOf domainAttributes) ++
        '>' :: (texts lines ++ ((driver.raw vm).toList ++ domainEnd))))) := by
    unfold deploymentDescriptionKvm
    rw [written]
    rfl
  rw [← stands_description written]
  refine Iff.trans ?_ read
  constructor
  · intro ⟨lines', text', written', is, found⟩
    rw [written] at written'
    cases written'
    rw [text] at is
    cases is
    exact found
  · intro found
    exact ⟨lines, _, written, text, found⟩

end Encloses

/-! ## Templates with the same branches -/

section Branches

/-- The elements and the names of attributes of some lines. -/
def allOutline (ws : List Written) : List Mark := outlines (allInfos ws)

/-- Two values are both there or both empty. -/
def SameThere (value value' : String) : Prop := value = "" ↔ value' = ""

/-- The values of disks that select branches are equal. -/
structure SameDisk (driver : LibVirtDriver) (values values' : List (String × String)) : Prop where
  type : diskType values = diskType values'
  readonly : Attribute.vectorValue values "READONLY" = Attribute.vectorValue values' "READONLY"
  io : SameThere (driver.diskIo values) (driver.diskIo values')

/-- The same values of interfaces are there. -/
structure SameNic (driver : LibVirtDriver) (values values' : List (String × String)) : Prop where
  there : ∀ key ∈ ["BRIDGE", "MAC", "TARGET", "SCRIPT", "IP"],
    SameThere (Attribute.vectorValue values key) (Attribute.vectorValue values' key)
  model : SameThere (driver.nicModel values) (driver.nicModel values')
  filter : SameThere (driver.nicFilter values) (driver.nicFilter values')

structure SameGraphics (values values' : List (String × String)) : Prop where
  type : graphicsType values = graphicsType values'
  there : ∀ key ∈ ["LISTEN", "PORT", "PASSWD", "KEYMAP"],
    SameThere (Attribute.vectorValue values key) (Attribute.vectorValue values' key)

structure SameInput (values values' : List (String × String)) : Prop where
  there : ∀ key ∈ ["TYPE", "BUS"],
    SameThere (Attribute.vectorValue values key) (Attribute.vectorValue values' key)

/-- Two templates that differ in values only, and not in what selects the branches. -/
structure SameBranches (driver : LibVirtDriver) (vm vm' : KvmVm) : Prop where
  vcpu : SameThere (driver.vcpu vm) (driver.vcpu vm')
  cpu : (vm.tmpl.getFloat "CPU").isSome = (vm'.tmpl.getFloat "CPU").isSome
  os : ∀ field ∈ ["KERNEL", "INITRD", "BOOTLOADER"],
    SameThere (driver.osValue vm field) (driver.osValue vm' field)
  cmdline : SameThere (driver.kernelCmd vm) (driver.kernelCmd vm')
  disks : List.Forall₂ (SameDisk driver) (vm.tmpl.vectors "DISK") (vm'.tmpl.vectors "DISK")
  context : contextQuoted vm = [] ↔ contextQuoted vm' = []
  nics : List.Forall₂ (SameNic driver) (vm.tmpl.vectors "NIC") (vm'.tmpl.vectors "NIC")
  vnmMad : vm.vnmMad = vm'.vnmMad
  graphics : Option.Rel SameGraphics (firstVector vm "GRAPHICS") (firstVector vm' "GRAPHICS")
  input : Option.Rel SameInput (firstVector vm "INPUT") (firstVector vm' "INPUT")
  features : ∀ field, driver.feature vm field = driver.feature vm' field

variable {driver : LibVirtDriver} {vm vm' : KvmVm} {values values' : List (String × String)}
  {lines lines' ws ws' : List Written} {w : Written} {tabs name key value value' : String}
  {attributes : List (String × String)}

theorem allOutline_append : allOutline (ws ++ ws') = allOutline ws ++ allOutline ws' := by
  unfold allOutline
  rw [allInfos_append, outlines_append]

theorem allOutline_space {t : List Char} : allOutline (.space t :: ws) = allOutline ws := by
  unfold allOutline
  rw [allInfos, Written.infos, outlines_append, outlines_text, List.nil_append]

theorem allOutline_line : allOutline (line tabs w) = allOutline [w] := by
  have split : line tabs w = .space tabs.toList :: ([w] ++ [.space ['\n']]) := rfl
  rw [split, allOutline_space, allOutline_append, allOutline_space]
  exact List.append_nil _

theorem keys_attributesOf : (attributesOf attributes).map Prod.fst =
    (attributes.map Prod.fst).map String.toList := by
  unfold attributesOf
  rw [List.map_map, List.map_map]
  rfl

theorem allOutline_leaf : allOutline [leaf name attributes value] =
    [.opens name.toList ((attributes.map Prod.fst).map String.toList), .closes] := by
  rw [← keys_attributesOf]
  unfold allOutline leaf
  rw [allInfos, Written.infos, List.cons_append, outlines, Info.outline, outlines_text]
  rfl

theorem allOutline_empty : allOutline [empty name attributes] =
    [.opens name.toList ((attributes.map Prod.fst).map String.toList), .closes] := by
  rw [← keys_attributesOf]
  rfl

theorem allOutline_block : allOutline (block tabs name attributes ws) =
    .opens name.toList ((attributes.map Prod.fst).map String.toList) ::
      (allOutline ws ++ [.closes]) := by
  have inner : allOutline (.space ['\n'] :: (ws ++ [.space tabs.toList])) = allOutline ws := by
    rw [allOutline_space, allOutline_append, allOutline_space]
    exact List.append_nil _
  rw [block, allOutline_line, ← keys_attributesOf, ← inner]
  unfold allOutline
  rw [allInfos, Written.infos, List.cons_append, outlines, Info.outline]
  exact List.append_nil _

theorem SameThere.ne (same : SameThere value value') : (value ≠ "") = (value' ≠ "") :=
  propext (not_congr same)

theorem allOutline_ite {c : Prop} [Decidable c] : allOutline (if c then ws else ws') =
    if c then allOutline ws else allOutline ws' :=
  apply_ite allOutline c ws ws'

theorem map_attributeIf :
    (attributeIf key value).map Prod.fst = if value ≠ "" then [key] else [] := by
  unfold attributeIf
  exact apply_ite (List.map Prod.fst) _ _ _

theorem outline_os (same : SameBranches driver vm vm') (written : driver.os vm = .ok ws)
    (written' : driver.os vm' = .ok ws') : allOutline ws = allOutline ws' := by
  have kernel := (same.os "KERNEL" (by decide)).ne
  have initrd := (same.os "INITRD" (by decide)).ne
  have bootloader := (same.os "BOOTLOADER" (by decide)).ne
  have cmdline := same.cmdline.ne
  unfold os at written written'
  dsimp only at written written'
  split at written
  · cases written
  split at written
  · cases written
  split at written'
  · cases written'
  split at written'
  · cases written'
  cases written
  cases written'
  simp only [allOutline_block, allOutline_append, allOutline_line, allOutline_leaf,
    allOutline_empty, allOutline_ite, kernel, initrd, bootloader, cmdline, List.map_cons,
    List.map_nil]

theorem outline_disk (same : SameDisk driver values values')
    (written : driver.disk vm values = .ok ws) (written' : driver.disk vm' values' = .ok ws') :
    allOutline ws = allOutline ws' := by
  have source : (diskSource vm values).2.2.map Prod.fst =
      (diskSource vm' values').2.2.map Prod.fst := by
    unfold diskSource
    rw [same.type]
    split_ifs
    · rfl
    · rfl
    · rfl
    · rfl
  unfold disk at written written'
  dsimp only at written written'
  split at written
  · cases written
  split at written'
  · cases written'
  cases written
  cases written'
  simp only [allOutline_block, allOutline_append, allOutline_line, allOutline_empty,
    allOutline_ite, source, same.readonly, map_attributeIf, same.io.ne, List.map_append,
    List.map_cons, List.map_nil]

theorem outline_disks {all all' : List (List (String × String))}
    (same : List.Forall₂ (SameDisk driver) all all') (written : driver.disks vm all = .ok ws)
    (written' : driver.disks vm' all' = .ok ws') : allOutline ws = allOutline ws' := by
  induction same generalizing ws ws' with
  | nil =>
    cases written
    cases written'
    rfl
  | @cons values values' rest rest' here _ ih =>
    rw [disks] at written written'
    split at written
    · cases written
    · rename_i first first_is
      split at written'
      · cases written'
      · rename_i first' first_is'
        cases later : driver.disks vm rest with
        | error e =>
          rw [later] at written
          cases written
        | ok others =>
          cases later' : driver.disks vm' rest' with
          | error e =>
            rw [later'] at written'
            cases written'
          | ok others' =>
            rw [later] at written
            rw [later'] at written'
            cases written
            cases written'
            rw [allOutline_append, allOutline_append, outline_disk here first_is first_is',
              ih later later']

/-- The device of a CONTEXT has always the same elements. -/
theorem outline_context (same : contextQuoted vm = [] ↔ contextQuoted vm' = [])
    (written : context vm = .ok ws) (written' : context vm' = .ok ws') :
    allOutline ws = allOutline ws' := by
  have either : ∀ {vm : KvmVm} {ws}, context vm = .ok ws →
      (contextQuoted vm = [] ∧ ws = []) ∨ (contextQuoted vm ≠ [] ∧
        ∃ file target, ws = block "\t\t" "disk" [("type", "file"), ("device", "cdrom")] (
          line "\t\t\t" (empty "source" [("file", file)]) ++
          line "\t\t\t" (empty "target" [("dev", target)]) ++
          line "\t\t\t" (empty "readonly" []) ++
          line "\t\t\t" (empty "driver" [("name", "qemu"), ("type", "raw")]))) := by
    intro vm ws written
    unfold context at written
    unfold contextQuoted
    split at written
    · cases written
    · rename_i found
      dsimp only at written
      rw [found]
      dsimp only
      split at written
      · rename_i target
        cases written
        rw [if_pos target]
        exact Or.inr ⟨List.cons_ne_nil _ _, _, _, rfl⟩
      · rename_i target
        cases written
        rw [if_neg target]
        exact Or.inl ⟨rfl, rfl⟩
    · rename_i _ vector
      cases written
      split
      · rename_i found
        exact absurd found (vector _ _)
      · exact Or.inl ⟨rfl, rfl⟩
  rcases either written with ⟨empty, rfl⟩ | ⟨there, file, target, rfl⟩
  · rcases either written' with ⟨_, rfl⟩ | ⟨there', _⟩
    · rfl
    · exact absurd (same.mp empty) there'
  · rcases either written' with ⟨empty', _⟩ | ⟨_, file', target', rfl⟩
    · exact absurd (same.mpr empty') there
    · rfl

theorem outline_nics {nics nics' : List (List (String × String))}
    (same : List.Forall₂ (SameNic driver) nics nics') (mad : vm.vnmMad = vm'.vnmMad) :
    allOutline (nics.flatMap (driver.nic vm)) = allOutline (nics'.flatMap (driver.nic vm')) := by
  induction same with
  | nil => rfl
  | @cons values values' nics nics' here _ ih =>
    have first : allOutline (driver.nic vm values) = allOutline (driver.nic vm' values') := by
      have bridge := (here.there "BRIDGE" (by decide)).ne
      have mac := (here.there "MAC" (by decide)).ne
      have target := (here.there "TARGET" (by decide)).ne
      have script := (here.there "SCRIPT" (by decide)).ne
      have ip := (here.there "IP" (by decide)).ne
      unfold nic lineIf
      simp only [allOutline_block, allOutline_append, allOutline_line, allOutline_empty,
        allOutline_ite, bridge, mac, target, script, ip, mad, here.model.ne, here.filter.ne,
        List.map_cons, List.map_nil]
    rw [List.flatMap_cons, List.flatMap_cons, allOutline_append, allOutline_append, first, ih]

theorem outline_graphics (same : Option.Rel SameGraphics (firstVector vm "GRAPHICS")
    (firstVector vm' "GRAPHICS")) :
    allOutline (((firstVector vm "GRAPHICS").map graphics).getD []) =
      allOutline (((firstVector vm' "GRAPHICS").map graphics).getD []) := by
  generalize firstVector vm "GRAPHICS" = first at same
  generalize firstVector vm' "GRAPHICS" = second at same
  cases same with
  | none => rfl
  | @some values values' same =>
    have listen := (same.there "LISTEN" (by decide)).ne
    have port := (same.there "PORT" (by decide)).ne
    have passwd := (same.there "PASSWD" (by decide)).ne
    have keymap := (same.there "KEYMAP" (by decide)).ne
    unfold graphics
    simp only [Option.map_some, Option.getD_some, allOutline_line, allOutline_empty,
      allOutline_ite, same.type, listen, port, passwd, keymap, map_attributeIf, List.map_append,
      List.map_cons, List.map_nil]

theorem outline_input (same : Option.Rel SameInput (firstVector vm "INPUT")
    (firstVector vm' "INPUT")) :
    allOutline (((firstVector vm "INPUT").map input).getD []) =
      allOutline (((firstVector vm' "INPUT").map input).getD []) := by
  generalize firstVector vm "INPUT" = first at same
  generalize firstVector vm' "INPUT" = second at same
  cases same with
  | none => rfl
  | @some values values' same =>
    have type := (same.there "TYPE" (by decide)).ne
    have bus := (same.there "BUS" (by decide)).ne
    unfold input
    simp only [Option.map_some, Option.getD_some, allOutline_line, allOutline_empty,
      allOutline_ite, type, bus, map_attributeIf, List.map_append, List.map_cons, List.map_nil]

theorem outline_devices (same : SameBranches driver vm vm') (written : driver.devices vm = .ok ws)
    (written' : driver.devices vm' = .ok ws') : allOutline ws = allOutline ws' := by
  obtain ⟨disks, context', disks_are, context_is, rfl⟩ := devices_eq_ok written
  obtain ⟨disks', context'', disks_are', context_is', rfl⟩ := devices_eq_ok written'
  simp only [allOutline_block, allOutline_append, allOutline_line, allOutline_leaf,
    outline_disks same.disks disks_are disks_are',
    outline_context same.context context_is context_is', outline_nics same.nics same.vnmMad,
    outline_graphics same.graphics, outline_input same.input]

theorem outline_resources (same : SameBranches driver vm vm') (memory memory' : Int) :
    allOutline (driver.resources vm memory) = allOutline (driver.resources vm' memory') := by
  have cpu : ∀ cpu cpu' : Option ℚ, cpu.isSome = cpu'.isSome →
      allOutline ((cpu.map fun cpu =>
        block "\t" "cputune" [] (line "\t\t" (leaf "shares" [] (driver.shares cpu)))).getD []) =
      allOutline ((cpu'.map fun cpu =>
        block "\t" "cputune" [] (line "\t\t" (leaf "shares" [] (driver.shares cpu)))).getD []) := by
    intro cpu cpu' there
    cases cpu with
    | none =>
      cases cpu' with
      | none => rfl
      | some _ => cases there
    | some _ =>
      cases cpu' with
      | none => cases there
      | some _ =>
        simp only [Option.map_some, Option.getD_some, allOutline_block, allOutline_line,
          allOutline_leaf]
  unfold resources
  simp only [allOutline_append, allOutline_line, allOutline_leaf, allOutline_ite, same.vcpu.ne,
    cpu _ _ same.cpu]

/-- Two templates with the same branches are written with the same elements and names of
attributes. -/
theorem outline_description (same : SameBranches driver vm vm')
    (written : driver.description vm = .ok ws) (written' : driver.description vm' = .ok ws') :
    allOutline ws = allOutline ws' := by
  have features : driver.features vm = driver.features vm' := by
    unfold features
    simp only [same.features]
  obtain ⟨memory, os', devices', os_is, devices_are, rfl⟩ := description_eq_ok written
  obtain ⟨memory', os'', devices'', os_is', devices_are', rfl⟩ := description_eq_ok written'
  simp only [allOutline_space, allOutline_append, outline_resources same memory memory',
    outline_os same os_is os_is', outline_devices same devices_are devices_are', features]

/-- Where values cannot escape, two templates with the same branches give the same tree of elements
and names of attributes. -/
theorem Encloses.outline_eq_of_sameBranches {others others' : List Info}
    (encloses : driver.Encloses vm others) (encloses' : driver.Encloses vm' others')
    (same : SameBranches driver vm vm') (raw : outlines others = outlines others') :
    ∃ text text' root root', driver.deploymentDescriptionKvm vm true = .ok text ∧
      driver.deploymentDescriptionKvm vm' true = .ok text' ∧ information text = some root ∧
      information text' = some root' ∧ root.outline = root'.outline := by
  obtain ⟨lines, text, written, is, read⟩ := encloses
  obtain ⟨lines', text', written', is', read'⟩ := encloses'
  refine ⟨text, text', _, _, is, is', read, read', ?_⟩
  have inner := outline_description same written written'
  unfold allOutline at inner
  unfold domain
  rw [Info.outline, Info.outline, outlines_append, outlines_append, inner, raw]

end Branches

end LibVirtDriver

/-! ## Templates that are written -/

/-- A driver without defaults. -/
def plainDriver : LibVirtDriver where
  conf := []
  shares _ := "1024"

/-- A VM with a disk and a network interface. -/
def kvmVm (target filter : String) : KvmVm where
  oid := 7
  tmpl := [.single "MEMORY" "128", .vector "OS" [("ARCH", "x86_64"), ("BOOT", "hd")],
    .vector "DISK" [("TARGET", target), ("DISK_ID", "0")],
    .vector "NIC" [("BRIDGE", "br0"), ("IP", "192.168.0.1"), ("FILTER", filter)]]
  remoteSystemDir := "/var/7"
  vnmMad := "dummy"

theorem encloses_kvmVm : plainDriver.Encloses (kvmVm "hda" "clean-traffic") [] := by
  obtain ⟨lines, written⟩ : ∃ lines, plainDriver.description (kvmVm "hda" "clean-traffic") =
      .ok lines := by
    have succeeds : (plainDriver.description (kvmVm "hda" "clean-traffic")).toOption.isSome = true := by
      decide +kernel
    obtain ⟨lines, found⟩ := Option.isSome_iff_exists.mp succeeds
    refine ⟨lines, ?_⟩
    cases result : plainDriver.description (kvmVm "hda" "clean-traffic") with
    | error e =>
      rw [result] at found
      cases found
    | ok lines' =>
      rw [result] at found
      cases found
      rfl
  refine (LibVirtDriver.encloses_iff written (content_end true _)).mpr ⟨?_, ?_⟩
  · decide +kernel
  · decide +kernel

/-- The outline of the document that is read. -/
def LibVirtDriver.readOutline (driver : LibVirtDriver) (vm : KvmVm) : Option (List Mark) :=
  (driver.deploymentDescriptionKvm vm true).toOption.bind fun text =>
    (information text).map Info.outline

/-- The outline of the document that is meant. -/
def LibVirtDriver.meantOutline (driver : LibVirtDriver) (vm : KvmVm) : Option (List Mark) :=
  (driver.description vm).toOption.map fun lines => (LibVirtDriver.domain lines []).outline

theorem LibVirtDriver.Encloses.outline_eq {driver : LibVirtDriver} {vm : KvmVm}
    (encloses : driver.Encloses vm []) : driver.readOutline vm = driver.meantOutline vm := by
  obtain ⟨lines, text, written, is, read⟩ := encloses
  unfold readOutline meantOutline
  rw [written, is]
  show (information text).map Info.outline = _
  rw [read]
  rfl

/-- A quote in a target ends its attribute, and another element is there; a `<` in the name of a
filter makes the text no document. -/
theorem values_escape :
    (plainDriver.readOutline (kvmVm "a'/><b c='" "f") ≠ none ∧
      ¬ plainDriver.Encloses (kvmVm "a'/><b c='" "f") []) ∧
    plainDriver.readOutline (kvmVm "hda" "a<b") = none ∧
      plainDriver.meantOutline (kvmVm "hda" "a<b") ≠ none ∧
      ¬ plainDriver.Encloses (kvmVm "hda" "a<b") [] := by
  have read : (plainDriver.readOutline (kvmVm "a'/><b c='" "f")).map List.length = some 34 := by
    decide +kernel
  have meant : (plainDriver.meantOutline (kvmVm "a'/><b c='" "f")).map List.length = some 32 := by
    decide +kernel
  have broken : plainDriver.readOutline (kvmVm "hda" "a<b") = none := by decide +kernel
  have whole : plainDriver.meantOutline (kvmVm "hda" "a<b") ≠ none := by decide +kernel
  refine ⟨⟨fun none => ?_, fun encloses => ?_⟩, broken, whole, fun encloses => ?_⟩
  · rw [none] at read
    cases read
  · rw [encloses.outline_eq, meant] at read
    cases read
  · rw [encloses.outline_eq] at broken
    exact whole broken

end Ezilla

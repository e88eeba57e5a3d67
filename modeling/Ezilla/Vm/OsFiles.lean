import Ezilla.Vm.DiskImages
import Ezilla.Vm.FileVariables

/-!
# The kernel and the ramdisk of a new VM

The OS attribute of the user may name a kernel and a ramdisk in a file datastore, by a `FILE`
variable in `KERNEL_DS` and in `INITRD_DS`. `set_os_file` looks up the image and its datastore
and writes what it found under names that it composes of the one of the file.

* `setOsFile`, `parseOs`: the two functions;
* `FileWorld.osDatastore`: the datastore of a file;
* `setOsFile_kept`, `setOsFile_written`: the values that are not written and that are;
* `parseOs_kept`, `parseOs_kernel`: what the VM has in the end.
-/

namespace Ezilla

/-- What `set_os_file` reads of an image. -/
structure FileImage where
  oid : Nat
  dsId : Nat
  type : ImageType
  source : String

/-- The pools at the moment when a file is looked up. -/
structure FileWorld where
  /-- what the `FILE` variables of a text are looked up in -/
  scope : FileScope
  image : Int → Option FileImage
  datastore : Nat → Option DiskDatastore

/-- The errors of `parse_os`. -/
inductive OsFileError where
  /-- the error of `parse_file_attribute` -/
  | parse (attr : String)
  /-- Only one FILE variable can be used in: attr -/
  | oneFile (attr : String)
  /-- Image no longer exists in attribute: attr -/
  | imageGone (attr : String)
  /-- the file needs an image of one type and not of the other -/
  | wrongType (baseName : String) (baseType type : ImageType)
  /-- Associated datastore for image does not exist -/
  | noDatastore
  /-- Only one OS attribute can be defined. -/
  | oneOs
  /-- Internal error parsing OS attribute. -/
  | internal
  deriving DecidableEq, Repr

/-- `VirtualMachine::set_os_file`. -/
def setOsFile (w : FileWorld) (os : List (String × String)) (baseName : String)
    (baseType : ImageType) : Except OsFileError (List (String × String)) :=
  let attr := Attribute.vectorValue os (baseName ++ "_DS")
  if attr = "" then .ok os
  else
    match w.scope.parseFileAttribute attr with
    | none => .error (.parse attr)
    | some [iid] =>
      match w.image iid with
      | none => .error (.imageGone attr)
      | some img =>
        let os := Attribute.remove os baseName
        let os := Attribute.replace os (baseName ++ "_DS_ID") (toString img.oid)
        let os := Attribute.replace os (baseName ++ "_DS_SOURCE") img.source
        let os := Attribute.replace os (baseName ++ "_DS_DSID") (toString img.dsId)
        if img.type ≠ baseType then .error (.wrongType baseName baseType img.type)
        else
          match w.datastore img.dsId with
          | none => .error .noDatastore
          | some ds =>
            let os := Attribute.replace os (baseName ++ "_DS_TM") ds.tmMad
            .ok <|
              if ds.clusterId ≠ -1 then
                Attribute.replace os (baseName ++ "_DS_CLUSTER_ID") (toString ds.clusterId)
              else os
    | some _ => .error (.oneFile attr)

/-- `VirtualMachine::parse_os` on the OS attributes of the user. `w` are the pools when a file
of a type is set. -/
def parseOs (w : ImageType → FileWorld) :
    List Attribute → Except OsFileError (Option (List (String × String)))
  | [] => .ok none
  | [.single _ _] => .error .internal
  | [.vector _ os] =>
    ((setOsFile (w .kernel) os "KERNEL" .kernel).bind fun os =>
      setOsFile (w .ramdisk) os "INITRD" .ramdisk).map some
  | _ => .error .oneOs

/-- The OS attribute of a template. -/
def osValues : List Attribute → List (String × String)
  | .vector _ os :: _ => os
  | _ => []

/-- The image that a file names. -/
def FileWorld.osImage (w : FileWorld) (os : List (String × String)) (baseName : String) :
    Option FileImage :=
  let attr := Attribute.vectorValue os (baseName ++ "_DS")
  if attr = "" then none
  else
    match w.scope.parseFileAttribute attr with
    | some [iid] => w.image iid
    | _ => none

/-- The datastore of the image that a file names. -/
def FileWorld.osDatastore (w : FileWorld) (os : List (String × String)) (baseName : String) :
    Option DiskDatastore :=
  (w.osImage os baseName).bind fun img => w.datastore img.dsId

/-- The names that `set_os_file` writes or removes. -/
def osNames (baseName : String) : List String :=
  [baseName, baseName ++ "_DS_ID", baseName ++ "_DS_SOURCE", baseName ++ "_DS_DSID",
    baseName ++ "_DS_TM", baseName ++ "_DS_CLUSTER_ID"]

variable {w : FileWorld} {os os' : List (String × String)} {baseName name : String}
  {baseType : ImageType}

theorem setOsFile_kept (done : setOsFile w os baseName baseType = .ok os')
    (other : name ∉ osNames baseName) :
    Attribute.vectorValue os' name = Attribute.vectorValue os name := by
  simp only [osNames, List.mem_cons, List.not_mem_nil, or_false, not_or] at other
  obtain ⟨base, id, source, dsid, tm, cluster⟩ := other
  unfold setOsFile at done
  dsimp only at done
  repeat' split at done
  all_goals cases done
  · rfl
  · rw [Attribute.vectorValue_replace_ne cluster, Attribute.vectorValue_replace_ne tm,
      Attribute.vectorValue_replace_ne dsid, Attribute.vectorValue_replace_ne source,
      Attribute.vectorValue_replace_ne id, Attribute.vectorValue_remove_ne base]
  · rw [Attribute.vectorValue_replace_ne tm, Attribute.vectorValue_replace_ne dsid,
      Attribute.vectorValue_replace_ne source, Attribute.vectorValue_replace_ne id,
      Attribute.vectorValue_remove_ne base]

/-- The driver and the datastore of a file that is found are written. -/
theorem setOsFile_written (done : setOsFile w os baseName baseType = .ok os')
    (named : Attribute.vectorValue os (baseName ++ "_DS") ≠ "") : ∃ img ds,
      w.osImage os baseName = some img ∧ w.osDatastore os baseName = some ds ∧
        Attribute.vectorValue os' (baseName ++ "_DS_SOURCE") = img.source ∧
        Attribute.vectorValue os' (baseName ++ "_DS_DSID") = toString img.dsId ∧
        Attribute.vectorValue os' (baseName ++ "_DS_TM") = ds.tmMad := by
  unfold setOsFile at done
  dsimp only at done
  rw [if_neg named] at done
  split at done
  · cases done
  · rename_i iid parsed
    split at done
    · cases done
    · rename_i img found
      have image : w.osImage os baseName = some img := by
        unfold FileWorld.osImage
        dsimp only
        rw [if_neg named, parsed]
        exact found
      split at done
      · cases done
      · split at done
        · cases done
        · rename_i ds known
          have datastore : w.osDatastore os baseName = some ds := by
            unfold FileWorld.osDatastore
            rw [image]
            exact known
          cases done
          refine ⟨img, ds, image, datastore, ?_⟩
          simp only [Attribute.vectorValue_ite, Attribute.vectorValue_replace_ite,
            String.append_right_inj, String.reduceEq, if_false, if_true, ite_self, and_self]
  · cases done

theorem parseOs_cases {files : ImageType → FileWorld} {attributes : List Attribute}
    {os : Option (List (String × String))} (parsed : parseOs files attributes = .ok os) :
    attributes = [] ∧ os = none ∨ ∃ name values os₁ os₂, attributes = [.vector name values] ∧
      setOsFile (files .kernel) values "KERNEL" .kernel = .ok os₁ ∧
      setOsFile (files .ramdisk) os₁ "INITRD" .ramdisk = .ok os₂ ∧ os = some os₂ := by
  unfold parseOs at parsed
  split at parsed
  · cases parsed
    exact .inl ⟨rfl, rfl⟩
  · cases parsed
  · rename_i name values
    refine .inr ⟨name, values, ?_⟩
    cases first : setOsFile (files .kernel) values "KERNEL" .kernel with
    | error e =>
      rw [first] at parsed
      cases parsed
    | ok os₁ =>
      rw [first, Except.bind] at parsed
      cases second : setOsFile (files .ramdisk) os₁ "INITRD" .ramdisk with
      | error e =>
        rw [second] at parsed
        cases parsed
      | ok os₂ =>
        rw [second] at parsed
        cases parsed
        exact ⟨os₁, os₂, rfl, rfl, second, rfl⟩
  · cases parsed

section

variable {files : ImageType → FileWorld} {attributes : List Attribute}
  {os : Option (List (String × String))}

/-- `parse_os` leaves what it does not write. -/
theorem parseOs_kept (parsed : parseOs files attributes = .ok os) (kernel : name ∉ osNames "KERNEL")
    (initrd : name ∉ osNames "INITRD") :
    Attribute.vectorValue (os.getD []) name = Attribute.vectorValue (osValues attributes) name := by
  obtain ⟨rfl, rfl⟩ | ⟨_, values, os₁, os₂, rfl, first, second, rfl⟩ := parseOs_cases parsed
  · rfl
  · exact (setOsFile_kept second initrd).trans (setOsFile_kept first kernel)

/-- What the VM has of a kernel that is named. -/
theorem parseOs_kernel (parsed : parseOs files attributes = .ok os)
    (named : Attribute.vectorValue (osValues attributes) "KERNEL_DS" ≠ "") : ∃ img ds,
      (files .kernel).osImage (osValues attributes) "KERNEL" = some img ∧
        (files .kernel).osDatastore (osValues attributes) "KERNEL" = some ds ∧
        Attribute.vectorValue (os.getD []) "KERNEL_DS_SOURCE" = img.source ∧
        Attribute.vectorValue (os.getD []) "KERNEL_DS_DSID" = toString img.dsId ∧
        Attribute.vectorValue (os.getD []) "KERNEL_DS_TM" = ds.tmMad := by
  obtain ⟨rfl, rfl⟩ | ⟨_, values, os₁, os₂, rfl, first, second, rfl⟩ := parseOs_cases parsed
  · exact absurd rfl named
  · obtain ⟨img, ds, image, datastore, source, dsid, tm⟩ := setOsFile_written first named
    refine ⟨img, ds, image, datastore, ?_, ?_, ?_⟩
    · exact (setOsFile_kept second (by decide)).trans source
    · exact (setOsFile_kept second (by decide)).trans dsid
    · exact (setOsFile_kept second (by decide)).trans tm

end

end Ezilla

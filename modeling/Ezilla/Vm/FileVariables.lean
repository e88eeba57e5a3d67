import Ezilla.Image.ImagePool
import Ezilla.Vm.VariableText

/-!
# The images of FILE variables

`KERNEL_DS`, `INITRD_DS` and `FILES_DS` hold variables `$FILE[IMAGE_ID=5]` or
`$FILE[IMAGE=name, IMAGE_UNAME=owner]`. Their text goes through the scanner of the other
variables and through a grammar of its own, which looks up each image and asks whether the owner
of the VM may use it.

* `FileScope.getImagePath`: the image of one variable;
* `FileScope.parseFileAttribute`: those of a text;
* `parseFileAttribute_mem`: every image that is found may be used by the owner.
-/

namespace Ezilla

open VariableText (Token)

/-- The owner of the VM, and the pools while a text is parsed. -/
structure FileScope where
  uid : Oid
  gid : Oid
  users : ImageWorld
  pool : ImageWorld

namespace FileScope

variable (s : FileScope)

/-- The image that a variable names, in a pool. -/
def fileImage (var1 val1 var2 val2 : String) : Option (Nat × PoolImage) :=
  if var1 = "IMAGE" then
    let uid := s.uid.val.toInt
    let uid := if var2 ≠ "" then s.users.getDiskUid [(var1, val1), (var2, val2)] uid else uid
    s.pool.getByName val1 uid
  else if var1 = "IMAGE_ID" then
    let iid := getDiskId val1
    if iid ≠ -1 then s.pool.get iid else none
  else none

/-- `get_image_path`, `none` for an error. -/
def getImagePath (varName var1 val1 var2 val2 : String) : Option Int :=
  if varName ≠ "FILE" then none
  else
    match s.fileImage var1 val1 var2 val2 with
    | none => none
    | some (oid, img) => if s.pool.acls.addAuth s.uid s.gid img.perms .use then some oid else none

/-- The grammar: variables with one or two attributes, and nothing between them. -/
def run : List Token → Option (List Int)
  | .word file :: .obracket :: .word var1 :: .equal :: .string val1 :: .cbracket :: .eoa _ :: ts =>
    (s.getImagePath file.toUpper var1.toUpper val1 "" "").bind fun iid =>
      if ts = [] then some [iid] else (run ts).map (iid :: ·)
  | .word file :: .obracket :: .word var1 :: .equal :: .string val1 :: .comma :: .word var2 ::
      .equal :: .string val2 :: .cbracket :: .eoa _ :: ts =>
    (s.getImagePath file.toUpper var1.toUpper val1 var2.toUpper val2).bind fun iid =>
      if ts = [] then some [iid] else (run ts).map (iid :: ·)
  | _ => none

/-- `VirtualMachine::parse_file_attribute`: the ids of the images, `none` for an error. Blanks
before the text are taken off, since its grammar has no rule for text. -/
def parseFileAttribute (attr : String) : Option (List Int) :=
  s.run (VariableText.rules.lex .initial (skipBlanks attr.toList))

/-! ## The images that are found -/

variable {s} {iid : Int}

/-- The image exists, and the owner of the VM may use it. -/
def Usable (s : FileScope) (iid : Int) : Prop :=
  ∃ oid img, iid = (oid : Nat) ∧ s.pool.images oid = some img ∧
    s.pool.acls.addAuth s.uid s.gid img.perms .use = true

theorem usable_of_getImagePath {varName var1 val1 var2 val2 : String}
    (found : s.getImagePath varName var1 val1 var2 val2 = some iid) : s.Usable iid := by
  unfold getImagePath at found
  split at found
  · cases found
  · split at found
    · cases found
    · rename_i oid img named
      split at found
      · rename_i allowed
        cases found
        refine ⟨oid, img, rfl, ?_, allowed⟩
        -- by name or by id, the pool is asked for the number
        unfold fileImage at named
        split at named
        · obtain ⟨i, -, there⟩ := Option.bind_eq_some_iff.mp named
          obtain ⟨img', is, same⟩ := Option.map_eq_some_iff.mp there
          cases same
          exact is
        · dsimp only at named
          split at named
          · split at named
            · unfold ImageWorld.get at named
              split at named
              · cases named
              · obtain ⟨img', is, same⟩ := Option.map_eq_some_iff.mp named
                cases same
                exact is
            · cases named
          · cases named
      · cases found

theorem usable_of_run {ts : List Token} {iids : List Int} (done : s.run ts = some iids) :
    ∀ iid ∈ iids, s.Usable iid := by
  have next : ∀ {found : Option Int} {ts : List Token} {iids : List Int},
      (∀ iid, found = some iid → s.Usable iid) →
      (∀ iids, s.run ts = some iids → ∀ iid ∈ iids, s.Usable iid) →
      (found.bind fun iid => if ts = [] then some [iid] else (s.run ts).map (iid :: ·)) =
        some iids → ∀ iid ∈ iids, s.Usable iid := by
    intro found ts iids first rest is iid mem
    obtain ⟨i, here, is⟩ := Option.bind_eq_some_iff.mp is
    split at is
    · cases is
      rw [List.mem_singleton.mp mem]
      exact first i here
    · obtain ⟨more, later, same⟩ := Option.map_eq_some_iff.mp is
      cases same
      rcases List.mem_cons.mp mem with rfl | mem
      · exact first _ here
      · exact rest more later iid mem
  fun_induction run s ts generalizing iids with
  | case1 file var1 val1 c ts ih =>
    exact next (fun _ found => usable_of_getImagePath found) (fun iids is => ih is) done
  | case2 file var1 val1 var2 val2 c ts ih =>
    exact next (fun _ found => usable_of_getImagePath found) (fun iids is => ih is) done
  | case3 => cases done

/-- Every image that is found may be used by the owner of the VM. -/
theorem parseFileAttribute_mem {attr : String} {iids : List Int}
    (parsed : s.parseFileAttribute attr = some iids) : ∀ iid ∈ iids, s.Usable iid :=
  usable_of_run parsed

end FileScope

end Ezilla

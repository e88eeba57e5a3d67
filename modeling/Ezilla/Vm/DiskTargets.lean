import Ezilla.Vm.DiskImages

/-!
# The targets of a new VM

The disks of a new VM have a number by their position. Their targets come from the user, from
the images, or from a search over the letters: with at most twenty disks and a context some
letter is always free.

* `VmDisks.texts`: the values that the disks and the context have under one name;
* `chooseTarget_not_mem_iff`: when the search finds a free target;
* `Waiting`: the disks that wait for a target, and the targets that are taken;
* `nodup_of_getDiskImages`: the numbers and the targets of a new VM.
-/

namespace Ezilla

/-- The value of a vector attribute. -/
def Attribute.text? (name : String) : Attribute → Option String
  | single _ _ => none
  | vector _ values => some (vectorValue values name)

namespace VmDisks

/-- The values of the disks and of the context under a name. -/
def texts (vm : VmDisks) (name : String) : List String :=
  vm.disks.filterMap (Attribute.text? name) ++
    (vm.context.map fun values => Attribute.vectorValue values name).toList

/-- The value of one of them. -/
def textAt (vm : VmDisks) (name : String) : DiskRef → Option String
  | .context => vm.context.map fun values => Attribute.vectorValue values name
  | .disk i => vm.disks[i]?.bind (Attribute.text? name)

variable {vm : VmDisks} {name : String}

theorem mem_texts_iff {text : String} :
    text ∈ vm.texts name ↔ ∃ ref, vm.textAt name ref = some text := by
  unfold texts
  rw [List.mem_append, List.mem_filterMap, Option.mem_toList]
  constructor
  · intro member
    rcases member with ⟨a, member, same⟩ | context
    · obtain ⟨i, here⟩ := List.mem_iff_getElem?.mp member
      exact ⟨.disk i, Option.bind_eq_some_iff.mpr ⟨a, here, same⟩⟩
    · exact ⟨.context, context⟩
  · intro ⟨ref, same⟩
    cases ref with
    | context => exact .inr same
    | disk i =>
      obtain ⟨a, here, same⟩ := Option.bind_eq_some_iff.mp same
      exact .inl ⟨a, List.mem_of_getElem? here, same⟩

/-- The values are different where no two of them are the same. -/
theorem nodup_texts (apart : ∀ ref ref' text, vm.textAt name ref = some text →
    vm.textAt name ref' = some text → ref = ref') : (vm.texts name).Nodup := by
  refine List.nodup_append.mpr ⟨?_, ?_, ?_⟩
  · rw [List.Nodup, List.pairwise_filterMap, List.pairwise_iff_getElem]
    intro i j first second below text here text' there same
    have left : vm.textAt name (.disk i) = some text :=
      Option.bind_eq_some_iff.mpr ⟨_, List.getElem?_eq_getElem first, here⟩
    have right : vm.textAt name (.disk j) = some text :=
      Option.bind_eq_some_iff.mpr ⟨_, List.getElem?_eq_getElem second, same ▸ there⟩
    cases apart _ _ _ left right
    exact absurd below (Nat.lt_irrefl i)
  · cases vm.context with
    | none => exact List.nodup_nil
    | some values => exact List.nodup_singleton _
  · intro text disk text' context same
    obtain ⟨a, member, here⟩ := List.mem_filterMap.mp disk
    obtain ⟨i, at_⟩ := List.mem_iff_getElem?.mp member
    have left : vm.textAt name (.disk i) = some text := Option.bind_eq_some_iff.mpr ⟨a, at_, here⟩
    have right : vm.textAt name .context = some text := same ▸ Option.mem_toList.mp context
    cases apart _ _ _ left right

/-- A value of one attribute is replaced. -/
theorem textAt_modify {ref ref' : DiskRef} {key value : String} :
    (vm.modify (fun values => Attribute.replace values key value) ref).textAt name ref' =
      if ref' = ref ∧ name = key then (vm.textAt name ref').map fun _ => value
      else vm.textAt name ref' := by
  have replaced : ∀ values, Attribute.vectorValue (Attribute.replace values key value) name =
      if name = key then value else Attribute.vectorValue values name := fun values =>
    Attribute.vectorValue_replace_ite
  cases ref with
  | context =>
    cases ref' with
    | context =>
      unfold textAt modify
      simp only [Option.map_map, Function.comp_def, replaced, true_and]
      split <;> rfl
    | disk j => exact (if_neg fun both => nomatch both.1).symm
  | disk i =>
    cases ref' with
    | context => exact (if_neg fun both => nomatch both.1).symm
    | disk j =>
      have changed : (vm.modify (fun values => Attribute.replace values key value)
          (.disk i)).textAt name (.disk j) = (vm.disks.modify i (Attribute.modify fun values =>
            Attribute.replace values key value))[j]?.bind (Attribute.text? name) := rfl
      have before : vm.textAt name (.disk j) = vm.disks[j]?.bind (Attribute.text? name) := rfl
      rw [changed, before, List.getElem?_modify]
      cases vm.disks[j]? with
      | none =>
        simp only [Option.map_eq_map, Option.map_none, Option.bind_none, ite_self]
      | some a =>
        cases a with
        | single _ _ =>
          simp only [Option.map_eq_map, Option.map_some, Attribute.modify, ite_self,
            Option.bind_some, Attribute.text?, Option.map_none]
        | vector _ values =>
          simp only [Option.map_eq_map, Option.map_some, DiskRef.disk.injEq]
          rcases eq_or_ne i j with rfl | apart
          · simp only [if_true, Attribute.modify, Option.bind_some, Attribute.text?, replaced,
              true_and, Option.map_some]
            split <;> rfl
          · simp only [apart, apart.symm, if_false, false_and]

end VmDisks

/-! ## The search -/

theorem mem_candidates_iff {devPrefix target : String} : target ∈ candidates devPrefix ↔
    ∃ index < 26, devPrefix.push (Char.ofNat ('a'.toNat + index)) = target := by
  unfold candidates
  simp only [List.mem_map, List.mem_range]

/-- The search finds a target that is free if there is one. -/
theorem chooseTarget_not_mem_iff {used : List String} {devPrefix : String} :
    chooseTarget used devPrefix ∉ used ↔ ∃ target ∈ candidates devPrefix, target ∉ used := by
  unfold chooseTarget
  cases found : (candidates devPrefix).find? fun target => target ∉ used with
  | some target =>
    have free := List.find?_some found
    exact iff_of_true (of_decide_eq_true free)
      ⟨target, List.mem_of_find?_eq_some found, of_decide_eq_true free⟩
  | none =>
    have all := List.find?_eq_none.mp found
    have last : devPrefix.push 'z' ∈ candidates devPrefix :=
      mem_candidates_iff.mpr ⟨25, by decide, rfl⟩
    refine iff_of_false (fun free => all _ last (decide_eq_true free)) fun ⟨target, member, free⟩ => ?_
    exact all target member (decide_eq_true free)

theorem chooseTarget_ne_empty {used : List String} {devPrefix : String} :
    chooseTarget used devPrefix ≠ "" := by
  have pushed : ∀ c, devPrefix.push c ≠ "" := fun c => String.push_ne_empty
  unfold chooseTarget
  cases found : (candidates devPrefix).find? fun target => target ∉ used with
  | some target =>
    obtain ⟨index, _, rfl⟩ := mem_candidates_iff.mp (List.mem_of_find?_eq_some found)
    exact pushed _
  | none => exact pushed _

/-- The letters give 26 targets. -/
theorem nodup_candidates (devPrefix : String) : (candidates devPrefix).Nodup := by
  have letter : ∀ index < 26, (Char.ofNat ('a'.toNat + index)).toNat = 'a'.toNat + index := by
    intro index small
    have code : 'a'.toNat = 97 := rfl
    have valid : ('a'.toNat + index).isValidChar := .inl (by omega)
    rw [Char.ofNat, dif_pos valid]
    rfl
  refine List.Nodup.map_on ?_ List.nodup_range
  intro i first j second same
  have codes := congrArg Char.toNat (String.push_inj.mp same).2
  rw [letter i (List.mem_range.mp first), letter j (List.mem_range.mp second)] at codes
  exact Nat.add_left_cancel codes

/-- With fewer than 26 used targets one is free. -/
theorem chooseTarget_fresh {used : List String} {devPrefix : String} (few : used.length < 26) :
    chooseTarget used devPrefix ∉ used := by
  rw [chooseTarget_not_mem_iff]
  by_contra taken
  push Not at taken
  have inside := (nodup_candidates devPrefix).subperm taken
  have longer := inside.length_le
  unfold candidates at longer
  rw [List.length_map, List.length_range] at longer
  omega

/-! ## The disks that wait -/

/-- The targets that are taken are in use, and the disks without one wait in the queue, at most
`bound` of both. -/
structure Waiting (bound : Nat) (vm : VmDisks) (used : List String) (queue : List DiskRef) :
    Prop where
  taken : ∀ ref text, vm.textAt "TARGET" ref = some text → text ≠ "" → text ∈ used
  apart : ∀ ref ref' text, vm.textAt "TARGET" ref = some text →
    vm.textAt "TARGET" ref' = some text → text ≠ "" → ref = ref'
  queued : ∀ ref, ref ∈ queue ↔ vm.textAt "TARGET" ref = some ""
  nodup : queue.Nodup
  few : used.length + queue.length ≤ bound

namespace Waiting

variable {bound : Nat} {vm : VmDisks} {used : List String} {queue : List (String × DiskRef)}
  {devPrefix : String} {ref : DiskRef}

/-- The order in which the disks wait makes no difference. -/
theorem perm {refs refs' : List DiskRef} (same : refs.Perm refs')
    (waiting : Waiting bound vm used refs) : Waiting bound vm used refs' where
  taken := waiting.taken
  apart := waiting.apart
  queued ref := same.mem_iff.symm.trans (waiting.queued ref)
  nodup := same.nodup_iff.mp waiting.nodup
  few := same.length_eq ▸ waiting.few

/-- The first disk of the queue gets a free target. -/
theorem next (small : bound ≤ 26) (waiting : Waiting bound vm used (ref :: queue.map Prod.snd)) :
    Waiting bound (vm.modify (fun values =>
        Attribute.replace values "TARGET" (chooseTarget used devPrefix)) ref)
      (chooseTarget used devPrefix :: used) (queue.map Prod.snd) := by
  have few := waiting.few
  rw [List.length_cons] at few
  have fresh : chooseTarget used devPrefix ∉ used := chooseTarget_fresh (by omega)
  have some := @chooseTarget_ne_empty used devPrefix
  generalize chooseTarget used devPrefix = target at fresh some
  have empty := (waiting.queued ref).mp List.mem_cons_self
  have texts : ∀ ref', (vm.modify (fun values => Attribute.replace values "TARGET" target)
      ref).textAt "TARGET" ref' =
        if ref' = ref then .some target else vm.textAt "TARGET" ref' := by
    intro ref'
    rw [VmDisks.textAt_modify]
    simp only [and_true]
    split
    · rename_i same
      rw [same, empty]
      rfl
    · rfl
  -- a target that was there before is in use
  have old : ∀ ref' text, ref' ≠ ref → vm.textAt "TARGET" ref' = .some text → text ≠ target := by
    intro ref' text other here same
    exact fresh (same ▸ waiting.taken ref' text here (same ▸ some))
  constructor
  · intro ref' text here nonempty
    rw [texts] at here
    split at here
    · cases here
      exact List.mem_cons_self
    · exact List.mem_cons_of_mem _ (waiting.taken ref' text here nonempty)
  · intro ref₁ ref₂ text first second nonempty
    rw [texts] at first second
    split at first
    · rename_i same
      cases first
      split at second
      · rename_i same'
        rw [same, same']
      · rename_i other
        exact absurd rfl (old ref₂ _ other second)
    · rename_i other
      split at second
      · cases second
        exact absurd rfl (old ref₁ _ other first)
      · exact waiting.apart ref₁ ref₂ text first second nonempty
  · intro ref'
    have only := waiting.nodup
    rw [List.nodup_cons] at only
    rw [texts]
    split
    · rename_i same
      rw [same]
      exact iff_of_false only.1 fun same => some (Option.some.inj same)
    · rename_i other
      have before := waiting.queued ref'
      rw [List.mem_cons, or_iff_right other] at before
      exact before
  · exact (List.nodup_cons.mp waiting.nodup).2
  · rw [List.length_cons]
    omega

/-- All disks of the queue get a target. -/
theorem assign (small : bound ≤ 26) (waiting : Waiting bound vm used (queue.map Prod.snd)) :
    Waiting bound (assignDiskTargets queue (vm, used)).1 (assignDiskTargets queue (vm, used)).2
      [] := by
  induction queue generalizing vm used with
  | nil => exact waiting
  | cons entry queue ih => exact ih (waiting.next small)

end Waiting

theorem VmDisks.length_assignDiskTargets (queue : List (String × DiskRef)) (vm : VmDisks)
    (used : List String) :
    (assignDiskTargets queue (vm, used)).1.disks.length = vm.disks.length := by
  induction queue generalizing vm used with
  | nil => rfl
  | cons entry queue ih =>
    rw [assignDiskTargets, ih]
    cases entry.2 with
    | context => rfl
    | disk i => exact List.length_modify _ _ _

theorem assignDiskTargets_append {queue queue' : List (String × DiskRef)}
    {state : VmDisks × List String} : assignDiskTargets (queue ++ queue') state =
      assignDiskTargets queue' (assignDiskTargets queue state) := by
  induction queue generalizing state with
  | nil => rfl
  | cons entry queue ih =>
    obtain ⟨vm, used⟩ := state
    exact ih

/-! ## The loop over the disks -/

theorem DiskWorld.of_diskAttribute {w : DiskWorld} {vmId : Nat} {uid : Int}
    {disk : List (String × String)} {diskId : Int} {answer : DiskAnswer}
    (filled : w.diskAttribute vmId uid disk diskId = some answer) :
    Attribute.vectorValue answer.disk "DISK_ID" = toString diskId ∧
      answer.imgType.isDisk = true := by
  unfold diskAttribute at filled
  split at filled
  · cases filled
  · cases filled
    exact ⟨Attribute.vectorValue_replace, rfl⟩
  · rename_i oid img found
    obtain ⟨ds, _, rfl⟩ := Option.map_eq_some_iff.mp filled
    exact ⟨Attribute.vectorValue_replace, DiskLookup.isDisk_of_diskAttribute found⟩

namespace DiskQueues

variable {q : DiskQueues} {a : Attribute} {ref : DiskRef} {name : String}

/-- The queues in the order in which they are served. -/
def queue (q : DiskQueues) : List (String × DiskRef) := q.osDisk ++ q.cdromDisks ++ q.datablockDisks

theorem assign_eq (q : DiskQueues) : q.assign = (assignDiskTargets q.queue (q.vm, q.used)).1 := by
  unfold assign queue
  rw [assignDiskTargets_append, assignDiskTargets_append]

theorem textAt_add : (q.add a).vm.textAt name ref =
    if ref = .disk q.vm.disks.length then a.text? name else q.vm.textAt name ref := by
  cases ref with
  | context => exact (if_neg nofun).symm
  | disk i =>
    have added : (q.add a).vm.textAt name (.disk i) =
        (q.vm.disks ++ [a])[i]?.bind (Attribute.text? name) := rfl
    rw [added]
    rcases Nat.lt_trichotomy i q.vm.disks.length with below | rfl | above
    · rw [List.getElem?_append_left below, if_neg fun same => absurd (DiskRef.disk.inj same)
        (Nat.ne_of_lt below)]
      rfl
    · rw [List.getElem?_concat_length, if_pos rfl]
      rfl
    · rw [List.getElem?_eq_none, if_neg fun same => absurd (DiskRef.disk.inj same)
        (Nat.ne_of_gt above)]
      · have before : q.vm.textAt name (.disk i) = q.vm.disks[i]?.bind (Attribute.text? name) := rfl
        rw [before, List.getElem?_eq_none (Nat.le_of_lt above)]
      · rw [List.length_append]
        exact above

/-- No disk has the next position. -/
theorem textAt_length : q.vm.textAt name (.disk q.vm.disks.length) = none := by
  have here : q.vm.textAt name (.disk q.vm.disks.length) =
      q.vm.disks[q.vm.disks.length]?.bind (Attribute.text? name) := rfl
  rw [here, List.getElem?_eq_none (Nat.le_refl _)]
  rfl

theorem length_add : (q.add a).vm.disks.length = q.vm.disks.length + 1 := by
  unfold add
  rw [List.length_append, List.length_singleton]

end DiskQueues

namespace Waiting

variable {bound : Nat} {q q' : DiskQueues} {a : Attribute} {used : List String}
  {refs : List DiskRef} {target : String}

/-- A text that is no disk comes. -/
theorem add_plain (plain : a.text? "TARGET" = none) (waiting : Waiting bound q.vm used refs) :
    Waiting (bound + 1) (q.add a).vm used refs := by
  have texts : ∀ ref, (q.add a).vm.textAt "TARGET" ref = q.vm.textAt "TARGET" ref := by
    intro ref
    rw [DiskQueues.textAt_add, plain]
    split
    · rename_i last
      rw [last, DiskQueues.textAt_length]
    · rfl
  exact ⟨by simpa only [texts] using waiting.taken, by simpa only [texts] using waiting.apart,
    by simpa only [texts] using waiting.queued, waiting.nodup, Nat.le_succ_of_le waiting.few⟩

/-- A disk with a target of its own comes. -/
theorem add_taken (own : a.text? "TARGET" = some target) (some : target ≠ "") (fresh : target ∉ used)
    (waiting : Waiting bound q.vm used refs) :
    Waiting (bound + 1) (q.add a).vm (target :: used) refs := by
  have few := waiting.few
  constructor
  · intro ref text here nonempty
    rw [DiskQueues.textAt_add, own] at here
    split at here
    · cases here
      exact List.mem_cons_self
    · exact List.mem_cons_of_mem _ (waiting.taken ref text here nonempty)
  · intro ref ref' text first second nonempty
    rw [DiskQueues.textAt_add, own] at first second
    split at first
    · rename_i last
      cases first
      split at second
      · rename_i last'
        rw [last, last']
      · exact absurd (waiting.taken ref' _ second some) fresh
    · split at second
      · cases second
        exact absurd (waiting.taken ref _ first some) fresh
      · exact waiting.apart ref ref' text first second nonempty
  · intro ref
    rw [DiskQueues.textAt_add, own, waiting.queued]
    split
    · rename_i last
      rw [last, DiskQueues.textAt_length]
      exact iff_of_false nofun fun same => some (Option.some.inj same)
    · exact Iff.rfl
  · exact waiting.nodup
  · rw [List.length_cons]
    omega

/-- A disk without a target comes. -/
theorem add_queued (own : a.text? "TARGET" = some "") (waiting : Waiting bound q.vm used refs) :
    Waiting (bound + 1) (q.add a).vm used (.disk q.vm.disks.length :: refs) := by
  have few := waiting.few
  have last : .disk q.vm.disks.length ∉ refs := by
    rw [waiting.queued, DiskQueues.textAt_length]
    exact nofun
  constructor
  · intro ref text here nonempty
    rw [DiskQueues.textAt_add, own] at here
    split at here
    · cases here
      exact absurd rfl nonempty
    · exact waiting.taken ref text here nonempty
  · intro ref ref' text first second nonempty
    rw [DiskQueues.textAt_add, own] at first second
    split at first
    · cases first
      exact absurd rfl nonempty
    · split at second
      · cases second
        exact absurd rfl nonempty
      · exact waiting.apart ref ref' text first second nonempty
  · intro ref
    rw [DiskQueues.textAt_add, own, List.mem_cons, waiting.queued]
    split
    · rename_i same
      exact iff_of_true (.inl same) rfl
    · rename_i other
      exact or_iff_right other
  · exact List.nodup_cons.mpr ⟨last, waiting.nodup⟩
  · rw [List.length_cons]
    omega

/-- A disk that was set up comes. -/
theorem push {name : String} {answer : DiskAnswer} (disk : answer.imgType.isDisk = true)
    (pushed : q.push name answer = .ok q')
    (waiting : Waiting bound q.vm q.used (q.queue.map Prod.snd)) :
    Waiting (bound + 1) q'.vm q'.used (q'.queue.map Prod.snd) := by
  unfold DiskQueues.push at pushed
  dsimp only at pushed
  have own : (Attribute.vector name answer.disk).text? "TARGET" =
    some (Attribute.vectorValue answer.disk "TARGET") := rfl
  split at pushed
  · rename_i given
    split at pushed
    · cases pushed
    · rename_i fresh
      cases pushed
      exact waiting.add_taken own given fresh
  · rename_i missing
    rw [not_not.mp missing] at own
    have queued := waiting.add_queued own
    -- the last of the three queues ends with the disk
    have behind : (DiskRef.disk q.vm.disks.length :: q.queue.map Prod.snd).Perm
        ((q.osDisk ++ q.cdromDisks ++
          (q.datablockDisks ++ [(answer.devPrefix, DiskRef.disk q.vm.disks.length)])).map Prod.snd) := by
      rw [← List.append_assoc, List.map_append]
      exact (List.perm_append_singleton _ _).symm
    split at pushed
    · split at pushed
      · rename_i first
        cases pushed
        have first : q.osDisk = [] := first
        unfold DiskQueues.queue at queued ⊢
        rw [first] at queued
        exact queued
      · cases pushed
        exact queued.perm behind
    · cases pushed
      refine queued.perm ?_
      have between : (q.osDisk ++
          (q.cdromDisks ++ [(answer.devPrefix, DiskRef.disk q.vm.disks.length)]) ++
            q.datablockDisks).Perm ((answer.devPrefix, .disk q.vm.disks.length) :: q.queue) := by
        rw [← List.append_assoc, List.append_assoc]
        exact List.perm_middle
      exact (between.map Prod.snd).symm
    · cases pushed
      exact queued.perm behind
    · rename_i os cdrom datablock
      cases type : answer.imgType with
      | os => exact absurd type os
      | cdrom => exact absurd type cdrom
      | datablock => exact absurd type datablock
      | kernel | ramdisk | context =>
        rw [type] at disk
        cases disk

end Waiting

/-- The numbers of the disks are their positions, that of the context is the one after them. -/
structure Numbered (numDisks : Nat) (vm : VmDisks) : Prop where
  context : ∀ text, vm.textAt "DISK_ID" .context = some text → text = toString (numDisks : Int)
  disks : ∀ i text, vm.textAt "DISK_ID" (.disk i) = some text → text = toString (i : Int)

namespace Numbered

variable {numDisks : Nat} {q : DiskQueues} {a : Attribute} {vm : VmDisks}

theorem add (number : ∀ text, a.text? "DISK_ID" = some text →
    text = toString (q.vm.disks.length : Int)) (numbered : Numbered numDisks q.vm) :
    Numbered numDisks (q.add a).vm where
  context text here := by
    rw [DiskQueues.textAt_add] at here
    exact numbered.context text here
  disks i text here := by
    rw [DiskQueues.textAt_add] at here
    split at here
    · rename_i last
      cases last
      exact number text here
    · exact numbered.disks i text here

/-- A new target changes no number. -/
theorem assign {queue : List (String × DiskRef)} {used : List String}
    (numbered : Numbered numDisks vm) : Numbered numDisks (assignDiskTargets queue (vm, used)).1 := by
  induction queue generalizing vm used with
  | nil => exact numbered
  | cons entry queue ih =>
    have kept : ∀ target ref, (vm.modify (fun values =>
        Attribute.replace values "TARGET" target) entry.2).textAt "DISK_ID" ref =
          vm.textAt "DISK_ID" ref := by
      intro target ref
      rw [VmDisks.textAt_modify]
      exact if_neg fun both => absurd both.2 (by decide)
    refine ih ⟨fun text here => ?_, fun i text here => ?_⟩
    · rw [kept] at here
      exact numbered.context text here
    · rw [kept] at here
      exact numbered.disks i text here

/-- The numbers are different, and none is above that of the context. -/
theorem numbers (numbered : Numbered numDisks vm) (short : vm.disks.length ≤ numDisks) :
    (vm.texts "DISK_ID").Nodup ∧
      ∀ text ∈ vm.texts "DISK_ID", ∃ i : Nat, i ≤ numDisks ∧ text = toString (i : Int) := by
  have below : ∀ i text, vm.textAt "DISK_ID" (.disk i) = some text → i < vm.disks.length := by
    intro i text here
    obtain ⟨a, found, _⟩ := Option.bind_eq_some_iff.mp here
    exact (List.getElem?_eq_some_iff.mp found).1
  have other : ∀ i text, vm.textAt "DISK_ID" .context = some text →
      vm.textAt "DISK_ID" (.disk i) ≠ some text := by
    intro i text first second
    have same := (numbered.context text first).symm.trans (numbered.disks i text second)
    have inside := below i text second
    have number := toString_int_inj.mp same
    omega
  constructor
  · refine VmDisks.nodup_texts fun ref ref' text first second => ?_
    cases ref with
    | context =>
      cases ref' with
      | context => rfl
      | disk j => exact absurd second (other j text first)
    | disk i =>
      cases ref' with
      | context => exact absurd first (other i text second)
      | disk j =>
        have same := (numbered.disks i text first).symm.trans (numbered.disks j text second)
        exact congrArg DiskRef.disk (Int.ofNat.inj (toString_int_inj.mp same))
  · intro text member
    obtain ⟨ref, here⟩ := VmDisks.mem_texts_iff.mp member
    cases ref with
    | context => exact ⟨numDisks, Nat.le_refl _, numbered.context text here⟩
    | disk i =>
      have inside := below i text here
      exact ⟨i, by omega, numbered.disks i text here⟩

end Numbered

/-! ## A new VM -/

/-- What the loop over the disks keeps. -/
structure SettingUp (numDisks : Nat) (q : DiskQueues) : Prop where
  waiting : Waiting (q.vm.disks.length + 1) q.vm q.used (q.queue.map Prod.snd)
  numbered : Numbered numDisks q.vm

namespace SettingUp

variable {w : Nat → DiskWorld} {vmId : Nat} {uid : Int} {numDisks : Nat} {q q' : DiskQueues}

theorem start {defaultDevPrefix : String} {contextDisks : List Attribute} :
    SettingUp numDisks (.start defaultDevPrefix numDisks contextDisks) := by
  have disks : ∀ vm : VmDisks, vm.disks = [] → ∀ name i, vm.textAt name (.disk i) = none := by
    intro vm empty name i
    have here : vm.textAt name (.disk i) = vm.disks[i]?.bind (Attribute.text? name) := rfl
    rw [here, empty]
    rfl
  have none : ∀ name ref, VmDisks.textAt ⟨none, []⟩ name ref = none := by
    intro name ref
    cases ref with
    | context => rfl
    | disk i => exact disks _ rfl name i
  have nothing : SettingUp numDisks ⟨⟨.none, []⟩, [], [], [], []⟩ := by
    refine ⟨⟨fun ref text here => ?_, fun ref ref' text here => ?_, fun ref => ?_, List.nodup_nil,
      Nat.zero_le _⟩, ⟨nofun, fun i text here => ?_⟩⟩
    · exact absurd here (by rw [none]; nofun)
    · exact absurd here (by rw [none]; nofun)
    · rw [none]
      exact iff_of_false List.not_mem_nil nofun
    · exact absurd here (by rw [none]; nofun)
  cases contextDisks with
  | nil => exact nothing
  | cons a rest =>
    cases a with
    | single _ _ => exact nothing
    | vector name values =>
      have target : ∀ text, VmDisks.textAt
          ⟨some (Attribute.replace values "DISK_ID" (toString numDisks)), []⟩ "TARGET" .context =
            some text ↔ Attribute.vectorValue values "TARGET" = text := by
        intro text
        have kept : Attribute.vectorValue
            (Attribute.replace values "DISK_ID" (toString numDisks)) "TARGET" =
              Attribute.vectorValue values "TARGET" :=
          Attribute.vectorValue_replace_ne (by decide)
        rw [← kept]
        exact Option.some_inj
      have only : ∀ name' ref text, VmDisks.textAt
          ⟨some (Attribute.replace values "DISK_ID" (toString numDisks)), []⟩ name' ref =
            some text → ref = .context := by
        intro name' ref text here
        cases ref with
        | context => rfl
        | disk i =>
          rw [disks _ rfl] at here
          cases here
      have numbered : Numbered numDisks
          ⟨some (Attribute.replace values "DISK_ID" (toString numDisks)), []⟩ := by
        refine ⟨fun text here => ?_, fun i text here => absurd (only _ _ text here) nofun⟩
        cases here
        exact Attribute.vectorValue_replace
      unfold DiskQueues.start
      dsimp only
      by_cases given : Attribute.vectorValue values "TARGET" = ""
      · rw [if_neg (not_not.mpr given), if_neg (not_not.mpr given)]
        refine ⟨⟨fun ref text here some => ?_, fun ref ref' text first second _ => ?_, fun ref => ?_,
          List.nodup_singleton _, Nat.le_refl _⟩, numbered⟩
        · cases only _ ref text here
          exact absurd (((target text).mp here).symm.trans given) some
        · rw [only _ ref text first, only _ ref' text second]
        · refine List.mem_singleton.trans ⟨fun same => ?_, fun here => only _ ref "" here⟩
          rw [same]
          exact (target "").mpr given
      · rw [if_pos given, if_pos given]
        refine ⟨⟨fun ref text here _ => ?_, fun ref ref' text first second _ => ?_, fun ref => ?_,
          List.nodup_nil, Nat.le_refl _⟩, numbered⟩
        · cases only _ ref text here
          exact List.mem_singleton.mpr ((target text).mp here).symm
        · rw [only _ ref text first, only _ ref' text second]
        · refine iff_of_false List.not_mem_nil fun here => ?_
          cases only _ ref "" here
          exact given ((target "").mp here)

theorem setUp {disks : List Attribute} (done : DiskQueues.setUp w vmId uid disks q = .ok q')
    (before : SettingUp numDisks q) :
    SettingUp numDisks q' ∧ q'.vm.disks.length = q.vm.disks.length + disks.length := by
  induction disks generalizing q with
  | nil =>
    cases done
    exact ⟨before, rfl⟩
  | cons a disks ih =>
    rw [List.length_cons]
    cases a with
    | single name value =>
      have length := @DiskQueues.length_add q (.single name value)
      have waiting := before.waiting.add_plain (a := .single name value) rfl
      rw [← length] at waiting
      obtain ⟨after, more⟩ := ih done ⟨waiting, before.numbered.add nofun⟩
      exact ⟨after, by omega⟩
    | vector name values =>
      obtain ⟨answer, r, filled, pushed, rest⟩ := DiskQueues.setUp_vector done
      obtain ⟨number, disk⟩ := DiskWorld.of_diskAttribute filled
      have same := DiskQueues.vm_push pushed
      have length := @DiskQueues.length_add q (.vector name answer.disk)
      rw [← same] at length
      have waiting := before.waiting.push disk pushed
      rw [← length] at waiting
      have numbered : Numbered numDisks r.vm := by
        rw [same]
        refine before.numbered.add fun text own => ?_
        cases own
        exact number
      obtain ⟨after, more⟩ := ih rest ⟨waiting, numbered⟩
      exact ⟨after, by omega⟩

end SettingUp

/-- No disk of a new VM waits for a target. -/
theorem VmDisks.assigned_of_getDiskImages {w : Nat → DiskWorld} {defaultDevPrefix : String}
    {vmId : Nat} {uid : Int} {contextDisks disks : List Attribute} {vm : VmDisks}
    (created : getDiskImages w defaultDevPrefix vmId uid contextDisks disks = .ok vm) :
    disks.length ≤ 20 ∧ vm.disks.length = disks.length ∧ Numbered disks.length vm ∧
      ∃ used, Waiting (disks.length + 1) vm used [] := by
  obtain ⟨few, q, done, rfl⟩ := setUp_of_getDiskImages created
  obtain ⟨⟨waiting, numbered⟩, length⟩ := SettingUp.start.setUp done
  rw [DiskQueues.disks_start, List.length_nil, Nat.zero_add] at length
  have same := VmDisks.length_assignDiskTargets q.queue q.vm q.used
  have assigned := waiting.assign (by omega)
  have numbers : Numbered disks.length (assignDiskTargets q.queue (q.vm, q.used)).1 :=
    numbered.assign
  rw [← DiskQueues.assign_eq] at assigned numbers same
  rw [length] at assigned
  exact ⟨few, same.trans length, numbers, _, assigned⟩

/-- The disks and the context of a new VM have different numbers and different targets. -/
theorem VmDisks.nodup_of_getDiskImages {w : Nat → DiskWorld} {defaultDevPrefix : String}
    {vmId : Nat} {uid : Int} {contextDisks disks : List Attribute} {vm : VmDisks}
    (created : getDiskImages w defaultDevPrefix vmId uid contextDisks disks = .ok vm) :
    (vm.texts "TARGET").Nodup ∧ (vm.texts "DISK_ID").Nodup ∧
      ∀ text ∈ vm.texts "DISK_ID", ∃ i : Nat, i ≤ 20 ∧ text = toString (i : Int) := by
  obtain ⟨few, length, numbered, used, assigned⟩ := assigned_of_getDiskImages created
  obtain ⟨apart, small⟩ := numbered.numbers (Nat.le_of_eq length)
  refine ⟨VmDisks.nodup_texts fun ref ref' text here there => ?_, apart, fun text member => ?_⟩
  · -- no disk waits any more
    refine assigned.apart ref ref' text here there fun empty => ?_
    rw [empty] at here
    exact List.not_mem_nil ((assigned.queued ref).mpr here)
  · obtain ⟨i, le, same⟩ := small text member
    exact ⟨i, by omega, same⟩

end Ezilla

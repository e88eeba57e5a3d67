import Ezilla.Image.CloneRequests

/-!
# Clones are counted

`CloneState.Good` is the invariant of the clone requests: a source counts exactly the
started clones that are pending, that is, whose new image is still being cloned or whose
count is still to be released. Each kind of step has a lemma that it keeps the invariant.

The count is released under a lock of its own, after the new image was unlocked, so that
`CloneState.CountsLocked` fails in between (`clone_outlived_by_count`); what the source counts
at any time are the clones of `CloneState.CountsClones`. A source that counts a clone after the
new image was deleted and released keeps the count for good. `CloneState.Proper` excludes that
one step, and `reachable_cloning_exact` is about the runs without it.
-/

namespace Ezilla

open ImageManager Transition

namespace CloneState

/-- The image that an image is cloned from. -/
def cloneOf (s : CloneState) (iid : Nat) : Option Nat := (s.images iid).bind Image.cloningId

/-- A clone whose count the source owes: its new image is still being cloned, or the release
is still to come. -/
def Pending (s : CloneState) (newId source : Nat) : Prop :=
  s.cloneOf newId = some source ∨ (source, newId) ∈ s.releases

/-- The new image still has to be answered for: its request is not over, or the driver has
not answered. -/
def Waiting (s : CloneState) (newId : Nat) : Prop :=
  newId ∈ s.cloneSent ∨ ∃ source phase, s.requests newId = some ⟨source, phase⟩ ∧
    (phase = .inserted ∨ phase = .counted)

/-- A source counts the started clones that are pending. -/
def Exact (s : CloneState) : Prop := ∀ source img, s.images source = some img → ∀ newId,
  newId ∈ img.cloning.ids ↔ s.started newId = true ∧ s.Pending newId source

/-- The rest of what every step keeps. -/
structure Wf (s : CloneState) : Prop where
  sound : ∀ iid img, s.images iid = some img → img.Sound
  locked : ∀ iid img, s.images iid = some img → img.cloningId ≠ none → img.state = .locked
  request : ∀ newId source, s.Pending newId source →
    ∃ phase, s.requests newId = some ⟨source, phase⟩
  released : ∀ newId source, (source, newId) ∈ s.releases → s.cloneOf newId = none
  once : s.releases.Nodup
  freshImage : ∀ iid, s.nextOid ≤ iid → s.images iid = none
  freshRequest : ∀ newId, s.nextOid ≤ newId → s.requests newId = none
  sourceOid : ∀ newId source phase, s.requests newId = some ⟨source, phase⟩ → source < s.nextOid
  checkedOid : ∀ source, source ∈ s.checked → source < s.nextOid
  waiting : ∀ newId img, s.Waiting newId → s.images newId = some img →
    img.state = .locked ∨ img.state = .delete
  sentEnded : ∀ newId, newId ∈ s.cloneSent → ∃ source, s.requests newId = some ⟨source, .ended⟩
  sentOnce : s.cloneSent.Nodup
  rmSent : ∀ iid, iid ∈ s.rmSent → s.cloneOf iid = none
  rmOid : ∀ iid, iid ∈ s.rmSent → iid < s.nextOid
  checkedDisk : ∀ source img, source ∈ s.checked → s.images source = some img →
    img.type.isDisk = true
  requestDisk : ∀ newId source phase img, s.requests newId = some ⟨source, phase⟩ →
    s.images source = some img → img.type.isDisk = true

/-- The invariant of the clone requests. -/
structure Good (s : CloneState) : Prop where
  wf : s.Wf
  exact : s.Exact

variable {s s' : CloneState} {iid newId source : Nat} {img img' : Image} {img? : Option Image}
  {phase : ClonePhase}

/-! ## Views of the changed states -/

theorem images_setImage (iid' : Nat) :
    (s.setImage iid img?).images iid' = if iid' = iid then img? else s.images iid' := by
  unfold setImage
  exact Function.update_apply s.images iid img? iid'

theorem requests_setPhase (newId' : Nat) : (s.setPhase newId source phase).requests newId' =
    if newId' = newId then some ⟨source, phase⟩ else s.requests newId' := by
  unfold setPhase
  exact Function.update_apply s.requests newId _ newId'

theorem cloneOf_setImage (iid : Nat) (img? : Option Image) (iid' : Nat) :
    (s.setImage iid img?).cloneOf iid' =
    if iid' = iid then img?.bind Image.cloningId else s.cloneOf iid' := by
  unfold cloneOf
  rw [images_setImage]
  split <;> rfl

theorem started_setPhase (newId' : Nat) : (s.setPhase newId source phase).started newId' =
    if newId' = newId then phase.started else s.started newId' := by
  unfold started
  rw [requests_setPhase]
  split <;> rfl

theorem cloneOf_of_images (found : s.images iid = some img) : s.cloneOf iid = img.cloningId := by
  rw [cloneOf, found, Option.bind_some]

theorem setImage_cases {i : Nat} {after : Image}
    (there : (s.setImage iid img?).images i = some after) :
    (i = iid ∧ img? = some after) ∨ (i ≠ iid ∧ s.images i = some after) := by
  rw [images_setImage] at there
  split at there
  · rename_i same
    exact .inl ⟨same, there⟩
  · rename_i other
    exact .inr ⟨other, there⟩

/-- In a good state an image is being cloned when it has the id of a source. -/
theorem Wf.cloning_iff (wf : s.Wf) :
    s.cloning newId source = true ↔ s.cloneOf newId = some source := by
  unfold cloning cloneOf
  cases found : s.images newId with
  | none => simp
  | some img =>
    simp only [Option.any_some, decide_eq_true_eq, Option.bind_some]
    refine ⟨fun both => both.2, fun same => ⟨wf.locked newId img found ?_, same⟩⟩
    rw [same]
    exact Option.some_ne_none source

/-! ## An image changes in place -/

/-- An operation on one image that leaves the image it is cloned from alone, and a locked or
deleted image in its state. -/
theorem Wf.setImage (wf : s.Wf) (found : s.images iid = some img) (sound : img'.Sound)
    (cloningId : img'.cloningId = img.cloningId) (type : img'.type = img.type)
    (still : img.state = .locked ∨ img.state = .delete → img'.state = img.state) :
    (s.setImage iid (some img')).Wf ∧
      (∀ n, (s.setImage iid (some img')).cloneOf n = s.cloneOf n) := by
  have cloneOf : ∀ n, (s.setImage iid (some img')).cloneOf n = s.cloneOf n := fun n => by
    rw [cloneOf_setImage]
    split
    · rename_i same
      rw [same, cloneOf_of_images found, Option.bind_some, cloningId]
    · rfl
  refine ⟨?_, cloneOf⟩
  exact
    { sound := fun i after there => by
        rcases setImage_cases there with ⟨_, new⟩ | ⟨_, before⟩
        · cases new
          exact sound
        · exact wf.sound i after before
      locked := fun i after there => by
        rcases setImage_cases there with ⟨_, new⟩ | ⟨_, before⟩
        · cases new
          intro some
          rw [cloningId] at some
          have state := wf.locked iid img found some
          rw [still (.inl state), state]
        · exact wf.locked i after before
      request := fun n c pending => by
        rw [Pending, cloneOf] at pending
        exact wf.request n c pending
      released := fun n c is => by
        rw [cloneOf]
        exact wf.released n c is
      once := wf.once
      freshImage := fun i new => by
        rw [images_setImage]
        split
        · rename_i same
          rw [← same, wf.freshImage i new] at found
          cases found
        · exact wf.freshImage i new
      freshRequest := wf.freshRequest
      sourceOid := wf.sourceOid
      checkedOid := wf.checkedOid
      waiting := fun n after waits there => by
        rcases setImage_cases there with ⟨same, new⟩ | ⟨_, before⟩
        · cases new
          rw [same] at waits
          have state := wf.waiting iid img waits found
          rw [still state]
          exact state
        · exact wf.waiting n after waits before
      sentEnded := wf.sentEnded
      sentOnce := wf.sentOnce
      rmSent := fun i sent => by
        rw [cloneOf]
        exact wf.rmSent i sent
      rmOid := wf.rmOid
      checkedDisk := fun c after isChecked there => by
        rcases setImage_cases there with ⟨same, new⟩ | ⟨_, before⟩
        · cases new
          rw [type]
          rw [same] at isChecked
          exact wf.checkedDisk iid img isChecked found
        · exact wf.checkedDisk c after isChecked before
      requestDisk := fun n c phase after is there => by
        rcases setImage_cases there with ⟨same, new⟩ | ⟨_, before⟩
        · cases new
          rw [type]
          rw [same] at is
          exact wf.requestDisk n iid phase img is found
        · exact wf.requestDisk n c phase after is before }

/-- The VMs use an image, or it is enabled or disabled: its clones stay as they are. -/
theorem Good.use (good : s.Good) (found : s.images iid = some img) (sound : img'.Sound)
    (cloning : img'.cloning = img.cloning) (cloningId : img'.cloningId = img.cloningId)
    (type : img'.type = img.type)
    (still : img.state = .locked ∨ img.state = .delete → img'.state = img.state) :
    (s.setImage iid (some img')).Good := by
  obtain ⟨wf, cloneOf⟩ := good.wf.setImage found sound cloningId type still
  refine ⟨wf, fun c after there n => ?_⟩
  rw [Pending, cloneOf]
  rcases setImage_cases there with ⟨same, new⟩ | ⟨_, before⟩
  · cases new
    rw [cloning, same]
    exact good.exact iid img found n
  · exact good.exact c after before n

/-! ## A request goes on -/

theorem Wf.setPhase {before : ClonePhase} (wf : s.Wf)
    (request : s.requests newId = some ⟨source, before⟩) (open_ : before ≠ .ended)
    (waits : phase = .inserted ∨ phase = .counted → before = .inserted ∨ before = .counted) :
    (s.setPhase newId source phase).Wf where
  sound := wf.sound
  locked := wf.locked
  request n c pending := by
    obtain ⟨phase', is⟩ := wf.request n c pending
    rw [requests_setPhase]
    split
    · rename_i same
      rw [same, request] at is
      cases is
      exact ⟨phase, rfl⟩
    · exact ⟨phase', is⟩
  released := wf.released
  once := wf.once
  freshImage := wf.freshImage
  freshRequest n new := by
    rw [requests_setPhase]
    split
    · rename_i same
      rw [← same, wf.freshRequest n new] at request
      cases request
    · exact wf.freshRequest n new
  sourceOid n c phase' is := by
    rw [requests_setPhase] at is
    split at is
    · cases is
      exact wf.sourceOid newId source before request
    · exact wf.sourceOid n c phase' is
  checkedOid := wf.checkedOid
  waiting n after waiting there := by
    refine wf.waiting n after (waiting.imp id fun ⟨c, phase', is, either⟩ => ?_) there
    rw [requests_setPhase] at is
    split at is
    · rename_i same
      cases is
      rw [same]
      exact ⟨source, before, request, waits either⟩
    · exact ⟨c, phase', is, either⟩
  sentEnded n sent := by
    obtain ⟨c, is⟩ := wf.sentEnded n sent
    rw [requests_setPhase]
    split
    · rename_i same
      rw [same, request] at is
      cases is
      exact absurd rfl open_
    · exact ⟨c, is⟩
  sentOnce := wf.sentOnce
  rmSent := wf.rmSent
  rmOid := wf.rmOid
  checkedDisk := wf.checkedDisk
  requestDisk n c phase' after is there := by
    rw [requests_setPhase] at is
    split at is
    · cases is
      exact wf.requestDisk newId source before after request there
    · exact wf.requestDisk n c phase' after is there

theorem started_of_freshRequest (none : s.requests newId = none) : s.started newId = false := by
  rw [started, none]
  rfl

theorem started_of_request (request : s.requests newId = some ⟨source, phase⟩) :
    s.started newId = phase.started := by
  rw [started, request]
  rfl

/-- A request goes on without the source counting anything. -/
theorem Good.setPhase {before : ClonePhase} (good : s.Good)
    (request : s.requests newId = some ⟨source, before⟩) (open_ : before ≠ .ended)
    (waits : phase = .inserted ∨ phase = .counted → before = .inserted ∨ before = .counted)
    (started : phase.started = before.started) : (s.setPhase newId source phase).Good := by
  refine ⟨good.wf.setPhase request open_ waits, fun c after there n => ?_⟩
  have same : (s.setPhase newId source phase).started n = s.started n := by
    rw [started_setPhase]
    split
    · rename_i same
      rw [same, started_of_request request, started]
    · rfl
  rw [same]
  exact good.exact c after there n

/-- The source counts a clone that is pending. -/
theorem Good.count (good : s.Good) (request : s.requests newId = some ⟨source, .inserted⟩)
    (found : s.images source = some img) (counted : startCloning newId img = .ok img')
    (pending : s.Pending newId source) :
    ((s.setImage source (some img')).setPhase newId source .counted).Good := by
  have sound : img'.Sound := startCloning_sound (good.wf.sound source img found)
    (good.wf.requestDisk newId source .inserted img request found) counted
  have frame : img'.cloning.ids = insert newId img.cloning.ids ∧
      img'.cloningId = img.cloningId ∧ img'.type = img.type ∧
      (img.state = .locked ∨ img.state = .delete → img'.state = img.state) := by
    rcases startCloning_cases counted with ⟨state, rfl⟩ | ⟨_, rfl⟩
    · exact ⟨CountedSet.ids_add, rfl, rfl, by simp [state]⟩
    · exact ⟨CountedSet.ids_add, rfl, rfl, fun _ => rfl⟩
  obtain ⟨ids, cloningId, type, still⟩ := frame
  obtain ⟨wf, cloneOf⟩ := good.wf.setImage found sound cloningId type still
  refine ⟨wf.setPhase request (by decide) (fun _ => .inl rfl), fun c after there n => ?_⟩
  have same : ((s.setImage source (some img')).setPhase newId source .counted).Pending n c ↔
      s.Pending n c := by
    have view := cloneOf n
    unfold Pending
    rw [← view]
    rfl
  rw [same, started_setPhase]
  rcases setImage_cases there with ⟨here, new⟩ | ⟨other, before⟩
  · cases new
    subst here
    rw [ids, Finset.mem_insert]
    split
    · rename_i isNew
      subst isNew
      exact ⟨fun _ => ⟨rfl, pending⟩, fun _ => .inl rfl⟩
    · rename_i notNew
      rw [or_iff_right notNew]
      exact good.exact c img found n
  · split
    · -- the new image is pending for its own source only
      rename_i isNew
      rw [isNew, good.exact c after before, started_of_request request]
      constructor
      · intro both
        cases both.1
      · intro both
        obtain ⟨phase, is⟩ := good.wf.request newId c both.2
        rw [request] at is
        cases is
        exact absurd rfl other
    · exact good.exact c after before n

/-! ## An image leaves its clone -/

/-- The state after an image leaves: it is dropped or is cloned from nothing any more, and
messages and releases are noted. -/
def left (s : CloneState) (iid : Nat) (img? : Option Image) (cloneSent rmSent : List Nat)
    (releases : List (Nat × Nat)) : CloneState :=
  { s.setImage iid img? with cloneSent, rmSent, releases }

/-- What an image that leaves its clone has to note: the release of the source, unless the
source never counted it. -/
structure Leaves (s : CloneState) (iid : Nat) (img? : Option Image) (cloneSent rmSent : List Nat)
    (releases : List (Nat × Nat)) : Prop where
  after : ∀ img', img? = some img' → img'.Sound ∧ img'.cloningId = none ∧
    ∃ img, s.images iid = some img ∧ img'.cloning = img.cloning ∧ img'.type = img.type
  cloneSent : cloneSent = s.cloneSent ∧ (∀ img', img? = some img' → img'.state = .delete) ∨
    cloneSent = s.cloneSent.erase iid ∧ iid ∈ s.cloneSent
  rmSent : ∀ i, i ∈ rmSent → i ∈ s.rmSent ∨ i = iid ∧ iid < s.nextOid
  releases : releases = s.releases ∧ (s.started iid = false ∨ s.cloneOf iid = none) ∨
    ∃ source, s.cloneOf iid = some source ∧ releases = (source, iid) :: s.releases

theorem Good.leave {sent rm : List Nat} {rel : List (Nat × Nat)} (good : s.Good)
    (leaves : s.Leaves iid img? sent rm rel) : (s.left iid img? sent rm rel).Good := by
  have wf := good.wf
  have cloneOf : ∀ n, (s.left iid img? sent rm rel).cloneOf n =
      if n = iid then none else s.cloneOf n := fun n => by
    have view := cloneOf_setImage (s := s) iid img? n
    have nothing : img?.bind Image.cloningId = none := by
      cases there : img? with
      | none => rfl
      | some img' => exact (leaves.after img' there).2.1
    rw [nothing] at view
    exact view
  have pending : ∀ n c, (s.left iid img? sent rm rel).Pending n c → s.Pending n c := by
    intro n c is
    rcases is with clones | releases
    · rw [cloneOf] at clones
      split at clones
      · cases clones
      · exact .inl clones
    · rcases leaves.releases with ⟨same, _⟩ | ⟨c', clones, more⟩
      · exact .inr (same ▸ releases)
      · rcases List.mem_cons.mp (more ▸ releases) with new | old
        · cases new
          exact .inl clones
        · exact .inr old
  have back : ∀ n c, s.started n = true → s.Pending n c →
      (s.left iid img? sent rm rel).Pending n c := by
    intro n c started is
    rcases is with clones | releases
    · rcases eq_or_ne n iid with rfl | other
      · rcases leaves.releases with ⟨_, never | none⟩ | ⟨c', clones', more⟩
        · rw [never] at started
          cases started
        · rw [none] at clones
          cases clones
        · rw [clones'] at clones
          cases clones
          exact .inr (more ▸ List.mem_cons_self)
      · left
        rw [cloneOf, if_neg other]
        exact clones
    · rcases leaves.releases with ⟨same, _⟩ | ⟨_, _, more⟩
      · exact .inr (same.symm ▸ releases)
      · exact .inr (more ▸ List.mem_cons_of_mem _ releases)
  have sentBefore : ∀ n, n ∈ sent → n ∈ s.cloneSent := fun n is => by
    rcases leaves.cloneSent with ⟨same, _⟩ | ⟨erased, _⟩
    · exact same ▸ is
    · exact List.mem_of_mem_erase (erased ▸ is)
  refine ⟨?_, fun c after there n => ?_⟩
  · exact
      { sound := fun i after there => by
          rcases setImage_cases there with ⟨_, new⟩ | ⟨_, before⟩
          · exact (leaves.after after new).1
          · exact wf.sound i after before
        locked := fun i after there => by
          rcases setImage_cases there with ⟨_, new⟩ | ⟨_, before⟩
          · intro some
            exact absurd (leaves.after after new).2.1 some
          · exact wf.locked i after before
        request := fun n c is => wf.request n c (pending n c is)
        released := fun n c is => by
          rw [cloneOf]
          split
          · rfl
          · rename_i other
            rcases leaves.releases with ⟨same, _⟩ | ⟨c', _, more⟩
            · exact wf.released n c (same ▸ is)
            · rcases List.mem_cons.mp (more ▸ is) with new | old
              · cases new
                exact absurd rfl other
              · exact wf.released n c old
        once := by
          rcases leaves.releases with ⟨same, _⟩ | ⟨c', clones, more⟩
          · exact same.symm ▸ wf.once
          · have new : (c', iid) ∉ s.releases := fun old => by
              rw [wf.released iid c' old] at clones
              cases clones
            exact more.symm ▸ List.nodup_cons.mpr ⟨new, wf.once⟩
        freshImage := fun i new => by
          have view : (s.left iid img? sent rm rel).images i =
              if i = iid then img? else s.images i := images_setImage i
          rw [view]
          split
          · rename_i same
            cases there : img? with
            | none => rfl
            | some img' =>
              obtain ⟨_, _, img, found, _⟩ := leaves.after img' there
              rw [← same, wf.freshImage i new] at found
              cases found
          · exact wf.freshImage i new
        freshRequest := wf.freshRequest
        sourceOid := wf.sourceOid
        checkedOid := wf.checkedOid
        waiting := fun n after waits there => by
          have before : s.Waiting n := waits.imp (sentBefore n) id
          rcases setImage_cases there with ⟨same, new⟩ | ⟨_, old⟩
          · rcases leaves.cloneSent with ⟨_, deleted⟩ | ⟨erased, mem⟩
            · exact .inr (deleted after new)
            · -- the answer is the last thing its new image waits for
              subst same
              rcases waits with still | ⟨c, phase, is, either⟩
              · exact absurd (erased ▸ still) (List.Nodup.not_mem_erase wf.sentOnce)
              · obtain ⟨c', ended⟩ := wf.sentEnded n mem
                have is' : s.requests n = some ⟨c, phase⟩ := is
                rw [ended] at is'
                cases is'
                rcases either with no | no <;> cases no
          · exact wf.waiting n after before old
        sentEnded := fun n is => wf.sentEnded n (sentBefore n is)
        sentOnce := by
          rcases leaves.cloneSent with ⟨same, _⟩ | ⟨erased, _⟩
          · exact same.symm ▸ wf.sentOnce
          · exact erased.symm ▸ wf.sentOnce.erase iid
        rmSent := fun i is => by
          rw [cloneOf]
          split
          · rfl
          · rename_i other
            exact wf.rmSent i ((leaves.rmSent i is).resolve_right fun same => other same.1)
        rmOid := fun i is => by
          rcases leaves.rmSent i is with before | ⟨same, bound⟩
          · exact wf.rmOid i before
          · exact same.symm ▸ bound
        checkedDisk := fun c after isChecked there => by
          rcases setImage_cases there with ⟨same, new⟩ | ⟨_, before⟩
          · obtain ⟨_, _, img, found, _, type⟩ := leaves.after after new
            subst same
            rw [type]
            exact wf.checkedDisk c img isChecked found
          · exact wf.checkedDisk c after isChecked before
        requestDisk := fun n c phase after is there => by
          rcases setImage_cases there with ⟨same, new⟩ | ⟨_, before⟩
          · obtain ⟨_, _, img, found, _, type⟩ := leaves.after after new
            subst same
            rw [type]
            exact wf.requestDisk n c phase img is found
          · exact wf.requestDisk n c phase after is before }
  · have same : s.started n = true ∧ (s.left iid img? sent rm rel).Pending n c ↔
        s.started n = true ∧ s.Pending n c :=
      and_congr_right fun started => ⟨pending n c, back n c started⟩
    have view : (s.left iid img? sent rm rel).started n = s.started n := rfl
    rw [view, same]
    rcases setImage_cases there with ⟨here, new⟩ | ⟨_, before⟩
    · obtain ⟨_, _, img, found, cloning, _⟩ := leaves.after after new
      rw [cloning, here]
      exact good.exact iid img found n
    · exact good.exact c after before n

/-! ## A new image, an answer to be waited for, a released count -/

/-- The state after a new image is inserted. -/
def inserted (s : CloneState) (source : Nat) (img : Image) : CloneState :=
  { s with checked := s.checked.erase source, nextOid := s.nextOid + 1 }.setImage s.nextOid
    (some img) |>.setPhase s.nextOid source .inserted

theorem Good.insert (good : s.Good) (isChecked : source ∈ s.checked) (state : img.state = .locked)
    (noVm : img.running.ids = ∅) (noClone : img.cloning.ids = ∅)
    (cloningId : img.cloningId = some source) (disk : img.type.isDisk = true) :
    (s.inserted source img).Good := by
  have wf := good.wf
  have bound : source < s.nextOid := wf.checkedOid source isChecked
  have noRequest := wf.freshRequest s.nextOid (Nat.le_refl _)
  have cloneOf : ∀ n, (s.inserted source img).cloneOf n =
      if n = s.nextOid then some source else s.cloneOf n := fun n => by
    have view := cloneOf_setImage (s := s) s.nextOid (some img) n
    rw [Option.bind_some, cloningId] at view
    exact view
  have pending : ∀ n c, (s.inserted source img).Pending n c ↔
      s.Pending n c ∨ n = s.nextOid ∧ c = source := by
    intro n c
    unfold Pending
    rw [cloneOf]
    rcases eq_or_ne n s.nextOid with same | other
    · have none : s.cloneOf n = none := by
        rw [same, CloneState.cloneOf, wf.freshImage s.nextOid (Nat.le_refl _), Option.bind_none]
      rw [if_pos same, none]
      constructor
      · rintro (clones | releases)
        · cases clones
          exact .inr ⟨same, rfl⟩
        · exact .inl (.inr releases)
      · rintro ((no | releases) | ⟨_, rfl⟩)
        · cases no
        · exact .inr releases
        · exact .inl rfl
    · rw [if_neg other]
      exact ⟨fun is => .inl is, fun is => is.resolve_right fun new => other new.1⟩
  have requests : ∀ n, (s.inserted source img).requests n =
      if n = s.nextOid then some ⟨source, .inserted⟩ else s.requests n := fun n =>
    requests_setPhase n
  have images : ∀ i after, (s.inserted source img).images i = some after →
      (i = s.nextOid ∧ after = img) ∨ (i ≠ s.nextOid ∧ s.images i = some after) := by
    intro i after there
    rcases setImage_cases there with ⟨same, new⟩ | old
    · cases new
      exact .inl ⟨same, rfl⟩
    · exact .inr old
  refine ⟨?_, fun c after there n => ?_⟩
  · exact
      { sound := fun i after there => by
          rcases images i after there with ⟨_, rfl⟩ | ⟨_, before⟩
          · exact Image.sound_of_idle noVm noClone (by simp [state, Image.Idle])
          · exact wf.sound i after before
        locked := fun i after there => by
          rcases images i after there with ⟨_, rfl⟩ | ⟨_, before⟩
          · exact fun _ => state
          · exact wf.locked i after before
        request := fun n c is => by
          rw [requests]
          rcases (pending n c).mp is with before | ⟨same, rfl⟩
          · obtain ⟨phase, is⟩ := wf.request n c before
            have other : n ≠ s.nextOid := fun same => by
              rw [same, noRequest] at is
              cases is
            rw [if_neg other]
            exact ⟨phase, is⟩
          · rw [if_pos same]
            exact ⟨_, rfl⟩
        released := fun n c is => by
          obtain ⟨phase, was⟩ := wf.request n c (.inr is)
          have other : n ≠ s.nextOid := fun same => by
            rw [same, noRequest] at was
            cases was
          rw [cloneOf, if_neg other]
          exact wf.released n c is
        once := wf.once
        freshImage := fun i new => by
          have above : s.nextOid < i := new
          have view : (s.inserted source img).images i =
              if i = s.nextOid then some img else s.images i := images_setImage i
          rw [view, if_neg (by omega)]
          exact wf.freshImage i (by omega)
        freshRequest := fun n new => by
          have above : s.nextOid < n := new
          rw [requests, if_neg (by omega)]
          exact wf.freshRequest n (by omega)
        sourceOid := fun n c phase is => by
          rw [requests] at is
          split at is
          · cases is
            exact Nat.lt_succ_of_lt bound
          · exact Nat.lt_succ_of_lt (wf.sourceOid n c phase is)
        checkedOid := fun c is => Nat.lt_succ_of_lt (wf.checkedOid c (List.mem_of_mem_erase is))
        waiting := fun n after waits there => by
          rcases images n after there with ⟨_, rfl⟩ | ⟨other, before⟩
          · exact .inl state
          · refine wf.waiting n after (waits.imp_right ?_) before
            rintro ⟨c, phase, is, either⟩
            rw [requests, if_neg other] at is
            exact ⟨c, phase, is, either⟩
        sentEnded := fun n is => by
          obtain ⟨c, ended⟩ := wf.sentEnded n is
          have other : n ≠ s.nextOid := fun same => by
            rw [same, noRequest] at ended
            cases ended
          rw [requests, if_neg other]
          exact ⟨c, ended⟩
        sentOnce := wf.sentOnce
        rmSent := fun i is => by
          have below := wf.rmOid i is
          rw [cloneOf, if_neg (by omega)]
          exact wf.rmSent i is
        rmOid := fun i is => Nat.lt_succ_of_lt (wf.rmOid i is)
        checkedDisk := fun c after is there => by
          rcases images c after there with ⟨_, rfl⟩ | ⟨_, before⟩
          · exact disk
          · exact wf.checkedDisk c after (List.mem_of_mem_erase is) before
        requestDisk := fun n c phase after is there => by
          rcases images c after there with ⟨_, rfl⟩ | ⟨_, before⟩
          · exact disk
          · rw [requests] at is
            split at is
            · cases is
              exact wf.checkedDisk source after isChecked before
            · exact wf.requestDisk n c phase after is before }
  · have started : (s.inserted source img).started n =
        if n = s.nextOid then false else s.started n := started_setPhase n
    rw [started, pending]
    rcases images c after there with ⟨here, rfl⟩ | ⟨_, before⟩
    · -- nothing is cloned from the new image yet
      rw [noClone]
      refine ⟨fun no => absurd no (Finset.notMem_empty n), fun both => ?_⟩
      rcases both.2 with was | ⟨_, same⟩
      · obtain ⟨phase, is⟩ := wf.request n c was
        have below := wf.sourceOid n c phase is
        omega
      · omega
    · rw [good.exact c after before n]
      split
      · rename_i same
        refine ⟨fun both => ?_, fun both => absurd both.1 Bool.false_ne_true⟩
        rw [CloneState.started, same, noRequest] at both
        exact absurd both.1 Bool.false_ne_true
      · rename_i other
        rw [or_iff_left fun new => other new.1]

/-- The driver is asked for a clone. -/
theorem Good.send (good : s.Good) (request : s.requests newId = some ⟨source, .counted⟩)
    (found : s.images newId = some img) :
    { s.setPhase newId source .ended with cloneSent := newId :: s.cloneSent }.Good := by
  have next : (s.setPhase newId source .ended).Good :=
    good.setPhase request (by decide) (fun no => by rcases no with no | no <;> cases no) rfl
  have wf := next.wf
  have state := good.wf.waiting newId img (.inr ⟨source, .counted, request, .inr rfl⟩) found
  have unsent : newId ∉ s.cloneSent := fun sent => by
    obtain ⟨c, ended⟩ := good.wf.sentEnded newId sent
    rw [request] at ended
    cases ended
  refine ⟨{ wf with waiting := fun n after waits there => ?_, sentEnded := fun n sent => ?_,
                    sentOnce := ?_ }, next.exact⟩
  · rcases waits with sent | open_
    · rcases List.mem_cons.mp sent with same | before
      · rw [same] at there
        have is : s.images newId = some after := there
        rw [found] at is
        cases is
        exact state
      · exact wf.waiting n after (.inl before) there
    · exact wf.waiting n after (.inr open_) there
  · rcases List.mem_cons.mp sent with same | before
    · rw [same]
      exact ⟨source, by rw [requests_setPhase, if_pos rfl]⟩
    · exact wf.sentEnded n before
  · exact List.nodup_cons.mpr ⟨unsent, good.wf.sentOnce⟩

/-- `release_cloning_image` is called. -/
theorem Good.release (good : s.Good) (due : (source, newId) ∈ s.releases) :
    ({ s with releases := s.releases.erase (source, newId) }.onImage source
      fun img => .ok (releaseCloningImage newId img)).Good := by
  have wf := good.wf
  have none : s.cloneOf newId = none := wf.released newId source due
  have forgotten : ({ s with releases := s.releases.erase (source, newId) } : CloneState).Wf :=
    { wf with
      request := fun n c is => wf.request n c (is.imp id List.mem_of_mem_erase)
      released := fun n c is => wf.released n c (List.mem_of_mem_erase is)
      once := wf.once.erase _ }
  have pending : ∀ n c, (s.cloneOf n = some c ∨ (c, n) ∈ s.releases.erase (source, newId)) ↔
      s.Pending n c ∧ ¬ (n = newId ∧ c = source) := by
    intro n c
    rw [Pending, wf.once.mem_erase_iff, ne_eq, Prod.mk.injEq]
    constructor
    · rintro (clones | ⟨other, is⟩)
      · refine ⟨.inl clones, fun same => ?_⟩
        rw [same.1, none] at clones
        cases clones
      · exact ⟨.inr is, fun same => other ⟨same.2, same.1⟩⟩
    · rintro ⟨clones | is, other⟩
      · exact .inl clones
      · exact .inr ⟨fun same => other ⟨same.2, same.1⟩, is⟩
  unfold onImage
  cases found : s.images source with
  | none =>
    refine ⟨forgotten, fun c after there n => ?_⟩
    have is : s.images c = some after := there
    have other : c ≠ source := fun same => by
      rw [same, found] at is
      cases is
    have now := pending n c
    rw [and_iff_left fun same => other same.2] at now
    exact (good.exact c after is n).trans (and_congr_right fun _ => now.symm)
  | some img =>
    have sound := wf.sound source img found
    have frame : (releaseCloningImage newId img).cloningId = img.cloningId ∧
        (releaseCloningImage newId img).type = img.type ∧
        (img.state = .locked ∨ img.state = .delete →
          (releaseCloningImage newId img).state = img.state) := by
      rcases releaseCloningImage_cases with same | ⟨state, now⟩
      · rw [same]
        exact ⟨rfl, rfl, fun _ => rfl⟩
      · rw [now]
        refine ⟨rfl, rfl, fun locked => ?_⟩
        rcases state with is | is <;> rw [is] at locked <;> rcases locked with no | no <;> cases no
    obtain ⟨cloningId, type, still⟩ := frame
    obtain ⟨wf', cloneOf⟩ := forgotten.setImage found (releaseCloningImage_sound sound)
      cloningId type still
    refine ⟨wf', fun c after there n => ?_⟩
    have now := pending n c
    have view := cloneOf n
    rw [Pending, view]
    refine Iff.trans ?_ (and_congr_right fun _ => now.symm)
    rcases setImage_cases there with ⟨here, new⟩ | ⟨other, before⟩
    · cases new
      subst here
      rw [releaseCloningImage_ids sound, Finset.mem_erase, good.exact c img found n]
      constructor
      · rintro ⟨other, started, is⟩
        exact ⟨started, is, fun same => other same.1⟩
      · rintro ⟨started, is, other⟩
        exact ⟨fun same => other ⟨same, rfl⟩, started, is⟩
    · rw [and_iff_left fun same => other same.2]
      exact good.exact c after before n

/-! ## Steps and runs -/

theorem Wf.oid_lt (wf : s.Wf) (found : s.images iid = some img) : iid < s.nextOid := by
  rcases Nat.lt_or_ge iid s.nextOid with below | above
  · exact below
  · rw [wf.freshImage iid above] at found
    cases found

/-- An image leaves its clone and its source is to be released. -/
theorem Good.leaveLater {sent rm : List Nat} (good : s.Good) (found : s.images iid = some img)
    (after : ∀ img', img? = some img' → img'.Sound ∧ img'.cloningId = none ∧
      img'.cloning = img.cloning ∧ img'.type = img.type)
    (cloneSent : sent = s.cloneSent ∧ (∀ img', img? = some img' → img'.state = .delete) ∨
      sent = s.cloneSent.erase iid ∧ iid ∈ s.cloneSent)
    (rmSent : ∀ i, i ∈ rm → i ∈ s.rmSent ∨ i = iid) :
    ((s.left iid img? sent rm s.releases).releaseLater img.cloningId iid).Good := by
  have stays : ∀ img', img? = some img' → img'.Sound ∧ img'.cloningId = none ∧
      ∃ img, s.images iid = some img ∧ img'.cloning = img.cloning ∧ img'.type = img.type :=
    fun img' there => by
      obtain ⟨sound, free, cloning, type⟩ := after img' there
      exact ⟨sound, free, img, found, cloning, type⟩
  have oids : ∀ i, i ∈ rm → i ∈ s.rmSent ∨ i = iid ∧ iid < s.nextOid := fun i is =>
    (rmSent i is).imp id fun same => ⟨same, good.wf.oid_lt found⟩
  have clones := cloneOf_of_images found
  unfold releaseLater
  cases cloningId : img.cloningId with
  | none =>
    rw [cloningId] at clones
    exact good.leave ⟨stays, cloneSent, oids, .inl ⟨rfl, .inr clones⟩⟩
  | some source =>
    rw [cloningId] at clones
    exact good.leave ⟨stays, cloneSent, oids, .inr ⟨source, clones, rfl⟩⟩

/-- An operation on one image that may fail and leaves its clones alone. -/
theorem Good.onImage {op : Image → Except ImageError Image} (good : s.Good)
    (keeps : ∀ img img', s.images iid = some img → op img = .ok img' → img'.Sound ∧
      img'.cloning = img.cloning ∧ img'.cloningId = img.cloningId ∧ img'.type = img.type ∧
      (img.state = .locked ∨ img.state = .delete → img'.state = img.state)) :
    (s.onImage iid op).Good := by
  unfold CloneState.onImage
  cases found : s.images iid with
  | none => exact good
  | some img =>
    cases done : op img with
    | error _ => simpa only [done] using good
    | ok img' =>
      obtain ⟨sound, cloning, cloningId, type, still⟩ := keeps img img' found done
      simpa only [done] using good.use found sound cloning cloningId type still

/-- Only a locked image has a source to be released. -/
theorem Wf.captured (wf : s.Wf) (found : s.images iid = some img) :
    (if img.state = .locked then img.cloningId else none) = img.cloningId := by
  split
  · rfl
  · rename_i unlocked
    by_contra some
    exact unlocked (wf.locked iid img found (Ne.symm some))

theorem Good.delete {driver : Bool} (good : s.Good) (found : s.images iid = some img)
    (taken : s.step (.delete iid driver) = some s') : s'.Good := by
  unfold step at taken
  simp only [found] at taken
  have sound := good.wf.sound iid img found
  split at taken
  · rename_i cloningId deleted
    cases taken
    obtain ⟨_, captured, _⟩ := deleteImage_cases deleted
    have same : cloningId = img.cloningId := captured.trans (good.wf.captured found)
    rw [same]
    exact good.leaveLater found (fun _ no => by cases no) (.inl ⟨rfl, fun _ no => by cases no⟩)
      fun i is => .inl is
  · rename_i img' cloningId deleted
    cases taken
    have sound' := deleteImage_sound sound deleted
    obtain ⟨_, captured, no | removing⟩ := deleteImage_cases deleted
    · cases no
    · cases removing
      have same : cloningId = img.cloningId := captured.trans (good.wf.captured found)
      rw [same]
      exact good.leaveLater found
        (fun _ is => by cases is; exact ⟨sound', rfl, rfl, rfl⟩)
        (.inl ⟨rfl, fun _ is => by cases is; rfl⟩) fun i is => (List.mem_cons.mp is).symm
  · cases taken
    exact good

/-- `clone_action` with a new image that still exists, or not. -/
theorem Good.answer {source? : Option String} (good : s.Good)
    (taken : s.step (.answer newId source?) = some s') : s'.Good := by
  unfold step at taken
  simp only at taken
  split at taken
  · rename_i sent
    split at taken
    · rename_i img found
      cases taken
      have idle : Image.Idle img.state := by
        rcases good.wf.waiting newId img (.inl sent) found with state | state <;>
          simp [state, Image.Idle]
      have sound := @cloneAction_sound _ source? (good.wf.sound newId img found) idle
      refine good.leaveLater found (fun _ is => ?_) (.inr ⟨rfl, sent⟩) fun i is => .inl is
      cases is
      refine ⟨sound, ?_⟩
      cases source? <;> exact ⟨rfl, rfl, rfl⟩
    · rename_i missing
      cases taken
      have same : s.images = Function.update s.images newId none := by
        rw [← missing, Function.update_eq_self]
      have gone : s.cloneOf newId = none := by rw [cloneOf, missing, Option.bind_none]
      have next := @Good.leave _ newId none _ _ s.releases good
        ⟨fun _ no => (by cases no), .inr ⟨rfl, sent⟩, fun i is => .inl is, .inl ⟨rfl, .inr gone⟩⟩
      unfold left setImage at next
      rw [← same] at next
      exact next
  · cases taken

theorem Good.check (good : s.Good) (found : s.images source = some img)
    (disk : img.type.isDisk = true) : { s with checked := source :: s.checked }.Good := by
  refine ⟨{ good.wf with checkedOid := fun c is => ?_, checkedDisk := fun c after is there => ?_ },
    good.exact⟩
  · rcases List.mem_cons.mp is with same | before
    · rw [same]
      exact good.wf.oid_lt found
    · exact good.wf.checkedOid c before
  · rcases List.mem_cons.mp is with same | before
    · have same' : s.images c = some after := there
      rw [same, found] at same'
      cases same'
      exact disk
    · exact good.wf.checkedDisk c after before there

/-- Every step in time keeps the invariant. -/
theorem Good.step {l : CloneLabel} (good : s.Good) (proper : s.Proper l) (taken : s.Step l s') :
    s'.Good := by
  unfold Step at taken
  cases l with
  | check source =>
    unfold CloneState.step at taken
    simp only at taken
    split at taken
    · rename_i img found
      split at taken
      · rename_i allowed
        cases taken
        exact good.check found allowed.1
      · cases taken
    · cases taken
  | insert source type persistentImg saving isPublic imgSource =>
    unfold CloneState.step at taken
    simp only at taken
    split at taken
    · rename_i allowed
      cases taken
      exact good.insert allowed.1 rfl rfl rfl rfl allowed.2
    · cases taken
  | count newId driver =>
    unfold CloneState.step at taken
    simp only at taken
    split at taken
    · rename_i source request
      have fails : (s.setPhase newId source .failed).Good :=
        good.setPhase request (by decide) (fun no => by rcases no with no | no <;> cases no) rfl
      split at taken
      · rename_i img found
        split at taken
        · rename_i img' counted
          cases taken
          have pending : s.Pending newId source :=
            (proper source img img' rfl request found counted).imp good.wf.cloning_iff.mp id
          exact good.count request found counted pending
        · cases taken
          exact fails
      · cases taken
        exact fails
    · cases taken
  | reread newId =>
    unfold CloneState.step at taken
    simp only at taken
    split at taken
    · rename_i source request
      split at taken
      · rename_i img found
        cases taken
        exact good.send request found
      · cases taken
        exact good.setPhase request (by decide) (fun no => by rcases no with no | no <;> cases no)
          rfl
    · cases taken
  | cleanup newId =>
    unfold CloneState.step at taken
    simp only at taken
    split at taken
    · rename_i source request
      cases taken
      have next : (s.setPhase newId source .aborted).Good :=
        good.setPhase request (by decide) (fun no => by rcases no with no | no <;> cases no) rfl
      have never : (s.setPhase newId source .aborted).started newId = false := by
        rw [started_setPhase, if_pos rfl]
        rfl
      exact next.leave
        ⟨fun _ no => (by cases no), .inl ⟨rfl, fun _ no => (by cases no)⟩, fun i is => .inl is,
          .inl ⟨rfl, .inl never⟩⟩
    · cases taken
  | answer newId source? => exact good.answer taken
  | delete iid driver =>
    cases found : s.images iid with
    | none =>
      unfold CloneState.step at taken
      simp only [found] at taken
      cases taken
    | some img => exact good.delete found taken
  | release source newId =>
    unfold CloneState.step at taken
    simp only at taken
    split at taken
    · rename_i due
      cases taken
      exact good.release due
    · cases taken
  | rmAnswer iid =>
    unfold CloneState.step at taken
    simp only at taken
    split at taken
    · rename_i sent
      cases taken
      exact good.leave ⟨fun _ no => (by cases no), .inl ⟨rfl, fun _ no => (by cases no)⟩,
          fun i is => .inl (List.mem_of_mem_erase is), .inl ⟨rfl, .inr (good.wf.rmSent iid sent)⟩⟩
    · cases taken
  | acquire vmId iid =>
    cases taken
    refine good.onImage fun img img' found acquired => ?_
    have sound := acquireImage_sound (good.wf.sound iid img found) acquired
    obtain ⟨_, ⟨state, rfl⟩ | ⟨_, rfl⟩⟩ := acquireImage_cases acquired
    · exact ⟨sound, rfl, rfl, rfl, by simp [state]⟩
    · exact ⟨sound, rfl, rfl, rfl, fun _ => rfl⟩
  | releaseVm vmId iid failed =>
    unfold CloneState.step at taken
    simp only at taken
    split at taken
    · rename_i own
      cases taken
      refine good.onImage fun img img' found released => ?_
      cases released
      rw [found, Option.any_some, decide_eq_true_eq] at own
      have sound := good.wf.sound iid img found
      have disk := sound.disk (.inl ⟨vmId, own⟩)
      refine ⟨(releaseImage_own sound own).1, ?_⟩
      rcases sound.running ⟨vmId, own⟩ with state | state
      · rw [releaseImage_used disk state]
        exact ⟨rfl, rfl, rfl, by simp [state]⟩
      · rw [releaseImage_usedPers disk state]
        exact ⟨rfl, rfl, rfl, by simp [state]⟩
    · cases taken
  | enable iid toEnable =>
    cases taken
    refine good.onImage fun img img' found enabled => ?_
    have sound := enableImage_sound (good.wf.sound iid img found) enabled
    obtain ⟨before, state, _, rfl⟩ := enableImage_cases enabled
    refine ⟨sound, rfl, rfl, rfl, fun no => ?_⟩
    rcases before with is | is | is <;> rw [is] at no <;> rcases no with no | no <;> cases no
  | persistent iid persis =>
    cases taken
    refine good.onImage fun img img' found done => ?_
    have sound := persistent_sound (good.wf.sound iid img found) done
    obtain ⟨_, rfl⟩ := Image.persistent_cases done
    exact ⟨sound, rfl, rfl, rfl, fun _ => rfl⟩

theorem Initial.good (initial : s.Initial) : s.Good := by
  obtain ⟨checked, cloneSent, rmSent, releases⟩ := initial.nothingSent
  have cloneOf : ∀ iid, s.cloneOf iid = none := fun iid => by
    cases found : s.images iid with
    | none => rw [CloneState.cloneOf, found, Option.bind_none]
    | some img => rw [cloneOf_of_images found, (initial.noClone iid img found).2]
  have pending : ∀ n c, ¬ s.Pending n c := fun n c is => by
    rw [Pending, cloneOf, releases] at is
    rcases is with no | no
    · cases no
    · exact absurd no List.not_mem_nil
  refine ⟨?_, fun c img found n => ?_⟩
  · exact
      { sound := initial.sound
        locked := fun iid img found some => absurd (initial.noClone iid img found).2 some
        request := fun n c is => absurd is (pending n c)
        released := fun n c is => cloneOf n
        once := releases.symm ▸ List.nodup_nil
        freshImage := fun iid new => by
          cases found : s.images iid with
          | none => rfl
          | some img => exact absurd (initial.oids iid img found) (Nat.not_lt.mpr new)
        freshRequest := fun n _ => initial.noRequest n
        sourceOid := fun n c phase is => by
          rw [initial.noRequest] at is
          cases is
        checkedOid := fun c is => absurd (checked ▸ is) List.not_mem_nil
        waiting := fun n img waits _ => by
          rcases waits with sent | ⟨c, phase, is, _⟩
          · exact absurd (cloneSent ▸ sent) List.not_mem_nil
          · rw [initial.noRequest] at is
            cases is
        sentEnded := fun n is => absurd (cloneSent ▸ is) List.not_mem_nil
        sentOnce := cloneSent.symm ▸ List.nodup_nil
        rmSent := fun iid is => absurd (rmSent ▸ is) List.not_mem_nil
        rmOid := fun iid is => absurd (rmSent ▸ is) List.not_mem_nil
        checkedDisk := fun c img is _ => absurd (checked ▸ is) List.not_mem_nil
        requestDisk := fun n c phase img is _ => by
          rw [initial.noRequest] at is
          cases is }
  · rw [(initial.noClone c img found).1]
    exact ⟨fun no => absurd no (Finset.notMem_empty n), fun both => absurd both.2 (pending n c)⟩

/-- The states of the pool in which every clone was counted in time. -/
abbrev Reached : CloneState → Prop := Reachable Initial (Guarded Proper Step)

theorem Reached.good (reached : s.Reached) : s.Good :=
  reached.invariant (fun _ => Initial.good) fun _ _ _ good taken => good.step taken.1 taken.2

/-- The count of every source is the number of its clones: the existing images that are
being cloned from it, and the ones whose clone has ended and whose release is under way. A
source without clones and VMs is neither used nor cloned. -/
def CountsClones (s : CloneState) : Prop := ∀ source img, s.images source = some img →
  img.cloning.count = (s.beingCloned source).card + (s.releasing source).card ∧
    (s.beingCloned source = ∅ → s.releasing source = ∅ → img.running.count = 0 →
      img.state ≠ .used ∧ img.state ≠ .clone)

theorem Good.ids_eq (good : s.Good) (found : s.images source = some img) :
    img.cloning.ids = s.beingCloned source ∪ s.releasing source := by
  ext newId
  rw [good.exact source img found, Finset.mem_union, beingCloned, releasing, Finset.mem_filter,
    Finset.mem_filter, Finset.mem_range, good.wf.cloning_iff]
  constructor
  · rintro ⟨started, pending⟩
    have bound : newId < s.nextOid := by
      rcases Nat.lt_or_ge newId s.nextOid with below | above
      · exact below
      · rw [started_of_freshRequest (good.wf.freshRequest newId above)] at started
        cases started
    exact pending.imp (fun is => ⟨bound, started, is⟩) fun is => ⟨bound, started, is⟩
  · rintro (⟨_, started, is⟩ | ⟨_, started, is⟩)
    · exact ⟨started, .inl is⟩
    · exact ⟨started, .inr is⟩

theorem Good.disjoint (good : s.Good) : Disjoint (s.beingCloned source) (s.releasing source) := by
  rw [Finset.disjoint_left]
  intro newId being releasing
  rw [beingCloned, Finset.mem_filter, good.wf.cloning_iff] at being
  rw [CloneState.releasing, Finset.mem_filter] at releasing
  have free := good.wf.released newId source releasing.2.2
  rw [being.2.2] at free
  cases free

theorem Good.countsClones (good : s.Good) : s.CountsClones := by
  intro source img found
  have ids := good.ids_eq found
  constructor
  · rw [img.cloning.exact, ids, Finset.card_union_of_disjoint good.disjoint,
      Int.natCast_add]
  · intro noClone noRelease noVm
    rw [noClone, noRelease, Finset.union_empty] at ids
    rw [CountedSet.count_eq_zero_iff] at noVm
    have sound := good.wf.sound source img found
    constructor
    · intro used
      rcases (sound.used used).2 with some | some
      · exact some.ne_empty noVm
      · exact some.ne_empty ids
    · intro clone
      exact (sound.clone clone).2.ne_empty ids

/-- A pool with one image that is ready. -/
def onePool : CloneState where
  images iid := if iid = 0 then
      some ⟨.os, .ready, false, ∅, ∅, none, "/var/lib/one/datastores/1/0", false, false⟩
    else none
  nextOid := 1
  checked := []
  requests _ := none
  cloneSent := []
  rmSent := []
  releases := []

theorem onePool_initial : onePool.Initial := by
  have only : ∀ iid img, onePool.images iid = some img → iid = 0 ∧
      img = ⟨.os, .ready, false, ∅, ∅, none, "/var/lib/one/datastores/1/0", false, false⟩ := by
    intro iid img found
    simp only [onePool] at found
    split at found
    · rename_i zero
      cases found
      exact ⟨zero, rfl⟩
    · cases found
  refine ⟨fun iid img found => ?_, fun iid img found => ?_, fun iid img found => ?_, fun _ => rfl,
    rfl, rfl, rfl, rfl⟩
  · rw [(only iid img found).2]
    exact Image.sound_of_idle rfl rfl ⟨by decide, by decide, by decide⟩
  · rw [(only iid img found).2]
    exact ⟨rfl, rfl⟩
  · rw [(only iid img found).1]
    exact Nat.one_pos

/-- The count of every source is the number of the existing images that are being cloned from
it, at any time. -/
def CountsLocked (s : CloneState) : Prop := ∀ source img, s.images source = some img →
  img.cloning.count = (s.beingCloned source).card ∧
    (s.beingCloned source = ∅ → img.running.count = 0 →
      img.state ≠ .used ∧ img.state ≠ .clone)

/-- Where no release is under way, the two ways to count are one. -/
theorem CountsClones.countsLocked (counts : s.CountsClones)
    (settled : ∀ source, s.releasing source = ∅) : s.CountsLocked := by
  intro source img found
  obtain ⟨count, state⟩ := counts source img found
  rw [settled source, Finset.card_empty] at count
  exact ⟨by omega, fun noClone => state noClone (settled source)⟩

/-- The new image is deleted, and its count released, before the source counts the clone:
the source keeps the count, with no clone left. -/
theorem late_count_stays : ∃ s, Reachable Initial Step s ∧ ¬ s.CountsClones := by
  refine ⟨_, Reachable.foldlM step
    [.check 0, .insert 0 .os false false false "", .delete 1 true, .release 0 1,
      .count 1 true, .reread 1] (fun _ _ _ => id) (.init onePool_initial) rfl, fun exact => ?_⟩
  have counted := (exact 0 _ rfl).1
  exact absurd counted (by decide)

end CloneState

end Ezilla

import Ezilla.Image.ImageManager
import Ezilla.Um.UsageLedger

/-!
# Deleting images and their datastore quota

A deletion has three parts: the request asks the driver to remove the source, or drops an
image without one; after the image is unlocked the request takes the image from the
datastore usage of its user and its group; and the answer of the driver drops the image.

* `DeletionSystem.step`: the requests, the answers of the driver, and what else happens to
  the images, one lock each;
* `DeletionSystem.GivenBackOnce`: an image is charged until a request deletes it, and from
  then on only as far as its usage is still to be given back;
* `DeletionSystem.Proper`: an image that a request has deleted is not deleted again, and no
  counter is rounded when it is given back.
-/

namespace Ezilla

open ImageManager Transition

namespace ImageManager

/-- `cp_action`, the answer of the driver, on the image if it still exists. -/
def cpAction (source? : Option String) (img : Image) : Image :=
  match source? with
  | some source => { img with source, state := .ready }
  | none => { img with state := .error }

/-- `mkfs_action` on the image. One that a VM saves stays as it is. -/
def mkfsAction (source? : Option String) (img : Image) : Image :=
  match source? with
  | some source => { img with source, state := if img.saving then img.state else .ready }
  | none => { img with state := .error }

/-- The images that `delete_image` removes. -/
def Deletable (driver : Bool) (img : Image) : Prop :=
  driver = true ∧ Image.Idle img.state ∧ (img.state = .ready → img.running.count = 0)

theorem deletable_of_ok {driver : Bool} {img : Image} {out : Deleted × Option Nat}
    (deleted : deleteImage driver img = .ok out) : Deletable driver img := by
  have idle := (deleteImage_cases deleted).1
  have loaded : ∀ cloningId, removeSource driver cloningId img = .ok out → driver = true := by
    intro cloningId removed
    unfold removeSource at removed
    split at removed
    · cases removed
    · rename_i is
      simpa using is
  unfold deleteImage at deleted
  refine ⟨?_, idle, fun ready => ?_⟩
  · split at deleted
    · split at deleted
      · cases deleted
      · exact loaded _ deleted
    all_goals first | exact loaded _ deleted | cases deleted
  · rw [ready] at deleted
    dsimp only at deleted
    split at deleted
    · cases deleted
    · rename_i unused
      exact not_not.mp unused

theorem deleteImage_of_deletable {driver : Bool} {img : Image} (deletable : Deletable driver img) :
    ∃ out, deleteImage driver img = .ok out := by
  obtain ⟨loaded, idle, unused⟩ := deletable
  have removed : ∀ cloningId, ∃ out, removeSource driver cloningId img = .ok out := by
    intro cloningId
    rw [removeSource, loaded]
    by_cases noSource : img.source = ""
    · exact ⟨_, by rw [if_pos noSource]; rfl⟩
    · exact ⟨_, by rw [if_neg noSource]; rfl⟩
  unfold deleteImage
  cases state : img.state with
  | ready =>
    dsimp only
    rw [if_neg (not_not.mpr (unused state))]
    exact removed _
  | used => exact absurd state idle.1
  | usedPers => exact absurd state idle.2.1
  | clone => exact absurd state idle.2.2
  | _ => exact removed _

end ImageManager

/-- An image with its owner and its datastore. -/
structure DatastoreImage extends Image where
  uid : Int
  gid : Int
  dsId : Int
  size : Int

namespace DatastoreImage

/-- `img_usage`. -/
def imgUsage (img : DatastoreImage) : Template :=
  [.single "DATASTORE" (toString img.dsId), .single "SIZE" (toString img.size)]

/-- The user and the group that the image is charged to. -/
def owners (img : DatastoreImage) : List Principal := delPrincipals img.uid img.gid

end DatastoreImage

/-- The commands to the driver that create the source of an image. -/
inductive CreateCommand where
  | cp
  | clone
  | mkfs
  deriving DecidableEq, Repr

/-- What `delete_image` or `clone_action` still does when the image is unlocked: the users
and groups that `Quotas::ds_del` goes through, then `release_cloning_image`. -/
structure ImageCall where
  iid : Nat
  usage : Template
  todo : List Principal
  cloningId : Option Nat
  deriving DecidableEq

/-- The images, the quotas, and the commands that the driver has not answered. `deleted` are
the images that a request has deleted; the code does not keep them. -/
structure DeletionSystem where
  images : Nat → Option DatastoreImage
  ledger : Ledger
  creating : List (CreateCommand × Nat)
  rmSent : List Nat
  calls : List ImageCall
  deleted : List Nat

/-- One step; `db` is the answer of the database when an image is dropped. `update` is any
other operation on an image; none changes its owner, its datastore or its size. -/
inductive DeletionLabel where
  | delete (iid : Nat) (driver db : Bool)
  | work (call : ImageCall)
  | created (command : CreateCommand) (iid : Nat) (source? : Option String)
  | removed (iid : Nat) (db : Bool)
  | update (iid : Nat) (img : Image)

/-- `Quotas::ds_del` for one user or group. -/
def Ledger.dsDel (l : Ledger) (iid : Nat) (usage : Template) (p : Principal) : Ledger :=
  (l.setQuotas p ((l.quotas p).map fun qs => qs.quotaDel .datastore usage .float)).addCharge
    (.image iid) p (-1)

namespace DeletionSystem

def setImage (s : DeletionSystem) (iid : Nat) (img? : Option DatastoreImage) : DeletionSystem :=
  { s with images := Function.update s.images iid img? }

def onImage (s : DeletionSystem) (iid : Nat) (op : Image → Image) : DeletionSystem :=
  match s.images iid with
  | some img => s.setImage iid (some { img with toImage := op img.toImage })
  | none => s

def call (s : DeletionSystem) (c : ImageCall) : DeletionSystem := { s with calls := c :: s.calls }

/-- `ImagePool::drop`: an image that the database keeps stays as it is. -/
def drop (s : DeletionSystem) (iid : Nat) (db : Bool) : DeletionSystem :=
  if db then s.setImage iid none else s

/-- `ImageManager::delete_image` under the lock of the image. -/
def deleteImage (s : DeletionSystem) (iid : Nat) (driver db : Bool) : DeletionSystem :=
  match s.images iid with
  | some img =>
    let s' := { s with deleted := iid :: s.deleted }
    match ImageManager.deleteImage driver img.toImage with
    | .ok (.dropped, cloningId) =>
      -- that the image could not be dropped is only logged
      (s'.drop iid db).call ⟨iid, img.imgUsage, img.owners, cloningId⟩
    | .ok (.removing img', cloningId) =>
      ({ s' with rmSent := iid :: s.rmSent }.setImage iid (some { img with toImage := img' })).call
        ⟨iid, img.imgUsage, img.owners, cloningId⟩
    | .error _ => s
  | none => s

/-- The next lock that a call takes. -/
def workCall (s : DeletionSystem) (c : ImageCall) : DeletionSystem :=
  let s' := { s with calls := s.calls.erase c }
  match c.todo, c.cloningId with
  | p :: todo, _ => { s' with ledger := s.ledger.dsDel c.iid c.usage p }.call { c with todo }
  | [], some cloningId => s'.onImage cloningId (releaseCloningImage c.iid)
  | [], none => s'

/-- `cp_action`, `clone_action` and `mkfs_action`. -/
def created (s : DeletionSystem) (command : CreateCommand) (iid : Nat) (source? : Option String) :
    DeletionSystem :=
  let s' := { s with creating := s.creating.erase (command, iid) }
  match command, s.images iid with
  | .cp, _ => s'.onImage iid (cpAction source?)
  | .mkfs, _ => s'.onImage iid (mkfsAction source?)
  | .clone, some img =>
    (s'.onImage iid (cloneAction source?)).call ⟨iid, [], [], img.cloningId⟩
  | .clone, none => s'

/-- `rm_action`, with either result of the driver. -/
def removed (s : DeletionSystem) (iid : Nat) (db : Bool) : DeletionSystem :=
  { s with rmSent := s.rmSent.erase iid }.drop iid db

/-- One step; `none` when the label has nothing to act on. -/
def step (s : DeletionSystem) : DeletionLabel → Option DeletionSystem
  | .delete iid driver db => some (s.deleteImage iid driver db)
  | .work c => if c ∈ s.calls then some (s.workCall c) else none
  | .created command iid source? =>
    if (command, iid) ∈ s.creating then some (s.created command iid source?) else none
  | .removed iid db => if iid ∈ s.rmSent then some (s.removed iid db) else none
  | .update iid img => some (s.onImage iid fun _ => img)

def Step (s : DeletionSystem) (l : DeletionLabel) (s' : DeletionSystem) : Prop :=
  s.step l = some s'

/-! ## What is charged -/

/-- The users and groups that use an image: those of one that no request has deleted. -/
def keeping (s : DeletionSystem) (iid : Nat) : List Principal :=
  match s.images iid with
  | some img => if iid ∈ s.deleted then [] else img.owners
  | none => []

/-- The users and groups that an image is still to be taken from. -/
def owed (s : DeletionSystem) (iid : Nat) : List Principal :=
  s.calls.flatMap fun c => if c.iid = iid then c.todo else []

/-- Every counter is the sum over what is charged, and each image is charged to its user and
its group until a request deletes it. From then on it is charged to those that it is still to
be taken from. -/
structure GivenBackOnce (u : OwnedUsage) (s : DeletionSystem) : Prop where
  accounted : s.ledger.Accounted u
  charged : ∀ iid, s.ledger.charged (.image iid) = tally (s.keeping iid) + tally (s.owed iid)

/-- Nothing has been deleted, and the images are charged to their owners. -/
structure Initial (u : OwnedUsage) (s : DeletionSystem) : Prop where
  givenBackOnce : s.GivenBackOnce u
  usage : ∀ iid img, s.images iid = some img →
    .image iid ∈ u.ids ∧ u.usage (.image iid) = img.imgUsage
  noCall : s.calls = []
  noRm : s.rmSent = []
  noneDeleted : s.deleted = []

/-- No image of a user or group is deleted that a request has deleted before: the driver has
not removed it yet, or the database has not dropped it. No sum of a counter is rounded. -/
def Proper (s : DeletionSystem) : DeletionLabel → Prop
  | .delete iid driver _ => ∀ img, s.images iid = some img → iid ∈ s.deleted →
      Deletable driver img.toImage → img.owners = []
  | .work c => ∀ p ∈ c.todo.head?, ∀ qs, s.ledger.quotas p = some qs →
      qs.ExactBelow .datastore c.usage .float
  | _ => True

/-- What every proper step keeps. -/
structure Good (u : OwnedUsage) (s : DeletionSystem) : Prop where
  givenBackOnce : s.GivenBackOnce u
  usage : ∀ iid img, s.images iid = some img →
    .image iid ∈ u.ids ∧ u.usage (.image iid) = img.imgUsage
  owedUsage : ∀ c ∈ s.calls, c.todo ≠ [] →
    .image c.iid ∈ u.ids ∧ u.usage (.image c.iid) = c.usage
  requested : ∀ iid ∈ s.rmSent, iid ∈ s.deleted

variable {u : OwnedUsage} {s s' : DeletionSystem} {iid : Nat} {img : DatastoreImage}
  {c : ImageCall} {p : Principal}

theorem tally_nil : tally [] = 0 := rfl

theorem tally_append (ps qs : List Principal) : tally (ps ++ qs) = tally ps + tally qs := by
  funext p
  rw [tally, List.count_append, Nat.cast_add]
  rfl

theorem tally_perm {ps qs : List Principal} (perm : ps.Perm qs) : tally ps = tally qs := by
  funext p
  rw [tally, perm.count_eq, tally]

theorem eq_nil_of_tally {ps : List Principal} (none_ : tally ps = 0) : ps = [] := by
  cases ps with
  | nil => rfl
  | cons p ps =>
    have one := congrFun none_ p
    have rest := tally_nonneg ps p
    rw [tally_cons] at one
    simp only [Pi.add_apply, tally, List.count_cons_self, List.count_nil, Pi.zero_apply] at one rest
    omega

/-! ## What the steps do -/

theorem owed_call (i : Nat) :
    (s.call c).owed i = (if c.iid = i then c.todo else []) ++ s.owed i := rfl

/-- The calls without one of them. -/
theorem tally_owed (mem : c ∈ s.calls) (i : Nat) : tally (s.owed i) =
    tally (if c.iid = i then c.todo else []) +
      tally ({ s with calls := s.calls.erase c }.owed i) := by
  rw [← tally_append]
  exact tally_perm ((List.perm_cons_erase mem).flatMap_right _)

theorem onImage_frame (s : DeletionSystem) (iid : Nat) (op : Image → Image) :
    (s.onImage iid op).ledger = s.ledger ∧ (s.onImage iid op).calls = s.calls ∧
      (s.onImage iid op).rmSent = s.rmSent ∧ (s.onImage iid op).deleted = s.deleted ∧
      (∀ i, (s.onImage iid op).keeping i = s.keeping i) ∧
      ∀ i img', (s.onImage iid op).images i = some img' →
        ∃ img, s.images i = some img ∧ img'.imgUsage = img.imgUsage := by
  unfold onImage
  cases found : s.images iid with
  | none => exact ⟨rfl, rfl, rfl, rfl, fun _ => rfl, fun i img' is => ⟨img', is, rfl⟩⟩
  | some img =>
    refine ⟨rfl, rfl, rfl, rfl, fun i => ?_, fun i img' is => ?_⟩
    · by_cases same : i = iid
      · subst same
        simp only [keeping, setImage, Function.update_self, found]
        rfl
      · simp only [keeping, setImage, Function.update_of_ne same]
        rfl
    · rcases update_eq_some is with ⟨same, new⟩ | ⟨-, old⟩
      · cases new
        exact ⟨img, same ▸ found, rfl⟩
      · exact ⟨img', old, rfl⟩

/-- Dropping an image that a request has deleted: nothing is kept or owed that was not. -/
theorem drop_frame (s : DeletionSystem) (db : Bool) (mem : iid ∈ s.deleted) :
    (s.drop iid db).ledger = s.ledger ∧ (s.drop iid db).calls = s.calls ∧
      (s.drop iid db).rmSent = s.rmSent ∧ (s.drop iid db).deleted = s.deleted ∧
      (∀ i, (s.drop iid db).keeping i = s.keeping i) ∧
      ∀ i img', (s.drop iid db).images i = some img' → s.images i = some img' := by
  cases db with
  | false => exact ⟨rfl, rfl, rfl, rfl, fun _ => rfl, fun _ _ is => is⟩
  | true =>
    refine ⟨rfl, rfl, rfl, rfl, fun i => ?_, fun i img' is => ?_⟩
    · by_cases same : i = iid
      · subst same
        simp only [keeping, drop, if_true, setImage, Function.update_self, if_pos mem]
        cases s.images i <;> rfl
      · simp only [keeping, drop, if_true, setImage, Function.update_of_ne same]
    · rcases update_eq_some is with ⟨-, new⟩ | ⟨-, old⟩
      · cases new
      · exact old

/-- A request is refused and changes nothing, or the image no longer counts as kept and has
to be taken from its owners. -/
theorem deleteImage_spec (s : DeletionSystem) (iid : Nat) (driver db : Bool) :
    (s.deleteImage iid driver db = s ∧
        ∀ img, s.images iid = some img → ¬ Deletable driver img.toImage) ∨
      ∃ img cloningId, s.images iid = some img ∧ Deletable driver img.toImage ∧
        (s.deleteImage iid driver db).ledger = s.ledger ∧
        (s.deleteImage iid driver db).calls =
          ⟨iid, img.imgUsage, img.owners, cloningId⟩ :: s.calls ∧
        (∀ i, (s.deleteImage iid driver db).keeping i = if i = iid then [] else s.keeping i) ∧
        ((∀ i ∈ s.rmSent, i ∈ s.deleted) → ∀ i ∈ (s.deleteImage iid driver db).rmSent,
          i ∈ (s.deleteImage iid driver db).deleted) ∧
        ∀ i img', (s.deleteImage iid driver db).images i = some img' →
          ∃ img, s.images i = some img ∧ img'.imgUsage = img.imgUsage := by
  unfold deleteImage
  cases found : s.images iid with
  | none => exact Or.inl ⟨rfl, fun img is => by cases is⟩
  | some img =>
    dsimp only
    split
    · rename_i cloningId deleted
      obtain ⟨ledger, calls, rmSent, asked, keeping, images⟩ :=
        drop_frame { s with deleted := iid :: s.deleted } db (List.mem_cons_self (a := iid))
      refine Or.inr ⟨img, cloningId, rfl, deletable_of_ok deleted, ledger,
        congrArg (List.cons _) calls, fun i => (keeping i).trans ?_, fun before i mem => ?_,
        fun i img' is => ⟨img', images i img' is, rfl⟩⟩
      swap
      · exact asked.symm ▸ List.mem_cons_of_mem _ (before i (rmSent ▸ mem))
      by_cases same : i = iid
      · subst same
        simp only [DeletionSystem.keeping, found, List.mem_cons_self, if_true]
      · simp only [DeletionSystem.keeping, List.mem_cons, same, false_or, if_false]
    · rename_i img' cloningId deleted
      refine Or.inr ⟨img, cloningId, rfl, deletable_of_ok deleted, rfl, rfl, fun i => ?_,
        fun before i mem => ?_, fun i img'' is => ?_⟩
      · by_cases same : i = iid
        · subst same
          simp only [keeping, call, setImage, Function.update_self, List.mem_cons_self, if_true]
        · simp only [keeping, call, setImage, Function.update_of_ne same, List.mem_cons, same,
            false_or, if_false]
      · rcases List.mem_cons.mp mem with new | old
        · exact new ▸ List.mem_cons_self
        · exact List.mem_cons_of_mem _ (before i old)
      · rcases update_eq_some is with ⟨same, new⟩ | ⟨-, old⟩
        · cases new
          exact ⟨img, same ▸ found, rfl⟩
        · exact ⟨img'', old, rfl⟩
    · rename_i refused
      refine Or.inl ⟨rfl, fun img' is deletable => ?_⟩
      cases is
      obtain ⟨out, deleted⟩ := deleteImage_of_deletable deletable
      rw [deleted] at refused
      cases refused

/-! ## Every proper step keeps the accounts -/

/-- A step that gives nothing back. -/
theorem Good.congr (good : s.Good u) (ledger : s'.ledger = s.ledger)
    (keeping : ∀ i, s'.keeping i = s.keeping i) (owed : ∀ i, tally (s'.owed i) = tally (s.owed i))
    (images : ∀ i img', s'.images i = some img' →
      ∃ img, s.images i = some img ∧ img'.imgUsage = img.imgUsage)
    (calls : ∀ c ∈ s'.calls, c.todo ≠ [] → c ∈ s.calls)
    (requested : ∀ i ∈ s'.rmSent, i ∈ s'.deleted) : s'.Good u where
  givenBackOnce := by
    refine ⟨ledger ▸ good.givenBackOnce.accounted, fun i => ?_⟩
    rw [ledger, keeping, owed]
    exact good.givenBackOnce.charged i
  usage i img' is := by
    obtain ⟨img, found, same⟩ := images i img' is
    rw [same]
    exact good.usage i img found
  owedUsage c mem some_ := good.owedUsage c (calls c mem some_) some_
  requested := requested

theorem Good.onImage (good : s.Good u) (op : Image → Image) : (s.onImage iid op).Good u := by
  obtain ⟨ledger, calls, rmSent, deleted, keeping, images⟩ := onImage_frame s iid op
  refine good.congr ledger keeping (fun i => ?_) images (fun c mem _ => calls ▸ mem)
    fun i mem => ?_
  · rw [owed, calls, owed]
  · rw [rmSent] at mem
    exact deleted.symm ▸ good.requested i mem

/-- A call that has gone through the users and groups. -/
theorem Good.finish (good : s.Good u) (mem : c ∈ s.calls) (ended : c.todo = []) :
    Good u { s with calls := s.calls.erase c } := by
  refine good.congr rfl (fun _ => rfl) (fun i => ?_) (fun i img is => ⟨img, is, rfl⟩)
    (fun c' mem' _ => List.mem_of_mem_erase mem') good.requested
  rw [tally_owed mem i, ended, ite_self, tally_nil, zero_add]

/-- The usage that is owed is given back at one user or group. -/
theorem Good.dsDel (good : s.Good u) (mem : c ∈ s.calls) {todo : List Principal}
    (next : c.todo = p :: todo) (proper : s.Proper (.work c)) :
    Good u ({ s with
      calls := s.calls.erase c
      ledger := s.ledger.dsDel c.iid c.usage p }.call { c with todo }) := by
  have some_ : c.todo ≠ [] := by simp [next]
  obtain ⟨inUse, usage⟩ := good.owedUsage c mem some_
  have rollback : s.ledger.dsDel c.iid c.usage p = s.ledger.quotaRollback u (.image c.iid) p := by
    rw [← usage]
    rfl
  have before := good.givenBackOnce.charged c.iid
  rw [tally_owed mem, if_pos rfl, next, tally_cons] at before
  have charged : 0 < s.ledger.charged (.image c.iid) p := by
    have kept := tally_nonneg (s.keeping c.iid) p
    have others := tally_nonneg ({ s with calls := s.calls.erase c }.owed c.iid) p
    have rest := tally_nonneg todo p
    have one : tally [p] p = 1 := by simp [tally]
    rw [before]
    simp only [Pi.add_apply]
    omega
  refine ⟨⟨?_, fun i => ?_⟩, good.usage, fun c' mem' some' => ?_, good.requested⟩
  · show (s.ledger.dsDel c.iid c.usage p).Accounted u
    rw [rollback]
    refine good.givenBackOnce.accounted.rollback inUse (fun qs found => ?_) charged
    rw [usage]
    exact proper p (next ▸ rfl) qs found
  · show (s.ledger.dsDel c.iid c.usage p).charged (.image i) = tally (s.keeping i) + _
    rw [rollback, owed_call, tally_append]
    by_cases same : c.iid = i
    · subst same
      rw [Ledger.charged_quotaRollback, before, if_pos rfl]
      simp only [owed]
      abel
    · rw [if_neg same, tally_nil, zero_add, Ledger.quotaRollback,
        Ledger.charged_addCharge_ne (by simpa using fun is => same is.symm)]
      have other := good.givenBackOnce.charged i
      rw [tally_owed mem, if_neg same, tally_nil, zero_add] at other
      exact other
  · rcases List.mem_cons.mp mem' with new | old
    · rw [new]
      exact ⟨inUse, usage⟩
    · exact good.owedUsage c' (List.mem_of_mem_erase old) some'

theorem Good.workCall (good : s.Good u) (mem : c ∈ s.calls) (proper : s.Proper (.work c)) :
    (s.workCall c).Good u := by
  unfold DeletionSystem.workCall
  cases next : c.todo with
  | cons p todo => exact good.dsDel mem next proper
  | nil =>
    cases c.cloningId with
    | none => exact good.finish mem next
    | some cloningId => exact (good.finish mem next).onImage _

theorem Good.created (good : s.Good u) (command : CreateCommand) (source? : Option String) :
    (s.created command iid source?).Good u := by
  have answered : Good u { s with creating := s.creating.erase (command, iid) } :=
    good.congr rfl (fun _ => rfl) (fun _ => rfl) (fun i img is => ⟨img, is, rfl⟩)
      (fun _ mem _ => mem) good.requested
  unfold DeletionSystem.created
  cases command with
  | cp => exact answered.onImage _
  | mkfs => exact answered.onImage _
  | clone =>
    cases s.images iid with
    | none => exact answered
    | some img =>
      have changed := @Good.onImage _ _ iid answered (cloneAction source?)
      refine changed.congr rfl (fun _ => rfl) (fun i => ?_)
        (fun i img is => ⟨img, is, rfl⟩) (fun c mem some_ => ?_) changed.requested
      · rw [owed_call, ite_self, List.nil_append]
      · rcases List.mem_cons.mp mem with new | old
        · rw [new] at some_
          exact absurd rfl some_
        · exact old

/-- A request keeps the accounts unless the image is being removed already. -/
theorem Good.deleteImage (good : s.Good u) (driver db : Bool) :
    ((s.deleteImage iid driver db).GivenBackOnce u ↔ s.Proper (.delete iid driver db)) ∧
      (s.Proper (.delete iid driver db) → (s.deleteImage iid driver db).Good u) := by
  rcases deleteImage_spec s iid driver db with ⟨same, refused⟩ |
    ⟨img, cloningId, found, deletable, ledger, calls, keeping, requested, images⟩
  · rw [same]
    exact ⟨⟨fun _ img found _ deletable => absurd deletable (refused img found),
      fun _ => good.givenBackOnce⟩, fun _ => good⟩
  · have owed : ∀ i, tally ((s.deleteImage iid driver db).owed i) =
        tally (if iid = i then img.owners else []) + tally (s.owed i) := fun i => by
      rw [DeletionSystem.owed, calls, List.flatMap_cons, tally_append]
      rfl
    have once : (s.deleteImage iid driver db).GivenBackOnce u ↔ tally (s.keeping iid) =
        tally img.owners := by
      have before := good.givenBackOnce.charged
      constructor
      · intro after
        have here := after.charged iid
        rw [ledger, before iid, keeping, owed, if_pos rfl, if_pos rfl, tally_nil, zero_add] at here
        exact add_right_cancel here
      · intro kept
        refine ⟨ledger ▸ good.givenBackOnce.accounted, fun i => ?_⟩
        rw [ledger, before i, keeping, owed]
        by_cases same : i = iid
        · subst same
          rw [if_pos rfl, if_pos rfl, tally_nil, zero_add, kept]
        · rw [if_neg same, if_neg (Ne.symm same), tally_nil, zero_add]
    have proper : s.Proper (.delete iid driver db) ↔ tally (s.keeping iid) = tally img.owners := by
      rw [DeletionSystem.keeping, found]
      by_cases removing : iid ∈ s.deleted
      · simp only [if_pos removing]
        refine ⟨fun proper => ?_, fun none_ img' found' _ _ => ?_⟩
        · rw [proper img found removing deletable]
        · rw [found] at found'
          cases found'
          exact eq_nil_of_tally none_.symm
      · simp only [if_neg removing]
        exact ⟨fun _ => trivial, fun _ img' _ mem => absurd mem removing⟩
    refine ⟨once.trans proper.symm, fun isProper => ⟨once.mpr (proper.mp isProper), ?_, ?_,
      requested good.requested⟩⟩
    · intro i img' is
      obtain ⟨before, there, same⟩ := images i img' is
      rw [same]
      exact good.usage i before there
    · intro c mem some_
      rw [calls] at mem
      rcases List.mem_cons.mp mem with new | old
      · rw [new]
        exact good.usage iid img found
      · exact good.owedUsage c old some_

theorem Good.removed (good : s.Good u) (mem : iid ∈ s.rmSent) (db : Bool) :
    (s.removed iid db).Good u := by
  obtain ⟨ledger, calls, rmSent, deleted, keeping, images⟩ :=
    drop_frame { s with rmSent := s.rmSent.erase iid } db (good.requested iid mem)
  refine good.congr ledger keeping (fun i => ?_) (fun i img is => ⟨img, images i img is, rfl⟩)
    (fun c mem _ => calls ▸ mem) fun i mem => ?_
  · rw [owed, DeletionSystem.removed, calls, owed]
  · rw [DeletionSystem.removed, rmSent] at mem
    exact deleted.symm ▸ good.requested i (List.mem_of_mem_erase mem)

/-- A proper step keeps the accounts. -/
theorem Good.step (good : s.Good u) {l : DeletionLabel} (proper : s.Proper l)
    (taken : s.Step l s') : s'.Good u := by
  cases l with
  | delete iid driver db =>
    cases taken
    exact (good.deleteImage driver db).2 proper
  | work c =>
    obtain ⟨mem, is⟩ := Option.ite_none_right_eq_some.mp taken
    cases is
    exact good.workCall mem proper
  | created command iid source? =>
    obtain ⟨-, is⟩ := Option.ite_none_right_eq_some.mp taken
    cases is
    exact good.created command source?
  | removed iid db =>
    obtain ⟨mem, is⟩ := Option.ite_none_right_eq_some.mp taken
    cases is
    exact good.removed mem db
  | update iid img =>
    cases taken
    exact good.onImage _

theorem good_of_reached (reached : Reachable (Initial u) (Guarded Proper Step) s) : s.Good u := by
  refine reached.invariant (fun s start => ⟨start.givenBackOnce, start.usage, ?_, ?_⟩)
    fun s l s' good taken => good.step taken.1 taken.2
  · intro c mem
    rw [start.noCall] at mem
    cases mem
  · intro iid mem
    rw [start.noRm] at mem
    cases mem

/-- In a run of proper steps every image is given back once, and the first request that is not
proper gives one back again. -/
theorem given_back_once_of_reached (reached : Reachable (Initial u) (Guarded Proper Step) s) :
    s.GivenBackOnce u ∧ ∀ iid driver db,
      ((s.deleteImage iid driver db).GivenBackOnce u ↔ s.Proper (.delete iid driver db)) :=
  ⟨(good_of_reached reached).givenBackOnce,
    fun _ driver db => ((good_of_reached reached).deleteImage driver db).1⟩

/-! ## An image is deleted twice -/

/-- A ready image of user 5 in datastore 1. -/
def image : DatastoreImage where
  type := .os
  state := .ready
  persistentImg := false
  running := ∅
  cloning := ∅
  cloningId := none
  source := "/datastores/1/disk"
  saving := false
  isPublic := false
  uid := 5
  gid := 100
  dsId := 1
  size := 10

/-- Two images, which the user could allocate. -/
def twoImages : OwnedUsage where
  ids := {.image 0, .image 1}
  usage _ := image.imgUsage
  nonneg x mem := by
    have type : x.quotaType = .datastore := by
      rcases Finset.mem_insert.mp mem with rfl | last
      · rfl
      · rw [Finset.mem_singleton.mp last]
        rfl
    have accepted : ((QuotaSystem.noQuotas false).quotaCheck .datastore image.imgUsage
        (QuotaSystem.noQuotas true)).1 = .ok () := by decide +kernel
    rw [type]
    exact Quotas.amounts_nonneg accepted

/-- The ledger after images are charged to users and groups without limits. -/
def charge (l : Ledger) : List (Nat × Principal) → Bool × Ledger
  | [] => (true, l)
  | (iid, p) :: rest =>
    let charged := l.quotaAuthorization twoImages (.image iid) p (QuotaSystem.noQuotas true)
    let others := charge charged.2 rest
    (charged.1 && others.1, others.2)

/-- The charges round nothing. -/
def plainCharges (l : Ledger) : List (Nat × Principal) → Bool
  | [] => true
  | (iid, p) :: rest =>
    decide (∀ qs ∈ l.quotas p, qs.PlainAbove .datastore image.imgUsage) &&
      plainCharges (l.quotaAuthorization twoImages (.image iid) p (QuotaSystem.noQuotas true)).2 rest

/-- Images that are all charged are accounted for. -/
theorem accounted_charge {l : Ledger} (accounted : l.Accounted twoImages)
    (images : List (Nat × Principal)) (mem : ∀ x ∈ images, .image x.1 ∈ twoImages.ids)
    (plain : plainCharges l images = true) (all : (charge l images).1 = true) :
    (charge l images).2.Accounted twoImages ∧
      ∀ iid, (charge l images).2.charged (.image iid) = l.charged (.image iid) +
        tally ((images.filter fun x => x.1 = iid).map Prod.snd) := by
  induction images generalizing l with
  | nil =>
    refine ⟨accounted, fun iid => ?_⟩
    rw [charge, List.filter_nil, List.map_nil, tally_nil, add_zero]
  | cons x images ih =>
    rw [charge] at all ⊢
    rw [plainCharges, Bool.and_eq_true, decide_eq_true_eq] at plain
    have exact (qs : Quotas) (found : l.quotas x.2 = some qs) :
        qs.ExactAbove .datastore image.imgUsage .float :=
      Quotas.exactAbove_of_plain (plain.1 qs found)
    have here := mem x List.mem_cons_self
    rcases @Ledger.authorization_cases twoImages l (.image x.1) x.2 (QuotaSystem.noQuotas true)
        accounted here exact (fun _ _ => Quotas.wholeOrNone_datastore) with
      ⟨l', run, accounted', charged, others⟩ | ⟨l', run, -, -⟩
    · simp only [run, Bool.true_and] at all ⊢
      have later := plain.2
      rw [run] at later
      obtain ⟨rest, counted⟩ := ih accounted' (fun y later => mem y (List.mem_cons_of_mem _ later))
        later all
      refine ⟨rest, fun iid => ?_⟩
      rw [counted, List.filter_cons]
      by_cases same : x.1 = iid
      · subst same
        rw [charged, if_pos (decide_eq_true rfl), List.map_cons, tally_cons x.2 (List.map _ _),
          add_assoc]
      · rw [others (.image iid) (by simpa using fun is => same is.symm),
          if_neg (by simpa using same)]
    · simp only [run, Bool.false_and] at all
      cases all

/-- The two images are charged to the user and its group. -/
def charges : List (Nat × Principal) :=
  [(0, .user 5), (0, .group 100), (1, .user 5), (1, .group 100)]

def start : DeletionSystem where
  images iid := if iid < 2 then some image else none
  ledger := (charge ⟨fun _ => some (QuotaSystem.noQuotas false), fun _ _ => 0⟩ charges).2
  creating := []
  rmSent := []
  calls := []
  deleted := []

theorem initial_start : start.Initial twoImages := by
  have empty : Ledger.Accounted twoImages
      ⟨fun _ => some (QuotaSystem.noQuotas false), fun _ _ => 0⟩ := by
    refine ⟨fun _ _ => le_rfl, fun p qs found kind => ?_, fun p qs found kind id m _ => ?_⟩
    · cases found
      refine ⟨fun id m metric => ?_, fun id m metric used => ?_⟩
      · cases kind <;> exact le_refl 0
      · cases kind <;> exact absurd rfl used
    · cases found
      have zero : Ledger.total twoImages
          ⟨fun _ => some (QuotaSystem.noQuotas false), fun _ _ => 0⟩ p kind id m = 0 :=
        Finset.sum_eq_zero fun x _ => zero_mul _
      rw [zero]
      cases kind <;> rfl
  obtain ⟨accounted, charged⟩ :=
    accounted_charge empty charges (by decide) (by decide +kernel) (by decide +kernel)
  refine ⟨⟨accounted, fun iid => ?_⟩, fun iid img found => ?_, rfl, rfl, rfl⟩
  · have kept : (charges.filter fun x => x.1 = iid).map Prod.snd = start.keeping iid := by
      match iid with
      | 0 => decide
      | 1 => decide
      | iid + 2 => simp [charges, keeping, start]
    exact (charged iid).trans (by rw [kept]; exact add_comm 0 _)
  · simp only [start] at found
    split at found
    · rename_i small
      cases found
      refine ⟨?_, rfl⟩
      have either : iid = 0 ∨ iid = 1 := by omega
      rcases either with rfl | rfl <;> decide
    · cases found

/-- The first image is deleted again before the driver answers. -/
def deleteTwice : List DeletionLabel :=
  let deletion : List DeletionLabel := [.delete 0 true true,
    .work ⟨0, image.imgUsage, [.user 5, .group 100], none⟩,
    .work ⟨0, image.imgUsage, [.group 100], none⟩, .work ⟨0, image.imgUsage, [], none⟩]
  deletion ++ deletion

/-- What user 5 uses of datastore 1: the images and their size. -/
def usedByUser (s : DeletionSystem) : Option (ℚ × ℚ) :=
  (s.ledger.quotas (.user 5)).map fun qs =>
    (qs.used .datastore "1" .images, qs.used .datastore "1" .size)

/-- The second image is still there, and user 5 uses nothing any more. -/
theorem deleteTwice_used : start.usedByUser = some (2, 20) ∧
    (deleteTwice.foldlM step start).map (fun s =>
      (s.usedByUser, s.keeping 1, s.calls, s.ledger.charged (.image 0) (.user 5))) =
      some (some (0, 0), [.user 5, .group 100], [], -1) := by
  constructor <;> decide +kernel

theorem repeated_delete_gives_back_twice :
    ¬ ∀ (u : OwnedUsage) (s : DeletionSystem), Reachable (Initial u) Step s → s.GivenBackOnce u := by
  intro always
  obtain ⟨s, run, facts⟩ := Option.map_eq_some_iff.mp deleteTwice_used.2
  have reached : Reachable (Initial twoImages) Step s :=
    Reachable.foldlM step deleteTwice (fun _ _ _ taken => taken) (.init initial_start) run
  have charged := (always twoImages s reached).accounted.nonneg (.image 0) (.user 5)
  simp only [Prod.mk.injEq] at facts
  rw [facts.2.2.2] at charged
  omega

/-- The first image is deleted once, and the database does not drop it. -/
theorem given_back_once_of_reached_delete :
    (start.deleteImage 0 true true).GivenBackOnce twoImages ∧ ∀ iid driver db,
      (((start.deleteImage 0 true true).deleteImage iid driver db).GivenBackOnce twoImages ↔
        (start.deleteImage 0 true true).Proper (.delete iid driver db)) :=
  given_back_once_of_reached (.step (l := .delete 0 true true) (.init initial_start)
    ⟨fun _ _ sent => (by cases sent), rfl⟩)

end DeletionSystem

end Ezilla

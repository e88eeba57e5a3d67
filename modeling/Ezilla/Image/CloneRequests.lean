import Ezilla.Image.ImageManager
import Ezilla.Lib.Transition
import Mathlib.Data.Finset.Range
import Mathlib.Logic.Function.Basic

/-!
# Clone requests

The clone requests on a pool of images, interleaved with deletions, with the answers of the
datastore driver and with the VMs that use the images. A step is what happens under one
lock: a request checks the source, inserts the new image, counts the clone on the source
and reads the new image again, each in a step of its own, and an answer or a deletion
releases the count in a step after the one that takes the new image out of its state.
-/

namespace Ezilla

open ImageManager

/-- How far a clone request is. -/
inductive ClonePhase where
  /-- the new image is in the pool, the source does not count it yet -/
  | inserted
  /-- the source counts the clone, the new image is read again next -/
  | counted
  /-- the source could not be counted, the new image is dropped next -/
  | failed
  /-- the request ended after the source counted it -/
  | ended
  /-- the request ended and the source never counted it -/
  | aborted
  deriving DecidableEq, Repr

/-- The clone operation started: the source has counted it. -/
def ClonePhase.started : ClonePhase → Bool
  | .counted | .ended => true
  | .inserted | .failed | .aborted => false

/-- A clone request, under the id of its new image. -/
structure CloneRequest where
  source : Nat
  phase : ClonePhase
  deriving DecidableEq, Repr

/-- The images with everything that is under way. -/
structure CloneState where
  images : Nat → Option Image
  /-- `lastOID + 1` -/
  nextOid : Nat
  /-- the sources that `can_clone_image` let through for requests without a new image yet -/
  checked : List Nat
  requests : Nat → Option CloneRequest
  /-- the CLONE messages that the driver has not answered -/
  cloneSent : List Nat
  /-- the RM messages that the driver has not answered -/
  rmSent : List Nat
  /-- the calls `release_cloning_image(source, new)` still to be made -/
  releases : List (Nat × Nat)

/-- One step. -/
inductive CloneLabel where
  /-- `ImageClone::request_execute` and `can_clone_image` look at the source -/
  | check (source : Nat)
  /-- `ImagePool::allocate` inserts the new image; the rest is from its template -/
  | insert (source : Nat) (type : ImageType) (persistentImg saving isPublic : Bool)
      (imgSource : String)
  /-- the first part of `clone_image` -/
  | count (newId : Nat) (driver : Bool)
  /-- the second part of `clone_image` -/
  | reread (newId : Nat)
  /-- `allocate` drops the new image after `clone_image` failed -/
  | cleanup (newId : Nat)
  /-- `clone_action` -/
  | answer (newId : Nat) (source? : Option String)
  /-- `delete_image` -/
  | delete (iid : Nat) (driver : Bool)
  /-- `release_cloning_image`, from `clone_action` or from `delete_image` -/
  | release (source newId : Nat)
  /-- `rm_action`, with either result -/
  | rmAnswer (iid : Nat)
  | acquire (vmId iid : Nat)
  /-- a VM releases an image that it uses -/
  | releaseVm (vmId iid : Nat) (failed : Bool)
  | enable (iid : Nat) (toEnable : Bool)
  | persistent (iid : Nat) (persis : Bool)

namespace CloneState

/-- The pool with another image, or none, under an id. -/
def setImage (s : CloneState) (iid : Nat) (img? : Option Image) : CloneState :=
  { s with images := Function.update s.images iid img? }

/-- The request of a new image goes on. -/
def setPhase (s : CloneState) (newId source : Nat) (phase : ClonePhase) : CloneState :=
  { s with requests := Function.update s.requests newId (some ⟨source, phase⟩) }

/-- The count of the source, if there is one, has to be released. -/
def releaseLater (s : CloneState) (cloningId : Option Nat) (newId : Nat) : CloneState :=
  match cloningId with
  | some source => { s with releases := (source, newId) :: s.releases }
  | none => s

/-- An operation of the image manager on an image of the pool; an error changes nothing. -/
def onImage (s : CloneState) (iid : Nat) (op : Image → Except ImageError Image) : CloneState :=
  match s.images iid with
  | some img =>
    match op img with
    | .ok img' => s.setImage iid (some img')
    | .error _ => s
  | none => s

/-- The new image, locked until the driver answers. -/
def newImage (source : Nat) (type : ImageType) (persistentImg saving isPublic : Bool)
    (imgSource : String) : Image where
  type
  state := .locked
  persistentImg
  running := ∅
  cloning := ∅
  cloningId := some source
  source := imgSource
  saving
  isPublic

/-- One step; `none` when the label has nothing to act on. -/
def step (s : CloneState) : CloneLabel → Option CloneState
  | .check source =>
    match s.images source with
    | some img =>
      if img.type.isDisk ∧ (canCloneImage img).toOption.isSome then
        some { s with checked := source :: s.checked }
      else none
    | none => none
  | .insert source type persistentImg saving isPublic imgSource =>
    if source ∈ s.checked ∧ type.isDisk then
      let img := newImage source type persistentImg saving isPublic imgSource
      some ({ s with checked := s.checked.erase source, nextOid := s.nextOid + 1 }.setImage
        s.nextOid (some img) |>.setPhase s.nextOid source .inserted)
    else none
  | .count newId driver =>
    match s.requests newId with
    | some ⟨source, .inserted⟩ =>
      match s.images source, driver with
      | some img, true =>
        match startCloning newId img with
        | .ok img' => some ((s.setImage source (some img')).setPhase newId source .counted)
        | .error _ => some (s.setPhase newId source .failed)
      | _, _ => some (s.setPhase newId source .failed)
    | _ => none
  | .reread newId =>
    match s.requests newId with
    | some ⟨source, .counted⟩ =>
      let s' := s.setPhase newId source .ended
      match s.images newId with
      | some _ => some { s' with cloneSent := newId :: s.cloneSent }
      -- the count of the source is not rolled back here
      | none => some s'
    | _ => none
  | .cleanup newId =>
    match s.requests newId with
    | some ⟨source, .failed⟩ => some ((s.setImage newId none).setPhase newId source .aborted)
    | _ => none
  | .answer newId source? =>
    if newId ∈ s.cloneSent then
      let s' := { s with cloneSent := s.cloneSent.erase newId }
      match s.images newId with
      | some img =>
        some ((s'.setImage newId (some (cloneAction source? img))).releaseLater
          img.cloningId newId)
      | none => some s'
    else none
  | .delete iid driver =>
    match s.images iid with
    | some img =>
      match deleteImage driver img with
      | .ok (.dropped, cloningId) => some ((s.setImage iid none).releaseLater cloningId iid)
      | .ok (.removing img', cloningId) =>
        some (({ s with rmSent := iid :: s.rmSent }.setImage iid (some img')).releaseLater
          cloningId iid)
      | .error _ => some s
    | none => none
  | .release source newId =>
    if (source, newId) ∈ s.releases then
      some ({ s with releases := s.releases.erase (source, newId) }.onImage source
        fun img => .ok (releaseCloningImage newId img))
    else none
  | .rmAnswer iid =>
    if iid ∈ s.rmSent then some ({ s with rmSent := s.rmSent.erase iid }.setImage iid none)
    else none
  | .acquire vmId iid => some (s.onImage iid (acquireImage vmId))
  | .releaseVm vmId iid failed =>
    if (s.images iid).any fun img => vmId ∈ img.running.ids then
      some (s.onImage iid fun img => .ok (releaseImage vmId failed img))
    else none
  | .enable iid toEnable => some (s.onImage iid (enableImage toEnable))
  | .persistent iid persis => some (s.onImage iid fun img => img.persistent persis)

/-- The new image is still being cloned from the source: it exists, locked, with the id of
the source. -/
def cloning (s : CloneState) (newId source : Nat) : Bool :=
  (s.images newId).any fun img => img.state = .locked ∧ img.cloningId = some source

/-- The clone operation of the new image started. -/
def started (s : CloneState) (newId : Nat) : Bool :=
  (s.requests newId).any fun request => request.phase.started

/-- The existing images that are being cloned from a source. -/
def beingCloned (s : CloneState) (source : Nat) : Finset Nat :=
  (Finset.range s.nextOid).filter fun newId => s.started newId ∧ s.cloning newId source

/-- The new images whose clone has ended and whose count is still to be released. -/
def releasing (s : CloneState) (source : Nat) : Finset Nat :=
  (Finset.range s.nextOid).filter fun newId =>
    s.started newId ∧ (source, newId) ∈ s.releases

/-- No clone is under way yet, and the images are used by VMs only. -/
structure Initial (s : CloneState) : Prop where
  sound : ∀ iid img, s.images iid = some img → img.Sound
  noClone : ∀ iid img, s.images iid = some img → img.cloning.ids = ∅ ∧ img.cloningId = none
  oids : ∀ iid img, s.images iid = some img → iid < s.nextOid
  noRequest : ∀ newId, s.requests newId = none
  nothingSent : s.checked = [] ∧ s.cloneSent = [] ∧ s.rmSent = [] ∧ s.releases = []

/-- A clone is counted in time: when the source is about to count it, the new image is still
being cloned, or the release of the one that ended it is still to come. -/
def Proper (s : CloneState) : CloneLabel → Prop
  | .count newId driver => ∀ source img img', driver = true →
    s.requests newId = some ⟨source, .inserted⟩ → s.images source = some img →
    startCloning newId img = .ok img' →
    s.cloning newId source = true ∨ (source, newId) ∈ s.releases
  | _ => True

/-- The step relation. -/
def Step (s : CloneState) (l : CloneLabel) (s' : CloneState) : Prop := s.step l = some s'

end CloneState

end Ezilla

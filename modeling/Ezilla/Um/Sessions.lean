import Ezilla.Lib.Transition

/-!
# Authentication and the session cache

A user keeps the last token that was authenticated, and a request that shows it
again before it expires is accepted without asking a driver. Direct requests
and requests through a server user share this one token. The user is unlocked
while a driver verifies a token, and the token is stored afterwards.

* `AuthSystem`: the users and the authentications under way, split where the
  locks are released;
* `AuthSystem.Law`: an acceptance from the cache rests on a verification of the
  token, by the same path, of credentials that have not changed since;
* `AuthSystem.session_laws_of_reached`: the runs that keep it;
* `AuthSystem.old_token_accepted`: a token of an old password is accepted.

The credentials of a user have a generation, which every change advances.
-/

namespace Ezilla

open Transition

/-- What `User` keeps for its authentication. -/
structure AuthUser where
  password : String
  authDriver : String
  enabled : Bool
  sessionToken : String
  sessionExpirationTime : Nat
  deriving DecidableEq, Repr

namespace AuthUser

/-- `User::valid_session`. -/
def validSession (u : AuthUser) (token : String) (now : Nat) : Bool :=
  u.sessionToken = token && now < u.sessionExpirationTime

/-- `User::invalidate_session`. -/
def invalidateSession (u : AuthUser) : AuthUser :=
  { u with sessionToken := "", sessionExpirationTime := 0 }

/-- `User::set_session`. -/
def setSession (u : AuthUser) (token : String) (now validityTime : Nat) : AuthUser :=
  { u with sessionToken := token, sessionExpirationTime := now + validityTime }

/-- `User::disable`. -/
def disable (u : AuthUser) : AuthUser :=
  { u with enabled := false }.invalidateSession

/-- `User::pass_is_valid`: not empty, and without blanks. -/
def passIsValid (pass : String) : Bool :=
  pass ≠ "" && pass.toList.all fun c => c ∉ [' ', '\t', '\n', Char.ofNat 11, Char.ofNat 12, '\r']

/-- `User::set_password`. -/
def setPassword (u : AuthUser) (passwd : String) : Option AuthUser :=
  if passIsValid passwd then some { u with password := passwd }.invalidateSession else none

/-- `User::set_auth_driver`. -/
def setAuthDriver (u : AuthUser) (authDriver : String) : AuthUser :=
  { u with authDriver }.invalidateSession

end AuthUser

/-- `UserPool::CORE_AUTH`. -/
def coreAuth : String := "core"

/-- `UserPool::PUBLIC_AUTH`. -/
def publicAuth : String := "public"

/-- The driver matches `UserPool::SERVER_AUTH`, `server*`. -/
def isServerAuth (authDriver : String) : Bool :=
  "server".toList.isPrefixOf authDriver.toList

/-- Who checks a token: `authenticate_internal` or `authenticate_server`. -/
inductive AuthPath where
  | internal
  | server
  deriving DecidableEq, Repr

/-- A token that is being verified for a user. `password` and `driver` are what
the verification uses: those of the user, or of the server user. `generation`
is the one the credentials of the user had when the user was unlocked. -/
structure Verification where
  path : AuthPath
  user : Nat
  token : String
  password : String
  driver : String
  generation : Nat
  deriving DecidableEq, Repr

/-- Where an authentication under way stands. -/
inductive AuthState where
  /-- the server user is unlocked, the user it acts for is not locked yet -/
  | serverRead (password driver token : String)
  /-- the driver is at work -/
  | verifying (v : Verification)
  /-- the token was verified, the user is not locked yet -/
  | verified (v : Verification)
  deriving DecidableEq, Repr

/-- The users, by their names, and the authentications under way. `generation`,
`cachedBy` and `log` are remembered for the statements only: how often the
credentials changed, which path stored the cached token, and which tokens of
which user were verified, by which path and at which generation. -/
structure AuthSystem where
  users : Nat → Option AuthUser
  threads : Nat → Option AuthState
  generation : Nat → Nat
  cachedBy : Nat → AuthPath
  log : List (Nat × AuthPath × String × Nat)

/-- What the steps do not change: the hash, the reading of a server token, whether
the authentication manager is loaded, and the validity of a session. -/
structure AuthSetting where
  sha1Digest : String → String
  splitSecret : String → Option (Nat × String)
  authm : Bool
  sessionExpirationTime : Nat

/-- The steps. `now` is the time of the step, `answer` the answer of the driver. -/
inductive AuthStep where
  | authenticate (thread name : Nat) (token : String) (now : Nat)
  | target (thread now : Nat)
  | answer (thread : Nat) (answer : Bool)
  | store (thread now : Nat)
  | changePassword (name : Nat) (newPass : String)
  | changeAuth (name : Nat) (newAuth newPass : String)
  | disable (name : Nat)

namespace AuthSystem

/-- The thread goes on, or is done. -/
def setThread (s : AuthSystem) (thread : Nat) (state : Option AuthState) : AuthSystem :=
  { s with threads := Function.update s.threads thread state }

/-- The credentials of a user are changed. -/
def changeUser (s : AuthSystem) (name : Nat) (u : AuthUser) : AuthSystem :=
  { s with
    users := Function.update s.users name (some u)
    generation := Function.update s.generation name (s.generation name + 1) }

/-- What a driver answers: `core` compares the hash with the password, for the
others the answer is theirs, and without a manager nobody answers. -/
def accepts (c : AuthSetting) (v : Verification) (answer : Bool) : Bool :=
  match v.path with
  | .internal =>
    if v.driver = coreAuth then v.password = c.sha1Digest v.token
    else if v.driver = publicAuth then false
    else c.authm && answer
  | .server => c.authm && answer

/-- The first section of `authenticate`, with the user locked. -/
def authenticate (s : AuthSystem) (thread name : Nat) (token : String) (now : Nat) :
    Option AuthSystem :=
  match s.threads thread, s.users name with
  | none, some u =>
    if isServerAuth u.authDriver then
      some (s.setThread thread (some (.serverRead u.password u.authDriver token)))
    else if u.validSession token now then
      some s
    else
      some (s.setThread thread
        (some (.verifying ⟨.internal, name, token, u.password, u.authDriver, s.generation name⟩)))
  | _, _ => none

/-- The section of `authenticate_server` with the target user locked. -/
def target (c : AuthSetting) (s : AuthSystem) (thread now : Nat) : Option AuthSystem :=
  match s.threads thread with
  | some (.serverRead password driver token) =>
    match c.splitSecret token with
    | none => some (s.setThread thread none)
    | some (name, secondToken) =>
      match s.users name with
      | none => some (s.setThread thread none)
      | some u =>
        if u.validSession secondToken now then
          some (s.setThread thread none)
        else
          some (s.setThread thread
            (some (.verifying ⟨.server, name, secondToken, password, driver, s.generation name⟩)))
  | _ => none

/-- The verification of a token, with no user locked. -/
def answer (c : AuthSetting) (s : AuthSystem) (thread : Nat) (answer : Bool) : Option AuthSystem :=
  match s.threads thread with
  | some (.verifying v) =>
    if accepts c v answer then
      some { s.setThread thread (some (.verified v)) with
        log := (v.user, v.path, v.token, v.generation) :: s.log }
    else
      some (s.setThread thread none)
  | _ => none

/-- The section that stores the token. -/
def store (c : AuthSetting) (s : AuthSystem) (thread now : Nat) : Option AuthSystem :=
  match s.threads thread with
  | some (.verified v) =>
    match s.users v.user with
    | none => some (s.setThread thread none)
    | some u =>
      some { s.setThread thread none with
        users := Function.update s.users v.user
          (some (u.setSession v.token now c.sessionExpirationTime))
        cachedBy := Function.update s.cachedBy v.user v.path }
  | _ => none

/-- The password as it is stored for a driver. -/
def storedPassword (c : AuthSetting) (driver newPass : String) : String :=
  if driver = coreAuth then c.sha1Digest newPass else newPass

/-- `UserChangePassword::user_action`. -/
def changePassword (c : AuthSetting) (s : AuthSystem) (name : Nat) (newPass : String) :
    Option AuthSystem :=
  (s.users name).bind fun u =>
    (u.setPassword (storedPassword c u.authDriver newPass)).map (s.changeUser name)

/-- `UserChangeAuth::user_action`. -/
def changeAuth (c : AuthSetting) (s : AuthSystem) (name : Nat) (newAuth newPass : String) :
    Option AuthSystem :=
  (s.users name).bind fun u =>
    if newPass = "" then some (s.changeUser name (u.setAuthDriver newAuth))
    else
      (u.setPassword (storedPassword c newAuth newPass)).map fun u =>
        s.changeUser name (u.setAuthDriver newAuth)

def next (c : AuthSetting) (s : AuthSystem) : AuthStep → Option AuthSystem
  | .authenticate thread name token now => s.authenticate thread name token now
  | .target thread now => s.target c thread now
  | .answer thread b => s.answer c thread b
  | .store thread now => s.store c thread now
  | .changePassword name newPass => s.changePassword c name newPass
  | .changeAuth name newAuth newPass => s.changeAuth c name newAuth newPass
  | .disable name => (s.users name).map fun u => s.changeUser name u.disable

/-- No token is cached and nobody is authenticating. -/
def Started (s : AuthSystem) : Prop :=
  (∀ name u, s.users name = some u → u.sessionExpirationTime = 0) ∧ s.threads = fun _ => none

def Step (c : AuthSetting) (s : AuthSystem) (l : AuthStep) (s' : AuthSystem) : Prop :=
  s.next c l = some s'

/-! ## What an acceptance rests on -/

/-- The token of the user was verified by the path, at the present generation of
the user's credentials. -/
def Verified (s : AuthSystem) (name : Nat) (path : AuthPath) (token : String) : Prop :=
  (name, path, token, s.generation name) ∈ s.log

instance (s : AuthSystem) (name : Nat) (path : AuthPath) (token : String) :
    Decidable (s.Verified name path token) :=
  inferInstanceAs (Decidable (_ ∈ s.log))

/-- A direct request is accepted from the cache only for a verified token, and
never for the public driver; a request through a server user likewise; and a
direct verification succeeds for no user with the public driver. -/
def Law (c : AuthSetting) (s : AuthSystem) : AuthStep → Prop
  | .authenticate _ name token now => ∀ u, s.users name = some u →
      isServerAuth u.authDriver = false → u.validSession token now = true →
      s.Verified name .internal token ∧ u.authDriver ≠ publicAuth
  | .target thread now => ∀ password driver token name secondToken u,
      s.threads thread = some (.serverRead password driver token) →
      c.splitSecret token = some (name, secondToken) → s.users name = some u →
      u.validSession secondToken now = true → s.Verified name .server secondToken
  | .store thread _ => ∀ v u, s.threads thread = some (.verified v) → s.users v.user = some u →
      v.path = .internal → u.authDriver ≠ publicAuth
  | _ => True

/-- A token is stored before the credentials change that it was verified for, and
a cached token is shown on the path that it was verified by. -/
def Meets (c : AuthSetting) (s : AuthSystem) : AuthStep → Prop
  | .authenticate _ name token now => ∀ u, s.users name = some u →
      isServerAuth u.authDriver = false → u.validSession token now = true →
      s.cachedBy name = .internal
  | .target thread now => ∀ password driver token name secondToken u,
      s.threads thread = some (.serverRead password driver token) →
      c.splitSecret token = some (name, secondToken) → s.users name = some u →
      u.validSession secondToken now = true → s.cachedBy name = .server
  | .store thread _ => ∀ v, s.threads thread = some (.verified v) →
      s.generation v.user = v.generation
  | _ => True

/-! ## The invariant -/

/-- What is verified was read from the user, whose credentials may have changed since. -/
def Current (s : AuthSystem) (v : Verification) : Prop :=
  v.generation ≤ s.generation v.user ∧
    (v.generation = s.generation v.user → v.path = .internal →
      ∀ u, s.users v.user = some u → u.authDriver = v.driver)

/-- What is known of an authentication under way. -/
def Fits (s : AuthSystem) : AuthState → Prop
  | .serverRead _ _ _ => True
  | .verifying v => s.Current v
  | .verified v => s.Current v ∧ (v.user, v.path, v.token, v.generation) ∈ s.log ∧
      (v.path = .internal → v.driver ≠ publicAuth)

/-- A token that may be valid still was verified for the present credentials. -/
def CacheVerified (s : AuthSystem) (name : Nat) (u : AuthUser) : Prop :=
  0 < u.sessionExpirationTime →
    s.Verified name (s.cachedBy name) u.sessionToken ∧
      (s.cachedBy name = .internal → u.authDriver ≠ publicAuth)

structure Inv (s : AuthSystem) : Prop where
  cached : ∀ name u, s.users name = some u → s.CacheVerified name u
  threads : ∀ thread x, s.threads thread = some x → s.Fits x

theorem lt_of_validSession {u : AuthUser} {token : String} {now : Nat}
    (valid : u.validSession token now = true) :
    u.sessionToken = token ∧ 0 < u.sessionExpirationTime := by
  simp only [AuthUser.validSession, Bool.and_eq_true, decide_eq_true_eq] at valid
  exact ⟨valid.1, by omega⟩

/-- A direct verification succeeds for a driver that verifies. -/
theorem driver_ne_public_of_accepts {c : AuthSetting} {v : Verification} {b : Bool}
    (accepted : accepts c v b = true) (internal : v.path = .internal) : v.driver ≠ publicAuth := by
  intro isPublic
  have other : publicAuth ≠ coreAuth := by decide
  simp [accepts, internal, isPublic, other] at accepted

theorem Started.inv {s : AuthSystem} (started : s.Started) : s.Inv := by
  refine ⟨fun name u is pos => ?_, fun thread x is => ?_⟩
  · have zero := started.1 name u is
    omega
  · rw [started.2] at is
    cases is

section Steps

variable {c : AuthSetting} {s s' : AuthSystem} {thread name now : Nat}

/-- What is known of a thread stays known while the generations and the drivers of the
users stay. -/
theorem Fits.mono {x : AuthState} (generation : s'.generation = s.generation)
    (drivers : ∀ name u', s'.users name = some u' →
      ∃ u, s.users name = some u ∧ u.authDriver = u'.authDriver)
    (log : s.log ⊆ s'.log) (fits : s.Fits x) : s'.Fits x := by
  have current {v : Verification} (was : s.Current v) : s'.Current v := by
    refine ⟨generation ▸ was.1, fun equal internal u' is => ?_⟩
    obtain ⟨u, found, same⟩ := drivers v.user u' is
    rw [generation] at equal
    exact same ▸ was.2 equal internal u found
  cases x with
  | serverRead password driver token => exact trivial
  | verifying v => exact current fits
  | verified v => exact ⟨current fits.1, log fits.2.1, fits.2.2⟩

theorem Inv.setThread (inv : s.Inv) {state : Option AuthState}
    (fits : ∀ x, state = some x → s.Fits x) : (s.setThread thread state).Inv := by
  refine ⟨inv.cached, fun thread' x is => ?_⟩
  rcases update_eq_some is with ⟨-, new⟩ | ⟨-, old⟩
  · exact fits x new
  · exact inv.threads thread' x old

/-- A thread that is done. -/
theorem Inv.finish (inv : s.Inv) : (s.setThread thread none).Inv :=
  inv.setThread fun _ impossible => by cases impossible

/-- What is read from the locked user is current. -/
theorem current_of_read {u : AuthUser} (is : s.users name = some u) (path : AuthPath)
    (token password driver : String) (direct : path = .internal → driver = u.authDriver) :
    s.Current ⟨path, name, token, password, driver, s.generation name⟩ := by
  refine ⟨Nat.le_refl _, fun _ internal u' is' => ?_⟩
  rw [is] at is'
  cases is'
  exact (direct internal).symm

/-- A change leaves what is being verified behind. -/
theorem Current.changeUser {v : Verification} {u : AuthUser} (current : s.Current v) :
    (s.changeUser name u).Current v := by
  by_cases same : v.user = name
  · subst same
    have advanced : (s.changeUser v.user u).generation v.user = s.generation v.user + 1 :=
      Function.update_self ..
    have older := current.1
    refine ⟨by omega, fun equal => ?_⟩
    omega
  · have kept : (s.changeUser name u).generation v.user = s.generation v.user :=
      Function.update_of_ne same ..
    have users : (s.changeUser name u).users v.user = s.users v.user :=
      Function.update_of_ne same ..
    rw [Current, kept, users]
    exact current

theorem Fits.changeUser {x : AuthState} {u : AuthUser} (fits : s.Fits x) :
    (s.changeUser name u).Fits x := by
  cases x with
  | serverRead password driver token => exact trivial
  | verifying v => exact Current.changeUser fits
  | verified v => exact ⟨Current.changeUser fits.1, fits.2⟩

/-- Every change of the credentials clears the cached token. -/
theorem Inv.changeUser (inv : s.Inv) {u : AuthUser} (cleared : u.sessionExpirationTime = 0) :
    (s.changeUser name u).Inv := by
  refine ⟨fun name' u' is pos => ?_, fun thread x is => (inv.threads thread x is).changeUser⟩
  rcases update_eq_some is with ⟨-, new⟩ | ⟨other, old⟩
  · cases new
    omega
  · have kept : (s.changeUser name u).generation name' = s.generation name' :=
      Function.update_of_ne other ..
    have before := inv.cached name' u' old pos
    rw [Verified] at before
    rw [Verified, kept]
    exact before

theorem setPassword_cleared {u u' : AuthUser} {passwd : String}
    (changed : u.setPassword passwd = some u') : u'.sessionExpirationTime = 0 := by
  rw [AuthUser.setPassword] at changed
  split at changed
  · cases changed
    rfl
  · cases changed

theorem Inv.authenticate {token : String} (inv : s.Inv)
    (taken : s.authenticate thread name token now = some s') : s'.Inv := by
  rw [AuthSystem.authenticate] at taken
  split at taken
  · rename_i u _ is
    split at taken
    · cases taken
      refine inv.setThread fun x new => ?_
      cases new
      exact trivial
    · split at taken
      · cases taken
        exact inv
      · cases taken
        refine inv.setThread fun x new => ?_
        cases new
        exact current_of_read is _ _ _ _ fun _ => rfl
  · cases taken

theorem Inv.target (inv : s.Inv) (taken : s.target c thread now = some s') : s'.Inv := by
  rw [AuthSystem.target] at taken
  split at taken
  · split at taken
    · cases taken
      exact inv.finish
    · split at taken
      · cases taken
        exact inv.finish
      · rename_i u is
        split at taken
        · cases taken
          exact inv.finish
        · cases taken
          refine inv.setThread fun x new => ?_
          cases new
          exact current_of_read is _ _ _ _ fun impossible => by cases impossible
  · cases taken

/-- A verification that succeeds is remembered. -/
theorem Inv.answer {b : Bool} (inv : s.Inv) (taken : s.answer c thread b = some s') : s'.Inv := by
  rw [AuthSystem.answer] at taken
  split at taken
  · rename_i v is
    have current : s.Current v := inv.threads thread _ is
    split at taken
    · rename_i accepted
      cases taken
      refine ⟨fun name u is pos => ?_, fun thread' x is' => ?_⟩
      · obtain ⟨verified, driver⟩ := inv.cached name u is pos
        exact ⟨List.mem_cons_of_mem _ verified, driver⟩
      · rcases update_eq_some is' with ⟨-, new⟩ | ⟨-, old⟩
        · cases new
          exact ⟨current, List.mem_cons_self, driver_ne_public_of_accepts accepted⟩
        · exact Fits.mono (s := s) rfl (fun name u is => ⟨u, is, rfl⟩)
            (List.subset_cons_self _ _) (inv.threads thread' x old)
    · cases taken
      exact inv.finish
  · cases taken

/-- The token is stored for the credentials that it was verified for. -/
theorem Inv.store (inv : s.Inv) (meets : s.Meets c (.store thread now))
    (taken : s.store c thread now = some s') : s'.Inv := by
  rw [AuthSystem.store] at taken
  split at taken
  · rename_i v is
    obtain ⟨⟨-, current⟩, logged, driver⟩ : s.Fits (.verified v) := inv.threads thread _ is
    have present := meets v is
    split at taken
    · cases taken
      exact inv.finish
    · rename_i u found
      cases taken
      refine ⟨fun name u' is' => ?_, fun thread' x is' => ?_⟩
      · rcases update_eq_some is' with ⟨rfl, new⟩ | ⟨other, old⟩
        · cases new
          have path : Function.update s.cachedBy v.user v.path v.user = v.path :=
            Function.update_self ..
          refine fun _ => ⟨?_, fun internal => ?_⟩
          · change (v.user, Function.update s.cachedBy v.user v.path v.user, v.token,
              s.generation v.user) ∈ s.log
            rw [path, present]
            exact logged
          · have same : u.authDriver = v.driver :=
              current present.symm (path.symm.trans internal) u found
            change u.authDriver ≠ publicAuth
            rw [same]
            exact driver (path.symm.trans internal)
        · have path : Function.update s.cachedBy v.user v.path name = s.cachedBy name :=
            Function.update_of_ne other ..
          have before := inv.cached name u' old
          rw [CacheVerified, ← path] at before
          exact before
      · rcases update_eq_some is' with ⟨-, impossible⟩ | ⟨-, old⟩
        · cases impossible
        · refine Fits.mono (s := s) rfl (fun name u' stored => ?_) (fun _ mem => mem)
            (inv.threads thread' x old)
          rcases update_eq_some stored with ⟨rfl, new⟩ | ⟨-, other⟩
          · cases new
            exact ⟨u, found, rfl⟩
          · exact ⟨u', other, rfl⟩
  · cases taken

/-- One step keeps the invariant. -/
theorem Inv.next {l : AuthStep} (inv : s.Inv) (meets : s.Meets c l)
    (taken : s.next c l = some s') : s'.Inv := by
  cases l with
  | authenticate thread name token now => exact inv.authenticate taken
  | target thread now => exact inv.target taken
  | answer thread b => exact inv.answer taken
  | store thread now => exact inv.store meets taken
  | changePassword name newPass =>
    obtain ⟨u, -, changed⟩ := Option.bind_eq_some_iff.mp taken
    obtain ⟨u', set, rfl⟩ := Option.map_eq_some_iff.mp changed
    exact inv.changeUser (setPassword_cleared set)
  | changeAuth name newAuth newPass =>
    obtain ⟨u, -, changed⟩ := Option.bind_eq_some_iff.mp taken
    split at changed
    · cases changed
      exact inv.changeUser rfl
    · obtain ⟨u', -, rfl⟩ := Option.map_eq_some_iff.mp changed
      exact inv.changeUser rfl
  | disable name =>
    obtain ⟨u, -, rfl⟩ := Option.map_eq_some_iff.mp taken
    exact inv.changeUser rfl

/-- What is accepted where the invariant holds is verified. -/
theorem Inv.law {l : AuthStep} (inv : s.Inv) (meets : s.Meets c l) : s.Law c l := by
  cases l with
  | authenticate thread name token now =>
    intro u is direct valid
    obtain ⟨rfl, pos⟩ := lt_of_validSession valid
    have path := meets u is direct valid
    obtain ⟨verified, driver⟩ := inv.cached name u is pos
    rw [path] at verified
    exact ⟨verified, driver path⟩
  | target thread now =>
    intro password driver token name secondToken u reading split is valid
    have path := meets password driver token name secondToken u reading split is valid
    obtain ⟨rfl, pos⟩ := lt_of_validSession valid
    have verified := (inv.cached name u is pos).1
    rw [path] at verified
    exact verified
  | store thread now =>
    intro v u is found internal
    obtain ⟨⟨-, current⟩, -, driver⟩ : s.Fits (.verified v) := inv.threads thread _ is
    have same : u.authDriver = v.driver := current (meets v is).symm internal u found
    rw [same]
    exact driver internal
  | answer thread b => exact trivial
  | changePassword name newPass => exact trivial
  | changeAuth name newAuth newPass => exact trivial
  | disable name => exact trivial

end Steps

/-- After a run whose steps meet the condition, each further step that meets it accepts
only what is verified. -/
theorem session_laws_of_reached {c : AuthSetting} {s : AuthSystem}
    (reached : Reachable Started (Guarded (Meets c) (Step c)) s) :
    ∀ l s', Meets c s l → Step c s l s' → Law c s l := by
  have inv : s.Inv := reached.invariant (fun _ => Started.inv) fun _ _ _ before taken =>
    before.next taken.1 taken.2
  exact fun l s' meets _ => inv.law meets

/-! ## A token of an old password -/

/-- User 2 has an external driver. -/
def atStart : AuthSystem where
  users name := if name = 2 then some ⟨"oldkey", "ssh", true, "", 0⟩ else none
  threads _ := none
  generation _ := 0
  cachedBy _ := .internal
  log := []

def setting : AuthSetting where
  sha1Digest := id
  splitSecret _ := none
  authm := true
  sessionExpirationTime := 900

theorem started_atStart : atStart.Started := by
  refine ⟨fun name u is => ?_, rfl⟩
  simp only [atStart] at is
  split at is
  · cases is
    rfl
  · cases is

/-- User 2 logs in, and the password changes while the answer of the driver is on its way. -/
def loginDuringChange : List AuthStep :=
  [.authenticate 0 2 "token" 1000, .answer 0 true, .changePassword 2 "newkey", .store 0 1001]

def afterLogin : Option AuthSystem :=
  loginDuringChange.foldlM (next setting) atStart

theorem old_token_stored :
    afterLogin.map (fun s =>
        (s.users 2, s.threads 1, decide (s.Verified 2 .internal "token"))) =
      some (some ⟨"newkey", "ssh", true, "token", 1901⟩, none, false) := by
  decide +kernel

/-- The token that was verified with the old password is accepted after the change. -/
theorem old_token_accepted :
    ¬ ∀ (c : AuthSetting) (s : AuthSystem), Reachable Started (Step c) s →
      ∀ l s', Step c s l s' → Law c s l := by
  intro always
  obtain ⟨s, run, stored⟩ := Option.map_eq_some_iff.mp old_token_stored
  obtain ⟨users, idle, unverified⟩ :
      s.users 2 = some ⟨"newkey", "ssh", true, "token", 1901⟩ ∧ s.threads 1 = none ∧
        ¬ s.Verified 2 .internal "token" := by
    simpa only [Prod.mk.injEq, decide_eq_false_iff_not] using stored
  have reached : Reachable Started (Step setting) s :=
    Reachable.foldlM (next setting) loginDuringChange (fun _ _ _ taken => taken)
      (.init started_atStart) run
  have direct : isServerAuth "ssh" = false := by decide
  have valid :
      AuthUser.validSession ⟨"newkey", "ssh", true, "token", 1901⟩ "token" 1002 = true := by decide
  have taken : Step setting s (.authenticate 1 2 "token" 1002) s := by
    simp [Step, next, authenticate, idle, users, direct, valid]
  exact unverified (always setting s reached _ s taken _ users direct valid).1

/-- User 2 logs in, and the token is stored. -/
def login : List AuthStep := [.authenticate 0 2 "token" 1000, .answer 0 true, .store 0 1001]

/-- The stored token is accepted once more, for the same credentials. -/
theorem session_laws_of_reached_cached :
    ∃ s u, login.foldlM (next setting) atStart = some s ∧ s.users 2 = some u ∧
      u.validSession "token" 1002 = true ∧ s.Verified 2 .internal "token" := by
  have law := session_laws_of_reached (c := setting) (.step (l := .store 0 1001)
    (.step (l := .answer 0 true) (.step (l := .authenticate 0 2 "token" 1000)
      (.init started_atStart) ⟨fun _ _ _ _ => rfl, rfl⟩) ⟨trivial, rfl⟩)
    ⟨fun v verified => ?_, rfl⟩) (.authenticate 1 2 "token" 1002) _ (fun _ _ _ _ => rfl) rfl
  · exact ⟨_, _, rfl, rfl, rfl, (law _ rfl rfl rfl).1⟩
  · cases verified
    rfl

end AuthSystem

end Ezilla

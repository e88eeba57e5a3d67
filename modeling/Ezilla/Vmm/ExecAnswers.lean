import Ezilla.Vmm.ExecDriver

/-!
# What the answers of the driver say

Whether the domain of a VM runs on a host, before and after a command, and whether the answer
tells so.

* `ScriptCall.effect`, `Lawful`: what the scripts of the hypervisor do;
* `DomainCommand`: the commands that start, end or move the domain;
* `DomainCommand.truthful_iff`: when the answer is true.
-/

namespace Ezilla

open Rollback (Step runSteps Triple)

/-! ## Scripts -/

/-- The hosts on which the domain of a VM runs. -/
abbrev RunsOn := String → Bool

/-- What a script of the hypervisor does when it succeeds. -/
def ScriptCall.effect (call : ScriptCall) (success : Bool) (on : RunsOn) : RunsOn :=
  match success, call.action, call.host with
  | true, .deploy, some host | true, .restore, some host => Function.update on host true
  | true, .shutdown, some host | true, .cancel, some host | true, .save, some host =>
    Function.update on host false
  | true, .migrate, some host =>
    match call.parameters with
    | [_, dest, _] => Function.update (Function.update on host false) dest true
    | _ => on
  | _, _, _ => on

/-- The scripts that are told which domain they are about. -/
def ScriptName.takesDomain : ScriptName → Bool
  | .shutdown | .cancel | .save | .migrate => true
  | _ => false

/-- The scripts that do something to the domain. -/
def ScriptName.aboutDomain : ScriptName → Bool
  | .deploy | .restore => true
  | action => action.takesDomain

/-- If a script is told which domain it is about, then that is this one. -/
def ScriptCall.Names (call : ScriptCall) (name : String) : Prop :=
  call.action.takesDomain = true → call.parameters.head? = some name

/-- The scripts do what they are for when they succeed, and nothing to the domain when they fail;
the script that starts it prints its name. -/
structure Lawful {World : Type} (scripts : Scripts World) (name : String)
    (runs : World → RunsOn) : Prop where
  effect : ∀ call w, call.Names name →
    runs (scripts call w).1 = call.effect (scripts call w).2.1 (runs w)
  named : ∀ call w, call.action = .deploy → (scripts call w).2.1 = true →
    strip (scripts call w).2.2 = name

namespace ExecDriver

variable {World : Type} {scripts : Scripts World} {name : String} {runs : World → RunsOn}
  {step : ExecStep} {s s' : ExecState World} {info : String}

/-- What a step leaves, apart from the world. -/
theorem perform_success (done : perform scripts step s = (s', none)) :
    s'.world = (scripts (scriptCall step s.data) s.world).1 ∧
      (scripts (scriptCall step s.data) s.world).2.1 = true ∧
      s'.data = Function.update s.data (.info step.action)
        (some (strip (scripts (scriptCall step s.data) s.world).2.2)) ∧
      s'.log = (step.action, true) :: s.log := by
  rcases result : scripts (scriptCall step s.data) s.world with ⟨world, success, printed⟩
  cases success with
  | true =>
    simp only [perform, result, if_true, Prod.mk.injEq, and_true] at done
    subst done
    exact ⟨rfl, rfl, rfl, rfl⟩
  | false => simp [perform, result] at done

theorem perform_failure (failed : perform scripts step s = (s', some info)) :
    s'.world = (scripts (scriptCall step s.data) s.world).1 ∧
      (scripts (scriptCall step s.data) s.world).2.1 = false ∧
      s'.data = Function.update s.data (.info step.action) (some (strip info)) ∧
      s'.log = (step.action, false) :: s.log := by
  rcases result : scripts (scriptCall step s.data) s.world with ⟨world, success, printed⟩
  cases success with
  | true => simp [perform, result] at failed
  | false =>
    simp only [perform, result, Bool.false_eq_true, if_false, Prod.mk.injEq,
      Option.some.injEq] at failed
    obtain ⟨rfl, rfl⟩ := failed
    exact ⟨rfl, rfl, rfl, rfl⟩

/-- What a step does to the domain. -/
theorem runs_of_success (lawful : Lawful scripts name runs)
    (names : (scriptCall step s.data).Names name) (done : perform scripts step s = (s', none)) :
    runs s'.world = (scriptCall step s.data).effect true (runs s.world) := by
  obtain ⟨world, success, -, -⟩ := perform_success done
  rw [world, lawful.effect _ _ names, success]

theorem runs_of_failure (lawful : Lawful scripts name runs)
    (names : (scriptCall step s.data).Names name)
    (failed : perform scripts step s = (s', some info)) : runs s'.world = runs s.world := by
  obtain ⟨world, success, -, -⟩ := perform_failure failed
  rw [world, lawful.effect _ _ names, success]
  rfl

/-! ## Rollbacks -/

@[simp] theorem note_world (info : String) (s : ExecState World) : (note info s).world = s.world :=
  rfl

@[simp] theorem note_log (info : String) (s : ExecState World) : (note info s).log = s.log := rfl

theorem runSteps_nil : runSteps (perform scripts) note [] false s = (s, false) := by
  rw [runSteps]

/-- A rollback of one step. -/
theorem runSteps_plain : (runSteps (perform scripts) note [plain step] false s).1 =
    match perform scripts step s with
    | (s', none) => s'
    | (s', some info) => note info s' := by
  rw [plain, Rollback.runSteps_cons]
  rcases result : perform scripts step s with ⟨s', - | info⟩
  · rw [Rollback.run_of_success result]
    simp only
    rw [runSteps]
  · rw [Rollback.run_of_failure result, runSteps_nil]

end ExecDriver

/-! ## Commands -/

/-- The commands that start, end or move the domain. -/
inductive DomainCommand where
  | deploy (localDfile dfile : String) (domain : Option String)
  | restore
  | shutdown
  | cancel
  | save
  | migrate (pre post : List String)
  deriving DecidableEq, Repr

namespace DomainCommand

variable {World : Type}

/-- What the driver does. -/
def run (scripts : Scripts World) (s : ExecState World) :
    DomainCommand → ExecState World × DriverAnswer
  | .deploy localDfile dfile domain => ExecDriver.deploy scripts localDfile dfile domain s
  | .restore => ExecDriver.restore scripts s
  | .shutdown => ExecDriver.shutdown scripts s
  | .cancel => ExecDriver.cancel scripts s
  | .save => ExecDriver.save scripts s
  | .migrate pre post => ExecDriver.migrate scripts pre post s

/-- Where the domain runs after the command. -/
def target (host dest : String) (on : RunsOn) : DomainCommand → RunsOn
  | .deploy _ _ _ | .restore => Function.update on host true
  | .shutdown | .cancel | .save => Function.update on host false
  | .migrate _ _ => Function.update (Function.update on host false) dest true

/-- Where the domain runs before the command. -/
def Before (host dest : String) (on : RunsOn) : DomainCommand → Prop
  | .deploy _ _ _ | .restore => on host = false
  | .shutdown | .cancel | .save => on host = true
  | .migrate _ _ => on host = true ∧ on dest = false

/-- The message of the core is about this domain, which runs where it should. -/
structure Ready (command : DomainCommand) (name host dest : String) (on : RunsOn)
    (s : ExecState World) : Prop where
  atHost : s.data .host = some host
  deployId : (∃ localDfile dfile domain, command = .deploy localDfile dfile domain) ∨
    s.data .deployId = some name
  destHost : (∃ pre post, command = .migrate pre post) → s.data .destHost = some dest
  unlogged : s.log = []
  before : command.Before host dest on

/-- The answer is false: a domain was started, the network was not set up for it, and it could
not be cancelled; or it has ended, and the network was not cleaned up. -/
def Misleads (log : List (ScriptName × Bool)) : DomainCommand → Prop
  | .deploy _ _ _ | .restore => (.post, false) ∈ log ∧ (.cancel, false) ∈ log
  | .shutdown => (.shutdown, true) ∈ log ∧ (.clean, false) ∈ log
  | .cancel => (.cancel, true) ∈ log ∧ (.clean, false) ∈ log
  | .save => (.save, true) ∈ log ∧ (.clean, false) ∈ log
  | .migrate _ _ => False

end DomainCommand

/-! ## Lists of steps -/

/-- The keys that the message of the core sets. -/
def DataKey.Given : DataKey → Prop
  | .failedInfo | .info _ => False
  | _ => True

namespace ExecDriver

variable {World : Type} {scripts : Scripts World} {name host dest : String}
  {runs : World → RunsOn} {on : RunsOn} {action : ScriptName}

/-- The answer of a list of steps. -/
theorem run_of_triple {pre success failure : ExecState World → Prop} {steps : List (Step ExecStep)}
    (triple : Triple (perform scripts) note pre steps success failure) (nonempty : steps ≠ [])
    (mainAction : ScriptName) {s : ExecState World} (holds : pre s) :
    ((run scripts mainAction steps s).2.success = true →
        success (run scripts mainAction steps s).1) ∧
      ((run scripts mainAction steps s).2.success = false →
        failure (run scripts mainAction steps s).1) := by
  have post := triple s holds
  unfold run executeSteps
  rw [Rollback.runSteps_result nonempty]
  rcases result : runSteps (perform scripts) note steps true s with ⟨s', - | -⟩
  · rw [result] at post
    exact ⟨fun h => Bool.noConfusion h, fun _ => post⟩
  · rw [result] at post
    exact ⟨fun _ => post, fun h => Bool.noConfusion h⟩

/-- Where the domain runs, what the message said, and the results so far. -/
structure Seen (runs : World → RunsOn) (data : DataKey → Option String) (on : RunsOn)
    (log : List (ScriptName × Bool)) (s : ExecState World) : Prop where
  on : runs s.world = on
  data : ∀ key : DataKey, key.Given → s.data key = data key
  log : s.log = log

variable {data : DataKey → Option String} {log : List (ScriptName × Bool)} {step : ExecStep}
  {s s' : ExecState World} {info : String}

theorem Seen.success (seen : Seen runs data on log s) (lawful : Lawful scripts name runs)
    (names : (scriptCall step s.data).Names name) (done : perform scripts step s = (s', none)) :
    Seen runs data ((scriptCall step s.data).effect true on) ((step.action, true) :: log) s' := by
  obtain ⟨-, -, remembered, logged⟩ := perform_success done
  refine ⟨?_, fun key given => ?_, ?_⟩
  · rw [runs_of_success lawful names done, seen.on]
  · have other : key ≠ .info step.action := fun h => by rw [h] at given; exact given
    rw [remembered, Function.update_of_ne other, seen.data key given]
  · rw [logged, seen.log]

theorem Seen.failure (seen : Seen runs data on log s) (lawful : Lawful scripts name runs)
    (names : (scriptCall step s.data).Names name)
    (failed : perform scripts step s = (s', some info)) :
    Seen runs data on ((step.action, false) :: log) s' := by
  obtain ⟨-, -, remembered, logged⟩ := perform_failure failed
  refine ⟨?_, fun key given => ?_, ?_⟩
  · rw [runs_of_failure lawful names failed, seen.on]
  · have other : key ≠ .info step.action := fun h => by rw [h] at given; exact given
    rw [remembered, Function.update_of_ne other, seen.data key given]
  · rw [logged, seen.log]

theorem Seen.noted (seen : Seen runs data on log s) :
    Seen runs data on log (note info s) where
  on := seen.on
  data key given := by
    have other : key ≠ .failedInfo := fun h => by rw [h] at given; exact given
    exact (Function.update_of_ne other _ _).trans (seen.data key given)
  log := seen.log

theorem names_of_takesDomain (aside : step.action.takesDomain = false)
    (given : DataKey → Option String) : (scriptCall step given).Names name := by
  intro told
  rw [scriptCall, aside] at told
  exact Bool.noConfusion told

/-- A script that has nothing to do with the domain. -/
theorem effect_aside (aside : step.action.aboutDomain = false) (given : DataKey → Option String) :
    (scriptCall step given).effect true on = on := by
  cases action : step.action with
  | deploy | restore | shutdown | cancel | save | migrate => rw [action] at aside; cases aside
  | _ => simp only [ScriptCall.effect, scriptCall, action]

theorem takesDomain_of_aside (aside : step.action.aboutDomain = false) :
    step.action.takesDomain = false := by
  cases action : step.action with
  | deploy | restore => rfl
  | _ => rw [action] at aside; exact aside

theorem Seen.aside (seen : Seen runs data on log s) (lawful : Lawful scripts name runs)
    (aside : step.action.aboutDomain = false) (done : perform scripts step s = (s', none)) :
    Seen runs data on ((step.action, true) :: log) s' := by
  have next := seen.success lawful (names_of_takesDomain (takesDomain_of_aside aside) _) done
  rwa [effect_aside aside] at next

theorem Seen.asideFailure (seen : Seen runs data on log s) (lawful : Lawful scripts name runs)
    (aside : step.action.aboutDomain = false) (failed : perform scripts step s = (s', some info)) :
    Seen runs data on ((step.action, false) :: log) (note info s') :=
  (seen.failure lawful (names_of_takesDomain (takesDomain_of_aside aside) _) failed).noted

/-- A script whose first parameter is the name. -/
theorem names_of_key {driver : StepDriver} {key : DataKey} {more : List StepParam}
    {given : DataKey → Option String} (told : given key = some name) :
    (scriptCall { driver, action, parameters := .key key :: more } given).Names name := by
  intro _
  simp only [scriptCall, getParameters, List.map_cons, List.head?_cons, told, Option.getD_some]

/-- The steps that end a domain. -/
theorem triple_end (lawful : Lawful scripts name runs)
    (ends : action = .shutdown ∨ action = .cancel ∨ action = .save) (more : List StepParam)
    (atHost : data .host = some host) (deployId : data .deployId = some name) :
    Triple (perform scripts) note (Seen runs data on [])
      [plain { driver := .vmm, action, parameters := .key .deployId :: more },
        plain { driver := .vnm, action := .clean }]
      (Seen runs data (Function.update on host false) [(.clean, true), (action, true)])
      (fun s => Seen runs data on [(action, false)] s ∨
        Seen runs data (Function.update on host false) [(.clean, false), (action, true)] s) := by
  have names {s : ExecState World} {log : List (ScriptName × Bool)}
      (seen : Seen runs data on log s) :
      (scriptCall { driver := .vmm, action, parameters := .key .deployId :: more } s.data).Names
        name :=
    names_of_key ((seen.data .deployId trivial).trans deployId)
  have effect {s : ExecState World} {log : List (ScriptName × Bool)}
      (seen : Seen runs data on log s) :
      (scriptCall { driver := .vmm, action, parameters := .key .deployId :: more } s.data).effect
        true on = Function.update on host false := by
    have there : s.data .host = some host := (seen.data .host trivial).trans atHost
    rcases ends with rfl | rfl | rfl <;> simp [ScriptCall.effect, scriptCall, there]
  have cleaned : Triple (perform scripts) note
      (Seen runs data (Function.update on host false) [(action, true)])
      [plain { driver := .vnm, action := .clean }]
      (Seen runs data (Function.update on host false) [(.clean, true), (action, true)])
      (fun s => Seen runs data on [(action, false)] s ∨
        Seen runs data (Function.update on host false) [(.clean, false), (action, true)] s) := by
    refine .cons (fun s s' seen done => ?_) (fun s s' info seen failed => ?_)
      (.nil fun s seen => seen)
    · exact seen.aside lawful rfl done
    · rw [runSteps_nil]
      exact .inr (seen.asideFailure lawful rfl failed)
  refine .cons (fun s s' seen done => ?_) (fun s s' info seen failed => ?_) cleaned
  · have next := seen.success lawful (names seen) done
    rwa [effect seen] at next
  · rw [runSteps_nil]
    exact .inl (seen.failure lawful (names seen) failed).noted

/-- What `fail_actions` cancel: the domain that was started. -/
abbrev cancelStarted (key : DataKey) : ExecStep where
  driver := .vmm
  action := .cancel
  parameters := [.key key, .key .host]

/-- The rollback of a start. -/
theorem Seen.cancelStarted {key : DataKey} (seen : Seen runs data (Function.update on host true) log s)
    (lawful : Lawful scripts name runs) (atHost : data .host = some host)
    (stopped : on host = false) (told : s.data key = some name) :
    Seen runs data on ((.cancel, true) :: log)
        (runSteps (perform scripts) note [plain (cancelStarted key)] false s).1 ∨
      Seen runs data (Function.update on host true) ((.cancel, false) :: log)
        (runSteps (perform scripts) note [plain (cancelStarted key)] false s).1 := by
  have there : s.data .host = some host := (seen.data .host trivial).trans atHost
  have cancelled : (scriptCall (ExecDriver.cancelStarted key) s.data).effect true
      (Function.update on host true) = on := by
    simp only [ScriptCall.effect, scriptCall, Bool.false_eq_true, if_false, there,
      Function.update_idem]
    rw [← stopped, Function.update_eq_self]
  rw [runSteps_plain]
  rcases result : perform scripts (ExecDriver.cancelStarted key) s with ⟨s', - | info⟩
  · have next := seen.success lawful (names_of_key told) result
    rw [cancelled] at next
    exact .inl next
  · exact .inr (seen.failure lawful (names_of_key told) result).noted

/-- The steps that start a domain; `key` tells its name once it is started. -/
theorem triple_start (lawful : Lawful scripts name runs) {boot : ExecStep} {key : DataKey}
    (boots : boot.action = .deploy ∨ boot.action = .restore) (onHost : boot.driver = .vmm)
    (notMoved : boot.destination = false) (atHost : data .host = some host)
    (stopped : on host = false)
    (named : ∀ s s' log, Seen runs data on log s → perform scripts boot s = (s', none) →
      s'.data key = some name)
    (kept : key ≠ .info .post) :
    Triple (perform scripts) note (Seen runs data on [])
      [plain { driver := .vnm, action := .pre }, plain boot,
        .mk { driver := .vnm, action := .post, parameters := [.key key] }
          [plain (cancelStarted key)] false]
      (Seen runs data (Function.update on host true)
        [(.post, true), (boot.action, true), (.pre, true)])
      (fun s => Seen runs data on [(.pre, false)] s ∨
        Seen runs data on [(boot.action, false), (.pre, true)] s ∨
        Seen runs data on
          [(.cancel, true), (.post, false), (boot.action, true), (.pre, true)] s ∨
        Seen runs data (Function.update on host true)
          [(.cancel, false), (.post, false), (boot.action, true), (.pre, true)] s) := by
  have names (given : DataKey → Option String) : (scriptCall boot given).Names name := by
    refine names_of_takesDomain ?_ given
    rcases boots with h | h <;> rw [h] <;> rfl
  have effect {s : ExecState World} {log : List (ScriptName × Bool)}
      (seen : Seen runs data on log s) :
      (scriptCall boot s.data).effect true on = Function.update on host true := by
    have there : s.data .host = some host := (seen.data .host trivial).trans atHost
    rcases boots with h | h <;> simp [ScriptCall.effect, scriptCall, there, h, onHost, notMoved]
  refine @Triple.cons _ _ _ _ _ _ _ _ _ (Seen runs data on [(.pre, true)]) _ _
    (fun s s' seen done => ?_) (fun s s' info seen failed => ?_) ?_
  · exact seen.aside lawful rfl done
  · rw [runSteps_nil]
    exact .inl (seen.asideFailure lawful rfl failed)
  refine @Triple.cons _ _ _ _ _ _ _ _ _
    (fun s => Seen runs data (Function.update on host true) [(boot.action, true), (.pre, true)] s ∧
      s.data key = some name) _ _
    (fun s s' seen done => ?_) (fun s s' info seen failed => ?_) ?_
  · have next := seen.success lawful (names _) done
    rw [effect seen] at next
    exact ⟨next, named s s' _ seen done⟩
  · rw [runSteps_nil]
    exact .inr (.inl (seen.failure lawful (names _) failed).noted)
  refine .cons (fun s s' seen done => ?_) (fun s s' info seen failed => ?_)
    (.nil fun s seen => seen)
  · exact seen.1.aside lawful rfl done
  · obtain ⟨-, -, remembered, -⟩ := perform_failure failed
    have told : s'.data key = some name := by
      rw [remembered, Function.update_of_ne kept, seen.2]
    have posted := seen.1.failure lawful (names_of_takesDomain rfl _) failed
    rcases posted.cancelStarted lawful atHost stopped told with undone | left
    · exact .inr (.inr (.inl undone.noted))
    · exact .inr (.inr (.inr left.noted))

/-- Scripts that have nothing to do with the domain, and whose failures do not matter. -/
theorem triple_aside (lawful : Lawful scripts name runs) (steps : List ExecStep)
    {failure : ExecState World → Prop} (aside : ∀ step ∈ steps, step.action.aboutDomain = false) :
    Triple (perform scripts) note (fun s => ∃ log, Seen runs data on log s) (steps.map noFail)
      (fun s => ∃ log, Seen runs data on log s) failure := by
  induction steps with
  | nil => exact .nil fun s seen => seen
  | cons step rest ih =>
    have here := aside step (List.mem_cons_self ..)
    refine .cons_noFail (fun s s' seen done => ?_) (fun s s' info seen failed => ?_)
      (ih fun step known => aside step (List.mem_cons_of_mem _ known))
    · obtain ⟨log, seen⟩ := seen
      exact ⟨_, seen.aside lawful here done⟩
    · obtain ⟨log, seen⟩ := seen
      rw [runSteps_nil]
      exact ⟨_, seen.asideFailure lawful here failed⟩

/-- The steps that move a domain. -/
theorem triple_migrate (lawful : Lawful scripts name runs) (pre post : List String)
    (atHost : data .host = some host) (toDest : data .destHost = some dest)
    (deployId : data .deployId = some name) :
    Triple (perform scripts) note (Seen runs data on []) (migrateSteps pre post)
      (fun s => ∃ log,
        Seen runs data (Function.update (Function.update on host false) dest true) log s)
      (fun s => ∃ log, Seen runs data on log s) := by
  have moved {s : ExecState World} {log : List (ScriptName × Bool)}
      (seen : Seen runs data on log s) :
      (scriptCall { driver := .vmm, action := .migrate,
                    parameters := [.key .deployId, .key .destHost, .key .host] } s.data).effect
        true on = Function.update (Function.update on host false) dest true := by
    have there : s.data .host = some host := (seen.data .host trivial).trans atHost
    have next : s.data .destHost = some dest := (seen.data .destHost trivial).trans toDest
    simp [ScriptCall.effect, scriptCall, getParameters, there, next]
  refine @Triple.cons _ _ _ _ _ _ _ _ _ (fun s => ∃ log, Seen runs data on log s) _ _
    (fun s s' seen done => ?_) (fun s s' info seen failed => ?_) ?_
  · exact ⟨_, seen.aside lawful rfl done⟩
  · rw [runSteps_nil]
    exact ⟨_, seen.asideFailure lawful rfl failed⟩
  refine @Triple.cons _ _ _ _ _ _ _ _ _ (fun s => ∃ log, Seen runs data on log s) _ _
    (fun s s' seen done => ?_) (fun s s' info seen failed => ?_) ?_
  · obtain ⟨log, seen⟩ := seen
    exact ⟨_, seen.aside lawful rfl done⟩
  · obtain ⟨log, seen⟩ := seen
    rw [runSteps_nil]
    exact ⟨_, seen.asideFailure lawful rfl failed⟩
  refine .cons (fun s s' seen done => ?_) (fun s s' info seen failed => ?_)
    (triple_aside lawful [_, _, _] ?_)
  · obtain ⟨log, seen⟩ := seen
    have next := seen.success lawful
      (names_of_key ((seen.data .deployId trivial).trans deployId)) done
    rw [moved seen] at next
    exact ⟨_, next⟩
  · obtain ⟨log, seen⟩ := seen
    rw [runSteps_nil]
    exact ⟨_, (seen.failure lawful
      (names_of_key ((seen.data .deployId trivial).trans deployId)) failed).noted⟩
  · simp [ScriptName.aboutDomain, ScriptName.takesDomain]

end ExecDriver

namespace DomainCommand

variable {World : Type} {scripts : Scripts World} {name host dest : String}
  {runs : World → RunsOn} {s : ExecState World}

open ExecDriver

/-- What a list of steps says of the domain. -/
theorem truthful_of_triple (command : DomainCommand) (mainAction : ScriptName)
    {steps : List (Step ExecStep)} {data : DataKey → Option String} {on target : RunsOn}
    (triple : Triple (perform scripts) note (Seen runs data on []) steps
      (fun s => runs s.world = target ∧ ¬ command.Misleads s.log)
      (fun s => runs s.world = on ↔ ¬ command.Misleads s.log))
    (nonempty : steps ≠ []) (seen : Seen runs data on [] s) :
    runs (ExecDriver.run scripts mainAction steps s).1.world =
        (if (ExecDriver.run scripts mainAction steps s).2.success then target else on) ↔
      ¬ command.Misleads (ExecDriver.run scripts mainAction steps s).1.log := by
  obtain ⟨onSuccess, onFailure⟩ := run_of_triple triple nonempty mainAction seen
  cases success : (ExecDriver.run scripts mainAction steps s).2.success with
  | true =>
    obtain ⟨moved, told⟩ := onSuccess success
    rw [if_pos rfl]
    exact ⟨fun _ => told, fun _ => moved⟩
  | false =>
    rw [if_neg Bool.false_ne_true]
    exact onFailure success

/-- What the steps that start a domain say of it. -/
theorem truthful_start (lawful : Lawful scripts name runs) (boot : ExecStep) (key : DataKey)
    (boots : boot.action = .deploy ∨ boot.action = .restore) (onHost : boot.driver = .vmm)
    (notMoved : boot.destination = false) {data : DataKey → Option String} {on : RunsOn}
    (atHost : data .host = some host) (stopped : on host = false)
    (named : ∀ s s' log, Seen runs data on log s → perform scripts boot s = (s', none) →
      s'.data key = some name)
    (kept : key ≠ .info .post) :
    Triple (perform scripts) note (Seen runs data on [])
      [plain { driver := .vnm, action := .pre }, plain boot,
        .mk { driver := .vnm, action := .post, parameters := [.key key] }
          [plain (cancelStarted key)] false]
      (fun s => runs s.world = Function.update on host true ∧
        ¬ ((.post, false) ∈ s.log ∧ (.cancel, false) ∈ s.log))
      (fun s => runs s.world = on ↔ ¬ ((.post, false) ∈ s.log ∧ (.cancel, false) ∈ s.log)) := by
  have started : Function.update on host true ≠ on := fun same => by
    have there := congrFun same host
    rw [Function.update_self, stopped] at there
    exact Bool.noConfusion there
  refine (triple_start lawful boots onHost notMoved atHost stopped named kept).weaken
    (fun s seen => ⟨seen.on, ?_⟩) (fun s outcome => ?_)
  · rw [seen.log]
    simp
  · rcases outcome with seen | seen | seen | seen
    · simp [seen.on, seen.log]
    · rcases boots with h | h <;> simp [seen.on, seen.log, h]
    · simp [seen.on, seen.log]
    · simp [seen.on, seen.log, started]

/-- What the steps that end a domain say of it. -/
theorem truthful_end (lawful : Lawful scripts name runs) {action : ScriptName}
    (ends : action = .shutdown ∨ action = .cancel ∨ action = .save) (more : List StepParam)
    {data : DataKey → Option String} {on : RunsOn} (atHost : data .host = some host)
    (deployId : data .deployId = some name) (running : on host = true) :
    Triple (perform scripts) note (Seen runs data on [])
      [plain { driver := .vmm, action, parameters := .key .deployId :: more },
        plain { driver := .vnm, action := .clean }]
      (fun s => runs s.world = Function.update on host false ∧
        ¬ ((action, true) ∈ s.log ∧ (.clean, false) ∈ s.log))
      (fun s => runs s.world = on ↔ ¬ ((action, true) ∈ s.log ∧ (.clean, false) ∈ s.log)) := by
  have ended : Function.update on host false ≠ on := fun same => by
    have there := congrFun same host
    rw [Function.update_self, running] at there
    exact Bool.noConfusion there
  refine (triple_end lawful ends more atHost deployId).weaken
    (fun s seen => ⟨seen.on, ?_⟩) (fun s outcome => ?_)
  · rw [seen.log]
    simp
  · rcases outcome with seen | seen
    · simp [seen.on, seen.log]
    · simp [seen.on, seen.log, ended]

/-- The answer tells where the domain runs, if and only if it was not started without a network
and could not be cancelled, and did not end without its network being cleaned up. -/
theorem truthful_iff (lawful : Lawful scripts name runs) (command : DomainCommand)
    (ready : command.Ready name host dest (runs s.world) s) :
    runs (command.run scripts s).1.world =
        (if (command.run scripts s).2.success then command.target host dest (runs s.world)
        else runs s.world) ↔
      ¬ command.Misleads (command.run scripts s).1.log := by
  have seen : Seen runs s.data (runs s.world) [] s := ⟨rfl, fun _ _ => rfl, ready.unlogged⟩
  have named (other : ∀ localDfile dfile domain, command ≠ .deploy localDfile dfile domain) :
      s.data .deployId = some name := by
    rcases ready.deployId with ⟨localDfile, dfile, domain, h⟩ | h
    · exact absurd h (other localDfile dfile domain)
    · exact h
  cases command with
  | deploy localDfile dfile domain =>
    cases domain with
    | none =>
      rw [run, ExecDriver.deploy, if_neg Bool.false_ne_true, ready.unlogged]
      simp [Misleads]
    | some domain =>
      have boot : Triple (perform scripts) note (Seen runs s.data (runs s.world) [])
          (deploySteps dfile domain) _ _ :=
        truthful_start lawful _ (.info .deploy) (.inl rfl) rfl rfl ready.atHost ready.before
          (fun s s' log seen done => by
            obtain ⟨-, success, remembered, -⟩ := perform_success done
            rw [remembered, Function.update_self, lawful.named _ _ rfl success])
          (by decide)
      exact truthful_of_triple (.deploy localDfile dfile (some domain)) .deploy boot
        (List.cons_ne_nil _ _) seen
  | restore =>
    have boot : Triple (perform scripts) note (Seen runs s.data (runs s.world) [])
        restoreSteps _ _ :=
      truthful_start lawful _ .deployId (.inr rfl) rfl rfl ready.atHost ready.before
        (fun s s' log seen done => by
          obtain ⟨-, success, remembered, -⟩ := perform_success done
          rw [remembered, Function.update_of_ne (by decide), seen.data .deployId trivial,
            named (by simp)])
        (by decide)
    exact truthful_of_triple .restore .restore boot (List.cons_ne_nil _ _) seen
  | shutdown =>
    exact truthful_of_triple .shutdown .shutdown (truthful_end lawful (.inl rfl) _ ready.atHost
      (named (by simp)) ready.before) (List.cons_ne_nil _ _) seen
  | cancel =>
    exact truthful_of_triple .cancel .cancel (truthful_end lawful (.inr (.inl rfl)) _ ready.atHost
      (named (by simp)) ready.before) (List.cons_ne_nil _ _) seen
  | save =>
    exact truthful_of_triple .save .save (truthful_end lawful (.inr (.inr rfl)) _ ready.atHost
      (named (by simp)) ready.before) (List.cons_ne_nil _ _) seen
  | migrate pre post =>
    refine truthful_of_triple (.migrate pre post) .migrate ((triple_migrate lawful pre post
      ready.atHost (ready.destHost ⟨pre, post, rfl⟩) (named (by simp))).weaken
      (fun s seen => ?_) (fun s seen => ?_)) (List.cons_ne_nil _ _) seen
    · obtain ⟨log, seen⟩ := seen
      exact ⟨seen.on, not_false⟩
    · obtain ⟨log, seen⟩ := seen
      exact ⟨fun _ => not_false, fun _ => seen.on⟩

/-- Scripts of which the one that cleans the network always fails. -/
def uncleaned : Scripts RunsOn := fun call on =>
  (call.effect (call.action ≠ .clean) on, call.action ≠ .clean, "one-7\n")

/-- The domain `one-7` runs on the host `a`. -/
def running : ExecState RunsOn where
  world host := host == "a"
  data
    | .host => some "a"
    | .deployId => some "one-7"
    | _ => none

theorem truthful_iff_uncleaned :
    (shutdown.run uncleaned running).2.success = false ∧
      (shutdown.run uncleaned running).1.world "a" = false ∧
      ¬ (shutdown.run uncleaned running).1.world =
        (if (shutdown.run uncleaned running).2.success
        then shutdown.target "a" "" running.world else running.world) := by
  have printed : strip "one-7\n" = "one-7" := by decide +kernel
  have lawful : Lawful uncleaned "one-7" id := ⟨fun _ _ _ => rfl, fun _ _ _ _ => printed⟩
  have ready : shutdown.Ready "one-7" "a" "" (id running.world) running :=
    ⟨rfl, .inr rfl, by simp, rfl, rfl⟩
  refine ⟨by decide, by decide, fun same => ?_⟩
  exact (truthful_iff lawful shutdown ready).1 same ⟨by decide, by decide⟩

end DomainCommand

end Ezilla

import Ezilla.Vm.Managers
import Ezilla.Vnm.Firewall
import Ezilla.Lib.Rollback

/-!
# The virtualization driver

For a command of the core the driver `one_vmm_exec` runs the scripts of the hypervisor, of the
network driver and of the transfer drivers, one after the other, and answers with a success or a
failure.

* `ExecState`, `ExecDriver.perform`: one script, with what is remembered of it;
* `VmmAction.run`: the steps of a command, and the answer;
* `ExecDriver.deploy` … `ExecDriver.detachNic`: the commands.

Commands that are a single script (POLL, REBOOT, RESET and those for snapshots) and the messages
for the log but their results are left out.
-/

namespace Ezilla

open Rollback (Step runSteps)

/-- The scripts, and `cleanup`, which is only the name of a command. -/
inductive ScriptName where
  | deploy
  | shutdown
  | cancel
  | save
  | restore
  | migrate
  | attachDisk
  | detachDisk
  | attachNic
  | detachNic
  | cleanup
  | pre
  | post
  | clean
  | tmPremigrate
  | tmPostmigrate
  | tmAttach
  | tmDetach
  | tmDelete
  deriving DecidableEq, Repr

/-- `DRIVER_NAMES` -/
inductive StepDriver where
  | vmm
  | vnm
  | tm
  deriving DecidableEq, Repr

/-- The keys of `@data`. -/
inductive DataKey where
  | host
  | deployId
  | checkpointFile
  | destHost
  | diskTargetPath
  | failedInfo
  | info (action : ScriptName)
  deriving DecidableEq, Repr

/-- A parameter of a step: a key of `@data`, or a text. -/
inductive StepParam where
  | key (key : DataKey)
  | text (text : String)
  deriving DecidableEq, Repr

/-- A step, apart from what is done when it fails. -/
structure ExecStep where
  driver : StepDriver
  action : ScriptName
  parameters : List StepParam := []
  destination : Bool := false
  stdin : Option String := none
  deriving DecidableEq, Repr

/-- A script that is run, with its parameters before they are joined by blanks. -/
structure ScriptCall where
  driver : StepDriver
  action : ScriptName
  host : Option String
  parameters : List String
  stdin : Option String
  deriving DecidableEq, Repr

/-- What the scripts do, with their result and what they print. -/
abbrev Scripts (World : Type) := ScriptCall → World → World × Bool × String

/-- `String#strip` -/
def strip (s : String) : String :=
  String.ofList (((s.toList.dropWhile OpenNebulaFirewall.isSpace).reverse.dropWhile
    OpenNebulaFirewall.isSpace).reverse)

/-- The world, `@data`, and the results of the scripts as they are logged, the last one first. -/
structure ExecState (World : Type) where
  world : World
  data : DataKey → Option String
  log : List (ScriptName × Bool) := []

/-- The message for the core. -/
structure DriverAnswer where
  success : Bool
  info : Option String
  deriving DecidableEq, Repr

namespace ExecDriver

variable {World : Type} (scripts : Scripts World)

/-- `get_parameters`, before they are joined. -/
def getParameters (data : DataKey → Option String) (parameters : List StepParam) : List String :=
  parameters.map fun
    | .key key => (data key).getD ""
    | .text text => text

/-- The script of a step. -/
def scriptCall (step : ExecStep) (data : DataKey → Option String) : ScriptCall where
  driver := step.driver
  action := step.action
  host := match step.driver with
    | .tm => none
    | .vmm | .vnm => data (if step.destination then .destHost else .host)
  parameters := getParameters data step.parameters
  stdin := step.stdin

/-- One step up to its rollback. -/
def perform (step : ExecStep) (s : ExecState World) : ExecState World × Option String :=
  let (world, success, info) := scripts (scriptCall step s.data) s.world
  let s' : ExecState World :=
    { world
      data := Function.update s.data (.info step.action) (some (strip info))
      log := (step.action, success) :: s.log }
  (s', if success then none else some info)

/-- What is remembered of a failure after the rollback. -/
def note (info : String) (s : ExecState World) : ExecState World :=
  { s with data := Function.update s.data .failedInfo (some info) }

/-- `execute_steps` -/
def executeSteps (steps : List (Step ExecStep)) (s : ExecState World) : ExecState World × Bool :=
  runSteps (perform scripts) note steps false s

/-- `VmmAction::run` -/
def run (mainAction : ScriptName) (steps : List (Step ExecStep)) (s : ExecState World) :
    ExecState World × DriverAnswer :=
  match executeSteps scripts steps s with
  | (s', true) => (s', { success := true, info := s'.data (.info mainAction) })
  | (s', false) => (s', { success := false, info := s'.data .failedInfo })

/-! ## Steps -/

/-- A step for which nothing else is said. -/
def plain (step : ExecStep) : Step ExecStep := .mk step [] false

/-- A step whose failure does not matter. -/
def noFail (step : ExecStep) : Step ExecStep := .mk step [] true

def deploySteps (dfile domain : String) : List (Step ExecStep) :=
  [plain { driver := .vnm, action := .pre },
    plain { driver := .vmm, action := .deploy, parameters := [.text dfile, .key .host],
            stdin := some domain },
    .mk { driver := .vnm, action := .post, parameters := [.key (.info .deploy)] }
      [plain { driver := .vmm, action := .cancel,
               parameters := [.key (.info .deploy), .key .host] }] false]

def shutdownSteps : List (Step ExecStep) :=
  [plain { driver := .vmm, action := .shutdown, parameters := [.key .deployId, .key .host] },
    plain { driver := .vnm, action := .clean }]

def cancelSteps : List (Step ExecStep) :=
  [plain { driver := .vmm, action := .cancel, parameters := [.key .deployId, .key .host] },
    plain { driver := .vnm, action := .clean }]

def saveSteps : List (Step ExecStep) :=
  [plain { driver := .vmm, action := .save,
           parameters := [.key .deployId, .key .checkpointFile, .key .host] },
    plain { driver := .vnm, action := .clean }]

def restoreSteps : List (Step ExecStep) :=
  [plain { driver := .vnm, action := .pre },
    plain { driver := .vmm, action := .restore,
            parameters := [.key .checkpointFile, .key .host] },
    .mk { driver := .vnm, action := .post, parameters := [.key .deployId] }
      [plain { driver := .vmm, action := .cancel, parameters := [.key .deployId, .key .host] }]
      false]

/-- `pre` and `post` are the words of the commands for the transfer driver. -/
def migrateSteps (pre post : List String) : List (Step ExecStep) :=
  [plain { driver := .tm, action := .tmPremigrate, parameters := pre.map .text },
    plain { driver := .vnm, action := .pre, destination := true },
    plain { driver := .vmm, action := .migrate,
            parameters := [.key .deployId, .key .destHost, .key .host] },
    noFail { driver := .vnm, action := .clean },
    noFail { driver := .vnm, action := .post, parameters := [.key .deployId],
             destination := true },
    noFail { driver := .tm, action := .tmPostmigrate, parameters := post.map .text }]

/-- The parameters are those of the disk. -/
def attachDiskSteps (tmCommand : List String) (target targetIndex drvMessage : String) :
    List (Step ExecStep) :=
  [plain { driver := .tm, action := .tmAttach, parameters := tmCommand.map .text },
    plain { driver := .vmm, action := .attachDisk,
            parameters := [.key .deployId, .key .diskTargetPath, .text target, .text targetIndex,
              .text drvMessage] }]

def detachDiskSteps (tmCommand : List String) (target targetIndex : String) :
    List (Step ExecStep) :=
  [plain { driver := .vmm, action := .detachDisk,
           parameters := [.key .deployId, .key .diskTargetPath, .text target,
             .text targetIndex] },
    plain { driver := .tm, action := .tmDetach, parameters := tmCommand.map .text }]

/-- The last step is given the text for `deploy_info`, which is not set here. -/
def attachNicSteps (mac source model : String) : List (Step ExecStep) :=
  [plain { driver := .vnm, action := .pre },
    plain { driver := .vmm, action := .attachNic,
            parameters := [.key .deployId, .text mac, .text source, .text model] },
    .mk { driver := .vnm, action := .post, parameters := [.key (.info .deploy)] }
      [plain { driver := .vmm, action := .detachNic, parameters := [.key .deployId, .text mac] }]
      false]

def detachNicSteps (mac : String) : List (Step ExecStep) :=
  [plain { driver := .vmm, action := .detachNic, parameters := [.key .deployId, .text mac] },
    plain { driver := .vnm, action := .clean }]

/-- A value that is there and not empty. -/
def given (value : Option String) : Bool := value.isSome ∧ value ≠ some ""

/-- `tmCommand` are the words of the lines of the commands. -/
def cleanupSteps (deployId mhost : Option String) (tmCommand : List (List String)) :
    List (Step ExecStep) :=
  (if given deployId then
    [noFail { driver := .vmm, action := .cancel, parameters := [.key .deployId, .key .host] },
      noFail { driver := .vnm, action := .clean }]
  else []) ++
  (if given mhost then
    [noFail { driver := .vmm, action := .cancel, parameters := [.key .deployId, .key .destHost],
              destination := true },
      noFail { driver := .vnm, action := .clean, destination := true }]
  else []) ++
  (tmCommand.filter (· ≠ [])).map fun words =>
    noFail { driver := .tm, action := .tmDelete, parameters := words.map .text }

/-! ## Commands -/

/-- `domain` is the text of the deployment file, if there is one that is not empty. -/
def deploy (localDfile dfile : String) (domain : Option String) (s : ExecState World) :
    ExecState World × DriverAnswer :=
  match domain with
  | none => (s, { success := false, info := some ("Cannot open deployment file " ++ localDfile) })
  | some domain => run scripts .deploy (deploySteps dfile domain) s

def shutdown (s : ExecState World) : ExecState World × DriverAnswer :=
  run scripts .shutdown shutdownSteps s

def cancel (s : ExecState World) : ExecState World × DriverAnswer :=
  run scripts .cancel cancelSteps s

def save (s : ExecState World) : ExecState World × DriverAnswer := run scripts .save saveSteps s

def restore (s : ExecState World) : ExecState World × DriverAnswer :=
  run scripts .restore restoreSteps s

def migrate (pre post : List String) (s : ExecState World) : ExecState World × DriverAnswer :=
  run scripts .migrate (migrateSteps pre post) s

def attachDisk (tmCommand : List String) (target targetIndex drvMessage : String)
    (s : ExecState World) : ExecState World × DriverAnswer :=
  run scripts .attachDisk (attachDiskSteps tmCommand target targetIndex drvMessage) s

def detachDisk (tmCommand : List String) (target targetIndex : String) (s : ExecState World) :
    ExecState World × DriverAnswer :=
  run scripts .detachDisk (detachDiskSteps tmCommand target targetIndex) s

def attachNic (mac source model : String) (s : ExecState World) :
    ExecState World × DriverAnswer :=
  run scripts .attachNic (attachNicSteps mac source model) s

def detachNic (mac : String) (s : ExecState World) : ExecState World × DriverAnswer :=
  run scripts .detachNic (detachNicSteps mac) s

def cleanup (deployId mhost : Option String) (tmCommand : List (List String))
    (s : ExecState World) : ExecState World × DriverAnswer :=
  run scripts .cleanup (cleanupSteps deployId mhost tmCommand) s

end ExecDriver

end Ezilla

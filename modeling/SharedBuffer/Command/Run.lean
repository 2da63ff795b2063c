/-
What the command does: it loads a configuration, brings up the ports, applies a plan and prints the report.

The answer is a value: an exit code, what is printed, and what went wrong. Files are given as a function from paths to
texts, so nothing here depends on a file system.
-/
import SharedBuffer.Command.LogFilter
import SharedBuffer.Command.Options
import SharedBuffer.Config
import SharedBuffer.Plan.Apply

namespace SharedBuffer.Command

/-- the name of the command, and of the target of its log lines -/
def commandName : String := "bufferorch"

/-- what made the command fail -/
inductive Failure where
  | config (path : String) (e : ConfigError)
  | port (number : UInt32) (fault : Fault)
  | plan (e : PlanError)
  | report (fault : Fault)
deriving DecidableEq

namespace Failure

/-- the text of a failure -/
def message : Failure → String
  | config path e => "loading " ++ path ++ ": " ++ e.message
  | port number fault => "registering port " ++ toString number.toNat ++ ": " ++ fault.message
  | plan e => e.message
  | report fault => fault.message

/-- the status of the refused step behind a failure -/
def status? : Failure → Option Status
  | plan e => e.status?
  | _ => none

/-- what the log says of a failure -/
def headline (f : Failure) : String :=
  if f.status?.isSome then "Buffer plan rejected" else commandName ++ " failed"

/-- the parts of a failure's log line behind its headline -/
def logFields (f : Failure) : List (String × String) :=
  (f.status?.map fun s => ("status", s.name)).toList ++ [("error", f.message)]

/-- what a filter knows of a failure's log line -/
def logEvent (f : Failure) : LogEvent := ⟨commandName, "message" :: f.logFields.map Prod.fst⟩

/-- the log line of a failure as JSON -/
def toJson (f : Failure) : Json :=
  .obj (("message", .str f.headline) :: f.logFields.map fun (name, text) => (name, .str text))

/-- the log line of a failure as plain text -/
def logText (f : Failure) : String :=
  "ERROR " ++ commandName ++ ": " ++ String.intercalate " " (f.headline :: f.logFields.map fun (name, text) =>
    name ++ "=" ++ text)

end Failure

/-- how a run of the command ended -/
structure Outcome where
  exitCode : UInt32
  output : String := ""
  /-- the failure that is told: none that the log leaves out -/
  failure : Option Failure := none
  /-- whether the log is in JSON -/
  jsonLog : Bool := false
deriving DecidableEq

/-- the text of the version -/
def versionText : String := commandName ++ " 0.1.0\n"

/-- the text of the help -/
def helpText : String :=
  "SONiC shared buffer orchestration - pool/profile accounting and admission control\n\n" ++
  "Usage: " ++ commandName ++ " [OPTIONS]\n\nOptions:\n" ++
  "  -c, --config <CONFIG>        Hardware profile and logging configuration\n" ++
  "  -p, --plan <PLAN>            Buffer plan to apply (BUFFER_POOL, BUFFER_PROFILE, BUFFER_PG, ...)\n" ++
  "  -l, --log-level <LOG_LEVEL>  Log level (trace, debug, info, warn, error); overrides the config\n" ++
  "      --json                   Emit logs as JSON lines\n" ++
  "  -h, --help                   Print help\n" ++
  "  -V, --version                Print version\n"

/-- where the configuration is looked for if no option names one -/
def defaultConfigPath : String := "/etc/sonic/bufferorch.toml"

/-- the configuration of a run, with the path it came from; without an option the default file may be missing -/
def loadConfig (options : Options) (file : String → Option String) : Except Failure Config :=
  match options.config, file defaultConfigPath with
  | some path, _ => (Config.load path (file path)).mapError (.config path)
  | none, some text => (Config.load defaultConfigPath (some text)).mapError (.config defaultConfigPath)
  | none, none => .ok {}

/-- brings up so many ports, numbered from one on -/
def registerPorts (hw : Hardware) : Nat → UInt32 → Manager → Except Failure Manager
  | 0, _, m => .ok m
  | n + 1, number, m =>
    match (ManagerM.registerPort number hw.groupsPerPort hw.queuesPerPort).run m with
    | (.ok _, m) => registerPorts hw n (number + 1) m
    | (.error fault, _) => .error (.port number fault)

/-- a manager of some hardware with all its ports -/
def startManager (hw : Hardware) : Except Failure Manager :=
  registerPorts hw hw.portCount.toNat 0 (Manager.new hw)

/-- the report of a run under a configuration -/
def report (options : Options) (config : Config) (file : String → Option String) : Except Failure PlanReport := do
  let m ← startManager config.hardware
  let plan ← match options.plan with
    | some path => (Plan.load path (file path)).mapError .plan
    | none => .ok {}
  match plan.apply m with
  | (.ok applied, m) => (applied.report m).mapError .report
  | (.error e, _) => .error (.plan e)

/-- the text of a run's log filter -/
def filterText (options : Options) (config : Config) : String := options.logLevel.getD config.logging.level

/-- the exit code of a run that ends at once because its log filter cannot be cut into parts -/
def brokenFilterExitCode : UInt32 := 101

/-- runs the command with a configuration -/
def runLogged (options : Options) (config : Config) (file : String → Option String) : Outcome :=
  match LogFilter.ofText? (filterText options config) with
  | none => { exitCode := brokenFilterExitCode }
  | some filter =>
    let jsonLog := options.json || config.logging.json
    match report options config file with
    | .ok r => { exitCode := 0, output := r.toJson.indented ++ "\n", jsonLog }
    | .error e => { exitCode := 1, failure := if filter.showsError e.logEvent then some e else none, jsonLog }

/-- runs the command with options; a configuration that cannot be used is told before there is a log -/
def runWith (options : Options) (file : String → Option String) : Outcome :=
  match loadConfig options file with
  | .error e => { exitCode := 1, failure := some e }
  | .ok config => runLogged options config file

/-- runs the command -/
def run (arguments : List String) (file : String → Option String) : Outcome :=
  match Reading.ofArguments arguments with
  | .version => { exitCode := 0, output := versionText }
  | .help => { exitCode := 0, output := helpText }
  | .usageError => { exitCode := 2 }
  | .run options => runWith options file

end SharedBuffer.Command

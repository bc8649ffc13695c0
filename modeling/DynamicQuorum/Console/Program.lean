/-
  DynamicQuorum/Console/Program.lean
  ==================================
  **A whole run of the program.**

  A run takes the arguments apart, decides what is logged, and carries out the command.  What is
  logged is said by the environment, else by the arguments, else by the settings; settings
  that cannot be read count as the standard ones here, since the command will report them.
  The log is written as JSON lines if the arguments or the settings say so.
-/
import DynamicQuorum.Console.Session
import DynamicQuorum.Journal.Filter

namespace DynamicQuorum

structure Environment extends Surroundings where
  settingsVariable : Option String := none
  filterVariable : Option String := none
deriving DecidableEq, Repr

structure RunResult where
  code : UInt8
  output : String := ""
  failure : Option String := none
  log : List Json.Value := []
  files : FileTree
deriving Repr

namespace Program

def name : String := "dynquorum"

def versionLine : String := name ++ " 0.1.0\n"

def filterText (e : Environment) (i : Invocation) (s : Settings) : String :=
  match e.filterVariable with
  | some text => if text = "" then i.globals.logLevel.getD s.logLevel else text
  | none => i.globals.logLevel.getD s.logLevel

def failureLine (palette : Report.Palette) (message : String) : String :=
  Report.Notice.failure.render palette ("Error: " ++ message)

def log (e : Environment) (files : FileTree) (i : Invocation) (s : Settings) (f : Filter) :
    List Json.Value :=
  if i.globals.jsonLogs || s.jsonLogs then
    ((i.notes e.toSurroundings files).filter f.keeps).map Note.toJson
  else []

def runInvocation (e : Environment) (files : FileTree) (i : Invocation) : RunResult :=
  let s := match Settings.loadFor e.toSurroundings files i.globals.config with
    | .ok s => s
    | .error _ => Settings.standard
  match Filter.ofString (filterText e i s) with
  -- a filter that would have to be cut inside a character stops the run without a message
  | .error .brokenCharacter => { code := 101, files := files }
  | .error cause =>
    { code := 1, failure := some (failureLine e.palette cause.message), files := files }
  | .ok f =>
    let log := log e files i s f
    let outcome := i.run e.toSurroundings files
    match outcome.result with
    | .ok output => { code := 0, output := output, log := log, files := outcome.files }
    | .error fault =>
      { code := 1, failure := some (failureLine e.palette fault.message), log := log,
        files := outcome.files }

/-- The exit code of a run whose arguments make no command: a request for help or for the
    version is no error. -/
def usageCode : UsageError → UInt8
  | .help | .version => 0
  | _ => 2

def paths (e : Environment) (arguments : List String) : List String :=
  match Invocation.ofArguments e.settingsVariable arguments with
  | .error _ => []
  | .ok i =>
    let settings := e.settingsPath i.globals.config
    match i.command with
    | .replay file .. => [settings, file]
    | _ => [settings]

def run (e : Environment) (files : FileTree) (arguments : List String) : RunResult :=
  match Invocation.ofArguments e.settingsVariable arguments with
  | .ok i => runInvocation e files i
  | .error cause =>
    { code := usageCode cause
      output := if cause = .version then versionLine else ""
      failure := if usageCode cause = 0 then none
        else some (failureLine e.palette cause.message)
      files := files }

end Program

end DynamicQuorum

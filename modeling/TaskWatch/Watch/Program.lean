import TaskWatch.Watch.Run

/-!
# The program

The program reads its command line, finds its settings and watches the tasks.  How that ends decides
what it prints and with which status it exits.
-/

namespace TaskWatch.Watch

open TaskWatch.Api (Network)
open TaskWatch.Config (Environment Files)

inductive Ending where
  | refused (why : Arguments.Refusal)
  /-- The program failed after having printed some lines. -/
  | failed (lines : List String) (why : Failure)
  | completed (lines : List String)
deriving DecidableEq, Repr

/-! ## Texts -/

def usageLine : String := "Usage: task-watch [OPTIONS] <TASKS>..."

def versionLine : String := "task-watch 0.1.0"

def helpLines : List String :=
  ["Wait for asynchronous tasks and report how each one ended",
    "",
    usageLine,
    "",
    "Arguments:",
    "  <TASKS>...  Task links to watch, absolute or relative to the endpoint",
    "",
    "Options:",
    "  -c, --config <CONFIG>                " ++
      "Path to configuration file (optional, defaults used if not found)",
    "      --endpoint <ENDPOINT>            Base URL of the API",
    "  -u, --user <USER>                    API user",
    "      --password <PASSWORD>            API password [env: ABIQUO_PASSWORD]",
    "      --delay-ms <DELAY_MS>            Delay between two polls, in milliseconds",
    "      --max-wait-secs <MAX_WAIT_SECS>  Give up on unfinished tasks after this many seconds",
    "  -l, --log-level <LOG_LEVEL>          Log level (trace, debug, info, warn, error)",
    "      --log-format <LOG_FORMAT>        Log format (pretty, json)",
    "  -h, --help                           Print help",
    "  -V, --version                        Print version"]

namespace Arguments

def settingText : Setting → String
  | .config => "--config"
  | .endpoint => "--endpoint"
  | .user => "--user"
  | .password => "--password"
  | .delayMs => "--delay-ms"
  | .maxWaitSecs => "--max-wait-secs"
  | .logLevel => "--log-level"
  | .logFormat => "--log-format"

/-- What is wrong with the command line; nothing is wrong with asking. -/
def Refusal.message? : Refusal → Option String
  | .asked _ => none
  | .unknownOption => some "unknown option"
  | .missingValue s => some ("a value is required for " ++ settingText s)
  | .repeated s => some (settingText s ++ " cannot be used multiple times")
  | .notANumber s => some ("invalid value for " ++ settingText s)
  | .needlessValue .help => some "--help takes no value"
  | .needlessValue .version => some "--version takes no value"
  | .noTasks => some "at least one task is required"

end Arguments

/-! ## Endings -/

namespace Ending

/-- The status: a fault in the command line is told from other failures. -/
def status : Ending → UInt32
  | refused why => if why.message?.isNone then 0 else 2
  | failed _ _ => 1
  | completed _ => 0

def output : Ending → List String
  | refused (.asked .help) => helpLines
  | refused (.asked .version) => [versionLine]
  | refused _ => []
  | failed lines _ | completed lines => lines

def complaint : Ending → List String
  | refused why =>
    match why.message? with
    | none => []
    | some message => ["error: " ++ message, "", usageLine]
  | failed _ why =>
    ("Error: " ++ why.message) ::
      match why.cause? with
      | none => []
      | some cause => ["", "Caused by:", "    " ++ cause]
  | completed _ => []

end Ending

def Ending.ofRun : Except Failure Tally → Ending
  | .error why => .failed [] why
  | .ok t =>
      if t.failures = 0 then .completed t.lines else .failed t.lines (.unsuccessful t.failures)

/-- The variables of the environment that count. -/
def variableNames : List String :=
  Arguments.passwordVariable :: [Config.Variable.pollDelayMs, .maxThreads].map (·.name)

/-- The only file that is read, given the words of the command line. -/
def pathFor (env : Environment) (words : List String) : String :=
  match Arguments.parse env words with
  | .ok a => a.config.getD Settings.usualPath
  | .error _ => Settings.usualPath

/-- The whole program, with the words of its command line.  It watches for at most `rounds`
rounds. -/
def program {σ : Type} (files : Files) (env : Environment) (net : Network σ) (rounds : Nat)
    (words : List String) (w : σ) : Ending × σ :=
  match Arguments.parse env words with
  | .error why => (.refused why, w)
  | .ok a =>
    match Settings.find files a.config >>= Settings.overriddenBy env a with
    | .error why => (.failed [] (.config why), w)
    | .ok s =>
      let (r, w) := runWith net rounds s a w
      (.ofRun r, w)

end TaskWatch.Watch

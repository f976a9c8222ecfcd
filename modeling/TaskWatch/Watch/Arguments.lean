import TaskWatch.Config.Source
import TaskWatch.Decimal.Bounded

/-!
# The command line

The arguments are links of tasks, and options with values.  An option has a long name, and some have
a letter; its value follows in the next word or in the same one.  Behind the word `--` there are
only links.

An option whose value is a word of its own is not looked into until something else begins: so a
fault in the next option comes before a fault in the value.
-/

namespace TaskWatch.Watch

open TaskWatch.Config (Environment)
open TaskWatch.Decimal (readUInt64)

structure Arguments where
  config : Option String
  endpoint : Option String
  user : Option String
  password : Option String
  delayMs : Option UInt64
  /-- The seconds after which tasks that have not ended are given up. -/
  maxWaitSecs : Option UInt64
  logLevel : Option String
  logFormat : Option String
  /-- The links of the tasks, of which there is at least one. -/
  tasks : List String
deriving DecidableEq, Repr

inductive Setting where
  | config
  | endpoint
  | user
  | password
  | delayMs
  | maxWaitSecs
  | logLevel
  | logFormat
deriving DecidableEq, Repr

/-- The options that ask for something else than watching. -/
inductive Inquiry where
  | help
  | version
deriving DecidableEq, Repr

inductive CommandOption where
  | setting (s : Setting)
  | inquiry (q : Inquiry)
deriving DecidableEq, Repr

inductive Arguments.Refusal where
  | asked (q : Inquiry)
  | unknownOption
  | missingValue (s : Setting)
  | repeated (s : Setting)
  | notANumber (s : Setting)
  /-- An option got a value that takes none. -/
  | needlessValue (q : Inquiry)
  | noTasks
deriving DecidableEq, Repr

/-! ## Options and their names -/

namespace CommandOption

def ofName? : String → Option CommandOption
  | "config" => some (.setting .config)
  | "endpoint" => some (.setting .endpoint)
  | "user" => some (.setting .user)
  | "password" => some (.setting .password)
  | "delay-ms" => some (.setting .delayMs)
  | "max-wait-secs" => some (.setting .maxWaitSecs)
  | "log-level" => some (.setting .logLevel)
  | "log-format" => some (.setting .logFormat)
  | "help" => some (.inquiry .help)
  | "version" => some (.inquiry .version)
  | _ => none

def ofLetter? : Char → Option CommandOption
  | 'c' => some (.setting .config)
  | 'u' => some (.setting .user)
  | 'l' => some (.setting .logLevel)
  | 'h' => some (.inquiry .help)
  | 'V' => some (.inquiry .version)
  | _ => none

end CommandOption

/-! ## Words -/

/-- What a word is by its form. -/
inductive Word where
  /-- The mark behind which there are only links. -/
  | mark
  | long (name : String) (value : Option String)
  | letter (c : Char) (value : Option String)
  | plain (text : String)
deriving DecidableEq, Repr

/-- What is behind a letter, less an equals sign before it; nothing is no value. -/
def letterValue : List Char → Option String
  | [] => none
  | '=' :: cs => some (String.ofList cs)
  | cs => some (String.ofList cs)

def longValue : List Char → Option String
  | [] => none
  | _ :: cs => some (String.ofList cs)

def Word.ofText (text : String) : Word :=
  match text.toList with
  | ['-', '-'] => .mark
  | '-' :: '-' :: cs =>
    .long (String.ofList (cs.takeWhile (· != '='))) (longValue (cs.dropWhile (· != '=')))
  | '-' :: c :: cs => .letter c (letterValue cs)
  | _ => .plain text

/-! ## Reading -/

namespace Arguments

def empty : Arguments := ⟨none, none, none, none, none, none, none, none, []⟩

def has (a : Arguments) : Setting → Bool
  | .config => a.config.isSome
  | .endpoint => a.endpoint.isSome
  | .user => a.user.isSome
  | .password => a.password.isSome
  | .delayMs => a.delayMs.isSome
  | .maxWaitSecs => a.maxWaitSecs.isSome
  | .logLevel => a.logLevel.isSome
  | .logFormat => a.logFormat.isSome

def put (a : Arguments) (s : Setting) (value : String) : Except Refusal Arguments :=
  let number := (readUInt64 value).mapError fun _ => Refusal.notANumber s
  match s with
  | .config => .ok { a with config := value }
  | .endpoint => .ok { a with endpoint := value }
  | .user => .ok { a with user := value }
  | .password => .ok { a with password := value }
  | .delayMs => number.map fun n => { a with delayMs := n }
  | .maxWaitSecs => number.map fun n => { a with maxWaitSecs := n }
  | .logLevel => .ok { a with logLevel := value }
  | .logFormat => .ok { a with logFormat := value }

/-- Takes in an option with what came as its value. -/
def take (a : Arguments) (s : Setting) (value : Option String) : Except Refusal Arguments :=
  match value with
  | none => .error (.missingValue s)
  | some value => if a.has s then .error (.repeated s) else a.put s value

end Arguments

/-- An option that has not been taken in yet. -/
inductive Arguments.Open where
  | nothing
  /-- An option waits for its value. -/
  | awaiting (s : Setting)
  /-- An option has its value. -/
  | complete (s : Setting) (value : String)
deriving DecidableEq, Repr

/-- The words up to a place. -/
structure Arguments.Reader where
  taken : Arguments
  pending : Open
deriving DecidableEq, Repr

namespace Arguments.Reader

def start : Reader := ⟨.empty, .nothing⟩

/-- Takes in the option that is pending. -/
def resolve (r : Reader) : Except Refusal Arguments :=
  match r.pending with
  | .nothing => .ok r.taken
  | .awaiting s => r.taken.take s none
  | .complete s value => r.taken.take s (some value)

def option (o : Option CommandOption) (value : Option String) (r : Reader) :
    Except Refusal Reader :=
  match o, value with
  | none, _ => .error .unknownOption
  | some (.setting s), none => r.resolve.map fun a => ⟨a, .awaiting s⟩
  | some (.setting s), some v => do .ok ⟨← (← r.resolve).take s (some v), .nothing⟩
  | some (.inquiry q), _ => do
    let _ ← r.resolve
    .error (.asked q)

def link (text : String) (r : Reader) : Except Refusal Reader :=
  r.resolve.map fun a => ⟨{ a with tasks := a.tasks ++ [text] }, .nothing⟩

/-- Goes on by a word that is no mark. -/
def word (w : Word) (r : Reader) : Except Refusal Reader :=
  match w with
  | .mark => .ok r
  | .long name value =>
    match CommandOption.ofName? name, value with
    | some (.inquiry q), some _ => .error (.needlessValue q)
    | o, value => r.option o value
  | .letter c value => r.option (CommandOption.ofLetter? c) value
  | .plain text =>
    match r.pending with
    | .awaiting s => .ok { r with pending := .complete s text }
    | _ => r.link text

/-- Goes on by all words up to the mark, and takes those behind it as links. -/
def words : List String → Reader → Except Refusal Reader
  | [], r => .ok r
  | text :: rest, r =>
    match Word.ofText text with
    | .mark => rest.foldlM (fun r text => r.link text) r
    | w => do words rest (← r.word w)

end Arguments.Reader

namespace Arguments

/-- The variable with the password, for which there may be no option. -/
def passwordVariable : String := "ABIQUO_PASSWORD"

def parse (env : Environment) (words : List String) : Except Refusal Arguments := do
  let a ← (← Reader.start.words words).resolve
  if a.tasks.isEmpty then .error .noTasks
  else .ok { a with password := a.password <|> env passwordVariable }

end Arguments
end TaskWatch.Watch

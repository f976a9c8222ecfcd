/-!
# Settings of the log

The level of the log and its format.  A format is named without regard to the case of ASCII letters.
-/

namespace TaskWatch.Config

inductive LogFormat where
  | pretty
  | json
deriving DecidableEq, Repr

structure Logging where
  level : String
  format : LogFormat
deriving DecidableEq, Repr

def Logging.standard : Logging := ⟨"info", .pretty⟩

namespace LogFormat

def name : LogFormat → String
  | pretty => "pretty"
  | json => "json"

def lowered (s : String) : String := String.ofList (s.toList.map Char.toLower)

def ofName? (s : String) : Option LogFormat :=
  let word := lowered s
  if word = "pretty" ∨ word = "text" then some pretty
  else if word = "json" then some json
  else none

def unknownMessage (s : String) : String := "Unknown log format: " ++ lowered s

end LogFormat
end TaskWatch.Config

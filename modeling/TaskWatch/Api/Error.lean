import TaskWatch.Json.Error

/-!
# Why the server could not be asked

The causes for which asking the server gives no answer, and the words for them.  `isTransient` says
whether asking again later may help.
-/

namespace TaskWatch.Api

open TaskWatch.Decimal (natText)

inductive Error where
  /-- There was no answer. -/
  | noAnswer
  /-- The answer has another status than success. -/
  | status (code : UInt16) (body : String)
  | notFound (what : String)
  /-- The answer is not what was asked for. -/
  | undecodable (cause : Json.Error)
  | missingLink (resource rel : String)
  | unavailable (why : String)
  | invalidConfig (why : String)
  | internal (why : String)
deriving DecidableEq, Repr

namespace Error

/-- Whether the same question may be answered later. -/
def isTransient : Error → Bool
  | noAnswer | unavailable _ => true
  | status code _ => 500 ≤ code || code == 429
  | _ => false

/-- The words for an error.  How a connection broke and where a text is no JSON is not told. -/
def message? : Error → Option String
  | noAnswer => none
  | status code body =>
    some ("Unexpected response status " ++ natText code.toNat ++ ": " ++ body)
  | notFound what => some ("Resource not found: " ++ what)
  | undecodable (.data cause) => some ("Failed to decode response: " ++ cause.message)
  | undecodable _ => none
  | missingLink resource rel => some ("Resource " ++ resource ++ " has no '" ++ rel ++ "' link")
  | unavailable why => some ("Service unavailable: " ++ why)
  | invalidConfig why => some ("Invalid configuration: " ++ why)
  | internal why => some ("Internal error: " ++ why)

end Error
end TaskWatch.Api

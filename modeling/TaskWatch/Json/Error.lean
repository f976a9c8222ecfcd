import TaskWatch.Decimal.Layout
import TaskWatch.Text.Quoted

/-!
# Why a text is not the value asked for

A reader of JSON text fails in one of three ways: the text ends too early, it is not JSON, or it is
JSON of the wrong shape.  Only the last kind says more, and `Mismatch.message` puts it into words.
-/

namespace TaskWatch.Json

open TaskWatch.Decimal

/-- What a place of a text should have held. -/
inductive Wanted where
  | string
  | int64
  | uint32
  | uint64
  | unit
  | sequence
  | stringOrMap
  | record (name : String)
deriving DecidableEq, Repr

inductive Found where
  | null
  | boolean (b : Bool)
  | integer (n : Int)
  | float (negative : Bool) (size : Binary64)
  | string (s : String)
  | sequence
  | object
deriving DecidableEq, Repr

inductive Mismatch where
  | missingField (name : String)
  | duplicateField (name : String)
  | unknownVariant (name : String) (known : List String)
  | wrongType (found : Found) (wanted : Wanted)
  | wrongValue (found : Int) (wanted : Wanted)
  | wrongLength (found : Nat) (record : String) (fields : Nat)
  /-- A list with more items than the record has fields. -/
  | surplusItems (found : Nat)
  /-- An object in the place of a name that has not one member. -/
  | manyMembers
deriving DecidableEq, Repr

inductive Error where
  /-- The text ends inside a value. -/
  | eof
  /-- The text is no JSON. -/
  | malformed
  /-- The text holds another value than the one asked for. -/
  | data (cause : Mismatch)
deriving DecidableEq, Repr

/-- Numbers from `1e-5` up to, but not including, `1e16` are written without an exponent. -/
def floatLayout : Layout := ⟨-5, 15, true⟩

def Wanted.phrase : Wanted → String
  | .string => "a string"
  | .int64 => "i64"
  | .uint32 => "u32"
  | .uint64 => "u64"
  | .unit => "unit"
  | .sequence => "a sequence"
  | .stringOrMap => "string or map"
  | .record name => "struct " ++ name

/-- A word between two grave accents. -/
def ticked (s : String) : String := "\x60" ++ s ++ "\x60"

def integerPhrase (n : Int) : String := "integer " ++ ticked (String.ofList (signedDigits n))

def Found.phrase : Found → String
  | .null => "null"
  | .boolean b => "boolean " ++ ticked (if b then "true" else "false")
  | .integer n => integerPhrase n
  | .float negative size =>
    "floating point " ++ ticked (String.ofList (floatLayout.render negative size))
  | .string s => "string " ++ Text.quoted s
  | .sequence => "sequence"
  | .object => "map"

def Mismatch.message : Mismatch → String
  | .missingField name => "missing field " ++ ticked name
  | .duplicateField name => "duplicate field " ++ ticked name
  | .unknownVariant name known =>
    "unknown variant " ++ ticked name ++ ", expected one of " ++ ", ".intercalate (known.map ticked)
  | .wrongType found wanted => "invalid type: " ++ found.phrase ++ ", expected " ++ wanted.phrase
  | .wrongValue found wanted =>
    "invalid value: " ++ integerPhrase found ++ ", expected " ++ wanted.phrase
  | .wrongLength found record fields =>
    "invalid length " ++ natText found ++ ", expected " ++ (Wanted.record record).phrase
      ++ " with " ++ natText fields ++ (if fields = 1 then " element" else " elements")
  | .surplusItems found => "invalid length " ++ natText found ++
      ", expected fewer elements in array"
  | .manyMembers => "invalid value: map, expected map with a single key"

end TaskWatch.Json

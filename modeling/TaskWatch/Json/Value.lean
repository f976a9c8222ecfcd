import TaskWatch.Json.Number

/-!
# Values that have been read already

A text can also be read as it is, without asking for a type.  `Value` is what it holds then.
-/

namespace TaskWatch.Json

inductive Value where
  | null
  | boolean (b : Bool)
  | number (n : Number)
  | string (s : String)
  | list (items : List Value)
  | object (members : List (String × Value))
deriving Inhabited

def Value.found : Value → Found
  | .null => .null
  | .boolean b => .boolean b
  | .number n => n.found
  | .string s => .string s
  | .list _ => .sequence
  | .object _ => .object

end TaskWatch.Json

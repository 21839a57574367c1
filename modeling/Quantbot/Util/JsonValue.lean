import Mathlib

/-!
Values as `json.loads` builds them. The keys of an object are distinct.
-/

namespace Quantbot

inductive JsonValue where
  | null
  | bool (b : Bool)
  | int (n : ℤ)
  | float (q : ℚ)
  | nan
  | infinity (negative : Bool)
  | str (s : String)
  | arr (items : List JsonValue)
  | obj (fields : List (String × JsonValue))

abbrev JsonObject := List (String × JsonValue)

namespace JsonValue

def truthy : JsonValue → Bool
  | null => false
  | bool b => b
  | int n => n ≠ 0
  | float q => q ≠ 0
  | nan => true
  | infinity _ => true
  | str s => s ≠ ""
  | arr items => !items.isEmpty
  | obj fields => !fields.isEmpty

/--
`isinstance(v, int)`, which a boolean passes as 0 or 1.
-/
def asInt : JsonValue → Option ℤ
  | bool b => some (if b then 1 else 0)
  | int n => some n
  | _ => none

/--
An integer that is not a boolean.
-/
def strictInt : JsonValue → Option ℤ
  | int n => some n
  | _ => none

def asStr : JsonValue → Option String
  | str s => some s
  | _ => none

def asObj : JsonValue → Option JsonObject
  | obj fields => some fields
  | _ => none

/--
`v == n`, where a float may equal an integer.
-/
def equalsInt (v : JsonValue) (n : ℤ) : Bool :=
  match v with
  | float q => q = n
  | v => v.asInt = some n

end JsonValue

namespace JsonObject

def str? (o : JsonObject) (key : String) : Option String :=
  (o.lookup key).bind JsonValue.asStr

def strictInt? (o : JsonObject) (key : String) : Option ℤ :=
  (o.lookup key).bind JsonValue.strictInt

end JsonObject

end Quantbot

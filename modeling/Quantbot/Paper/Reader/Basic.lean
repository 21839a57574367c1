import Quantbot.Paper.ConfigContract
import Quantbot.Paper.Timestamp.Iso
import Quantbot.Util.JsonRoundTrip

/-!
Reading persisted artifacts: their bytes, their JSON, and the checks of a value.
-/

namespace Quantbot
namespace PaperReader

/--
The errors that the readers declare, with the artifact and what is wrong with it, and any other
exception.
-/
inductive ReadError where
  | ledgerCorruption (artifact fault : String)
  | configContract (fault : String)
  | escaped (e : PyError)
deriving DecidableEq

inductive PaperFile where
  | missing
  | unreadable
  | bytes (data : Bytes)

section lines

/--
What can complete a character of which the first bytes are there.
-/
def utf8Completions : List Bytes :=
  [[], [0x80], [0x80, 0x80], [0xa0, 0x80], [0x80, 0x80, 0x80], [0x90, 0x80, 0x80]]

def canContinue (data : Bytes) : Bool :=
  utf8Completions.any (fun rest => (Json.decodeUtf8 (data ++ rest)).isSome)

/--
The characters that are complete.
-/
def decodedSoFar (data : Bytes) : List Char :=
  ([0, 1, 2, 3].findSome? (fun n => Json.decodeUtf8 (data.take (data.length - n)))).getD []

def translateNewlines : List Char → List Char
  | '\r' :: '\n' :: cs => '\n' :: translateNewlines cs
  | '\r' :: cs => '\n' :: translateNewlines cs
  | c :: cs => c :: translateNewlines cs
  | [] => []

/--
How many bytes have been decoded before a fault is met, where they are read by the buffer.
-/
def decodedBytes (buffer : ℕ) (data : Bytes) : ℕ :=
  if canContinue data then
    data.length
  else
    (((List.range (data.length / buffer + 1)).map (fun k => k * buffer)).takeWhile
      (fun n => canContinue (data.take n))).getLastD 0

/--
The lines of a text file, and whether a `UnicodeDecodeError` comes after them.
-/
def fileLines (buffer : ℕ) (data : Bytes) : List (List Char) × Bool :=
  match Json.decodeUtf8 data with
  | some text => ((translateNewlines text).splitOn '\n', false)
  | none =>
    let text := decodedSoFar (data.take (decodedBytes buffer data))
    -- a carriage return at the end waits for what follows
    let text := if text.getLast? = some '\r' then text.dropLast else text
    (((translateNewlines text).splitOn '\n').dropLast, true)

/--
`c.isspace()`
-/
def isWhitespace (c : Char) : Bool :=
  let n := c.toNat
  (9 ≤ n && n ≤ 13) || (28 ≤ n && n ≤ 32) || n = 0x85 || n = 0xa0 || n = 0x1680
    || (0x2000 ≤ n && n ≤ 0x200a) || n = 0x2028 || n = 0x2029 || n = 0x202f || n = 0x205f
    || n = 0x3000

def strip (cs : List Char) : List Char :=
  ((cs.dropWhile isWhitespace).reverse.dropWhile isWhitespace).reverse

end lines

section read

variable (i : Json.Interpreter) (float : List Char → JsonValue)

/--
The object that a text holds. Only a `JSONDecodeError` is caught.
-/
def readObject (fail : String → ReadError) (text : List Char) : Except ReadError JsonObject :=
  match Json.loads (Json.plainHooks i float) text with
  | .ok (.obj fields) => .ok fields
  | .ok _ => .error (fail "not an object")
  | .error .decodeError => .error (fail "not valid JSON")
  | .error (.hook e) => nomatch e
  | .error .valueError => .error (.escaped .valueError)
  | .error .recursionError => .error (.escaped .recursionError)

def readJsonl (buffer : ℕ) (artifact : String) : PaperFile → Except ReadError (List JsonObject)
  | .missing => .ok []
  | .unreadable => .error (.ledgerCorruption artifact "could not be read")
  | .bytes data => do
    let lines := ((fileLines buffer data).1.map strip).filter (fun line => line ≠ [])
    let rows ← lines.mapM (readObject i float (.ledgerCorruption artifact))
    if (fileLines buffer data).2 then
      .error (.ledgerCorruption artifact "not valid UTF-8")
    else
      .ok rows

/--
An object, or nothing when the file is absent.
-/
def readJsonObj (artifact : String) : PaperFile → Except ReadError (Option JsonObject)
  | .missing => .ok none
  | .unreadable => .error (.ledgerCorruption artifact "could not be read")
  | .bytes data =>
    match Json.decodeUtf8 data with
    | none => .error (.ledgerCorruption artifact "not valid UTF-8")
    | some text => (readObject i float (.ledgerCorruption artifact) text).map some

end read

section tests

/--
`isinstance(v, (int, float)) and not isinstance(v, bool)`
-/
def isNumber : JsonValue → Bool
  | .int _ => true
  | .float _ => true
  | .nan => true
  | .infinity _ => true
  | _ => false

/--
`math.isfinite(v)`, which makes a float of an integer first.
-/
def isfinite : JsonValue → Except PyError Bool
  | .int n => if (floatOfInt n).isSome then .ok true else .error .overflowError
  | .bool _ => .ok true
  | .float _ => .ok true
  | .nan => .ok false
  | .infinity _ => .ok false
  | _ => .error .typeError

/--
The comparison of a number with zero.
-/
def comparesToZero (p : ℚ → Bool) : JsonValue → Except PyError Bool
  | .int n => .ok (p n)
  | .bool b => .ok (p (if b then 1 else 0))
  | .float q => .ok (p q)
  | .nan => .ok false
  | .infinity negative => .ok (p (if negative then -1 else 1))
  | _ => .error .typeError

def finiteNumber (v : JsonValue) : Except PyError Bool :=
  if isNumber v then isfinite v else .ok false

def boundedFinite (p : ℚ → Bool) (v : JsonValue) : Except PyError Bool := do
  if ← finiteNumber v then comparesToZero p v else .ok false

def nonnegFinite (v : JsonValue) : Except PyError Bool :=
  boundedFinite (fun q => 0 ≤ q) v

def positiveFinite (v : JsonValue) : Except PyError Bool :=
  boundedFinite (fun q => 0 < q) v

def nonnegInt : JsonValue → Bool
  | .int n => 0 ≤ n
  | _ => false

def nonemptyStr : JsonValue → Bool
  | .str s => s ≠ ""
  | _ => false

def strList : JsonValue → Bool
  | .arr items => items.all nonemptyStr
  | _ => false

def isTimestamp : JsonValue → Bool
  | .str s => s ≠ "" && parseableTimestamp s
  | _ => false

/--
`_parse_bar` catches what is no text.
-/
def isBarTs : JsonValue → Bool
  | .str s => parseableBarTs s
  | _ => false

def isBool : JsonValue → Bool
  | .bool _ => true
  | _ => false

/--
`v in allowed`, which takes the hash of `v`.
-/
def inSet (allowed : List String) : JsonValue → Except PyError Bool
  | .str s => .ok (s ∈ allowed)
  | .arr _ => .error .typeError
  | .obj _ => .error .typeError
  | _ => .ok false

/--
`v == s`
-/
def equalsStr (s : String) : JsonValue → Bool
  | .str s' => s' = s
  | _ => false

def len : JsonValue → Except PyError ℤ
  | .str s => .ok s.length
  | .arr items => .ok items.length
  | .obj fields => .ok fields.length
  | _ => .error .typeError

def item (obj : JsonObject) (key : String) : Except PyError JsonValue :=
  match obj.lookup key with
  | some v => .ok v
  | none => .error .keyError

/--
`obj.get(key)`
-/
def get (obj : JsonObject) (key : String) : JsonValue :=
  (obj.lookup key).getD .null

def hasExactly (expected : List String) (obj : JsonObject) : Bool :=
  expected.all (fun k => k ∈ obj.map Prod.fst) && (obj.map Prod.fst).all (fun k => k ∈ expected)

end tests

section checks

/--
The kinds of field.
-/
inductive Rule where
  | numeric
  | nonneg
  | positive
  | nullOrNumeric
  | nonnegInt
  | string
  | timestamp
  | barTs
  | emptyOrBarTs
  | strList
  | bool
  | enum (allowed : List String)
  | known (allowed : List String)
  | literal (s : String)

def Rule.test : Rule → JsonValue → Except PyError Bool
  | numeric, v => finiteNumber v
  | nonneg, v => nonnegFinite v
  | positive, v => positiveFinite v
  | nullOrNumeric, .null => .ok true
  | nullOrNumeric, v => finiteNumber v
  | nonnegInt, v => .ok (PaperReader.nonnegInt v)
  | string, v => .ok (nonemptyStr v)
  | timestamp, v => .ok (isTimestamp v)
  | barTs, v => .ok (isBarTs v)
  | emptyOrBarTs, v => .ok (equalsStr "" v || isBarTs v)
  | strList, v => .ok (PaperReader.strList v)
  | bool, v => .ok (isBool v)
  | enum allowed, v => inSet allowed v
  -- tested to be a string first
  | known allowed, v => .ok (allowed.any (fun s => equalsStr s v))
  | literal s, v => .ok (equalsStr s v)

/--
One refusal: of a field by its kind, of several fields that are all tested before any is refused, or
by another test.
-/
inductive Check where
  | rule (field : String) (r : Rule) (v : JsonValue)
  | every (field : String) (rules : List (Rule × JsonValue)) (more : Bool)
  | guard (field : String) (test : Except PyError Bool)

def Check.field : Check → String
  | rule field _ _ => field
  | every field _ _ => field
  | guard field _ => field

def Check.test : Check → Except PyError Bool
  | rule _ r v => r.test v
  | every _ rules more => do
    let passes ← rules.mapM (fun p => p.1.test p.2)
    .ok (passes.all id && more)
  | guard _ test => test

def Check.run (fail : String → ReadError) (c : Check) : Except ReadError Unit := do
  if ← c.test.mapError .escaped then .ok () else .error (fail c.field)

def runChecks (fail : String → ReadError) (checks : List Check) : Except ReadError Unit :=
  checks.forM (Check.run fail)

end checks

end PaperReader
end Quantbot

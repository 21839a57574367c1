import Quantbot.Util.JsonKeys
import Quantbot.Util.Sha256

/-!
`json.loads` with its hooks, and how it reads the compact text of a value.
-/

namespace Quantbot

namespace Json

/--
What reading a text can end with: a `JSONDecodeError`, the exception of a hook, an integer with
too many digits, or brackets nested too deep.
-/
inductive LoadsError (ε : Type) where
  | decodeError
  | hook (e : ε)
  | valueError
  | recursionError
deriving DecidableEq

/--
`object_pairs_hook`, `parse_constant` and `parse_float`, and the brackets that may be open at once.
-/
structure Hooks (ε : Type) where
  pairs : JsonObject → Except ε JsonObject
  constant : JsonValue → Except ε JsonValue
  float : List Char → JsonValue
  nesting : ℕ

abbrev Reader (ε α : Type) := List Char → Except (LoadsError ε) (α × List Char)

/--
`sys.int_info.default_max_str_digits`
-/
def maxStrDigits : ℕ :=
  4300

def isSpace (c : Char) : Bool :=
  c ∈ [' ', '\t', '\n', '\r']

def skip (s : List Char) : List Char :=
  s.dropWhile isSpace

section strings

def hexDigit? (c : Char) : Option ℕ :=
  if c.isDigit then
    some (c.toNat - 48)
  else if c ∈ "abcdef".toList then
    some (c.toNat - 87)
  else if c ∈ "ABCDEF".toList then
    some (c.toNat - 55)
  else
    none

def hexUnit? (a b c d : Char) : Option ℕ := do
  let a ← hexDigit? a
  let b ← hexDigit? b
  let c ← hexDigit? c
  let d ← hexDigit? d
  some (((a * 16 + b) * 16 + c) * 16 + d)

/--
The character that a backslash and another character stand for.
-/
def escape? (c : Char) : Option ℕ :=
  if c ∈ ['"', '\\', '/'] then
    some c.toNat
  else if c = 'b' then
    some 0x08
  else if c = 'f' then
    some 0x0c
  else if c = 'n' then
    some 0x0a
  else if c = 'r' then
    some 0x0d
  else if c = 't' then
    some 0x09
  else
    none

/--
The code units of a string up to its closing quote. Control characters must be escaped.
-/
def scanUnits : List Char → Option (List ℕ × List Char)
  | [] => none
  | '"' :: s => some ([], s)
  | '\\' :: 'u' :: a :: b :: c :: d :: s => do
    let unit ← hexUnit? a b c d
    let (units, rest) ← scanUnits s
    some (unit :: units, rest)
  | '\\' :: e :: s => do
    let unit ← escape? e
    let (units, rest) ← scanUnits s
    some (unit :: units, rest)
  | c :: s =>
    if c.toNat < 0x20 then
      none
    else do
      let (units, rest) ← scanUnits s
      some (c.toNat :: units, rest)

def isHigh (unit : ℕ) : Bool :=
  0xd800 ≤ unit && unit < 0xdc00

def isLow (unit : ℕ) : Bool :=
  0xdc00 ≤ unit && unit < 0xe000

/--
A surrogate without its other half becomes the replacement character, as no `Char` is a surrogate.
-/
def unitChar (unit : ℕ) : Char :=
  if isHigh unit || isLow unit then '\ufffd' else Char.ofNat unit

def joinUnits : List ℕ → List Char
  | [] => []
  | [unit] => [unitChar unit]
  | unit :: next :: units =>
    if isHigh unit && isLow next then
      Char.ofNat (0x10000 + (unit - 0xd800) * 0x400 + (next - 0xdc00)) :: joinUnits units
    else
      unitChar unit :: joinUnits (next :: units)

def scanString {ε : Type} : Reader ε String := fun s =>
  match scanUnits s with
  | some (units, rest) => .ok (String.ofList (joinUnits units), rest)
  | none => .error .decodeError

end strings

section numbers

def wholePart (s : List Char) : List Char × List Char :=
  match s with
  | '0' :: rest => (['0'], rest)
  | s => s.span Char.isDigit

def fractionPart (s : List Char) : List Char × List Char :=
  match s with
  | '.' :: rest =>
    let (digits, rest') := rest.span Char.isDigit
    if digits = [] then ([], s) else ('.' :: digits, rest')
  | s => ([], s)

def exponentPart (s : List Char) : List Char × List Char :=
  match s with
  | e :: rest =>
    if e ∈ ['e', 'E'] then
      let (sign, rest) :=
        match rest with
        | '+' :: rest => (['+'], rest)
        | '-' :: rest => (['-'], rest)
        | rest => ([], rest)
      let (digits, rest') := rest.span Char.isDigit
      if digits = [] then ([], s) else (e :: sign ++ digits, rest')
    else
      ([], s)
  | [] => ([], [])

variable {ε : Type}

/--
The integer of a sign and digits.
-/
def parseInt (negative : Bool) (digits : List Char) : Except (LoadsError ε) JsonValue :=
  if maxStrDigits < digits.length then
    .error .valueError
  else
    let n := Nat.ofDigitChars 10 digits 0
    .ok (.int (if negative then -n else n))

def number (hooks : Hooks ε) : Reader ε JsonValue := fun s =>
  let (negative, unsigned) :=
    match s with
    | '-' :: rest => (true, rest)
    | s => (false, s)
  let (whole, rest) := wholePart unsigned
  if whole = [] then
    .error .decodeError
  else
    let (fraction, rest) := fractionPart rest
    let (exponent, rest) := exponentPart rest
    if fraction = [] ∧ exponent = [] then do
      let v ← parseInt negative whole
      .ok (v, rest)
    else
      let sign := if negative then ['-'] else []
      .ok (hooks.float (sign ++ whole ++ fraction ++ exponent), rest)

end numbers

section values

variable {ε : Type} (hooks : Hooks ε)

def hooked {α : Type} (x : Except ε α) : Except (LoadsError ε) α :=
  x.mapError .hook

def after (word : String) (s : List Char) : Option (List Char) :=
  word.toList.isPrefixOf? s

def constant (v : JsonValue) (rest : List Char)
    : Except (LoadsError ε) (JsonValue × List Char) := do
  let v ← hooked (hooks.constant v)
  .ok (v, rest)

def scanAtom : Reader ε JsonValue := fun s =>
  if let some rest := after "null" s then
    .ok (.null, rest)
  else if let some rest := after "true" s then
    .ok (.bool true, rest)
  else if let some rest := after "false" s then
    .ok (.bool false, rest)
  else if let some rest := after "NaN" s then
    constant hooks .nan rest
  else if let some rest := after "Infinity" s then
    constant hooks (.infinity false) rest
  else if let some rest := after "-Infinity" s then
    constant hooks (.infinity true) rest
  else
    number hooks s

/--
Items separated by commas up to a closing bracket. The bound on their number is the length of the
text, and an item is not empty.
-/
def scanItems {α : Type} (item : Reader ε α) (close : Char) : ℕ → Reader ε (List α)
  | 0, _ => .error .decodeError
  | bound + 1, s => do
    let (v, s) ← item s
    match skip s with
    | [] => .error .decodeError
    | c :: s =>
      if c = close then
        .ok ([v], s)
      else if c = ',' then do
        let (vs, s) ← scanItems item close bound (skip s)
        .ok (v :: vs, s)
      else
        .error .decodeError

/--
What stands between an opening bracket and its closing one.
-/
def scanBlock {α : Type} (item : Reader ε α) (close : Char) : Reader ε (List α) := fun s =>
  match skip s with
  | [] => .error .decodeError
  | c :: s => if c = close then .ok ([], s) else scanItems item close (s.length + 1) (c :: s)

def scanField (value : Reader ε JsonValue) : Reader ε (String × JsonValue) := fun s =>
  match s with
  | '"' :: s => do
    let (key, s) ← scanString s
    match skip s with
    | ':' :: s => do
      let (v, s) ← value (skip s)
      .ok ((key, v), s)
    | _ => .error .decodeError
  | _ => .error .decodeError

/--
`scan_once`, below a number of open brackets.
-/
def scanOnce : ℕ → Reader ε JsonValue
  | depth, s =>
    match s with
    | [] => .error .decodeError
    | c :: rest =>
      if c = '"' then do
        let (t, rest) ← scanString rest
        .ok (.str t, rest)
      else if c = '[' then
        match depth with
        | 0 => .error .recursionError
        | depth + 1 => do
          let (items, rest) ← scanBlock (fun s => scanOnce depth s) ']' rest
          .ok (.arr items, rest)
      else if c = '\x7b' then
        match depth with
        | 0 => .error .recursionError
        | depth + 1 => do
          let (pairs, rest) ← scanBlock (scanField (fun s => scanOnce depth s)) '\x7d' rest
          let fields ← hooked (hooks.pairs pairs)
          .ok (.obj fields, rest)
      else
        scanAtom hooks s

def loads (s : List Char) : Except (LoadsError ε) JsonValue := do
  let (v, rest) ← scanOnce hooks hooks.nesting (skip s)
  if skip rest = [] then .ok v else .error .decodeError

end values

/--
How deep the interpreter recurses: the brackets that `json.loads` may open, and the calls that a
function may nest. The documents that the program writes itself fit.
-/
structure Interpreter where
  nesting : ℕ
  frames : ℕ
  room : 16 ≤ nesting

/--
`json.loads` without hooks of its own: the last of several equal keys counts.
-/
def plainHooks (i : Interpreter) (float : List Char → JsonValue) : Hooks Empty where
  pairs := fun pairs => .ok (JsonObject.ofPairs pairs)
  constant := .ok
  float := float
  nesting := i.nesting

/--
`data.decode("utf-8")`
-/
def decodeUtf8 (data : Bytes) : Option (List Char) :=
  (ByteArray.mk data.toArray).utf8Decode?.map Array.toList

end Json

end Quantbot

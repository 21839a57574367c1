import Mathlib

/-!
Texts as `json.dumps` writes them with `ensure_ascii=True`.
-/

namespace Quantbot
namespace Json

def hexDigits4 (n : ℕ) : List Char :=
  [3, 2, 1, 0].map (fun i => "0123456789abcdef".toList.getD (n / 16 ^ i % 16) '0')

def unicodeEscape (n : ℕ) : List Char :=
  '\\' :: 'u' :: hexDigits4 n

def escapeChar (c : Char) : List Char :=
  let n := c.toNat
  if n = 0x22 then
    ['\\', c]
  else if n = 0x5c then
    ['\\', c]
  else if n = 0x0a then
    ['\\', 'n']
  else if n = 0x0d then
    ['\\', 'r']
  else if n = 0x09 then
    ['\\', 't']
  else if n = 0x0c then
    ['\\', 'f']
  else if n = 0x08 then
    ['\\', 'b']
  else if 0x20 ≤ n ∧ n ≤ 0x7e then
    [c]
  else if n < 0x10000 then
    unicodeEscape n
  else
    -- outside the basic plane: a surrogate pair
    unicodeEscape (0xd800 + (n - 0x10000) / 0x400) ++ unicodeEscape (0xdc00 + (n - 0x10000) % 0x400)

def quote (s : String) : String :=
  String.ofList ('"' :: s.toList.flatMap escapeChar ++ ['"'])

/--
Decimal digits of a number in `[0, 1)`, up to a number of them.
-/
def fractionDigits : ℕ → ℚ → List Char
  | 0, _ => []
  | fuel + 1, q =>
    if q = 0 then
      []
    else
      Nat.digitChar (10 * q).floor.toNat :: fractionDigits fuel (10 * q - (10 * q).floor)

def decimal (q : ℚ) : String :=
  let digits := fractionDigits 20 (q - q.floor)
  toString q.floor ++ "." ++ if digits = [] then "0" else String.ofList digits

/--
The exponent of a positive number below one and its mantissa in `[1, 10)`.
-/
def normalize : ℕ → ℕ → ℚ → ℕ × ℚ
  | 0, e, q => (e, q)
  | fuel + 1, e, q => if q < 1 then normalize fuel (e + 1) (10 * q) else (e, q)

/--
The exponent of a number from ten on and its mantissa in `[1, 10)`.
-/
def normalizeLarge : ℕ → ℕ → ℚ → ℕ × ℚ
  | 0, e, q => (e, q)
  | fuel + 1, e, q => if 10 ≤ q then normalizeLarge fuel (e + 1) (q / 10) else (e, q)

def mantissa (q : ℚ) : String :=
  let digits := fractionDigits 17 (q - q.floor)
  toString q.floor ++ if digits = [] then "" else "." ++ String.ofList digits

/--
The `repr` of a positive float, with an exponent below `1e-4` and from `1e16` on.
-/
def positiveFloat (q : ℚ) : String :=
  if 1 / 10000 ≤ q ∧ q < 10 ^ 16 then
    decimal q
  else if q < 1 then
    let (e, m) := normalize 400 0 q
    mantissa m ++ "e-" ++ (if e < 10 then "0" else "") ++ toString e
  else
    let (e, m) := normalizeLarge 400 0 q
    mantissa m ++ "e+" ++ toString e

def float (q : ℚ) : String :=
  if q = 0 then
    "0.0"
  else if q < 0 then
    "-" ++ positiveFloat (-q)
  else
    positiveFloat q

def int (z : ℤ) : String :=
  toString z

def bool (b : Bool) : String :=
  if b then "true" else "false"

def nullable {α : Type} (value : α → String) (o : Option α) : String :=
  (o.map value).getD "null"

def line (left right : String) (items : List String) : String :=
  left ++ ", ".intercalate items ++ right

def field (f : String × String) : String :=
  quote f.1 ++ ": " ++ f.2

/--
An object on one line; the fields are given in the order of their keys.
-/
def object (fields : List (String × String)) : String :=
  line "\x7b" "\x7d" (fields.map field)

def strings (items : List String) : String :=
  line "[" "]" (items.map quote)

def block (depth : ℕ) (left right : String) (items : List String) : String :=
  if items = [] then
    left ++ right
  else
    let indent (n : ℕ) := "\n" ++ String.ofList (List.replicate (2 * n) ' ')
    left ++ indent (depth + 1) ++ ("," ++ indent (depth + 1)).intercalate items ++ indent depth
      ++ right

/--
An object with `indent=2` at a nesting depth.
-/
def objectBlock (depth : ℕ) (fields : List (String × String)) : String :=
  block depth "\x7b" "\x7d" (fields.map field)

def stringsBlock (depth : ℕ) (items : List String) : String :=
  block depth "[" "]" (items.map quote)

end Json
end Quantbot

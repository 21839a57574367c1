import Quantbot.Paper.Reader.Basic

/-!
`csv.DictReader` with its default dialect on a file that is opened with `newline=""`.
-/

namespace Quantbot

namespace Csv

section lines

/--
The lines with their ends, which are all three that text mode knows. `line` is the one begun.
-/
def splitLines (line : List Char) : List Char → List (List Char)
  | '\r' :: '\n' :: cs => (line ++ ['\r', '\n']) :: splitLines [] cs
  | '\r' :: cs => (line ++ ['\r']) :: splitLines [] cs
  | '\n' :: cs => (line ++ ['\n']) :: splitLines [] cs
  | c :: cs => splitLines (line ++ [c]) cs
  | [] => if line = [] then [] else [line]

/--
What text mode yields: lines, and whether a `UnicodeDecodeError` comes after them.
-/
structure TextLines where
  lines : List (List Char)
  broken : Bool
deriving DecidableEq

def isComplete (line : List Char) : Bool :=
  line.getLast? = some '\n' || line.getLast? = some '\r'

/--
The file is decoded by the buffer, and a line that is not complete before the fault is lost.
-/
def textLines (buffer : ℕ) (data : Bytes) : TextLines :=
  match Json.decodeUtf8 data with
  | some text => { lines := splitLines [] text, broken := false }
  | none =>
    let text := PaperReader.decodedSoFar (data.take (PaperReader.decodedBytes buffer data))
    let text := if text.getLast? = some '\r' then text.dropLast else text
    { lines := (splitLines [] text).filter isComplete, broken := true }

end lines

section reader

def fieldLimit : ℕ :=
  131072

inductive State
  | startRecord
  | startField
  | inField
  | inQuotedField
  | quoteInQuotedField
  | eatCrnl
deriving DecidableEq

/--
`csv.Error` with its message, or an exception of the file.
-/
inductive ReadError
  | csv (message : String)
  | unicode
deriving DecidableEq

structure Reader where
  state : State
  field : List Char
  fields : List String
deriving DecidableEq

namespace Reader

def start : Reader where
  state := .startRecord
  field := []
  fields := []

def addChar (r : Reader) (c : Char) (state : State) : Except ReadError Reader :=
  if fieldLimit ≤ r.field.length then
    .error (.csv "field larger than field limit (131072)")
  else
    .ok { r with field := r.field ++ [c], state := state }

def saveField (r : Reader) (state : State) : Reader :=
  { state := state, field := [], fields := r.fields ++ [String.ofList r.field] }

def isNewline (c : Char) : Bool :=
  c = '\n' || c = '\r'

def startField (r : Reader) (c : Char) : Except ReadError Reader :=
  if isNewline c then .ok (r.saveField .eatCrnl)
  else if c = '"' then .ok { r with state := .inQuotedField }
  else if c = ',' then .ok (r.saveField .startField)
  else r.addChar c .inField

/--
A character of a line.
-/
def processChar (r : Reader) (c : Char) : Except ReadError Reader :=
  match r.state with
  | .startRecord => if isNewline c then .ok { r with state := .eatCrnl } else r.startField c
  | .startField => r.startField c
  | .inField =>
    if isNewline c then .ok (r.saveField .eatCrnl)
    else if c = ',' then .ok (r.saveField .startField)
    else r.addChar c .inField
  | .inQuotedField =>
    if c = '"' then .ok { r with state := .quoteInQuotedField } else r.addChar c .inQuotedField
  | .quoteInQuotedField =>
    if c = '"' then r.addChar c .inQuotedField
    else if c = ',' then .ok (r.saveField .startField)
    else if isNewline c then .ok (r.saveField .eatCrnl)
    else r.addChar c .inField
  | .eatCrnl =>
    if isNewline c then
      .ok r
    else
      .error (.csv ("new-line character seen in unquoted field - "
        ++ "do you need to open the file with newline=''?"))

/--
The end of a line. A quoted field goes on in the next.
-/
def processEol (r : Reader) : Reader :=
  match r.state with
  | .startRecord => r
  | .startField => r.saveField .startRecord
  | .inField => r.saveField .startRecord
  | .inQuotedField => r
  | .quoteInQuotedField => r.saveField .startRecord
  | .eatCrnl => { r with state := .startRecord }

def processLine (r : Reader) (line : List Char) : Except ReadError Reader := do
  return (← line.foldlM processChar r).processEol

/--
The records up to the error that ends the reading.
-/
def records (broken : Bool) : Reader → List (List Char) → List (List String) × Option ReadError
  | r, [] =>
    if broken then ([], some .unicode)
    else if r.field ≠ [] ∨ r.state = .inQuotedField then
      ([(r.saveField .startRecord).fields], none)
    else ([], none)
  | r, line :: lines =>
    match r.processLine line with
    | .error e => ([], some e)
    | .ok r =>
      if r.state = .startRecord then
        let (rest, e) := records broken start lines
        (r.fields :: rest, e)
      else
        records broken r lines

end Reader

def records (file : TextLines) : List (List String) × Option ReadError :=
  Reader.records file.broken .start file.lines

end reader

section dictReader

/--
The values of a row by their column names. Names without a value get `None`, values without a name
are left out. The last of several columns with one name counts.
-/
structure Row where
  cells : List (String × Option String)
deriving DecidableEq

def dictRow (fieldnames row : List String) : Row where
  cells := fieldnames.zip (row.map some ++ List.replicate (fieldnames.length - row.length) none)

/--
`None` inside is a missing value, outside a missing column.
-/
def Row.get (row : Row) (column : String) : Option (Option String) :=
  row.cells.reverse.lookup column

/--
The header, the rows, and the error that ends the reading. Blank rows do not count.
-/
structure Table where
  header : Option (List String)
  rows : List Row
  error : Option ReadError
deriving DecidableEq

def dictReader (file : TextLines) : Table :=
  match records file with
  | ([], error) => { header := none, rows := [], error }
  | (header :: rows, error) =>
    { header := some header, rows := (rows.filter (fun row => row ≠ [])).map (dictRow header), error }

example
    : dictReader (textLines 8192 (utf8Bytes "a,b\r\n\"x,\"\"\",\r\n\r\ny\n"))
      = { header := some ["a", "b"]
          rows := [⟨[("a", some "x,\""), ("b", some "")]⟩, ⟨[("a", some "y"), ("b", none)]⟩]
          error := none } := by
  decide +kernel

end dictReader

end Csv

end Quantbot

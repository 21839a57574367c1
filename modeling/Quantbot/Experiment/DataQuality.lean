import Quantbot.Util.Csv
import Quantbot.Util.DecimalText

/-!
The read-only data quality preflight of CSV directories.
-/

namespace Quantbot

namespace DataQuality

open Csv

/--
A schema of CSV files. The required columns are in the order of the alphabet.
-/
structure Profile where
  requiredColumns : List String
  timestampColumn : String
  timestamp_required : timestampColumn ∈ requiredColumns
deriving DecidableEq

def bars : Profile where
  requiredColumns := ["close", "timestamp", "volume"]
  timestampColumn := "timestamp"
  timestamp_required := by decide

def funding : Profile where
  requiredColumns := ["fundingRate", "fundingTime", "symbol"]
  timestampColumn := "fundingTime"
  timestamp_required := by decide

section cells

/--
`text.strip()`
-/
def strip (text : String) : List Char :=
  ((text.toList.dropWhile Decimal.isBlank).reverse.dropWhile Decimal.isBlank).reverse

def nullWords : List (List Char) :=
  ["nan".toList, "null".toList, "none".toList, "na".toList]

/--
An empty cell or a null word. A value that is missing is neither.
-/
def isNullCell (cell : Option String) : Bool :=
  cell.any (fun v => v = "" || nullWords.any (fun word => word = (strip v).map Char.toLower))

/--
The timestamp of a row, if it has one that is not blank.
-/
def timestampOf (column : String) (row : Row) : Option String :=
  match row.get column with
  | some (some ts) => if strip ts = [] then none else some ts
  | _ => none

end cells

section file

/--
What is reported of one CSV file.
-/
structure FileReport where
  path : String
  rowCount : ℕ
  headers : List String
  hasTimestampColumn : Bool
  missingRequiredColumns : List String
  hasDuplicateTimestamps : Bool
  hasNonMonotonicTimestamps : Bool
  hasNullValues : Bool
  nullColumns : List String
  nullRequiredColumns : List String
  optionalNullColumns : List String
  minTimestamp : Option String
  maxTimestamp : Option String
  error : Option String
deriving DecidableEq

/--
The report before anything is read.
-/
def FileReport.initial (path : String) : FileReport where
  path := path
  rowCount := 0
  headers := []
  hasTimestampColumn := false
  missingRequiredColumns := []
  hasDuplicateTimestamps := false
  hasNonMonotonicTimestamps := false
  hasNullValues := false
  nullColumns := []
  nullRequiredColumns := []
  optionalNullColumns := []
  minTimestamp := none
  maxTimestamp := none
  error := none

/--
A timestamp with a smaller text than the one before it.
-/
def nonMonotonic : List String → Bool
  | a :: b :: rest => b < a || nonMonotonic (b :: rest)
  | _ => false

def hasDuplicates (timestamps : List String) : Bool :=
  timestamps.length ≠ timestamps.dedup.length

variable (profile : Profile)

/--
What the header tells.
-/
def withHeader (report : FileReport) (headers : List String) : FileReport :=
  { report with
    headers := headers
    hasTimestampColumn := profile.timestampColumn ∈ headers
    missingRequiredColumns := profile.requiredColumns.filter (fun col => col ∉ headers) }

/--
What the rows tell.
-/
def withRows (report : FileReport) (headers : List String) (rows : List Row) : FileReport :=
  let report := { report with rowCount := rows.length }
  if rows = [] then
    report
  else
    let isNull (col : String) : Bool := rows.any (fun row => (row.get col).any isNullCell)
    let nullColumns := (headers.dedup.filter isNull).insertionSort (fun a b => a ≤ b)
    let nullRequiredColumns := nullColumns.filter (fun col => col ∈ profile.requiredColumns)
    let report := { report with
      nullColumns := nullColumns
      nullRequiredColumns := nullRequiredColumns
      optionalNullColumns := nullColumns.filter (fun col => col ∉ profile.requiredColumns)
      hasNullValues := nullRequiredColumns ≠ [] }
    let timestamps :=
      if profile.timestampColumn ∈ headers then
        rows.filterMap (timestampOf profile.timestampColumn)
      else []
    if timestamps = [] then
      report
    else
      { report with
        hasDuplicateTimestamps := hasDuplicates timestamps
        hasNonMonotonicTimestamps := nonMonotonic timestamps
        minTimestamp := timestamps.min?
        maxTimestamp := timestamps.max? }

/--
`csv.Error` is reported, a `UnicodeDecodeError` is raised.
-/
def inspectCsvFile (path : String) (file : TextLines) : Except PyError FileReport :=
  let table := dictReader file
  let headers := table.header.getD []
  let opened := if table.header = none ∧ table.error ≠ none then FileReport.initial path
    else withHeader profile (.initial path) headers
  match table.error with
  | some .unicode => .error .valueError
  | some (.csv message) => .ok { opened with error := some message }
  | none => .ok (withRows profile opened headers table.rows)

end file

section directory

/--
The regular files of a directory by their names, with what text mode yields of them.
-/
abbrev Directory :=
  List (String × TextLines)

/--
`entry.suffix.lower() == ".csv"`
-/
def isCsv (name : String) : Bool :=
  5 ≤ name.length && ".csv".toList <:+ name.toList.map Char.toLower

structure DirectoryReport where
  fileCount : ℕ
  csvFileCount : ℕ
  nonCsvFiles : List String
  totalRowCount : ℕ
  files : List FileReport
  globalMinTimestamp : Option String
  globalMaxTimestamp : Option String
  hasDuplicateTimestamps : Bool
  hasNonMonotonicTimestamps : Bool
  hasNullValues : Bool
  missingRequiredColumns : List String
deriving DecidableEq

def inspectInputDirectory (profile : Profile) (dir : Directory)
    : Except PyError DirectoryReport := do
  let entries := dir.insertionSort (fun a b => a.1 ≤ b.1)
  let csv := entries.filter (fun entry => isCsv entry.1)
  let files ← csv.mapM (fun entry => inspectCsvFile profile entry.1 entry.2)
  return {
    fileCount := entries.length
    csvFileCount := files.length
    nonCsvFiles := (entries.filter (fun entry => !isCsv entry.1)).map Prod.fst
    totalRowCount := (files.map FileReport.rowCount).sum
    files := files
    globalMinTimestamp := (files.filterMap FileReport.minTimestamp).min?
    globalMaxTimestamp := (files.filterMap FileReport.maxTimestamp).max?
    hasDuplicateTimestamps := files.any FileReport.hasDuplicateTimestamps
    hasNonMonotonicTimestamps := files.any FileReport.hasNonMonotonicTimestamps
    hasNullValues := files.any FileReport.hasNullValues
    missingRequiredColumns := profile.requiredColumns.filter
      (fun col => files.any (fun f => col ∈ f.missingRequiredColumns))
  }

end directory

section preflight

structure RoleReadiness where
  hasAnyRows : Bool
  hasTimestampColumn : Bool
  timestampsMonotonic : Bool
  noDuplicateTimestamps : Bool
  noNullRequiredValues : Bool
  missingRequiredColumns : List String
deriving DecidableEq

def readiness (r : DirectoryReport) : RoleReadiness where
  hasAnyRows := 0 < r.totalRowCount
  hasTimestampColumn := r.files.all FileReport.hasTimestampColumn
  timestampsMonotonic := !r.hasNonMonotonicTimestamps
  noDuplicateTimestamps := !r.hasDuplicateTimestamps
  noNullRequiredValues := !r.hasNullValues
  missingRequiredColumns := r.missingRequiredColumns

structure Preflight where
  roles : List (Profile × DirectoryReport)
  byRole : List (Profile × RoleReadiness)
  hasAnyRows : Bool
  hasTimestampColumn : Bool
  timestampsMonotonic : Bool
  noDuplicateTimestamps : Bool
  noNullRequiredValues : Bool
  missingRequiredColumns : List String
deriving DecidableEq

/--
The directories of bars and of funding, in this order.
-/
def roleDirs (barsDir fundingDir : Option Directory) : List (Profile × Directory) :=
  (barsDir.map (fun dir => (bars, dir))).toList ++ (fundingDir.map (fun dir => (funding, dir))).toList

def inspectRole (role : Profile × Directory) : Except PyError (Profile × DirectoryReport) := do
  return (role.1, ← inspectInputDirectory role.1 role.2)

/--
The flags over all roles.
-/
def preflightOf (roles : List (Profile × DirectoryReport)) : Preflight :=
  let byRole := roles.map (fun role => (role.1, readiness role.2))
  { roles := roles
    byRole := byRole
    hasAnyRows := 0 < (roles.map (fun role => role.2.totalRowCount)).sum
    hasTimestampColumn := byRole.all (fun role => role.2.hasTimestampColumn)
    timestampsMonotonic := !roles.any (fun role => role.2.hasNonMonotonicTimestamps)
    noDuplicateTimestamps := !roles.any (fun role => role.2.hasDuplicateTimestamps)
    noNullRequiredValues := !roles.any (fun role => role.2.hasNullValues)
    missingRequiredColumns :=
      ((roles.flatMap (fun role => role.2.missingRequiredColumns)).dedup).insertionSort
        (fun a b => a ≤ b) }

def buildDataQualityPreflightForRoles (barsDir fundingDir : Option Directory)
    : Except PyError Preflight :=
  let dirs := roleDirs barsDir fundingDir
  if dirs = [] then
    .error .valueError
  else do
    return preflightOf (← dirs.mapM inspectRole)

end preflight

section consumer

/--
`int(raw_ts)` of `parse_fixture_bars`. Underscores stand between digits only.
-/
def timestampInt (text : String) : Option ℤ :=
  let (negative, unsigned) := Decimal.takeSign ((strip text).map Decimal.asciiDigit)
  let groups := unsigned.splitOn '_'
  if groups.all (fun g => g ≠ [] && g.all Char.isDigit) then
    let n : ℤ := Nat.ofDigitChars 10 groups.flatten 0
    some (if negative then -n else n)
  else
    none

end consumer

end DataQuality

end Quantbot

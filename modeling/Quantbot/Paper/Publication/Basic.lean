import Mathlib
import Quantbot.Util.Sha256

/-!
`write_publication_receipt_v0`: concurrent calls on one receipt and its sidecar, one file-system step
at a time.
-/

namespace Quantbot

namespace Publication

/--
A resolved path.
-/
structure Path where
  parent : String
  name : String
deriving DecidableEq

namespace Path

/--
`path.with_name(path.name + ".publication.lock")`.
-/
def lock (path : Path) : Path :=
  { path with name := path.name ++ ".publication.lock" }

/--
What `mkstemp` makes of its random characters next to the path.
-/
def temp (path : Path) (random : String) : Path :=
  { path with name := "." ++ path.name ++ "." ++ random ++ ".tmp" }

end Path

/--
The files. Their directories exist.
-/
abbrev Files :=
  Path → Option Bytes

namespace Files

variable (files : Files)

def put (path : Path) (data : Bytes) : Files :=
  Function.update files path (some data)

def unlink (path : Path) : Files :=
  Function.update files path none

/--
`os.replace(source, target)`.
-/
def replace (source target : Path) : Files :=
  Function.update (Function.update files target (files source)) source none

section fields

variable {files} {path other source target : Path} {data : Bytes}

theorem put_self : files.put path data path = some data :=
  Function.update_self ..

theorem put_of_ne (h : other ≠ path) : files.put path data other = files other :=
  Function.update_of_ne h ..

theorem unlink_of_ne (h : other ≠ path) : files.unlink path other = files other :=
  Function.update_of_ne h ..

theorem replace_of_ne (hsource : other ≠ source) (htarget : other ≠ target)
    : files.replace source target other = files other := by
  unfold replace
  rw [Function.update_of_ne hsource, Function.update_of_ne htarget]

theorem replace_target (h : source ≠ target) : files.replace source target target = files source := by
  unfold replace
  rw [Function.update_of_ne h.symm, Function.update_self]

end fields

end Files

structure Outputs where
  receiptPath : Path
  sidecarPath : Path
deriving DecidableEq

def Outputs.lockPath (out : Outputs) : Path :=
  out.receiptPath.lock

def sidecarBytes (data : Bytes) : Bytes :=
  utf8Bytes (sha256Bytes data ++ "\n")

/--
The two files that are installed.
-/
inductive Target
  | receipt
  | sidecar
deriving DecidableEq

def Target.path (out : Outputs) : Target → Path
  | receipt => out.receiptPath
  | sidecar => out.sidecarPath

def Target.bytes (data : Bytes) : Target → Bytes
  | receipt => data
  | sidecar => sidecarBytes data

/--
Where a call is between two of its steps; `rest` is what it still has to write.
-/
inductive Phase
  | start
  | openLock
  | closeLock
  -- `receipt_path.exists() or sidecar_path.exists()`
  | receiptExists
  | sidecarExists
  -- the comparison with what exists
  | receiptPresent
  | sidecarPresent
  | readReceipt
  | readSidecar
  -- `_atomic_write_bytes`
  | createTemp (target : Target)
  | writeTemp (target : Target) (temp : Path) (rest : Bytes)
  | replaceTemp (target : Target) (temp : Path)
  | unlinkTemp (temp : Path)
  -- the `finally` clause, on the way to a return or with an exception
  | unlock (returns : Bool)
  | returned
  | raised
deriving DecidableEq

namespace Phase

/--
Between the creation of the lock and its removal.
-/
def critical : Phase → Bool
  | start | openLock | returned | raised => false
  | _ => true

/--
Past the check that neither file exists.
-/
def installing : Phase → Bool
  | createTemp _ | writeTemp _ _ _ | replaceTemp _ _ | unlinkTemp _ => true
  | _ => false

theorem critical_of_installing {p : Phase} (h : p.installing = true) : p.critical = true := by
  cases p <;> first | rfl | cases h

end Phase

/--
What a step finds outside of the files: whether the system call fails, the characters that `mkstemp`
tries and how many bytes a write takes.
-/
structure StepEnv where
  fails : Bool
  random : String
  written : ℕ

section step

variable (out : Outputs) (data : Bytes) (env : StepEnv) (files : Files)

/--
A read or a test of a file that raises releases the lock.
-/
def orUnlock (next : Phase) : Files × Phase :=
  (files, if env.fails then .unlock false else next)

/--
One step of a call whose receipt has the bytes `data`. A call whose receipt is rejected has none.
-/
def step : Phase → Files × Phase
  | .start =>
    (files,
      if out.receiptPath = out.sidecarPath ∨ out.lockPath = out.sidecarPath then .raised
      else .openLock)
  | .openLock =>
    if env.fails ∨ (files out.lockPath).isSome then
      (files, .raised)
    else
      (files.put out.lockPath [], .closeLock)
  | .closeLock => orUnlock env files .receiptExists
  | .receiptExists =>
    orUnlock env files
      (if (files out.receiptPath).isSome then .receiptPresent else .sidecarExists)
  | .sidecarExists =>
    orUnlock env files
      (if (files out.sidecarPath).isSome then .receiptPresent else .createTemp .receipt)
  | .receiptPresent =>
    orUnlock env files
      (if (files out.receiptPath).isSome then .sidecarPresent else .unlock false)
  | .sidecarPresent =>
    orUnlock env files (if (files out.sidecarPath).isSome then .readReceipt else .unlock false)
  | .readReceipt =>
    orUnlock env files (if files out.receiptPath = some data then .readSidecar else .unlock false)
  | .readSidecar =>
    orUnlock env files (.unlock (files out.sidecarPath = some (sidecarBytes data)))
  | .createTemp target =>
    let temp := (target.path out).temp env.random
    if env.fails then
      (files, .unlock false)
    else if (files temp).isSome then
      (files, .createTemp target)
    else
      (files.put temp [], .writeTemp target temp (target.bytes data))
  | .writeTemp target temp rest =>
    if env.fails then
      (files, .unlinkTemp temp)
    else if rest = [] then
      (files, .replaceTemp target temp)
    else
      (files.put temp ((files temp).getD [] ++ rest.take env.written),
        .writeTemp target temp (rest.drop env.written))
  | .replaceTemp target temp =>
    if env.fails ∨ files temp = none then
      (files, .unlinkTemp temp)
    else
      (files.replace temp (target.path out),
        match target with
        | .receipt => .createTemp .sidecar
        | .sidecar => .unlock true)
  | .unlinkTemp temp => (if env.fails then files else files.unlink temp, .unlock false)
  | .unlock returns =>
    if env.fails then
      (files, .raised)
    else
      (files.unlink out.lockPath, if returns then .returned else .raised)
  | .returned => (files, .returned)
  | .raised => (files, .raised)

end step

section run

variable {ι : Type} [DecidableEq ι]

/--
The files with the calls running on them, and which of these have crashed.
-/
structure System (ι : Type) where
  files : Files
  phase : ι → Phase
  crashed : ι → Bool

namespace System

def start (files : Files) : System ι where
  files := files
  phase := fun _ => .start
  crashed := fun _ => false

inductive Turn (ι : Type)
  | step (i : ι) (env : StepEnv)
  | crash (i : ι)

def advance (out : Outputs) (data : ι → Bytes) (s : System ι) (i : ι) (env : StepEnv) : System ι :=
  let next := step out (data i) env s.files (s.phase i)
  { s with
    files := next.1
    phase := Function.update s.phase i next.2 }

/--
A call takes its next step, or takes none any more.
-/
def turn (out : Outputs) (data : ι → Bytes) (s : System ι) : Turn ι → System ι
  | .step i env => if s.crashed i then s else s.advance out data i env
  | .crash i => { s with crashed := Function.update s.crashed i true }

def run (out : Outputs) (data : ι → Bytes) (s : System ι) (turns : List (Turn ι)) : System ι :=
  turns.foldl (turn out data) s

end System

end run

end Publication

end Quantbot

import Quantbot.Paper.Publication.Basic
import Quantbot.Sandbox.Receipt
import Quantbot.Util.Interleaving

/-!
`run_bundle`: concurrent calls that build receipts and publish their bytes, one file-system step
at a time.
-/

namespace Quantbot

namespace Sandbox

open Publication (Path Files)
open Json (Interpreter)

/--
The path next to `out` that the process `pid` draws `token` for.
-/
def temporary (out : Path) (pid : ℕ) (token : String) : Path :=
  { out with name := "." ++ out.name ++ "." ++ toString pid ++ "." ++ token ++ ".tmp" }

/--
What `run_bundle` is called on, with what its process draws for the temporary file.
-/
structure Call where
  input : Bytes
  out : Path
  pid : ℕ
  token : String

namespace Call

variable (x : Interpreter) (float : List Char → JsonValue) (call : Call)

def temp : Path :=
  temporary call.out call.pid call.token

/--
The receipt of the bundle that is loaded.
-/
def receipt : Except SandboxError JsonValue := do
  let loaded ← loadBundle x float call.input
  match buildReceipt loaded.1 loaded.2.1 loaded.2.2 with
  | some receipt => .ok receipt
  | none => .error .decimalOverflow

/--
The bytes to publish. A call without a receipt has none.
-/
def data : Option Bytes :=
  match call.receipt x float with
  | .ok receipt => some (canonicalJsonBytes receipt)
  | .error _ => none

end Call

namespace Publishing

/--
Where a call is between two of its steps; `rest` is what it still has to write.
-/
inductive Phase
  | start
  | parentIsDir
  | outExists
  | createTemp
  | writeTemp (rest : Bytes)
  | link
  -- after the hard link, before `published = True`
  | linked
  | syncDir
  | readBack
  -- the handler, when the output has been published
  | unlinkOut
  -- the `finally` clause
  | unlinkTemp (returns : Bool)
  | returned
  | raised
deriving DecidableEq

namespace Phase

/--
The output is the file that the call has linked.
-/
def holds : Phase → Bool
  | linked => true
  | syncDir => true
  | readBack => true
  | unlinkOut => true
  | unlinkTemp returns => returns
  | returned => true
  | _ => false

/--
The temporary file may be there.
-/
def hasTemp : Phase → Bool
  | writeTemp _ => true
  | link => true
  | linked => true
  | syncDir => true
  | readBack => true
  | unlinkOut => true
  | unlinkTemp _ => true
  | _ => false

def done : Phase → Bool
  | returned => true
  | raised => true
  | _ => false

end Phase

/--
What a step finds outside of the files: whether it raises, and how many bytes a write takes.
-/
structure StepEnv where
  fails : Bool
  written : ℕ

/--
One step of a call on `out` with the bytes `data`.
-/
def step (out temp : Path) (data : Option Bytes) (env : StepEnv) (files : Files)
    : Phase → Files × Phase
  | .start => (files, if env.fails ∨ data = none then .raised else .parentIsDir)
  | .parentIsDir => (files, if env.fails then .raised else .outExists)
  | .outExists => (files, if env.fails ∨ (files out).isSome then .raised else .createTemp)
  | .createTemp =>
    if env.fails ∨ (files temp).isSome then
      (files, .unlinkTemp false)
    else
      (files.put temp [], .writeTemp (data.getD []))
  | .writeTemp rest =>
    if env.fails then
      (files, .unlinkTemp false)
    else if rest = [] then
      (files, .link)
    else
      (files.put temp ((files temp).getD [] ++ rest.take env.written),
        .writeTemp (rest.drop env.written))
  | .link =>
    if env.fails ∨ (files out).isSome ∨ files temp = none then
      (files, .unlinkTemp false)
    else
      (files.put out ((files temp).getD []), .linked)
  | .linked => (files, if env.fails then .unlinkTemp false else .syncDir)
  | .syncDir => (files, if env.fails then .unlinkOut else .readBack)
  | .readBack => (files, if env.fails ∨ files out ≠ data then .unlinkOut else .unlinkTemp true)
  | .unlinkOut => (if env.fails then files else files.unlink out, .unlinkTemp false)
  | .unlinkTemp returns =>
    (if env.fails then files else files.unlink temp, if returns then .returned else .raised)
  | .returned => (files, .returned)
  | .raised => (files, .raised)

/--
No file fails to be removed, and nothing interrupts a call right after its link.
-/
def Tidy (env : StepEnv) : Phase → Prop
  | .linked => env.fails = false
  | .unlinkOut => env.fails = false
  | .unlinkTemp _ => env.fails = false
  | _ => True

end Publishing

end Sandbox

end Quantbot

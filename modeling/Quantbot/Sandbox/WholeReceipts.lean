import Quantbot.Sandbox.Publication
import Quantbot.Sandbox.ReceiptRoundTrip

/-!
What is found at an output is a whole receipt of one call, whatever runs beside it and stops.
-/

namespace Quantbot

namespace Sandbox

open Publication (Path Files)
open Interleaving (System Turn Outline AllHold)

namespace Publishing

section step

variable {out temp : Path} {data : Option Bytes} {env : StepEnv} {initial files files' : Files}
  {p : Phase}

/--
The output is the file of the call.
-/
structure Placed (initial : Files) (out : Path) (data : Option Bytes) (files : Files) : Prop where
  present : data ≠ none
  fresh : initial out = none
  content : files out = data

/--
What a call relies on where it is.
-/
def OwnInv (initial : Files) (out temp : Path) (data : Option Bytes) (files : Files)
    : Phase → Prop
  | .start => True
  | .raised => True
  | .parentIsDir => data ≠ none
  | .outExists => data ≠ none
  | .createTemp => data ≠ none
  | .writeTemp rest => ∃ front, files temp = some front ∧ data = some (front ++ rest)
  | .link => data ≠ none ∧ files temp = data
  | .unlinkTemp returns => returns = true → Placed initial out data files
  | _ => Placed initial out data files

theorem OwnInv.placed (h : OwnInv initial out temp data files p) (hp : p.holds = true)
    : Placed initial out data files := by
  cases p <;> first | exact h | exact h hp | cases hp

theorem OwnInv.of_placed (h : Placed initial out data files) (hp : p.holds = true)
    : OwnInv initial out temp data files p := by
  cases p <;> first | exact h | exact fun _ => h | cases hp

/--
A call relies on its own temporary file, and on the output only where it holds it.
-/
theorem OwnInv.congr (h : OwnInv initial out temp data files p) (htemp : files' temp = files temp)
    (hout : p.holds = true → files' out = files out) : OwnInv initial out temp data files' p := by
  cases hholds : p.holds with
  | true =>
    obtain ⟨hdata, hinitial, hfiles⟩ := h.placed hholds
    exact .of_placed ⟨hdata, hinitial, (hout hholds).trans hfiles⟩ hholds
  | false =>
    cases p
    case writeTemp rest =>
      obtain ⟨front, hfront, hdata⟩ := h
      exact ⟨front, htemp.trans hfront, hdata⟩
    case link => exact ⟨h.1, htemp.trans h.2⟩
    case unlinkTemp returns =>
      intro hreturns
      rw [hreturns] at hholds
      cases hholds
    all_goals first | exact h | cases hholds

theorem step_other {path : Path} (hout : path ≠ out) (htemp : path ≠ temp)
    : (step out temp data env files p).1 path = files path := by
  cases p <;> simp only [step] <;> (try split) <;> (try split)
  all_goals first
    | rfl
    | exact Files.put_of_ne htemp
    | exact Files.put_of_ne hout
    | exact Files.unlink_of_ne hout
    | exact Files.unlink_of_ne htemp

variable (env) in
/--
The output comes with the link of the whole temporary file, and goes with the handler.
-/
theorem step_out (hinv : OwnInv initial out temp data files p) (htemp : temp ≠ out)
    : (step out temp data env files p).1 out = files out
        ∨ data ≠ none ∧ files out = none ∧ (step out temp data env files p).1 out = data
          ∧ (step out temp data env files p).2.holds = true
        ∨ p = .unlinkOut ∧ (step out temp data env files p).1 out = none := by
  cases p
  case createTemp =>
    simp only [step]
    split
    . exact .inl rfl
    . exact .inl (Files.put_of_ne htemp.symm)
  case writeTemp rest =>
    simp only [step]
    split
    . exact .inl rfl
    . split
      . exact .inl rfl
      . exact .inl (Files.put_of_ne htemp.symm)
  case link =>
    obtain ⟨hdata, hfiles⟩ := hinv
    simp only [step]
    split
    . exact .inl rfl
    next hfree =>
      rw [not_or, not_or, Option.not_isSome_iff_eq_none] at hfree
      obtain ⟨content, hcontent⟩ := Option.ne_none_iff_exists'.mp hdata
      refine .inr (.inl ⟨hdata, hfree.2.1, Files.put_self.trans ?_, rfl⟩)
      rw [hfiles, hcontent, Option.getD_some]
  case unlinkOut =>
    simp only [step]
    split
    . exact .inl rfl
    . exact .inr (.inr ⟨trivial, Function.update_self ..⟩)
  case unlinkTemp returns =>
    simp only [step]
    split
    . exact .inl rfl
    . exact .inl (Files.unlink_of_ne htemp.symm)
  all_goals exact .inl rfl

theorem step_holds (h : (step out temp data env files p).2.holds = true)
    : p.holds = true ∨ files out = none := by
  cases p <;> first | exact .inl rfl | simp only [step] at h
  case link =>
    split at h
    . cases h
    next hfree =>
      rw [not_or, not_or, Option.not_isSome_iff_eq_none] at hfree
      exact .inr hfree.2.1
  case unlinkTemp returns =>
    cases returns with
    | true => exact .inl rfl
    | false => cases h
  all_goals
    repeat' split at h
    all_goals cases h

theorem own_unlinkTemp_false : OwnInv initial out temp data files (.unlinkTemp false) := by
  intro h
  cases h

theorem step_own (hinv : OwnInv initial out temp data files p) (htemp : temp ≠ out)
    (hinitial : files out = none → initial out = none)
    : OwnInv initial out temp data (step out temp data env files p).1
        (step out temp data env files p).2 := by
  cases p
  case start =>
    simp only [step]
    split
    . trivial
    next hstart => exact (not_or.mp hstart).2
  case parentIsDir | outExists =>
    simp only [step]
    split
    . trivial
    . exact hinv
  case createTemp =>
    simp only [step]
    split
    . exact own_unlinkTemp_false
    . obtain ⟨content, hcontent⟩ := Option.ne_none_iff_exists'.mp hinv
      exact ⟨[], Files.put_self, by rw [hcontent, Option.getD_some, List.nil_append]⟩
  case writeTemp rest =>
    obtain ⟨front, hfront, hdata⟩ := hinv
    simp only [step]
    split
    . exact own_unlinkTemp_false
    . split
      next hrest =>
        rw [hrest, List.append_nil] at hdata
        exact ⟨by rw [hdata]; exact Option.some_ne_none _, hfront.trans hdata.symm⟩
      . refine ⟨_, Files.put_self, ?_⟩
        rw [hfront, Option.getD_some, List.append_assoc, List.take_append_drop, hdata]
  case link =>
    obtain ⟨hdata, hfiles⟩ := hinv
    simp only [step]
    split
    . exact own_unlinkTemp_false
    next hfree =>
      rw [not_or, not_or, Option.not_isSome_iff_eq_none] at hfree
      obtain ⟨content, hcontent⟩ := Option.ne_none_iff_exists'.mp hdata
      refine ⟨hdata, hinitial hfree.2.1, Files.put_self.trans ?_⟩
      rw [hfiles, hcontent, Option.getD_some]
  case linked =>
    simp only [step]
    split
    . exact own_unlinkTemp_false
    . exact hinv
  case syncDir =>
    simp only [step]
    split
    . exact hinv
    . exact hinv
  case readBack =>
    simp only [step]
    split
    . exact hinv
    . exact fun _ => hinv
  case unlinkOut => exact own_unlinkTemp_false
  case unlinkTemp returns =>
    simp only [step]
    cases returns with
    | false => trivial
    | true =>
      obtain ⟨hdata, hnone, hfiles⟩ := hinv rfl
      rw [if_pos rfl]
      refine ⟨hdata, hnone, ?_⟩
      split
      . exact hfiles
      . exact (Files.unlink_of_ne htemp.symm).trans hfiles
  case returned => exact hinv
  case raised => trivial

/--
Tidy steps take the output away from a call only by removing it.
-/
theorem step_holds_of_tidy (htidy : Tidy env p) (hp : p.holds = true)
    : (step out temp data env files p).2.holds = true
        ∨ (step out temp data env files p).1 out = none := by
  cases p <;> first | exact absurd hp Bool.false_ne_true | simp only [step]
  case linked =>
    rw [htidy]
    exact .inl rfl
  case syncDir | readBack =>
    split
    . exact .inl rfl
    . exact .inl rfl
  case unlinkOut =>
    rw [htidy]
    exact .inr (Function.update_self ..)
  case unlinkTemp returns =>
    cases returns with
    | true => exact .inl rfl
    | false => cases hp
  case returned => exact .inl rfl

theorem step_temp_of_tidy (htidy : Tidy env p)
    (h : files temp = initial temp ∨ files temp = none ∨ p.hasTemp = true)
    : (step out temp data env files p).1 temp = initial temp
        ∨ (step out temp data env files p).1 temp = none
        ∨ (step out temp data env files p).2.hasTemp = true := by
  cases p
  case unlinkTemp returns =>
    refine .inr (.inl ?_)
    simp only [step]
    rw [htidy]
    exact Function.update_self ..
  case start | parentIsDir | outExists =>
    exact h.imp_right fun h => .inl (h.resolve_right Bool.false_ne_true)
  case returned | raised => exact h
  all_goals
    refine .inr (.inr ?_)
    simp only [step]
    repeat' split
    all_goals rfl

end step

section outline

variable {ι : Type} (calls : ι → Call) (data : ι → Option Bytes) (initial : Files)

/--
What `secrets.token_hex(8)` is relied on for: no two calls share a temporary file, and none of these
is an output.
-/
structure Fresh : Prop where
  length : ∀ i, (calls i).token.length = 16
  distinct : ∀ i j, (calls i).token = (calls j).token → i = j
  apart : ∀ i j, (calls i).temp ≠ (calls j).out

def callStep (i : ι) (env : StepEnv) (files : Files) (p : Phase) : Files × Phase :=
  step (calls i).out (calls i).temp (data i) env files p

/--
A file that is no temporary file is as it was, or is the whole output of a call where nothing was.
-/
def World (files : Files) : Prop :=
  ∀ path, (∀ i, (calls i).temp ≠ path) →
    files path = initial path
      ∨ initial path = none ∧ ∃ i, (calls i).out = path ∧ data i ≠ none ∧ files path = data i

def Own (i : ι) (files : Files) (p : Phase) : Prop :=
  OwnInv initial (calls i).out (calls i).temp (data i) files p

/--
No two calls hold one output.
-/
def Pair (i j : ι) (p q : Phase) : Prop :=
  p.holds = true → q.holds = true → (calls i).out ≠ (calls j).out

variable {calls data initial}

theorem temporary_injective {out out' : Path} {pid pid' : ℕ} {token token' : String}
    (hlength : token.length = token'.length)
    (h : temporary out pid token = temporary out' pid' token') : token = token' := by
  have hname := congrArg (fun path : Path => path.name.toList) h
  simp only [temporary, String.toList_append] at hname
  have htoken := List.append_inj_right' (List.append_cancel_right hname) (by
    rw [String.length_toList, String.length_toList, hlength])
  exact String.toList_injective htoken

theorem temporary_ne (out : Path) (pid : ℕ) (token : String) : temporary out pid token ≠ out := by
  intro h
  have hlength := congrArg (fun path : Path => path.name.length) h
  have htmp : ".tmp".length = 4 := by decide
  simp only [temporary, String.length_append, htmp] at hlength
  omega

theorem Fresh.temp_ne (h : Fresh calls) {i j : ι} (hij : i ≠ j)
    : (calls i).temp ≠ (calls j).temp := by
  intro htemp
  apply hij
  apply h.distinct
  exact temporary_injective ((h.length i).trans (h.length j).symm) htemp

theorem World.initial_eq_none {files : Files} (h : World calls data initial files)
    (hfresh : Fresh calls) {i : ι} (hnone : files (calls i).out = none)
    : initial (calls i).out = none := by
  obtain heq | ⟨hinitial, -⟩ := h (calls i).out (fun j => hfresh.apart j i)
  . rw [← heq, hnone]
  . exact hinitial

theorem step_world (hfresh : Fresh calls) {i : ι} {env : StepEnv} {files : Files} {p : Phase}
    (hworld : World calls data initial files) (hown : Own calls data initial i files p)
    : World calls data initial (callStep calls data i env files p).1 := by
  intro path hpath
  by_cases hout : path = (calls i).out
  . subst hout
    unfold callStep
    obtain heq | ⟨hdata, hnone, heq, -⟩ | ⟨rfl, heq⟩ := step_out env hown (hfresh.apart i i)
    . rw [heq]
      exact hworld _ hpath
    . exact .inr ⟨hworld.initial_eq_none hfresh hnone, i, rfl, hdata, heq⟩
    . exact .inl (heq.trans (OwnInv.placed hown rfl).fresh.symm)
  . unfold callStep
    rw [step_other hout (fun h => hpath i h.symm)]
    exact hworld path hpath

theorem step_frame (hfresh : Fresh calls) {i j : ι} (hij : i ≠ j) {env : StepEnv} {files : Files}
    {p q : Phase} (hi : Own calls data initial i files p) (hj : Own calls data initial j files q)
    (hpair : Pair calls i j p q)
    : Own calls data initial j (callStep calls data i env files p).1 q := by
  refine OwnInv.congr hj ?_ ?_
  . exact step_other (hfresh.apart j i) (hfresh.temp_ne (Ne.symm hij))
  . intro hq
    by_cases hout : (calls j).out = (calls i).out
    . have hplaced := OwnInv.placed hj hq
      unfold callStep
      rw [hout]
      obtain heq | ⟨-, hnone, -⟩ | ⟨rfl, -⟩ := step_out env hi (hfresh.apart i i)
      . exact heq
      . rw [← hout, hplaced.content] at hnone
        exact absurd hnone hplaced.present
      . exact absurd hout.symm (hpair rfl hq)
    . exact step_other hout (Ne.symm (hfresh.apart i j))

theorem step_pair {i j : ι} {env : StepEnv} {files : Files} {p q : Phase}
    (hj : Own calls data initial j files q) (hpair : Pair calls i j p q)
    : Pair calls i j (callStep calls data i env files p).2 q := by
  intro hp hq hout
  obtain hp | hnone := step_holds hp
  . exact hpair hp hq hout
  . have hplaced := OwnInv.placed hj hq
    rw [hout, hplaced.content] at hnone
    exact hplaced.present hnone

/--
The calls do not interfere.
-/
theorem outline (hfresh : Fresh calls)
    : Outline (callStep calls data) (World calls data initial) (Own calls data initial)
        (Pair calls) where
  world := fun _ _ _ _ hworld hown => step_world hfresh hworld hown
  own := fun i _ _ _ hworld hown =>
    step_own hown (hfresh.apart i i) (hworld.initial_eq_none hfresh)
  frame := fun _ _ _ _ _ _ hij hi hj hpair => step_frame hfresh hij hi hj hpair
  pair := fun _ _ _ _ _ _ _ _ hj hpair => step_pair hj hpair
  symm := fun _ _ _ _ hpair hq hp hout => hpair hp hq hout.symm

theorem holds_start : AllHold (World calls data initial) (Own calls data initial) (Pair calls)
    (System.start initial .start : System Files Phase ι) where
  world := fun _ _ => .inl rfl
  own := fun _ => trivial
  pair := fun _ _ _ h => nomatch h

section settled

variable [DecidableEq ι] {s : System Files Phase ι}

/--
No file is left behind: nothing is new but what a call holds or still has to remove.
-/
structure Kept (calls : ι → Call) (initial : Files) (s : System Files Phase ι) : Prop where
  outs : ∀ path, (∀ i, (calls i).temp ≠ path) →
    s.shared path = initial path ∨ ∃ i, (calls i).out = path ∧ (s.phase i).holds = true
  temps : ∀ i, s.shared (calls i).temp = initial (calls i).temp
    ∨ s.shared (calls i).temp = none ∨ (s.phase i).hasTemp = true

theorem Kept.advance (hfresh : Fresh calls)
    (hholds : AllHold (World calls data initial) (Own calls data initial) (Pair calls) s)
    (h : Kept calls initial s) {i : ι} {env : StepEnv} (htidy : Tidy env (s.phase i))
    : Kept calls initial (s.advance (callStep calls data) i env) := by
  have hown := hholds.own i
  constructor
  case outs =>
    intro path hpath
    by_cases hout : path = (calls i).out
    . subst hout
      have hnew (hholds : (callStep calls data i env s.shared (s.phase i)).2.holds = true)
          : ∃ j, (calls j).out = (calls i).out
              ∧ ((s.advance (callStep calls data) i env).phase j).holds = true := by
        refine ⟨i, rfl, ?_⟩
        rw [System.phase_advance_self]
        exact hholds
      obtain heq | ⟨-, -, -, hlinked⟩ | ⟨hphase, heq⟩ :=
        step_out env hown (hfresh.apart i i)
      . cases hi : (s.phase i).holds with
        | true =>
          obtain hnext | hnone := step_holds_of_tidy htidy hi
          . exact .inr (hnew hnext)
          . exact .inl (hnone.trans (OwnInv.placed hown hi).fresh.symm)
        | false =>
          obtain hold | ⟨j, hj, hjholds⟩ := h.outs _ hpath
          . exact .inl (heq.trans hold)
          . refine .inr ⟨j, hj, ?_⟩
            rw [System.phase_advance_of_ne, hjholds]
            rintro rfl
            rw [hi] at hjholds
            cases hjholds
      . exact .inr (hnew hlinked)
      . refine .inl (heq.trans (OwnInv.placed hown ?_).fresh.symm)
        rw [hphase]
        rfl
    . have heq : (s.advance (callStep calls data) i env).shared path = s.shared path :=
        step_other hout (fun h => hpath i h.symm)
      obtain hold | ⟨j, hj, hjholds⟩ := h.outs path hpath
      . exact .inl (heq.trans hold)
      . refine .inr ⟨j, hj, ?_⟩
        rw [System.phase_advance_of_ne, hjholds]
        rintro rfl
        exact hout hj.symm
  case temps =>
    intro j
    by_cases hji : j = i
    . subst hji
      rw [System.phase_advance_self]
      exact step_temp_of_tidy htidy (h.temps j)
    . rw [System.phase_advance_of_ne hji]
      have heq : (s.advance (callStep calls data) i env).shared (calls j).temp
          = s.shared (calls j).temp :=
        step_other (hfresh.apart j i) (hfresh.temp_ne hji)
      rw [heq]
      exact h.temps j

theorem kept_run (hfresh : Fresh calls) {turns : List (Turn StepEnv ι)}
    (htidy : System.Along (callStep calls data) Tidy (System.start initial .start) turns)
    : Kept calls initial ((System.start initial .start).run (callStep calls data) turns) := by
  have hboth := htidy.invariant (P := fun s =>
    AllHold (World calls data initial) (Own calls data initial) (Pair calls) s
      ∧ Kept calls initial s)
    ⟨holds_start, fun _ _ => .inl rfl, fun _ => .inl rfl⟩ ?_ ?_
  . exact hboth.2
  . rintro s i env ⟨hholds, hkept⟩ hallowed
    exact ⟨(outline hfresh).advance hholds i env, hkept.advance hfresh hholds hallowed⟩
  . rintro s i ⟨hholds, hkept⟩
    exact ⟨⟨hholds.world, hholds.own, hholds.pair⟩, hkept.outs, hkept.temps⟩

theorem holds_of_done {p : Phase} (hdone : p.done = true) (hp : p.holds = true)
    : p = .returned := by
  cases p <;> first
    | rfl
    | exact absurd hdone Bool.false_ne_true
    | exact absurd hp Bool.false_ne_true

theorem not_hasTemp_of_done {p : Phase} (hdone : p.done = true) : p.hasTemp = false := by
  cases p <;> first | rfl | cases hdone

end settled

end outline

section receipts

open Json (Interpreter)

variable {ι : Type} (x : Interpreter) (float : List Char → JsonValue) (calls : ι → Call)

/--
Python reads the count of the variants back.
-/
def CountReadable (call : Call) : Prop :=
  ∀ loaded, loadBundle x float call.input = .ok loaded →
    (Nat.toDigits 10 loaded.1.variants.length).length ≤ Json.maxStrDigits

variable {x float calls}

theorem exists_receipt {call : Call} (h : call.data x float ≠ none)
    : ∃ receipt, call.receipt x float = .ok receipt
        ∧ call.data x float = some (canonicalJsonBytes receipt) := by
  unfold Call.data at h ⊢
  split at h
  next receipt hreceipt =>
    rw [hreceipt]
    exact ⟨receipt, rfl, rfl⟩
  . exact absurd rfl h

theorem passes_receipt {call : Call} {receipt : JsonValue} (hcount : CountReadable x float call)
    (h : call.receipt x float = .ok receipt)
    : Passes x float (canonicalJsonBytes receipt) receipt.sortKeys := by
  unfold Call.receipt at h
  obtain ⟨loaded, hloaded, hbuild⟩ := bind_eq_ok.mp h
  have hdigits := hcount loaded hloaded
  split at hbuild
  next receipt' hreceipt' =>
    cases hbuild
    unfold loadBundle at hloaded
    obtain ⟨parsed, -, hloaded⟩ := bind_eq_ok.mp hloaded
    obtain ⟨bundle, -, hloaded⟩ := bind_eq_ok.mp hloaded
    cases hloaded
    exact passes_buildReceipt hdigits (isHexSha_sha256Bytes call.input) hreceipt'
  . cases hbuild

variable (x float calls) [DecidableEq ι] (initial : Files)

/--
The files and the calls after the turns.
-/
def after (turns : List (Turn StepEnv ι)) : System Files Phase ι :=
  (System.start initial .start).run (callStep calls fun i => (calls i).data x float) turns

/--
The turns leave whole receipts: of one call each, which the verifier accepts; a call that has
returned finds its own for good, and no other call returns for that output. When all calls have
ended, and no removal has failed, nothing else is left of them.
-/
structure Publishes (turns : List (Turn StepEnv ι)) : Prop where
  whole : ∀ path, (∀ i, (calls i).temp ≠ path) →
    (after x float calls initial turns).shared path = initial path
      ∨ initial path = none ∧ ∃ i receipt, (calls i).out = path
          ∧ (calls i).receipt x float = .ok receipt
          ∧ (after x float calls initial turns).shared path = some (canonicalJsonBytes receipt)
          ∧ verifyReceiptBytes x float (canonicalJsonBytes receipt) = .ok receipt.sortKeys
  kept : ∀ i later, (after x float calls initial turns).phase i = .returned →
    ∃ receipt, (calls i).receipt x float = .ok receipt
      ∧ (after x float calls initial (turns ++ later)).shared (calls i).out
        = some (canonicalJsonBytes receipt)
  once : ∀ i j, (after x float calls initial turns).phase i = .returned →
    (after x float calls initial turns).phase j = .returned → (calls i).out = (calls j).out → i = j
  settled : System.Along (callStep calls fun i => (calls i).data x float) Tidy
      (System.start initial .start) turns →
    (∀ i, ((after x float calls initial turns).phase i).done = true) →
      (∀ i, (after x float calls initial turns).shared (calls i).temp = initial (calls i).temp
        ∨ (after x float calls initial turns).shared (calls i).temp = none)
      ∧ ∀ path, (∀ i, (calls i).temp ≠ path) →
        (after x float calls initial turns).shared path = initial path
          ∨ ∃ i, (calls i).out = path ∧ (after x float calls initial turns).phase i = .returned

theorem holds_after {calls : ι → Call} (hfresh : Fresh calls) (turns : List (Turn StepEnv ι))
    : AllHold (World calls (fun i => (calls i).data x float) initial)
        (Own calls (fun i => (calls i).data x float) initial) (Pair calls)
        (after x float calls initial turns) :=
  (outline hfresh).run holds_start turns

/--
Any number of calls on any outputs, in any interleaving, with any failures and with any of them
stopped anywhere.
-/
theorem runBundle_publishes {calls : ι → Call} (hfresh : Fresh calls)
    (hcount : ∀ i, CountReadable x float (calls i)) (turns : List (Turn StepEnv ι))
    : Publishes x float calls initial turns := by
  have hholds := holds_after x float initial hfresh turns
  constructor
  case whole =>
    intro path hpath
    obtain heq | ⟨hnone, i, hout, hdata, heq⟩ := hholds.world path hpath
    . exact .inl heq
    . obtain ⟨receipt, hreceipt, hbytes⟩ := exists_receipt hdata
      exact .inr ⟨hnone, i, receipt, hout, hreceipt, heq.trans hbytes,
        verifyReceiptBytes_eq_ok.mpr (passes_receipt (hcount i) hreceipt)⟩
  case kept =>
    intro i later hi
    have hlater : (after x float calls initial (turns ++ later)).phase i = .returned := by
      unfold after
      rw [System.run_append]
      exact System.phase_run_of_final (fun _ _ => rfl) hi later
    have hown := (holds_after x float initial hfresh (turns ++ later)).own i
    have hplaced := OwnInv.placed hown (by rw [hlater]; rfl)
    obtain ⟨receipt, hreceipt, hbytes⟩ := exists_receipt hplaced.present
    exact ⟨receipt, hreceipt, hplaced.content.trans hbytes⟩
  case once =>
    intro i j hi hj hout
    by_contra hij
    exact hholds.pair i j hij (by rw [hi]; rfl) (by rw [hj]; rfl) hout
  case settled =>
    intro htidy hdone
    have hkept : Kept calls initial (after x float calls initial turns) := kept_run hfresh htidy
    constructor
    . intro i
      have hgone := not_hasTemp_of_done (hdone i)
      obtain heq | hnone | htemp := hkept.temps i
      . exact .inl heq
      . exact .inr hnone
      . rw [hgone] at htemp
        cases htemp
    . intro path hpath
      obtain heq | ⟨i, hout, hi⟩ := hkept.outs path hpath
      . exact .inl heq
      . exact .inr ⟨i, hout, holds_of_done (hdone i) hi⟩

variable {x float calls initial}

theorem loadBundle_canonicalJsonBytes (bundle : Bundle)
    : loadBundle x float (canonicalJsonBytes bundle.toJson)
        = .ok (bundle, sha256Bytes (canonicalJsonBytes bundle.toJson),
          canonicalDigest bundle.toJson) := by
  have hparse := parseJsonBytes_canonicalJsonBytes (readable_bundle x float bundle 12)
  rw [sortKeys_toJson] at hparse
  unfold loadBundle
  rw [hparse, raisedAs_eq_ok.mpr rfl]
  simp only [bind, Except.bind]
  rw [validateBundle_toJson, raisedAs_eq_ok.mpr rfl]
  rfl

/--
The next step of a call, when nothing fails and a write takes `written` bytes.
-/
def undisturbed (i : ι) (written : ℕ) : Turn StepEnv ι :=
  .step i { fails := false, written := written }

/--
A call that nothing disturbs returns.
-/
theorem returned_undisturbed {i : ι} {data : Bytes} (hfresh : Fresh calls)
    (hdata : (calls i).data x float = some data) (hout : initial (calls i).out = none)
    (htemp : initial (calls i).temp = none)
    : (after x float calls initial (List.replicate 12 (undisturbed i data.length))).phase i
        = .returned := by
  have hapart := hfresh.apart i i
  have hapart' := hapart.symm
  by_cases hempty : data = []
  . simp [undisturbed, after, System.run, System.turn, System.advance, System.start, callStep, step,
      List.replicate, Files.put, Files.unlink, *]
  . simp [undisturbed, after, System.run, System.turn, System.advance, System.start, callStep, step,
      List.replicate, Files.put, Files.unlink, *]

/--
Two calls on one bundle and one output.
-/
def twins (input : Bytes) (second : Bool) : Call where
  input := input
  out := ⟨"out", "receipt.json"⟩
  pid := 7
  token := if second then "ffffffffffffffff" else "0000000000000000"

theorem input_twins (input : Bytes) (second : Bool) : (twins input second).input = input := by
  rfl

theorem fresh_twins (input : Bytes) : Fresh (twins input) := by
  have htoken (second : Bool) : (twins input second).token
      = if second then "ffffffffffffffff" else "0000000000000000" := rfl
  constructor
  case length =>
    intro i
    rw [htoken]
    cases i <;> rfl
  case distinct =>
    intro i j h
    rw [htoken, htoken] at h
    cases i <;> cases j <;> first | rfl | exact absurd h (by decide)
  case apart =>
    intro i j
    exact temporary_ne _ _ _

variable (x float) in
theorem exists_receipt_twins
    : ∃ receipt, (twins (canonicalJsonBytes shortBundle.toJson) false).receipt x float
        = .ok receipt := by
  obtain ⟨receipt, hbuild⟩ := exists_shortReceipt
    (sha256Bytes (canonicalJsonBytes shortBundle.toJson))
  unfold Call.receipt
  rw [input_twins, loadBundle_canonicalJsonBytes]
  simp only [bind, Except.bind]
  rw [hbuild]
  exact ⟨receipt, rfl⟩

variable (x float) in
theorem countReadable_twins (second : Bool)
    : CountReadable x float (twins (canonicalJsonBytes shortBundle.toJson) second) := by
  intro loaded h
  rw [input_twins, loadBundle_canonicalJsonBytes] at h
  obtain rfl := Except.ok.inj h
  decide +kernel

theorem returned_twins {input : Bytes} {receipt : JsonValue}
    (hreceipt : (twins input false).receipt x float = .ok receipt)
    : (after x float (twins input) (fun _ => none)
        (List.replicate 12 (undisturbed false (canonicalJsonBytes receipt).length))).phase false
        = .returned := by
  have hdata : (twins input false).data x float = some (canonicalJsonBytes receipt) := by
    unfold Call.data
    rw [hreceipt]
  exact returned_undisturbed (fresh_twins input) hdata rfl rfl

theorem runBundle_publishes_twins
    : ∃ input receipt, (twins input false).receipt ⟨16, 16, le_rfl⟩ (fun _ => .null) = .ok receipt
        ∧ ∀ later, (after ⟨16, 16, le_rfl⟩ (fun _ => .null) (twins input) (fun _ => none)
            (List.replicate 12 (undisturbed false (canonicalJsonBytes receipt).length)
              ++ later)).shared ⟨"out", "receipt.json"⟩
          = some (canonicalJsonBytes receipt) := by
  obtain ⟨receipt, hreceipt⟩ := exists_receipt_twins ⟨16, 16, le_rfl⟩ (fun _ => .null)
  refine ⟨_, receipt, hreceipt, ?_⟩
  intro later
  obtain ⟨receipt', hreceipt', hkept⟩ := (runBundle_publishes ⟨16, 16, le_rfl⟩ (fun _ => .null)
    (fun _ => none) (fresh_twins _) (countReadable_twins _ _)
    (List.replicate 12 (undisturbed false (canonicalJsonBytes receipt).length))).kept false later
    (returned_twins hreceipt)
  rw [hreceipt] at hreceipt'
  obtain rfl := Except.ok.inj hreceipt'
  exact hkept

end receipts

end Publishing

end Sandbox

end Quantbot

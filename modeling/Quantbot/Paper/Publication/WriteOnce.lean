import Quantbot.Paper.Publication.Basic

/-!
The lock serializes the calls, and an installed receipt stays.
-/

namespace Quantbot

namespace Publication

/--
The receipt and its sidecar hold the bytes and their digest.
-/
structure Holds (out : Outputs) (data : Bytes) (files : Files) : Prop where
  receipt : files out.receiptPath = some data
  sidecar : files out.sidecarPath = some (sidecarBytes data)

/--
What the alias checks establish.
-/
structure Distinct (out : Outputs) : Prop where
  sidecar : out.receiptPath ≠ out.sidecarPath
  lock : out.lockPath ≠ out.sidecarPath

/--
The receipt is installed before the sidecar.
-/
def TargetInv (out : Outputs) (data : Bytes) (files : Files) : Target → Prop
  | .receipt => files out.receiptPath = none
  | .sidecar => files out.receiptPath = some data

/--
A temporary file is none of those it must not overwrite.
-/
structure OwnTemp (out : Outputs) (target : Target) (temp : Path) : Prop where
  receipt : temp ≠ out.receiptPath
  lock : temp ≠ out.lockPath
  target : temp ≠ target.path out

/--
What a call relies on where it is.
-/
def PhaseInv (out : Outputs) (data : Bytes) (files : Files) : Phase → Prop
  | .start | .raised => True
  | .sidecarExists => Distinct out ∧ files out.receiptPath = none
  | .readSidecar => Distinct out ∧ files out.receiptPath = some data
  | .createTemp target => Distinct out ∧ TargetInv out data files target
  | .writeTemp target temp rest => Distinct out ∧ TargetInv out data files target
    ∧ OwnTemp out target temp ∧ ∃ front, files temp = some front ∧ front ++ rest = target.bytes data
  | .replaceTemp target temp => Distinct out ∧ TargetInv out data files target
    ∧ OwnTemp out target temp ∧ files temp = some (target.bytes data)
  | .unlinkTemp temp => Distinct out ∧ temp ≠ out.receiptPath ∧ temp ≠ out.lockPath
  | .unlock returns => Distinct out ∧ (returns = true → Holds out data files)
  | .returned => Distinct out ∧ Holds out data files
  | _ => Distinct out

section paths

theorem lock_ne (path : Path) : path.lock ≠ path := by
  intro h
  have := congrArg (fun p : Path => p.name.length) h
  simp [Path.lock] at this

theorem Distinct.lock_ne {out : Outputs} (h : Distinct out) (target : Target)
    : out.lockPath ≠ target.path out := by
  cases target with
  | receipt => exact Publication.lock_ne _
  | sidecar => exact h.lock

theorem temp_ne (path : Path) (random : String) : path.temp random ≠ path := by
  intro h
  have := congrArg (fun p : Path => p.name.length) h
  have htmp : ".tmp".length = 4 := by decide
  simp [Path.temp, htmp] at this
  omega

end paths

section step

variable {out : Outputs} {data : Bytes} {env : StepEnv} {files : Files} {p : Phase}

theorem not_critical (hp : p.critical = false)
    : p = .start ∨ p = .openLock ∨ p = .returned ∨ p = .raised := by
  cases p <;> simp_all [Phase.critical]

/--
The lock keeps out a call that does not hold it.
-/
theorem step_files_of_not_critical (hp : p.critical = false)
    (hlock : (files out.lockPath).isSome = true) : (step out data env files p).1 = files := by
  obtain rfl | rfl | rfl | rfl := not_critical hp
  . rfl
  . simp [step, hlock]
  . rfl
  . rfl

/--
Only the calls that install touch anything but the lock.
-/
theorem step_files_of_not_installing (hp : p.installing = false) {path : Path}
    (hpath : path ≠ out.lockPath) : (step out data env files p).1 path = files path := by
  cases p <;> first | rfl | cases hp
  case openLock =>
    simp only [step]
    split
    . rfl
    . exact Function.update_of_ne hpath _ _
  case unlock =>
    simp only [step]
    split
    . rfl
    . exact Function.update_of_ne hpath _ _

theorem step_critical (h : (step out data env files p).2.critical = true)
    : p.critical = true ∨ files out.lockPath = none := by
  cases p <;> first | exact Or.inl rfl | cases h | skip
  case start =>
    simp only [step] at h
    split at h <;> cases h
  case openLock =>
    simp only [step] at h
    split at h
    . cases h
    next hopen =>
      simp at hopen
      exact Or.inr hopen.2

theorem step_installing (hinv : PhaseInv out data files p)
    (h : (step out data env files p).2.installing = true)
    : p.installing = true ∨ files out.receiptPath = none := by
  cases p <;> first | exact Or.inl rfl | simp only [step, orUnlock] at h
  case sidecarExists => exact Or.inr hinv.2
  all_goals
    repeat' split at h
    all_goals cases h

theorem step_returned (h : (step out data env files p).2 = .returned)
    : p = .returned ∨ p = .unlock true := by
  cases p <;> simp only [step, orUnlock] at h
  case returned => exact Or.inl rfl
  case unlock returns =>
    cases returns
    . split at h <;> cases h
    . exact Or.inr rfl
  all_goals
    repeat' split at h
    all_goals cases h

/--
Only the locks are put and removed at the path of the lock.
-/
theorem step_lock (hinv : PhaseInv out data files p)
    (hlock : p.critical = true → (files out.lockPath).isSome = true)
    (h : (step out data env files p).2.critical = true)
    : ((step out data env files p).1 out.lockPath).isSome = true := by
  cases p
  case start =>
    simp only [step] at h
    split at h <;> cases h
  case openLock =>
    simp only [step] at h ⊢
    split at h
    . cases h
    next hopen => rw [if_neg hopen]; simp [Files.put]
  case unlock =>
    simp only [step] at h
    repeat' split at h
    all_goals cases h
  case returned => cases h
  case raised => cases h
  case createTemp target =>
    simp only [step]
    split
    . exact hlock rfl
    . split
      . exact hlock rfl
      next hfree =>
        dsimp only
        rw [Files.put_of_ne]
        . exact hlock rfl
        . exact fun heq => hfree (heq ▸ hlock rfl)
  case writeTemp target temp rest =>
    obtain ⟨-, -, htemp, -⟩ := hinv
    simp only [step]
    split
    . exact hlock rfl
    . split
      . exact hlock rfl
      . dsimp only
        rw [Files.put_of_ne htemp.lock.symm]
        exact hlock rfl
  case replaceTemp target temp =>
    obtain ⟨hdistinct, -, htemp, -⟩ := hinv
    simp only [step]
    split
    . exact hlock rfl
    . dsimp only
      rw [Files.replace_of_ne htemp.lock.symm (hdistinct.lock_ne target)]
      exact hlock rfl
  case unlinkTemp temp =>
    obtain ⟨-, -, htemp⟩ := hinv
    simp only [step]
    split
    . exact hlock rfl
    . rw [Files.unlink_of_ne htemp.symm]
      exact hlock rfl
  all_goals exact hlock rfl

/--
No step takes an installed receipt away.
-/
theorem step_receipt (hinv : PhaseInv out data files p) {first : Bytes}
    (hfirst : files out.receiptPath = some first)
    : (step out data env files p).1 out.receiptPath = some first := by
  cases hinstalling : p.installing with
  | false => rw [step_files_of_not_installing hinstalling (lock_ne _).symm, hfirst]
  | true =>
    cases p
    case createTemp target =>
      simp only [step]
      split
      . exact hfirst
      . split
        . exact hfirst
        next hfree =>
          dsimp only
          rw [Files.put_of_ne, hfirst]
          rintro heq
          rw [← heq, hfirst] at hfree
          exact hfree rfl
    case writeTemp target temp rest =>
      obtain ⟨-, -, htemp, -⟩ := hinv
      simp only [step]
      split
      . exact hfirst
      . split
        . exact hfirst
        . dsimp only
          rw [Files.put_of_ne htemp.receipt.symm, hfirst]
    case replaceTemp target temp =>
      obtain ⟨hdistinct, htarget, htemp, -⟩ := hinv
      simp only [step]
      split
      . exact hfirst
      . cases target with
        | receipt =>
          rw [TargetInv, hfirst] at htarget
          cases htarget
        | sidecar =>
          dsimp only
          exact (Files.replace_of_ne htemp.receipt.symm hdistinct.sidecar).trans hfirst
    case unlinkTemp temp =>
      obtain ⟨-, htemp, -⟩ := hinv
      simp only [step]
      split
      . exact hfirst
      . rw [Files.unlink_of_ne htemp.symm, hfirst]
    all_goals cases hinstalling

/--
What a call relies on when its temporary file is new.
-/
theorem OwnTemp.fresh (hlock : (files out.lockPath).isSome = true) {target : Target}
    (htarget : TargetInv out data files target) {random : String}
    (hfree : files ((target.path out).temp random) = none)
    : OwnTemp out target ((target.path out).temp random) := by
  refine ⟨?_, ?_, temp_ne _ _⟩
  . intro heq
    cases target with
    | receipt => exact temp_ne _ _ heq
    | sidecar =>
      rw [heq, htarget] at hfree
      cases hfree
  . intro heq
    rw [heq] at hfree
    rw [hfree] at hlock
    cases hlock

theorem TargetInv.put {target : Target} (h : TargetInv out data files target) {path : Path}
    (hpath : path ≠ out.receiptPath) (content : Bytes)
    : TargetInv out data (files.put path content) target := by
  cases target with
  | receipt => exact (Files.put_of_ne hpath.symm).trans h
  | sidecar => exact (Files.put_of_ne hpath.symm).trans h

theorem unlock_false (h : Distinct out) : PhaseInv out data files (.unlock false) :=
  ⟨h, fun hfalse => absurd hfalse Bool.false_ne_true⟩

theorem step_inv (hinv : PhaseInv out data files p)
    (hlock : p.critical = true → (files out.lockPath).isSome = true)
    : PhaseInv out data (step out data env files p).1 (step out data env files p).2 := by
  cases p
  case start =>
    simp only [step]
    split
    . trivial
    next halias =>
      rw [not_or] at halias
      exact ⟨halias.1, halias.2⟩
  case openLock =>
    simp only [step]
    split
    . trivial
    . exact hinv
  case closeLock =>
    simp only [step, orUnlock]
    split
    . exact unlock_false hinv
    . exact hinv
  case receiptExists =>
    simp only [step, orUnlock]
    split
    . exact unlock_false hinv
    . split
      . exact hinv
      next hnone => exact ⟨hinv, by simpa using hnone⟩
  case sidecarExists =>
    simp only [step, orUnlock]
    split
    . exact unlock_false hinv.1
    . split
      . exact hinv.1
      . exact hinv
  case receiptPresent =>
    simp only [step, orUnlock]
    split
    . exact unlock_false hinv
    . split
      . exact hinv
      . exact unlock_false hinv
  case sidecarPresent =>
    simp only [step, orUnlock]
    split
    . exact unlock_false hinv
    . split
      . exact hinv
      . exact unlock_false hinv
  case readReceipt =>
    simp only [step, orUnlock]
    split
    . exact unlock_false hinv
    . split
      next hreceipt => exact ⟨hinv, hreceipt⟩
      . exact unlock_false hinv
  case readSidecar =>
    simp only [step, orUnlock]
    split
    . exact unlock_false hinv.1
    . exact ⟨hinv.1, fun hsidecar => ⟨hinv.2, of_decide_eq_true hsidecar⟩⟩
  case createTemp target =>
    simp only [step]
    split
    . exact unlock_false hinv.1
    . split
      . exact hinv
      next hfree =>
        rw [Option.not_isSome_iff_eq_none] at hfree
        have htemp := OwnTemp.fresh (hlock rfl) hinv.2 hfree
        exact ⟨hinv.1, hinv.2.put htemp.receipt [], htemp, [], Files.put_self, rfl⟩
  case writeTemp target temp rest =>
    obtain ⟨hdistinct, htarget, htemp, front, hfront, hbytes⟩ := hinv
    simp only [step]
    split
    . exact ⟨hdistinct, htemp.receipt, htemp.lock⟩
    . split
      next hrest =>
        rw [hrest, List.append_nil] at hbytes
        exact ⟨hdistinct, htarget, htemp, hbytes ▸ hfront⟩
      . refine ⟨hdistinct, htarget.put htemp.receipt _, htemp, _, Files.put_self, ?_⟩
        rw [hfront, Option.getD_some, List.append_assoc, List.take_append_drop, hbytes]
  case replaceTemp target temp =>
    obtain ⟨hdistinct, htarget, htemp, hbytes⟩ := hinv
    simp only [step]
    split
    . exact ⟨hdistinct, htemp.receipt, htemp.lock⟩
    . cases target with
      | receipt => exact ⟨hdistinct, (Files.replace_target htemp.target).trans hbytes⟩
      | sidecar =>
        refine ⟨hdistinct, fun _ => ⟨?_, (Files.replace_target htemp.target).trans hbytes⟩⟩
        exact (Files.replace_of_ne htemp.receipt.symm hdistinct.sidecar).trans htarget
  case unlinkTemp temp => exact unlock_false hinv.1
  case unlock returns =>
    simp only [step]
    split
    . trivial
    . cases returns with
      | false => trivial
      | true =>
        obtain ⟨hdistinct, hholds⟩ := hinv
        exact ⟨hdistinct, (Files.unlink_of_ne (lock_ne _).symm).trans (hholds rfl).receipt,
          (Files.unlink_of_ne hdistinct.lock.symm).trans (hholds rfl).sidecar⟩
  case returned => exact hinv
  case raised => trivial

end step

section run

variable {ι : Type} [DecidableEq ι] {out : Outputs} {data : ι → Bytes} {s : System ι}

/--
What holds in every state: one call at most is in its critical section and its lock is there; while
a call installs, none has returned.
-/
structure System.Inv (out : Outputs) (data : ι → Bytes) (s : System ι) : Prop where
  exclusive : ∀ i j, (s.phase i).critical = true → (s.phase j).critical = true → i = j
  lock : ∀ i, (s.phase i).critical = true → (s.files out.lockPath).isSome = true
  phase : ∀ i, PhaseInv out (data i) s.files (s.phase i)
  installing : ∀ i j, (s.phase i).installing = true → s.phase j ≠ .returned

omit [DecidableEq ι] in
theorem System.inv_start (files : Files) : (System.start files : System ι).Inv out data where
  exclusive := fun _ _ h => absurd h Bool.false_ne_true
  lock := fun _ h => absurd h Bool.false_ne_true
  phase := fun _ => trivial
  installing := fun _ _ h => absurd h Bool.false_ne_true

namespace System.Inv

/--
A step of one call does not disturb another.
-/
theorem frame (h : s.Inv out data) {i j : ι} (hij : i ≠ j) (env : StepEnv)
    : PhaseInv out (data j) (step out (data i) env s.files (s.phase i)).1 (s.phase j) := by
  have hj := h.phase j
  cases hcritical : (s.phase j).critical with
  | true =>
    have hi : (s.phase i).critical = false := by
      by_contra hi
      exact hij (h.exclusive i j (by simpa using hi) hcritical)
    rw [step_files_of_not_critical hi (h.lock j hcritical)]
    exact hj
  | false =>
    obtain heq | heq | heq | heq := not_critical hcritical
    . rw [heq]
      trivial
    . rw [heq] at hj ⊢
      exact hj
    . -- a call that has returned relies on its files, and only a call that installs changes those
      have hi : (s.phase i).installing = false := by
        by_contra hi
        exact h.installing i j (by simpa using hi) heq
      rw [heq] at hj ⊢
      obtain ⟨hdistinct, hholds⟩ := hj
      refine ⟨hdistinct, ?_, ?_⟩
      . rw [step_files_of_not_installing hi (lock_ne _).symm, hholds.receipt]
      . rw [step_files_of_not_installing hi hdistinct.lock.symm, hholds.sidecar]
    . rw [heq]
      trivial

theorem advance_critical {i j : ι} {env : StepEnv}
    (h : ((s.advance out data i env).phase j).critical = true)
    : (s.phase j).critical = true ∨ j = i ∧ s.files out.lockPath = none := by
  unfold System.advance at h
  by_cases hij : j = i
  . subst hij
    simp only [Function.update_self] at h
    exact (step_critical h).imp id fun hnone => ⟨rfl, hnone⟩
  . simp only [Function.update_of_ne hij] at h
    exact Or.inl h

theorem lock_ne_none (h : s.Inv out data) {i : ι} (hi : (s.phase i).critical = true)
    : s.files out.lockPath ≠ none := by
  intro hnone
  have hlock := h.lock i hi
  rw [hnone] at hlock
  cases hlock

theorem advance (h : s.Inv out data) (i : ι) (env : StepEnv)
    : (s.advance out data i env).Inv out data := by
  constructor
  case exclusive =>
    intro j k hj hk
    rcases advance_critical hj with hj | ⟨rfl, hnone⟩
    . rcases advance_critical hk with hk | ⟨-, hnone⟩
      . exact h.exclusive j k hj hk
      . exact absurd hnone (h.lock_ne_none hj)
    . rcases advance_critical hk with hk | ⟨rfl, -⟩
      . exact absurd hnone (h.lock_ne_none hk)
      . rfl
  case lock =>
    intro j hj
    by_cases hij : j = i
    . subst hij
      unfold System.advance at hj ⊢
      simp only [Function.update_self] at hj
      exact step_lock (h.phase j) (h.lock j) hj
    . unfold System.advance at hj ⊢
      simp only [Function.update_of_ne hij] at hj
      have hi : (s.phase i).critical = false := by
        by_contra hi
        exact hij (h.exclusive j i hj (by simpa using hi))
      dsimp only
      rw [step_files_of_not_critical hi (h.lock j hj)]
      exact h.lock j hj
  case phase =>
    intro j
    unfold System.advance
    by_cases hij : j = i
    . subst hij
      simp only [Function.update_self]
      exact step_inv (h.phase j) (h.lock j)
    . simp only [Function.update_of_ne hij]
      exact h.frame (Ne.symm hij) env
  case installing =>
    intro k j hk hj
    unfold System.advance at hk hj
    by_cases hji : j = i
    . subst hji
      simp only [Function.update_self] at hj
      by_cases hkj : k = j
      . subst hkj
        simp only [Function.update_self, hj] at hk
        cases hk
      . simp only [Function.update_of_ne hkj] at hk
        rcases step_returned hj with heq | heq
        . exact h.installing k j hk heq
        . apply hkj
          apply h.exclusive k j (Phase.critical_of_installing hk)
          rw [heq]
          rfl
    . simp only [Function.update_of_ne hji] at hj
      by_cases hki : k = i
      . subst hki
        simp only [Function.update_self] at hk
        rcases step_installing (h.phase k) hk with hk | hnone
        . exact h.installing k j hk hj
        . have hholds := h.phase j
          rw [hj] at hholds
          rw [hholds.2.receipt] at hnone
          cases hnone
      . simp only [Function.update_of_ne hki] at hk
        exact h.installing k j hk hj

theorem turn (h : s.Inv out data) (turn : System.Turn ι) : (s.turn out data turn).Inv out data := by
  cases turn with
  | crash i => exact ⟨h.exclusive, h.lock, h.phase, h.installing⟩
  | step i env =>
    simp only [System.turn]
    split
    . exact h
    . exact h.advance i env

theorem run (h : s.Inv out data) (turns : List (System.Turn ι))
    : (s.run out data turns).Inv out data := by
  induction turns generalizing s with
  | nil => exact h
  | cons turn turns ih => exact ih (h.turn turn)

end System.Inv

section future

theorem receipt_turn (h : s.Inv out data) (turn : System.Turn ι) {first : Bytes}
    (hfirst : s.files out.receiptPath = some first)
    : (s.turn out data turn).files out.receiptPath = some first := by
  cases turn with
  | crash i => exact hfirst
  | step i env =>
    simp only [System.turn]
    split
    . exact hfirst
    . exact step_receipt (h.phase i) hfirst

theorem receipt_run (h : s.Inv out data) (turns : List (System.Turn ι)) {first : Bytes}
    (hfirst : s.files out.receiptPath = some first)
    : (s.run out data turns).files out.receiptPath = some first := by
  induction turns generalizing s with
  | nil => exact hfirst
  | cons turn turns ih => exact ih (h.turn turn) (receipt_turn h turn hfirst)

theorem returned_turn (turn : System.Turn ι) {i : ι} (hi : s.phase i = .returned)
    : (s.turn out data turn).phase i = .returned := by
  cases turn with
  | crash j => exact hi
  | step j env =>
    simp only [System.turn]
    split
    . exact hi
    . unfold System.advance
      by_cases hij : i = j
      . subst hij
        simp only [Function.update_self, hi]
        rfl
      . simp only [Function.update_of_ne hij, hi]

theorem returned_run (turns : List (System.Turn ι)) {i : ι} (hi : s.phase i = .returned)
    : (s.run out data turns).phase i = .returned := by
  induction turns generalizing s with
  | nil => exact hi
  | cons turn turns ih => exact ih (returned_turn turn hi)

end future

/--
From a state on: the receipt that is there stays, and the files of a call that has returned are its
own.
-/
structure WriteOnce (out : Outputs) (data : ι → Bytes) (s : System ι) : Prop where
  first : ∀ turns first, s.files out.receiptPath = some first →
    (s.run out data turns).files out.receiptPath = some first
  returned : ∀ turns i, s.phase i = .returned →
    Holds out (data i) (s.run out data turns).files

/--
Any calls on any files, in any interleaving and with any crashes.
-/
theorem receipt_writeOnce (out : Outputs) (data : ι → Bytes) (files : Files)
    (turns : List (System.Turn ι)) : WriteOnce out data ((System.start files).run out data turns) := by
  have hstart : (System.start files : System ι).Inv out data := System.inv_start files
  have hinv := hstart.run turns
  constructor
  case first =>
    intro later first hfirst
    exact receipt_run hinv later hfirst
  case returned =>
    intro later i hi
    have hphase := (hinv.run later).phase i
    rw [returned_run later hi] at hphase
    exact hphase.2

/--
A call that is never disturbed returns.
-/
example
    : ((System.start fun _ => none).run
        { receiptPath := ⟨"out", "receipt.json"⟩, sidecarPath := ⟨"out", "receipt.sha256"⟩ }
        (fun _ : Unit => [123, 125])
        (List.replicate 15 (.step () { fails := false, random := "x", written := 64 }))).phase ()
      = .returned := by
  decide +kernel

end run

end Publication

end Quantbot

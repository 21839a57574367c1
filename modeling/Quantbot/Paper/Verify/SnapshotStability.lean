import Quantbot.Paper.Verify.Lemmas

/-!
The three passes of `_snapshot_inputs` over the live files, between the moves of a writer.
-/

namespace Quantbot

inductive Pass where
  | first
  | copy
  | second
deriving DecidableEq

/--
The live files, what each pass has read of them, and the reads to come.
-/
structure Snapshotting where
  live : Inputs
  first : Inputs
  frozen : Inputs
  second : Inputs
  todo : List (Pass × SnapshotFile)

/--
The writer replaces a file, or the next read is made. A copy may fail to be stored.
-/
inductive Move where
  | write (file : SnapshotFile) (state : FileState)
  | read (stored : Bool)

namespace Snapshotting

def copies : List (Pass × SnapshotFile) :=
  snapshotFiles.map (fun file => (.copy, file))

def seconds : List (Pass × SnapshotFile) :=
  snapshotFiles.map (fun file => (.second, file))

def program : List (Pass × SnapshotFile) :=
  snapshotFiles.map (fun file => (.first, file)) ++ (copies ++ seconds)

def start (live : Inputs) : Snapshotting where
  live := live
  first := fun _ => .absent
  frozen := fun _ => .absent
  second := fun _ => .absent
  todo := program

/--
A file that was absent at its first digest is not copied, and an `OSError` of a copy is passed over.
-/
def copy (s : Snapshotting) (file : SnapshotFile) (stored : Bool) : Snapshotting :=
  match s.live file with
  | .content data =>
    if (rawDigest (s.first file)).present ∧ stored then
      { s with frozen := Function.update s.frozen file (.content data) }
    else
      s
  | _ => s

def read (s : Snapshotting) (pass : Pass) (file : SnapshotFile) (stored : Bool) : Snapshotting :=
  match pass with
  | .first => { s with first := Function.update s.first file (s.live file) }
  | .copy => s.copy file stored
  | .second => { s with second := Function.update s.second file (s.live file) }

def step (s : Snapshotting) : Move → Snapshotting
  | .write file state => { s with live := Function.update s.live file state }
  | .read stored =>
    match s.todo with
    | [] => s
    | (pass, file) :: rest => { s.read pass file stored with todo := rest }

def run (s : Snapshotting) (moves : List Move) : Snapshotting :=
  moves.foldl step s

def unstable (s : Snapshotting) : List SnapshotFile :=
  snapshotFiles.filter (fun file => rawDigest (s.first file) ≠ rawDigest (s.second file))

/--
Between the digests of a file no write gives it back what the first one was taken of, no copy of
it fails, and the second digest tells another content apart.
-/
def Undisturbed (s : Snapshotting) : Move → Prop
  | .write file state =>
    (.first, file) ∉ s.todo → (.second, file) ∈ s.todo → s.live file ≠ s.first file →
      state ≠ s.first file
  | .read stored =>
    ∀ pass file rest, s.todo = (pass, file) :: rest →
      match pass with
      | .first => True
      | .copy => s.live file = s.first file → stored = true
      | .second => rawDigest (s.first file) = rawDigest (s.live file) → s.first file = s.live file

/--
Every move of the run is undisturbed in the state that it is made in.
-/
def UndisturbedRun (s : Snapshotting) (moves : List Move) : Prop :=
  ∀ pre move post, moves = pre ++ move :: post → (s.run pre).Undisturbed move

section invariant

/--
No pass repeats a read, and the second digests come last.
-/
def InOrder (a b : Pass × SnapshotFile) : Prop :=
  a ≠ b ∧ (a.1 = .second → b.1 = .second)

instance : DecidableRel InOrder :=
  fun a b => inferInstanceAs (Decidable (a ≠ b ∧ (a.1 = .second → b.1 = .second)))

/--
What holds after the first pass, at whose end the live files were `mid`.
-/
structure Settling (mid : Inputs) (s : Snapshotting) : Prop where
  ordered : s.todo.Pairwise InOrder
  digested : ∀ r ∈ s.todo, r.1 ≠ .first
  before : ∀ file, (.copy, file) ∈ s.todo → (.second, file) ∈ s.todo
  frozen : ∀ file data, s.frozen file = .content data → (rawDigest (s.first file)).present = true
  kept : ∀ file, (.second, file) ∈ s.todo → s.live file = s.first file → mid file = s.first file
  copied : ∀ file, (.second, file) ∈ s.todo → (.copy, file) ∉ s.todo →
    s.live file = s.first file → ∀ data, s.first file = .content data → s.frozen file = .content data
  told : ∀ file, (.second, file) ∉ s.todo →
    rawDigest (s.first file) = rawDigest (s.second file) → s.first file = s.second file
  keptAll : ∀ file, (.second, file) ∉ s.todo → s.first file = s.second file →
    mid file = s.first file
  copiedAll : ∀ file, (.second, file) ∉ s.todo → s.first file = s.second file →
    ∀ data, s.first file = .content data → s.frozen file = .content data

variable {mid : Inputs} {s : Snapshotting}

theorem Settling.write (h : s.Settling mid) {file : SnapshotFile} {state : FileState}
    (hmove : s.Undisturbed (.write file state)) : (s.step (.write file state)).Settling mid := by
  have hlive (file' : SnapshotFile) (hmem : (.second, file') ∈ s.todo)
      (heq : (s.step (.write file state)).live file' = s.first file')
      : s.live file' = s.first file' := by
    simp only [step] at heq
    by_cases hfile : file' = file
    . subst hfile
      rw [Function.update_self] at heq
      by_contra hne
      exact hmove (fun hfirst => h.digested _ hfirst rfl) hmem hne heq
    . rwa [Function.update_of_ne hfile] at heq
  exact {
    ordered := h.ordered
    digested := h.digested
    before := h.before
    frozen := h.frozen
    kept := fun file' hmem heq => h.kept file' hmem (hlive file' hmem heq)
    copied := fun file' hmem hcopy heq => h.copied file' hmem hcopy (hlive file' hmem heq)
    told := h.told
    keptAll := h.keptAll
    copiedAll := h.copiedAll }

@[simp]
theorem copy_live (file : SnapshotFile) (stored : Bool) : (s.copy file stored).live = s.live := by
  unfold copy
  split
  . split <;> rfl
  . rfl

@[simp]
theorem copy_first (file : SnapshotFile) (stored : Bool) : (s.copy file stored).first = s.first := by
  unfold copy
  split
  . split <;> rfl
  . rfl

@[simp]
theorem copy_second (file : SnapshotFile) (stored : Bool)
    : (s.copy file stored).second = s.second := by
  unfold copy
  split
  . split <;> rfl
  . rfl

theorem copy_frozen_of_ne {file file' : SnapshotFile} (h : file' ≠ file) (stored : Bool)
    : (s.copy file stored).frozen file' = s.frozen file' := by
  unfold copy
  split
  . split
    . exact Function.update_of_ne h _ _
    . rfl
  . rfl

theorem copy_stored {file : SnapshotFile} {data : Bytes} (hlive : s.live file = .content data)
    (hfirst : s.first file = .content data)
    : (s.copy file true).frozen file = .content data := by
  unfold copy
  rw [hlive]
  dsimp only
  rw [if_pos ⟨by rw [hfirst]; rfl, rfl⟩]
  exact Function.update_self _ _ _

theorem copy_frozen_present {file file' : SnapshotFile} {stored : Bool} {data : Bytes}
    (h : ∀ file data, s.frozen file = .content data → (rawDigest (s.first file)).present = true)
    (hdata : (s.copy file stored).frozen file' = .content data)
    : (rawDigest (s.first file')).present = true := by
  by_cases hfile : file' = file
  . subst hfile
    unfold copy at hdata
    split at hdata
    . split at hdata
      . rename_i hpresent
        exact hpresent.1
      . exact h file' data hdata
    . exact h file' data hdata
  . rw [copy_frozen_of_ne hfile] at hdata
    exact h file' data hdata

theorem Settling.readCopy (h : s.Settling mid) {file : SnapshotFile}
    {rest : List (Pass × SnapshotFile)} (htodo : s.todo = (.copy, file) :: rest) {stored : Bool}
    (hmove : s.live file = s.first file → stored = true)
    : ({ s.copy file stored with todo := rest } : Snapshotting).Settling mid := by
  have hordered := h.ordered
  rw [htodo, List.pairwise_cons] at hordered
  have hmem (r : Pass × SnapshotFile) (hr : r ∈ rest) : r ∈ s.todo := by
    rw [htodo]
    exact List.mem_cons_of_mem _ hr
  have hsecond (file' : SnapshotFile) : (.second, file') ∈ s.todo ↔ (.second, file') ∈ rest := by
    rw [htodo]
    simp
  have hnot : (.copy, file) ∉ rest := fun hr => (hordered.1 _ hr).1 rfl
  refine {
    ordered := hordered.2
    digested := fun r hr => h.digested r (hmem r hr)
    before := fun file' hr => (hsecond file').mp (h.before file' (hmem _ hr))
    frozen := ?_
    kept := ?_
    copied := ?_
    told := ?_
    keptAll := ?_
    copiedAll := ?_ }
  . intro file' data hdata
    simp only [copy_first]
    exact copy_frozen_present h.frozen hdata
  . intro file' hr heq
    simp only [copy_live, copy_first] at heq ⊢
    exact h.kept file' (hmem _ hr) heq
  . intro file' hr hcopy heq data hdata
    simp only [copy_live, copy_first] at heq hdata ⊢
    by_cases hfile : file' = file
    . subst hfile
      rw [hmove heq]
      exact copy_stored (heq.trans hdata) hdata
    . rw [copy_frozen_of_ne hfile]
      refine h.copied file' (hmem _ hr) ?_ heq data hdata
      rw [htodo, List.mem_cons]
      rintro (hhead | hrest)
      . cases hhead
        exact hfile rfl
      . exact hcopy hrest
  . intro file' hr
    simp only [copy_first, copy_second]
    exact h.told file' (fun hr' => hr ((hsecond file').mp hr'))
  . intro file' hr
    simp only [copy_first, copy_second]
    exact h.keptAll file' (fun hr' => hr ((hsecond file').mp hr'))
  . intro file' hr heq data hdata
    simp only [copy_first, copy_second] at heq hdata ⊢
    have hne : file' ≠ file := by
      rintro rfl
      apply hr
      rw [← hsecond]
      apply h.before
      rw [htodo]
      exact List.mem_cons_self
    rw [copy_frozen_of_ne hne]
    exact h.copiedAll file' (fun hr' => hr ((hsecond file').mp hr')) heq data hdata

theorem Settling.readSecond (h : s.Settling mid) {file : SnapshotFile}
    {rest : List (Pass × SnapshotFile)} (htodo : s.todo = (.second, file) :: rest)
    (hmove : rawDigest (s.first file) = rawDigest (s.live file) → s.first file = s.live file)
    : ({ s with
        second := Function.update s.second file (s.live file), todo := rest } : Snapshotting).Settling
        mid := by
  have hordered := h.ordered
  rw [htodo, List.pairwise_cons] at hordered
  have hmem (r : Pass × SnapshotFile) (hr : r ∈ rest) : r ∈ s.todo := by
    rw [htodo]
    exact List.mem_cons_of_mem _ hr
  have hhead : (.second, file) ∈ s.todo := by
    rw [htodo]
    exact List.mem_cons_self
  have hlast (file' : SnapshotFile) : (.copy, file') ∉ s.todo := by
    rw [htodo, List.mem_cons]
    rintro (hr | hr)
    . cases hr
    . cases (hordered.1 _ hr).2 rfl
  have hother {file' : SnapshotFile} (hfile : file' ≠ file) (hr : (.second, file') ∉ rest)
      : (.second, file') ∉ s.todo := by
    rw [htodo, List.mem_cons]
    rintro (hhead | hrest)
    . cases hhead
      exact hfile rfl
    . exact hr hrest
  refine {
    ordered := hordered.2
    digested := fun r hr => h.digested r (hmem r hr)
    before := fun file' hr => absurd (hmem _ hr) (hlast file')
    frozen := h.frozen
    kept := fun file' hr heq => h.kept file' (hmem _ hr) heq
    copied := fun file' hr _ heq => h.copied file' (hmem _ hr) (hlast file') heq
    told := ?_
    keptAll := ?_
    copiedAll := ?_ }
  . intro file' hr
    dsimp only
    by_cases hfile : file' = file
    . subst hfile
      rw [Function.update_self]
      exact hmove
    . rw [Function.update_of_ne hfile]
      exact h.told file' (hother hfile hr)
  . intro file' hr heq
    dsimp only at heq ⊢
    by_cases hfile : file' = file
    . subst hfile
      rw [Function.update_self] at heq
      exact h.kept file' hhead heq.symm
    . rw [Function.update_of_ne hfile] at heq
      exact h.keptAll file' (hother hfile hr) heq
  . intro file' hr heq data hdata
    dsimp only at heq hdata ⊢
    by_cases hfile : file' = file
    . subst hfile
      rw [Function.update_self] at heq
      exact h.copied file' hhead (hlast file') heq.symm data hdata
    . rw [Function.update_of_ne hfile] at heq
      exact h.copiedAll file' (hother hfile hr) heq data hdata

theorem Settling.step (h : s.Settling mid) {move : Move} (hmove : s.Undisturbed move)
    : (s.step move).Settling mid := by
  cases move with
  | write file state => exact h.write hmove
  | read stored =>
    cases htodo : s.todo with
    | nil =>
      simp only [Snapshotting.step, htodo]
      exact h
    | cons r rest =>
      obtain ⟨pass, file⟩ := r
      have hread := hmove pass file rest htodo
      simp only [Snapshotting.step, htodo]
      cases pass with
      | first =>
        refine absurd rfl (h.digested (.first, file) ?_)
        rw [htodo]
        exact List.mem_cons_self
      | copy => exact h.readCopy htodo hread
      | second => exact h.readSecond htodo hread

theorem Settling.run (h : s.Settling mid) {moves : List Move} (hmoves : s.UndisturbedRun moves)
    : (s.run moves).Settling mid := by
  induction moves generalizing s with
  | nil => exact h
  | cons move moves ih =>
    refine ih (h.step (hmoves [] move moves rfl)) fun pre move' post heq => ?_
    exact hmoves (move :: pre) move' post (by rw [heq, List.cons_append])

end invariant

section stability

variable {s : Snapshotting}

theorem run_append (moves moves' : List Move) : s.run (moves ++ moves') = (s.run moves).run moves' := by
  rw [run, run, run, List.foldl_append]

theorem undisturbed_append {moves moves' : List Move} (h : s.UndisturbedRun (moves ++ moves'))
    : (s.run moves).UndisturbedRun moves' := by
  intro pre move post heq
  rw [← run_append]
  apply h (moves ++ pre) move post
  rw [heq, List.append_assoc]

theorem step_first {done rest : List (Pass × SnapshotFile)} (htodo : s.todo = done ++ rest)
    (hne : done ≠ []) (hdone : ∀ r ∈ done, r.1 = .first) (move : Move)
    : (s.step move).frozen = s.frozen ∧ ∃ done', (s.step move).todo = done' ++ rest
        ∧ ∀ r ∈ done', r.1 = .first := by
  cases move with
  | write file state => exact ⟨rfl, done, htodo, hdone⟩
  | read stored =>
    cases done with
    | nil => exact absurd rfl hne
    | cons r done =>
      obtain ⟨pass, file⟩ := r
      rw [List.forall_mem_cons] at hdone
      obtain ⟨rfl, hdone⟩ := hdone
      rw [List.cons_append] at htodo
      unfold step
      simp only [htodo]
      exact ⟨rfl, done, rfl, hdone⟩

/--
A run that makes all its reads reaches the end of the first pass.
-/
theorem exists_firstPass {done rest : List (Pass × SnapshotFile)} {moves : List Move}
    (htodo : s.todo = done ++ rest) (hdone : ∀ r ∈ done, r.1 = .first)
    (hrun : (s.run moves).todo = [])
    : ∃ k ≤ moves.length, (s.run (moves.take k)).todo = rest
        ∧ (s.run (moves.take k)).frozen = s.frozen := by
  induction moves generalizing s done with
  | nil =>
    have hnil : done ++ rest = [] := htodo.symm.trans hrun
    refine ⟨0, le_refl 0, ?_, rfl⟩
    rw [(List.append_eq_nil_iff.mp hnil).2]
    exact hrun
  | cons move moves ih =>
    by_cases hne : done = []
    . subst hne
      exact ⟨0, Nat.zero_le _, htodo, rfl⟩
    . obtain ⟨hfrozen, done', htodo', hdone'⟩ := step_first htodo hne hdone move
      obtain ⟨k, hk, hrest, hkept⟩ := ih htodo' hdone' hrun
      exact ⟨k + 1, Nat.succ_le_succ hk, hrest, hkept.trans hfrozen⟩

theorem mem_snapshotFiles (file : SnapshotFile) : file ∈ snapshotFiles := by
  rcases file with _ | ledger | _ | _
  . decide
  . cases ledger <;> decide
  . decide
  . decide

/--
At the end of the first pass nothing has been copied or digested again.
-/
theorem settling_of_todo (s : Snapshotting) (htodo : s.todo = copies ++ seconds)
    (hfrozen : ∀ file, s.frozen file = .absent) : s.Settling s.live where
  ordered := by
    rw [htodo]
    decide
  digested := by
    rw [htodo]
    decide
  before := by
    intro file _
    rw [htodo]
    exact List.mem_append_right _ (List.mem_map_of_mem (mem_snapshotFiles file))
  frozen := by
    intro file data hdata
    rw [hfrozen] at hdata
    cases hdata
  kept := fun _ _ heq => heq
  copied := by
    intro file _ hcopy
    rw [htodo] at hcopy
    exact absurd (List.mem_append_left _ (List.mem_map_of_mem (mem_snapshotFiles file))) hcopy
  told := by
    intro file hsecond
    rw [htodo] at hsecond
    exact absurd (List.mem_append_right _ (List.mem_map_of_mem (mem_snapshotFiles file))) hsecond
  keptAll := by
    intro file hsecond
    rw [htodo] at hsecond
    exact absurd (List.mem_append_right _ (List.mem_map_of_mem (mem_snapshotFiles file))) hsecond
  copiedAll := by
    intro file hsecond
    rw [htodo] at hsecond
    exact absurd (List.mem_append_right _ (List.mem_map_of_mem (mem_snapshotFiles file))) hsecond

/--
In a run that is not disturbed, the files of a stable snapshot are the ones digested before and
after, and were all there at one moment.
-/
theorem snapshot_stable {live : Inputs} {moves : List Move}
    (hrun : ((start live).run moves).todo = []) (hmoves : (start live).UndisturbedRun moves)
    (hstable : ((start live).run moves).unstable = [])
    : (∀ file data, ((start live).run moves).first file = .content data →
        ((start live).run moves).frozen file = .content data
          ∧ ((start live).run moves).second file = .content data)
      ∧ ∃ k ≤ moves.length, ∀ file data, ((start live).run moves).frozen file = .content data →
          ((start live).run (moves.take k)).live file = .content data := by
  have hpasses : (start live).todo = snapshotFiles.map (fun file => (.first, file))
      ++ (copies ++ seconds) := rfl
  obtain ⟨k, hk, htodo, hfrozen⟩ := exists_firstPass hpasses (by decide) hrun
  have hsplit : (start live).run moves
      = ((start live).run (moves.take k)).run (moves.drop k) := by
    rw [← run_append, List.take_append_drop]
  rw [← List.take_append_drop k moves] at hmoves
  have hsettling := (settling_of_todo _ htodo (fun file => congrFun hfrozen file)).run
    (undisturbed_append hmoves)
  rw [← hsplit] at hsettling
  have hsame (file : SnapshotFile)
      : ((start live).run moves).first file = ((start live).run moves).second file := by
    refine hsettling.told file (by rw [hrun]; exact List.not_mem_nil) ?_
    have hnot := List.filter_eq_nil_iff.mp hstable file (mem_snapshotFiles file)
    simpa using hnot
  refine ⟨fun file data hdata => ⟨?_, (hsame file).symm.trans hdata⟩, k, hk, ?_⟩
  . exact hsettling.copiedAll file (by rw [hrun]; exact List.not_mem_nil) (hsame file) data hdata
  . intro file data hdata
    have hpresent := hsettling.frozen file data hdata
    have hkept := hsettling.keptAll file (by rw [hrun]; exact List.not_mem_nil) (hsame file)
    cases hfirst : ((start live).run moves).first file with
    | content data' =>
      have hcopied := hsettling.copiedAll file (by rw [hrun]; exact List.not_mem_nil)
        (hsame file) data' hfirst
      rw [hkept, hfirst, ← hcopied, hdata]
    | absent =>
      rw [hfirst] at hpresent
      cases hpresent
    | unreadable reason =>
      rw [hfirst] at hpresent
      cases hpresent

theorem unstable_nil (h : ∀ file ∈ snapshotFiles, s.first file = s.second file)
    : s.unstable = [] := by
  rw [unstable, List.filter_eq_nil_iff]
  intro file hfile
  rw [h file hfile]
  simp

def bytes : FileState → Option Bytes
  | .content data => some data
  | _ => none

theorem content_or_absent (live : Inputs) (moves : List Move) (file : SnapshotFile)
    : ((bytes (((start live).run moves).frozen file)).map FileState.content).getD .absent
      = ((start live).run moves).frozen file := by
  suffices h : ∀ s : Snapshotting,
      ((bytes (s.frozen file)).map FileState.content).getD .absent = s.frozen file →
      ((bytes ((s.run moves).frozen file)).map FileState.content).getD .absent
        = (s.run moves).frozen file from h (start live) rfl
  induction moves with
  | nil => exact fun s hs => hs
  | cons move moves ih =>
    intro s hs
    refine ih (s.step move) ?_
    cases move with
    | write file' state => exact hs
    | read stored =>
      cases htodo : s.todo with
      | nil =>
        simp only [step, htodo]
        exact hs
      | cons r rest =>
        obtain ⟨pass, file'⟩ := r
        simp only [step, htodo]
        cases pass with
        | first => exact hs
        | second => exact hs
        | copy =>
          dsimp only [read]
          unfold copy
          split
          . split
            . dsimp only
              by_cases hfile : file = file'
              . rw [hfile, Function.update_self]
                rfl
              . rw [Function.update_of_ne hfile]
                exact hs
            . exact hs
          . exact hs

/--
What the verifier goes on with is the snapshot of the three passes.
-/
theorem inputs_eq {live mid : Inputs} {moves : List Move}
    (h : ((start live).run moves).Settling mid) {r : VerifyRun}
    (hfirst : r.first = ((start live).run moves).first)
    (hsecond : r.second = ((start live).run moves).second)
    (hcopied : ∀ file, r.copied file = bytes (((start live).run moves).frozen file))
    : r.inputs = ((start live).run moves).frozen
        ∧ r.unstable = ((start live).run moves).unstable := by
  refine ⟨?_, by rw [VerifyRun.unstable, unstable, hfirst, hsecond]⟩
  funext file
  have hcontent := content_or_absent live moves file
  rw [VerifyRun.inputs, hfirst, hcopied]
  split
  . exact hcontent
  . rename_i hpresent
    cases hfrozen : ((start live).run moves).frozen file with
    | content data => exact absurd (h.frozen file data hfrozen) hpresent
    | absent => rfl
    | unreadable reason =>
      rw [hfrozen] at hcontent
      cases hcontent

end stability

section quiet

/--
Nothing is written: what is digested is what is there.
-/
structure Quiet (live : Inputs) (s : Snapshotting) : Prop where
  ordered : s.todo.Pairwise InOrder
  unchanged : s.live = live
  digested : ∀ file, (.first, file) ∉ s.todo → s.first file = live file

variable {live : Inputs} {s : Snapshotting}

theorem Quiet.undisturbed (h : s.Quiet live) : s.Undisturbed (.read true) := by
  intro pass file rest htodo
  cases pass with
  | first => trivial
  | copy => exact fun _ => rfl
  | second =>
    intro _
    rw [h.unchanged]
    apply h.digested
    have hordered := h.ordered
    rw [htodo, List.pairwise_cons] at hordered
    rw [htodo, List.mem_cons]
    rintro (hr | hr)
    . cases hr
    . cases (hordered.1 _ hr).2 rfl

theorem Quiet.step (h : s.Quiet live) : (s.step (.read true)).Quiet live := by
  have hordered := h.ordered
  cases htodo : s.todo with
  | nil =>
    simp only [Snapshotting.step, htodo]
    exact h
  | cons r rest =>
    obtain ⟨pass, file⟩ := r
    rw [htodo, List.pairwise_cons] at hordered
    have hother {file' : SnapshotFile} (hne : (pass, file) ≠ (.first, file'))
        (hr : (.first, file') ∉ rest) : (.first, file') ∉ s.todo := by
      rw [htodo, List.mem_cons, not_or]
      exact ⟨hne.symm, hr⟩
    simp only [Snapshotting.step, htodo]
    cases pass with
    | first =>
      refine ⟨hordered.2, h.unchanged, fun file' hr => ?_⟩
      dsimp only [read] at hr ⊢
      by_cases hfile : file' = file
      . rw [hfile, Function.update_self, h.unchanged]
      . rw [Function.update_of_ne hfile]
        refine h.digested file' (hother ?_ hr)
        intro heq
        cases heq
        exact hfile rfl
    | copy =>
      refine ⟨hordered.2, ?_, fun file' hr => ?_⟩
      . dsimp only [read]
        rw [copy_live, h.unchanged]
      . dsimp only [read] at hr ⊢
        rw [copy_first]
        exact h.digested file' (hother (by simp) hr)
    | second => exact ⟨hordered.2, h.unchanged, fun file' hr => h.digested file' (hother (by simp) hr)⟩

theorem Quiet.run (h : s.Quiet live) (n : ℕ) : (s.run (List.replicate n (.read true))).Quiet live := by
  induction n generalizing s with
  | zero => exact h
  | succ n ih => exact ih h.step

theorem quiet_start (live : Inputs) : (start live).Quiet live where
  ordered := by
    show program.Pairwise InOrder
    decide
  unchanged := rfl
  digested := by
    intro file hfile
    refine absurd (List.mem_append_left _ ?_) hfile
    exact List.mem_map_of_mem (mem_snapshotFiles file)

/--
Without a writer a run is not disturbed.
-/
theorem undisturbed_reads (live : Inputs) (n : ℕ)
    : (start live).UndisturbedRun (List.replicate n (.read true)) := by
  intro pre move post heq
  have hmem : move ∈ List.replicate n (Move.read true) := by
    rw [heq]
    exact List.mem_append_right _ List.mem_cons_self
  have hpre : pre = List.replicate pre.length (.read true) := by
    refine List.eq_replicate_of_mem fun m hm => List.eq_of_mem_replicate (n := n) ?_
    rw [heq]
    exact List.mem_append_left _ hm
  rw [List.eq_of_mem_replicate hmem, hpre]
  exact ((quiet_start live).run _).undisturbed

end quiet

section examples

def equityOnly (data : Bytes) : Inputs := fun file =>
  if file = .ledger .equity then .content data else .absent

theorem snapshot_stable_quiet
    : (∀ file data, ((start (equityOnly [1])).run (List.replicate 27 (.read true))).first file
          = .content data →
        ((start (equityOnly [1])).run (List.replicate 27 (.read true))).frozen file = .content data
          ∧ ((start (equityOnly [1])).run (List.replicate 27 (.read true))).second file
            = .content data)
      ∧ ∃ k ≤ (List.replicate 27 (Move.read true)).length, ∀ file data,
          ((start (equityOnly [1])).run (List.replicate 27 (.read true))).frozen file
            = .content data →
          ((start (equityOnly [1])).run ((List.replicate 27 (.read true)).take k)).live file
            = .content data :=
  snapshot_stable (by decide +kernel) (undisturbed_reads _ _)
    (unstable_nil (by decide +kernel))

/--
The equity ledger is changed before its copy and changed back after it.
-/
def changedBack : List Move :=
  List.replicate 9 (.read true) ++ .write (.ledger .equity) (.content [2])
    :: List.replicate 9 (.read true) ++ .write (.ledger .equity) (.content [1])
    :: List.replicate 9 (.read true)

theorem changedBack_stable
    : ¬∀ (live : Inputs) (moves : List Move), ((start live).run moves).todo = [] →
        ((start live).run moves).unstable = [] →
        ∀ file data, ((start live).run moves).first file = .content data →
          ((start live).run moves).frozen file = .content data := by
  intro hstable
  have hfrozen := hstable (equityOnly [1]) changedBack (by decide +kernel)
    (unstable_nil (by decide +kernel)) (.ledger .equity) [1] (by decide +kernel)
  revert hfrozen
  decide +kernel

end examples

end Snapshotting

end Quantbot

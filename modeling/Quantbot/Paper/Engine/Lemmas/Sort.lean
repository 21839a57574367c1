import Quantbot.Util.Sort
import Quantbot.Paper.Engine.Run

/-!
The order in which a run consumes observations.
-/

namespace Quantbot

instance : IsTrans (DateTime × Obs) obsInstantLe :=
  ⟨fun _ _ _ hab hbc => le_trans hab hbc⟩

instance : Std.Total obsInstantLe :=
  ⟨fun a b => le_total a.1 b.1⟩

/--
Observations with their instants.
-/
def datedObs (perBarObs : List Obs) : Except PyError (List (DateTime × Obs)) :=
  perBarObs.mapM (fun obs => do return (← parseBarUtc obs.timestamp, obs))

/--
The observations in the order of their instants.
-/
def sortObs (perBarObs : List Obs) : Except PyError (List Obs) := do
  let dated ← datedObs perBarObs
  return (dated.insertionSort obsInstantLe).map Prod.snd

namespace datedObs

theorem cons (obs : Obs) (rest : List Obs)
    : datedObs (obs :: rest)
        =
      (do
        let dt ← parseBarUtc obs.timestamp
        let dated ← datedObs rest
        return (dt, obs) :: dated) := by
  unfold datedObs
  rw [List.mapM_cons]
  cases parseBarUtc obs.timestamp <;> rfl

theorem spec {perBarObs : List Obs} {dated : List (DateTime × Obs)}
    (h : datedObs perBarObs = .ok dated)
    : dated.map Prod.snd = perBarObs
        ∧
      ∀ p ∈ dated, parseBarUtc p.2.timestamp = .ok p.1 := by
  induction perBarObs generalizing dated with
  | nil =>
    cases h
    simp
  | cons obs rest ih =>
    rw [cons] at h
    cases hdt : parseBarUtc obs.timestamp with
    | error e =>
      rw [hdt] at h
      cases h
    | ok dt =>
      cases hrest : datedObs rest with
      | error e =>
        rw [hdt, hrest] at h
        cases h
      | ok datedRest =>
        rw [hdt, hrest] at h
        cases h
        have hih := ih hrest
        simp only [List.map_cons, hih.1, List.mem_cons, forall_eq_or_imp]
        exact ⟨trivial, hdt, hih.2⟩

theorem map_snd {dated : List (DateTime × Obs)}
    (h : ∀ p ∈ dated, parseBarUtc p.2.timestamp = .ok p.1)
    : datedObs (dated.map Prod.snd) = .ok dated := by
  induction dated with
  | nil => rfl
  | cons p rest ih =>
    rw [List.forall_mem_cons] at h
    rw [List.map_cons, cons, h.1, ih h.2]
    rfl

end datedObs

theorem forwardObs_eq (forwardStart : DateTime) (perBarObs : List Obs)
    : forwardObs forwardStart perBarObs
        =
      (datedObs perBarObs).map (fun dated =>
        ((dated.filter (fun p => forwardStart ≤ p.1)).insertionSort obsInstantLe).map Prod.snd) := by
  unfold forwardObs
  change (do let dated ← datedObs perBarObs; _) = _
  cases datedObs perBarObs <;> rfl

def isForward (forwardStart : DateTime) (obs : Obs) : Bool :=
  match parseBarUtc obs.timestamp with
  | .ok dt => decide (forwardStart ≤ dt)
  | .error _ => false

theorem filter_map_snd (forwardStart : DateTime) {dated : List (DateTime × Obs)}
    (h : ∀ p ∈ dated, parseBarUtc p.2.timestamp = .ok p.1)
    : (dated.filter (fun p => forwardStart ≤ p.1)).map Prod.snd
        =
      (dated.map Prod.snd).filter (isForward forwardStart) := by
  rw [List.filter_map]
  congr 1
  apply List.filter_congr
  intro p hp
  simp [isForward, h p hp]

theorem forwardObs_of_pairwise (forwardStart : DateTime) {dated : List (DateTime × Obs)}
    (hdated : ∀ p ∈ dated, parseBarUtc p.2.timestamp = .ok p.1)
    (hsorted : dated.Pairwise obsInstantLe)
    : forwardObs forwardStart (dated.map Prod.snd)
        =
      .ok ((dated.map Prod.snd).filter (isForward forwardStart)) := by
  rw [forwardObs_eq, datedObs.map_snd hdated]
  simp only [Except.map]
  rw [List.Pairwise.insertionSort_eq (hsorted.filter _)]
  rw [filter_map_snd forwardStart hdated]

/--
A run consumes the observations in order, from the forward start on; over a prefix of the ordered
ones it consumes a prefix.
-/
theorem forwardObs_sorted (forwardStart : DateTime) {perBarObs sorted : List Obs}
    (h : sortObs perBarObs = .ok sorted)
    : forwardObs forwardStart perBarObs = .ok (sorted.filter (isForward forwardStart)) := by
  unfold sortObs at h
  cases hdated : datedObs perBarObs with
  | error e =>
    rw [hdated] at h
    cases h
  | ok dated =>
    rw [hdated] at h
    cases h
    have hspec := (datedObs.spec hdated).2
    have hspec' : ∀ p ∈ dated.insertionSort obsInstantLe, parseBarUtc p.2.timestamp = .ok p.1 := by
      intro p hp
      rw [List.mem_insertionSort] at hp
      exact hspec p hp
    rw [forwardObs_eq, hdated]
    simp only [Except.map]
    rw [← filter_insertionSort, filter_map_snd forwardStart hspec']

theorem forwardObs_prefix (forwardStart : DateTime) {perBarObs seen rest : List Obs}
    (h : sortObs perBarObs = .ok (seen ++ rest))
    : forwardObs forwardStart seen = .ok (seen.filter (isForward forwardStart)) := by
  unfold sortObs at h
  cases hdated : datedObs perBarObs with
  | error e =>
    rw [hdated] at h
    cases h
  | ok dated =>
    rw [hdated] at h
    simp only [bind, Except.bind, pure, Except.pure, Except.ok.injEq] at h
    have hspec := (datedObs.spec hdated).2
    have hseen : seen = ((dated.insertionSort obsInstantLe).take seen.length).map Prod.snd := by
      rw [List.map_take, h]
      simp
    rw [hseen]
    apply forwardObs_of_pairwise
    . intro p hp
      apply hspec
      rw [← List.mem_insertionSort obsInstantLe]
      exact List.mem_of_mem_take hp
    . apply List.Pairwise.sublist (List.take_sublist _ _)
      apply List.pairwise_insertionSort

end Quantbot

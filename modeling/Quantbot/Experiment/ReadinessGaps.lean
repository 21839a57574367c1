import Quantbot.Experiment.DataQuality
import Quantbot.Util.MapM

/-!
What the readiness flags of the data quality preflight say of the files, and what they do not.
-/

namespace Quantbot

namespace DataQuality

open Csv

variable {δ : Type} [LT δ] (denote : String → Option δ)

section specification

/--
The CSV files of the directories as tables, each with the profile it has to meet.
-/
def csvTables (barsDir fundingDir : Option Directory) : List (Profile × Table) :=
  (roleDirs barsDir fundingDir).flatMap (fun role =>
    (role.2.filter (fun entry => isCsv entry.1)).map (fun entry => (role.1, dictReader entry.2)))

/--
The first text denotes a number, or an instant, below that of the second.
-/
def Before (a b : String) : Prop :=
  ∃ x y, denote a = some x ∧ denote b = some y ∧ x < y

structure Sound (profile : Profile) (rows : List Row) : Prop where
  filled : ∀ row ∈ rows, ∀ col ∈ profile.requiredColumns,
    ∃ v, row.get col = some (some v) ∧ strip v ≠ []
  increasing : rows.Pairwise (fun a b => ∃ s t,
    a.get profile.timestampColumn = some (some s) ∧ b.get profile.timestampColumn = some (some t)
      ∧ Before denote s t)

structure Ready (preflight : Preflight) : Prop where
  timestampsMonotonic : preflight.timestampsMonotonic = true
  noDuplicateTimestamps : preflight.noDuplicateTimestamps = true
  noNullRequiredValues : preflight.noNullRequiredValues = true
  missingRequiredColumns : preflight.missingRequiredColumns = []
  error : ∀ role ∈ preflight.roles, ∀ f ∈ role.2.files, f.error = none

/--
Nothing is raised, and the flags of a preflight that is ready are right.
-/
def PreflightSound (barsDir fundingDir : Option Directory) : Prop :=
  ∃ preflight, buildDataQualityPreflightForRoles barsDir fundingDir = .ok preflight
    ∧ (Ready preflight → ∀ t ∈ csvTables barsDir fundingDir, Sound denote t.1 t.2.rows)

end specification

section condition

/--
A table without a fault that the preflight looks for. Timestamps are compared as texts, and those
that are blank or missing are passed over.
-/
structure Accepted (profile : Profile) (table : Table) : Prop where
  error : table.error = none
  columns : ∀ col ∈ profile.requiredColumns, col ∈ table.header.getD []
  notNull : ∀ row ∈ table.rows, ∀ col ∈ profile.requiredColumns,
    (row.get col).any isNullCell = false
  texts : (table.rows.filterMap (timestampOf profile.timestampColumn)).Pairwise (fun s t => s < t)

/--
No row ends before a required column, no required value is only white space, and timestamps whose
texts are in order denote values in the same order.
-/
structure WithoutGaps (profile : Profile) (table : Table) : Prop where
  complete : ∀ row ∈ table.rows, ∀ col ∈ profile.requiredColumns, row.get col ≠ some none
  solid : ∀ row ∈ table.rows, ∀ col ∈ profile.requiredColumns, ∀ v,
    row.get col = some (some v) → v ≠ "" → strip v ≠ []
  ordered : table.rows.Pairwise (fun a b => ∀ s t,
    a.get profile.timestampColumn = some (some s) → b.get profile.timestampColumn = some (some t)
      → s < t → Before denote s t)

end condition

section rows

theorem get_dictRow {header row : List String} {col : String} (hcol : col ∈ header)
    : (dictRow header row).get col ≠ none := by
  intro hnone
  rw [Row.get, List.lookup_eq_none_iff] at hnone
  obtain ⟨i, hi, hget⟩ := List.getElem_of_mem hcol
  have hlength : i < (dictRow header row).cells.length := by
    simp [dictRow]
    omega
  have hmem : (dictRow header row).cells[i] ∈ (dictRow header row).cells :=
    List.getElem_mem hlength
  have hne := hnone _ (List.mem_reverse.mpr hmem)
  simp [dictRow, hget] at hne

theorem get_of_mem_rows {file : TextLines} {row : Row} {col : String}
    (hrow : row ∈ (dictReader file).rows) (hcol : col ∈ (dictReader file).header.getD [])
    : row.get col ≠ none := by
  rw [dictReader] at hrow hcol
  split at hrow
  case h_1 => cases hrow
  case h_2 header rows error hrecords =>
    rw [List.mem_map] at hrow
    obtain ⟨cells, _, rfl⟩ := hrow
    rw [hrecords] at hcol
    exact get_dictRow hcol

theorem timestampOf_eq_some {column : String} {row : Row} {text : String}
    : timestampOf column row = some text ↔ row.get column = some (some text) ∧ strip text ≠ [] := by
  rw [timestampOf]
  split
  case h_1 ts hget =>
    rw [hget, Option.some.injEq, Option.some.injEq]
    constructor
    . intro h
      split at h
      case isTrue => cases h
      case isFalse hstrip =>
        cases h
        exact ⟨rfl, hstrip⟩
    . intro ⟨heq, hstrip⟩
      subst heq
      rw [if_neg hstrip]
  case h_2 hother =>
    constructor
    . intro h
      cases h
    . intro ⟨hget, _⟩
      exact absurd hget (hother text)

/--
What is missing for soundness once the flags are right.
-/
theorem sound_iff_withoutGaps {profile : Profile} {file : TextLines}
    (haccepted : Accepted profile (dictReader file))
    : Sound denote profile (dictReader file).rows ↔ WithoutGaps denote profile (dictReader file) := by
  have htexts := haccepted.texts
  rw [List.pairwise_filterMap] at htexts
  constructor
  . intro hsound
    refine ⟨?complete, ?solid, ?ordered⟩
    case complete =>
      intro row hrow col hcol hnone
      obtain ⟨v, hv, _⟩ := hsound.filled row hrow col hcol
      rw [hnone] at hv
      cases hv
    case solid =>
      intro row hrow col hcol v hv _
      obtain ⟨w, hw, hstrip⟩ := hsound.filled row hrow col hcol
      rw [hv] at hw
      cases hw
      exact hstrip
    case ordered =>
      refine hsound.increasing.imp fun ⟨s, t, hs, ht, hbefore⟩ s' t' hs' ht' _ => ?_
      rw [hs] at hs'
      rw [ht] at ht'
      cases hs'
      cases ht'
      exact hbefore
  . intro hgaps
    have hfilled : ∀ row ∈ (dictReader file).rows, ∀ col ∈ profile.requiredColumns,
        ∃ v, row.get col = some (some v) ∧ strip v ≠ [] := by
      intro row hrow col hcol
      have hpresent := get_of_mem_rows hrow (haccepted.columns col hcol)
      have hcomplete := hgaps.complete row hrow col hcol
      have hnotNull := haccepted.notNull row hrow col hcol
      have hsolid := hgaps.solid row hrow col hcol
      cases hget : row.get col with
      | none => exact absurd hget hpresent
      | some cell =>
        cases cell with
        | none => exact absurd hget hcomplete
        | some v =>
          refine ⟨v, rfl, hsolid v hget ?_⟩
          intro hempty
          rw [hget, hempty] at hnotNull
          cases hnotNull
    refine ⟨hfilled, ?_⟩
    refine (htexts.and hgaps.ordered).imp_of_mem fun {a b} ha hb hboth => ?_
    obtain ⟨s, hs, hstrip⟩ := hfilled a ha _ profile.timestamp_required
    obtain ⟨t, ht, htrip⟩ := hfilled b hb _ profile.timestamp_required
    have hlt := hboth.1 s (timestampOf_eq_some.mpr ⟨hs, hstrip⟩) t
      (timestampOf_eq_some.mpr ⟨ht, htrip⟩)
    exact ⟨s, t, hs, ht, hboth.2 s t hs ht hlt⟩

end rows

section file

variable {profile : Profile} {headers : List String} {rows : List Row}

theorem nonMonotonic_eq_false {timestamps : List String}
    : nonMonotonic timestamps = false ↔ timestamps.Pairwise (fun s t => s ≤ t) := by
  rw [← List.isChain_iff_pairwise]
  induction timestamps with
  | nil => simp [nonMonotonic]
  | cons s rest ih =>
    cases rest with
    | nil => simp [nonMonotonic]
    | cons t rest =>
      rw [nonMonotonic, Bool.or_eq_false_iff, ih, List.isChain_cons_cons, decide_eq_false_iff_not,
        not_lt]

theorem hasDuplicates_eq_false {timestamps : List String}
    : hasDuplicates timestamps = false ↔ timestamps.Nodup := by
  rw [hasDuplicates, decide_eq_false_iff_not, not_not]
  constructor
  . intro h
    rw [← List.dedup_eq_self]
    exact ((List.dedup_sublist timestamps).eq_of_length h.symm)
  . intro h
    rw [List.dedup_eq_self.mpr h]

/--
The two flags of the timestamps say that their texts grow.
-/
theorem pairwise_lt_iff {timestamps : List String}
    : timestamps.Pairwise (fun s t => s < t)
        ↔ hasDuplicates timestamps = false ∧ nonMonotonic timestamps = false := by
  rw [hasDuplicates_eq_false, nonMonotonic_eq_false]
  constructor
  . intro h
    exact ⟨h.imp ne_of_lt, h.imp le_of_lt⟩
  . intro ⟨hnodup, hle⟩
    exact (hnodup.and hle).imp fun h => lt_of_le_of_ne h.2 h.1

/--
A file with no fault in its report.
-/
structure FileReport.Clean (f : FileReport) : Prop where
  error : f.error = none
  columns : f.missingRequiredColumns = []
  notNull : f.hasNullValues = false
  unique : f.hasDuplicateTimestamps = false
  monotonic : f.hasNonMonotonicTimestamps = false

@[simp]
theorem withRows_error {report : FileReport}
    : (withRows profile report headers rows).error = report.error := by
  simp only [withRows]
  split_ifs <;> rfl

@[simp]
theorem withRows_missingRequiredColumns {report : FileReport}
    : (withRows profile report headers rows).missingRequiredColumns
        = report.missingRequiredColumns := by
  simp only [withRows]
  split_ifs <;> rfl

theorem withRows_hasNullValues {report : FileReport} (hreport : report.hasNullValues = false)
    : (withRows profile report headers rows).hasNullValues = false
        ↔ ∀ row ∈ rows, ∀ col ∈ profile.requiredColumns, col ∈ headers
            → (row.get col).any isNullCell = false := by
  by_cases hrows : rows = []
  . simp [withRows, hrows, hreport]
  . have hvalue : (withRows profile report headers rows).hasNullValues
        = decide ((((headers.dedup.filter (fun col =>
            rows.any (fun row => (row.get col).any isNullCell))).insertionSort
              (fun a b => a ≤ b)).filter (fun col => col ∈ profile.requiredColumns)) ≠ []) := by
      simp only [withRows, if_neg hrows]
      split_ifs <;> rfl
    rw [hvalue, decide_eq_false_iff_not, not_not, List.filter_eq_nil_iff]
    simp only [List.mem_insertionSort, List.mem_filter, List.mem_dedup, List.any_eq_true,
      decide_eq_true_eq]
    constructor
    . intro h row hrow col hrequired hheader
      rw [Bool.eq_false_iff]
      intro hnull
      exact h col ⟨hheader, row, hrow, hnull⟩ hrequired
    . intro h col ⟨hheader, row, hrow, hnull⟩ hrequired
      rw [h row hrow col hrequired hheader] at hnull
      cases hnull

theorem withRows_timestamps (report : FileReport) (hunique : report.hasDuplicateTimestamps = false)
    (hmonotonic : report.hasNonMonotonicTimestamps = false)
    (hheader : profile.timestampColumn ∈ headers)
    : (withRows profile report headers rows).hasDuplicateTimestamps = false
          ∧ (withRows profile report headers rows).hasNonMonotonicTimestamps = false
        ↔ (rows.filterMap (timestampOf profile.timestampColumn)).Pairwise (fun s t => s < t) := by
  rw [pairwise_lt_iff]
  simp only [withRows, if_pos hheader]
  split_ifs with hrows htimestamps
  . simp [hrows, hunique, hmonotonic, hasDuplicates, nonMonotonic]
  . simp [htimestamps, hunique, hmonotonic, hasDuplicates, nonMonotonic]
  . rfl

theorem inspectCsvFile_eq_ok {path : String} {file : TextLines}
    : (∃ f, inspectCsvFile profile path file = .ok f)
        ↔ (dictReader file).error ≠ some .unicode := by
  rw [inspectCsvFile]
  split
  case h_1 herror => simp [herror]
  case h_2 message herror => simp [herror]
  case h_3 herror => simp [herror]

/--
The report of a file has no fault exactly when the file is accepted.
-/
theorem clean_iff {path : String} {file : TextLines} {f : FileReport}
    (h : inspectCsvFile profile path file = .ok f)
    : f.Clean ↔ Accepted profile (dictReader file) := by
  rw [inspectCsvFile] at h
  split at h
  case h_1 => cases h
  case h_2 message herror =>
    cases h
    constructor
    . intro hclean
      exact absurd hclean.error (by simp)
    . intro haccepted
      exact absurd haccepted.error (by simp [herror])
  case h_3 herror =>
    cases h
    rw [if_neg (by simp [herror])]
    have hmissing : (withHeader profile (.initial path)
          ((dictReader file).header.getD [])).missingRequiredColumns = []
        ↔ ∀ col ∈ profile.requiredColumns, col ∈ (dictReader file).header.getD [] := by
      rw [withHeader, List.filter_eq_nil_iff]
      simp
    constructor
    . intro hclean
      have hcolumns := hmissing.mp (by simpa using hclean.columns)
      refine ⟨herror, hcolumns, ?notNull, ?texts⟩
      case notNull =>
        intro row hrow col hcol
        exact (withRows_hasNullValues rfl).mp hclean.notNull row hrow col hcol (hcolumns col hcol)
      case texts =>
        exact (withRows_timestamps _ rfl rfl (hcolumns _ profile.timestamp_required)).mp
          ⟨hclean.unique, hclean.monotonic⟩
    . intro haccepted
      have htimestamps := (withRows_timestamps
        (withHeader profile (.initial path) ((dictReader file).header.getD [])) rfl rfl
        (haccepted.columns _ profile.timestamp_required)).mpr haccepted.texts
      refine ⟨by rw [withRows_error]; rfl, ?columns, ?notNull, htimestamps.1, htimestamps.2⟩
      case columns =>
        rw [withRows_missingRequiredColumns]
        exact hmissing.mpr haccepted.columns
      case notNull =>
        exact (withRows_hasNullValues rfl).mpr fun row hrow col hcol _ =>
          haccepted.notNull row hrow col hcol

theorem missingRequiredColumns_subset {path : String} {file : TextLines} {f : FileReport}
    (h : inspectCsvFile profile path file = .ok f)
    : f.missingRequiredColumns ⊆ profile.requiredColumns := by
  have hopened (headers : List String)
      : (withHeader profile (.initial path) headers).missingRequiredColumns
          ⊆ profile.requiredColumns := by
    intro col hcol
    rw [withHeader] at hcol
    exact List.mem_of_mem_filter hcol
  have hbefore : (if (dictReader file).header = none ∧ (dictReader file).error ≠ none then
        FileReport.initial path
      else withHeader profile (.initial path) ((dictReader file).header.getD [])).missingRequiredColumns
        ⊆ profile.requiredColumns := by
    split
    . exact List.nil_subset _
    . exact hopened _
  rw [inspectCsvFile] at h
  split at h
  case h_1 => cases h
  case h_2 =>
    cases h
    exact hbefore
  case h_3 =>
    cases h
    rw [withRows_missingRequiredColumns]
    exact hbefore

end file

section directory

variable {profile : Profile} {dir : Directory}

/--
The CSV files in the order in which they are read.
-/
def csvEntries (dir : Directory) : Directory :=
  (dir.insertionSort (fun a b => a.1 ≤ b.1)).filter (fun entry => isCsv entry.1)

theorem mem_csvEntries {entry : String × TextLines}
    : entry ∈ csvEntries dir ↔ entry ∈ dir ∧ isCsv entry.1 := by
  rw [csvEntries, List.mem_filter, List.mem_insertionSort]

structure DirectoryReport.Clean (r : DirectoryReport) : Prop where
  error : ∀ f ∈ r.files, f.error = none
  columns : r.missingRequiredColumns = []
  notNull : r.hasNullValues = false
  unique : r.hasDuplicateTimestamps = false
  monotonic : r.hasNonMonotonicTimestamps = false

theorem inspectInputDirectory_eq_ok
    : (∃ r, inspectInputDirectory profile dir = .ok r)
        ↔ ∀ entry ∈ csvEntries dir, (dictReader entry.2).error ≠ some .unicode := by
  have hread : (∃ files, (csvEntries dir).mapM
        (fun entry => inspectCsvFile profile entry.1 entry.2) = .ok files)
      ↔ ∀ entry ∈ csvEntries dir, (dictReader entry.2).error ≠ some .unicode := by
    rw [exists_mapM_ok_iff]
    exact forall₂_congr fun entry _ => inspectCsvFile_eq_ok
  rw [← hread]
  constructor
  . intro ⟨r, h⟩
    rw [inspectInputDirectory, bind_eq_ok] at h
    obtain ⟨files, hfiles, _⟩ := h
    exact ⟨files, hfiles⟩
  . intro ⟨files, hfiles⟩
    rw [csvEntries] at hfiles
    rw [inspectInputDirectory, hfiles]
    exact ⟨_, rfl⟩

theorem directory_clean_iff {r : DirectoryReport} (h : inspectInputDirectory profile dir = .ok r)
    : r.Clean ↔ ∀ entry ∈ csvEntries dir, Accepted profile (dictReader entry.2) := by
  rw [inspectInputDirectory, bind_eq_ok] at h
  obtain ⟨files, hfiles, hr⟩ := h
  have hread := mapM_eq_ok hfiles
  cases hr
  rw [csvEntries, forall₂_forall_iff hread fun entry f hf => (clean_iff hf).symm]
  have hsubset : ∀ f ∈ files, f.missingRequiredColumns ⊆ profile.requiredColumns := by
    intro f hf
    obtain ⟨entry, _, hentry⟩ := forall₂_mem_right hread hf
    exact missingRequiredColumns_subset hentry
  constructor
  . intro ⟨herror, hcolumns, hnotNull, hunique, hmonotonic⟩ f hf
    simp only [List.any_eq_false, Bool.not_eq_true] at hnotNull hunique hmonotonic
    refine ⟨herror f hf, ?_, hnotNull f hf, hunique f hf, hmonotonic f hf⟩
    rw [List.eq_nil_iff_forall_not_mem]
    intro col hcol
    rw [List.filter_eq_nil_iff] at hcolumns
    apply hcolumns col (hsubset f hf hcol)
    rw [List.any_eq_true]
    exact ⟨f, hf, decide_eq_true hcol⟩
  . intro hclean
    refine ⟨fun f hf => (hclean f hf).error, ?_, ?_, ?_, ?_⟩
    . rw [List.filter_eq_nil_iff]
      intro col _ hany
      rw [List.any_eq_true] at hany
      obtain ⟨f, hf, hcol⟩ := hany
      rw [(hclean f hf).columns] at hcol
      simp at hcol
    . simpa using fun f hf => (hclean f hf).notNull
    . simpa using fun f hf => (hclean f hf).unique
    . simpa using fun f hf => (hclean f hf).monotonic

end directory

section preflight

variable {barsDir fundingDir : Option Directory}

theorem forall_csvTables {p : Profile → Table → Prop}
    : (∀ t ∈ csvTables barsDir fundingDir, p t.1 t.2)
        ↔ ∀ role ∈ roleDirs barsDir fundingDir, ∀ entry ∈ csvEntries role.2,
          p role.1 (dictReader entry.2) := by
  constructor
  . intro h role hrole entry hentry
    apply h (role.1, dictReader entry.2)
    rw [csvTables, List.mem_flatMap]
    refine ⟨role, hrole, ?_⟩
    rw [List.mem_map]
    exact ⟨entry, List.mem_filter.mpr (mem_csvEntries.mp hentry), rfl⟩
  . intro h t ht
    rw [csvTables, List.mem_flatMap] at ht
    obtain ⟨role, hrole, hmap⟩ := ht
    rw [List.mem_map] at hmap
    obtain ⟨entry, hentry, heq⟩ := hmap
    subst heq
    exact h role hrole entry (mem_csvEntries.mpr (List.mem_filter.mp hentry))

theorem inspectRole_eq_ok {role : Profile × Directory} {report : Profile × DirectoryReport}
    : inspectRole role = .ok report
        ↔ report.1 = role.1 ∧ inspectInputDirectory role.1 role.2 = .ok report.2 := by
  rw [inspectRole, bind_eq_ok]
  constructor
  . intro ⟨r, hr, heq⟩
    cases heq
    exact ⟨rfl, hr⟩
  . intro ⟨hrole, hr⟩
    exact ⟨report.2, hr, by rw [← hrole]; rfl⟩

theorem preflight_eq_ok (hgiven : roleDirs barsDir fundingDir ≠ [])
    : (∃ preflight, buildDataQualityPreflightForRoles barsDir fundingDir = .ok preflight)
        ↔ ∀ t ∈ csvTables barsDir fundingDir, t.2.error ≠ some .unicode := by
  have hreports : (∃ reports, (roleDirs barsDir fundingDir).mapM inspectRole = .ok reports)
      ↔ ∀ t ∈ csvTables barsDir fundingDir, t.2.error ≠ some .unicode := by
    rw [exists_mapM_ok_iff, forall_csvTables (p := fun _ table => table.error ≠ some .unicode)]
    refine forall₂_congr fun role _ => ?_
    refine Iff.trans ?_ (@inspectInputDirectory_eq_ok role.1 role.2)
    constructor
    . intro ⟨report, h⟩
      exact ⟨report.2, (inspectRole_eq_ok.mp h).2⟩
    . intro ⟨r, h⟩
      exact ⟨(role.1, r), inspectRole_eq_ok.mpr ⟨rfl, h⟩⟩
  rw [← hreports, buildDataQualityPreflightForRoles, if_neg hgiven]
  constructor
  . intro ⟨preflight, h⟩
    obtain ⟨reports, h, _⟩ := bind_eq_ok.mp h
    exact ⟨reports, h⟩
  . intro ⟨reports, h⟩
    exact ⟨_, bind_eq_ok.mpr ⟨reports, h, rfl⟩⟩

/--
The flags over all roles are right exactly when each role has no fault.
-/
theorem ready_preflightOf {roles : List (Profile × DirectoryReport)}
    : Ready (preflightOf roles) ↔ ∀ role ∈ roles, role.2.Clean := by
  constructor
  . intro ⟨hmonotonic, hunique, hnotNull, hcolumns, herror⟩ role hrole
    simp only [preflightOf, Bool.not_eq_true', List.any_eq_false, Bool.not_eq_true]
      at hmonotonic hunique hnotNull
    refine ⟨herror role hrole, ?_, hnotNull role hrole, hunique role hrole, hmonotonic role hrole⟩
    rw [List.eq_nil_iff_forall_not_mem]
    intro col hcol
    have hmem : col ∈ (preflightOf roles).missingRequiredColumns := by
      rw [preflightOf, List.mem_insertionSort, List.mem_dedup, List.mem_flatMap]
      exact ⟨role, hrole, hcol⟩
    rw [hcolumns] at hmem
    cases hmem
  . intro hclean
    refine ⟨?_, ?_, ?_, ?_, fun role hrole => (hclean role hrole).error⟩
    . simpa [preflightOf] using fun profile r hr => (hclean (profile, r) hr).monotonic
    . simpa [preflightOf] using fun profile r hr => (hclean (profile, r) hr).unique
    . simpa [preflightOf] using fun profile r hr => (hclean (profile, r) hr).notNull
    . rw [List.eq_nil_iff_forall_not_mem]
      intro col hcol
      rw [preflightOf, List.mem_insertionSort, List.mem_dedup, List.mem_flatMap] at hcol
      obtain ⟨role, hrole, hcol⟩ := hcol
      rw [(hclean role hrole).columns] at hcol
      cases hcol

theorem ready_iff {preflight : Preflight}
    (h : buildDataQualityPreflightForRoles barsDir fundingDir = .ok preflight)
    : Ready preflight ↔ ∀ t ∈ csvTables barsDir fundingDir, Accepted t.1 t.2 := by
  rw [buildDataQualityPreflightForRoles] at h
  split at h
  case isTrue => cases h
  case isFalse =>
    obtain ⟨reports, hreports, hpreflight⟩ := bind_eq_ok.mp h
    cases hpreflight
    rw [ready_preflightOf, forall_csvTables]
    symm
    refine forall₂_forall_iff (mapM_eq_ok hreports) fun role report hreport => ?_
    obtain ⟨hrole, hinspected⟩ := inspectRole_eq_ok.mp hreport
    exact (directory_clean_iff hinspected).symm

/--
The preflight is sound exactly when every CSV file can be decoded as far as it is read and, where no
file has a fault that is looked for, no file has one of the gaps.
-/
theorem preflightSound_iff (hgiven : roleDirs barsDir fundingDir ≠ [])
    : PreflightSound denote barsDir fundingDir
        ↔ (∀ t ∈ csvTables barsDir fundingDir, t.2.error ≠ some .unicode)
          ∧ ((∀ t ∈ csvTables barsDir fundingDir, Accepted t.1 t.2)
            → ∀ t ∈ csvTables barsDir fundingDir, WithoutGaps denote t.1 t.2) := by
  have hgaps (haccepted : ∀ t ∈ csvTables barsDir fundingDir, Accepted t.1 t.2)
      : (∀ t ∈ csvTables barsDir fundingDir, Sound denote t.1 t.2.rows)
          ↔ ∀ t ∈ csvTables barsDir fundingDir, WithoutGaps denote t.1 t.2 := by
    rw [forall_csvTables] at haccepted
    rw [forall_csvTables (p := fun profile table => Sound denote profile table.rows),
      forall_csvTables]
    exact forall₂_congr fun role hrole => forall₂_congr fun entry hentry =>
      sound_iff_withoutGaps denote (haccepted role hrole entry hentry)
  rw [← preflight_eq_ok hgiven]
  constructor
  . intro ⟨preflight, hpreflight, hsound⟩
    refine ⟨⟨preflight, hpreflight⟩, fun haccepted => ?_⟩
    exact (hgaps haccepted).mp (hsound ((ready_iff hpreflight).mpr haccepted))
  . intro ⟨⟨preflight, hpreflight⟩, hwithout⟩
    refine ⟨preflight, hpreflight, fun hready => ?_⟩
    have haccepted := (ready_iff hpreflight).mp hready
    exact (hgaps haccepted).mpr (hwithout haccepted)

def oneFile (content : String) : Option Directory :=
  some [("a.csv", textLines 8192 (utf8Bytes content))]

/--
A bars table of two rows with these timestamps.
-/
def twoBars (first second : String) : Table where
  header := some ["timestamp", "close", "volume"]
  rows := [⟨[("timestamp", some first), ("close", some "1"), ("volume", some "1")]⟩,
    ⟨[("timestamp", some second), ("close", some "1"), ("volume", some "1")]⟩]
  error := none

theorem preflightSound_steady
    : PreflightSound timestampInt (oneFile "timestamp,close,volume\n8,1,1\n9,1,1\n") none := by
  have htables : csvTables (oneFile "timestamp,close,volume\n8,1,1\n9,1,1\n") none
      = [(bars, twoBars "8" "9")] := by
    decide +kernel
  refine (preflightSound_iff timestampInt (by simp [roleDirs, oneFile])).mpr ?_
  rw [htables]
  simp only [List.mem_singleton, forall_eq]
  refine ⟨by decide, fun _ => ⟨by decide +kernel, ?solid, ?ordered⟩⟩
  case solid =>
    intro row hrow col hcol v hv _
    simp only [twoBars, bars, List.mem_cons, List.not_mem_nil, or_false] at hrow hcol
    rcases hrow with rfl | rfl <;> rcases hcol with rfl | rfl | rfl <;> cases hv <;> decide +kernel
  case ordered =>
    have hbefore : Before timestampInt "8" "9" :=
      ⟨8, 9, by decide +kernel, by decide +kernel, by decide⟩
    refine List.pairwise_pair.mpr fun s t hs ht _ => ?_
    cases hs
    cases ht
    exact hbefore

theorem wider_timestamp_precedes
    : ¬PreflightSound timestampInt (oneFile "timestamp,close,volume\n10,1,1\n9,1,1\n") none := by
  intro ⟨preflight, hpreflight, hsound⟩
  have htables : csvTables (oneFile "timestamp,close,volume\n10,1,1\n9,1,1\n") none
      = [(bars, twoBars "10" "9")] := by
    decide +kernel
  have hready : Ready preflight := by
    rw [ready_iff hpreflight, htables]
    simp only [List.mem_singleton, forall_eq]
    exact ⟨rfl, by decide +kernel, by decide +kernel, by decide +kernel⟩
  have hincreasing := (hsound hready _ (by rw [htables]; exact List.mem_singleton_self _)).increasing
  obtain ⟨s, t, hs, ht, x, y, hx, hy, hlt⟩ := List.pairwise_pair.mp hincreasing
  cases hs
  cases ht
  have hten : timestampInt "10" = some 10 := by
    decide +kernel
  have hnine : timestampInt "9" = some 9 := by
    decide +kernel
  rw [hten] at hx
  rw [hnine] at hy
  cases hx
  cases hy
  exact absurd hlt (by decide)

end preflight

end DataQuality

end Quantbot

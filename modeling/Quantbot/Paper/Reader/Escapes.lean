import Quantbot.Paper.Reader.Validated

/-!
When a reader raises only its declared errors: the integers and the fields that it must not meet.
-/

namespace Quantbot
namespace PaperReader

variable (i : Json.Interpreter) (float : List Char → JsonValue)

section texts

/--
`json.loads` meets an integer with more digits than it converts.
-/
def TooManyDigits (text : List Char) : Prop :=
  Json.loads (Json.plainHooks i float) text = .error .valueError

def IsObjectText (text : List Char) (obj : JsonObject) : Prop :=
  Json.loads (Json.plainHooks i float) text = .ok (.obj obj)

variable {fail : String → ReadError} {declared : ReadError → Prop}

theorem readObject_eq_ok_iff {text : List Char} {obj : JsonObject}
    : readObject i float fail text = .ok obj ↔ IsObjectText i float text obj := by
  rw [readObject, IsObjectText]
  cases Json.loads (Json.plainHooks i float) text with
  | ok v => cases v <;> simp
  | error e =>
    cases e with
    | hook e => exact nomatch e
    | _ => simp

theorem failsClosed_readObject_iff (hfail : ∀ fault, declared (fail fault))
    (hescaped : ∀ e, ¬declared (.escaped e)) {text : List Char}
    : FailsClosed declared (readObject i float fail text) ↔ ¬TooManyDigits i float text := by
  have hdeclared {α : Type} (fault : String)
      : FailsClosed declared (.error (fail fault) : Except ReadError α) :=
    avoids_error_iff.mpr fun hbad => hbad.2 (hfail fault)
  rw [readObject, TooManyDigits]
  cases Json.loads (Json.plainHooks i float) text with
  | ok v =>
    refine iff_of_true ?_ nofun
    cases v with
    | obj fields => exact avoids_ok fields
    | _ => exact hdeclared "not an object"
  | error e =>
    cases e with
    | decodeError => exact iff_of_true (hdeclared "not valid JSON") nofun
    | hook e => exact nomatch e
    | valueError =>
      refine iff_of_false (fun hclosed => avoids_error_iff.mp hclosed ⟨?_, hescaped _⟩)
        (not_not_intro rfl)
      exact nofun
    | recursionError => exact iff_of_true (avoids_error_iff.mpr fun hbad => hbad.1 rfl) nofun

/--
A file that holds one object: its text, and the checks of the object.
-/
def FileContained (checks : JsonObject → List Check) (file : PaperFile) : Prop :=
  ∀ data text, file = .bytes data → Json.decodeUtf8 data = some text →
    ¬TooManyDigits i float text ∧ ∀ obj, IsObjectText i float text obj → Contained (checks obj)

theorem fileContained_bytes {checks : JsonObject → List Check} {data : Bytes}
    : FileContained i float checks (.bytes data) ↔ ∀ text, Json.decodeUtf8 data = some text →
        ¬TooManyDigits i float text
          ∧ ∀ obj, IsObjectText i float text obj → Contained (checks obj) := by
  constructor
  . intro h text
    exact h data text rfl
  . intro h data' text hdata
    cases hdata
    exact h text

/--
A text that is parsed and checked before anything else is done with it.
-/
theorem failsClosed_text_iff {α : Type} {checks : JsonObject → List Check}
    {after : JsonObject → Except ReadError α} (hfail : ∀ fault, declared (fail fault))
    (hescaped : ∀ e, ¬declared (.escaped e))
    (htame : ∀ obj, ∀ c, Reached Check.Holds (checks obj) c → c.Tame)
    (hafter : ∀ obj, FailsClosed declared (after obj)) {text : List Char}
    : FailsClosed declared (do
          let obj ← readObject i float fail text
          runChecks fail (checks obj)
          after obj)
      ↔ ¬TooManyDigits i float text
        ∧ ∀ obj, IsObjectText i float text obj → Contained (checks obj) := by
  rw [FailsClosed, avoids_bind]
  refine and_congr (failsClosed_readObject_iff i float hfail hescaped) ?_
  refine forall_congr' fun obj => imp_congr (readObject_eq_ok_iff i float) ?_
  rw [avoids_bind]
  refine (and_iff_left fun _ _ => hafter obj).trans ?_
  exact failsClosed_runChecks_iff hfail hescaped (htame obj)

end texts

section objects

theorem readChecked_eq_some {artifact : String} {checks : JsonObject → List Check} {file : PaperFile}
    {obj : JsonObject} (h : readChecked i float artifact checks file = .ok (some obj))
    : ∀ c ∈ checks obj, c.Holds := by
  obtain ⟨read, -, h⟩ := bind_eq_ok.mp h
  cases read with
  | none => cases h
  | some read =>
    obtain ⟨u, hchecks, h⟩ := bind_eq_ok.mp h
    cases h
    exact holds_of_runChecks hchecks

theorem readChecked_bytes {artifact : String} {checks : JsonObject → List Check} {data : Bytes}
    {text : List Char} (h : Json.decodeUtf8 data = some text)
    : readChecked i float artifact checks (.bytes data) = (do
        let obj ← readObject i float (.ledgerCorruption artifact) text
        runChecks (.ledgerCorruption artifact) (checks obj)
        .ok (some obj)) := by
  rw [readChecked, readJsonObj, h]
  dsimp only
  cases readObject i float (.ledgerCorruption artifact) text <;> rfl

theorem failsClosed_readChecked_iff {artifact : String} {checks : JsonObject → List Check}
    (htame : ∀ obj, ∀ c, Reached Check.Holds (checks obj) c → c.Tame) {file : PaperFile}
    : FailsClosed IsLedgerCorruption (readChecked i float artifact checks file)
      ↔ FileContained i float checks file := by
  have hdeclared {α : Type} (fault : String) : FailsClosed IsLedgerCorruption
      (.error (.ledgerCorruption artifact fault) : Except ReadError α) :=
    avoids_error_iff.mpr fun hbad => hbad.2 trivial
  cases file with
  | missing => exact iff_of_true (avoids_ok none) nofun
  | unreadable => exact iff_of_true (hdeclared _) nofun
  | bytes data =>
    rw [fileContained_bytes]
    cases hdecode : Json.decodeUtf8 data with
    | none =>
      rw [readChecked, readJsonObj, hdecode]
      exact iff_of_true (hdeclared _) nofun
    | some text =>
      rw [readChecked_bytes i float hdecode, failsClosed_text_iff i float (fun _ => trivial)
        (fun _ => id) htame fun _ => avoids_ok _]
      simp only [Option.some.injEq, forall_eq']

end objects

section ledgers

/--
The lines of a ledger that are parsed.
-/
def ledgerLines (buffer : ℕ) (data : Bytes) : List (List Char) :=
  ((fileLines buffer data).1.map strip).filter (fun line => line ≠ [])

/--
A ledger: its lines up to the first that is no object, and the checks of its rows.
-/
def LedgerContained (buffer : ℕ) (spec : LedgerSpec) (file : PaperFile) : Prop :=
  ∀ data, file = .bytes data →
    (∀ line, Reached (fun l => ∃ row, IsObjectText i float l row) (ledgerLines buffer data) line →
        ¬TooManyDigits i float line)
      ∧ ((fileLines buffer data).2 = false →
        ∀ rows, List.Forall₂ (IsObjectText i float) (ledgerLines buffer data) rows →
          Contained (rows.flatMap (rowChecks spec)))

variable {buffer : ℕ} {artifact : String} {spec : LedgerSpec}

theorem readJsonlValidated_eq_ok {file : PaperFile} {rows : List JsonObject}
    (h : readJsonlValidated i float buffer artifact spec file = .ok rows)
    : ∀ row ∈ rows, ValidRow spec row := by
  obtain ⟨rows', -, h⟩ := bind_eq_ok.mp h
  obtain ⟨u, hchecks, h⟩ := bind_eq_ok.mp h
  cases h
  intro row hrow
  refine validRow_of_holds fun c hc => holds_of_runChecks hchecks c ?_
  exact List.mem_flatMap.mpr ⟨row, hrow, hc⟩

theorem failsClosed_readJsonlValidated_iff {file : PaperFile}
    : FailsClosed IsLedgerCorruption (readJsonlValidated i float buffer artifact spec file)
      ↔ LedgerContained i float buffer spec file := by
  have hdeclared {α : Type} (fault : String) : FailsClosed IsLedgerCorruption
      (.error (.ledgerCorruption artifact fault) : Except ReadError α) :=
    avoids_error_iff.mpr fun hbad => hbad.2 trivial
  have hescaped (e : PyError) : ¬IsLedgerCorruption (.escaped e) := id
  have htame (rows : List JsonObject) (c : Check)
      (hc : Reached Check.Holds (rows.flatMap (rowChecks spec)) c) : c.Tame := by
    obtain ⟨row, -, hmem⟩ := List.mem_flatMap.mp hc.mem
    exact tame_of_mem_rowChecks hmem
  cases file with
  | missing => exact iff_of_true (avoids_ok []) nofun
  | unreadable => exact iff_of_true (hdeclared _) nofun
  | bytes data =>
    have hread : readJsonlValidated i float buffer artifact spec (.bytes data)
        = (do
          let rows ← (ledgerLines buffer data).mapM (readObject i float (.ledgerCorruption artifact))
          if (fileLines buffer data).2 then
            .error (.ledgerCorruption artifact "not valid UTF-8")
          else do
            runChecks (.ledgerCorruption artifact) (rows.flatMap (rowChecks spec))
            .ok rows) := by
      rw [readJsonlValidated, readJsonl, ledgerLines]
      cases ((((fileLines buffer data).1.map strip).filter (fun line => line ≠ [])).mapM
        (readObject i float (.ledgerCorruption artifact))) with
      | error e => rfl
      | ok rows => cases (fileLines buffer data).2 <;> rfl
    have hfile : LedgerContained i float buffer spec (.bytes data)
        ↔ (∀ line, Reached (fun l => ∃ row, IsObjectText i float l row) (ledgerLines buffer data) line →
            ¬TooManyDigits i float line)
          ∧ ∀ rows, List.Forall₂ (IsObjectText i float) (ledgerLines buffer data) rows →
            (fileLines buffer data).2 = false → Contained (rows.flatMap (rowChecks spec)) := by
      constructor
      . intro h
        obtain ⟨hlines, hrows⟩ := h data rfl
        exact ⟨hlines, fun rows hall hutf => hrows hutf rows hall⟩
      . rintro ⟨hlines, hrows⟩ data' hdata
        cases hdata
        exact ⟨hlines, fun hutf rows hall => hrows rows hall hutf⟩
    rw [hread, hfile, FailsClosed, avoids_bind]
    refine and_congr ?_ (forall_congr' fun rows => ?_)
    . rw [avoids_mapM_iff]
      simp only [readObject_eq_ok_iff]
      exact forall₂_congr fun line _ =>
        failsClosed_readObject_iff i float (fun _ => trivial) hescaped
    . rw [mapM_eq_ok_iff]
      simp only [readObject_eq_ok_iff]
      refine imp_congr Iff.rfl ?_
      cases (fileLines buffer data).2 with
      | true => exact iff_of_true (hdeclared _) fun hvalid => absurd hvalid Bool.true_eq_false.mp
      | false =>
        rw [if_neg Bool.false_ne_true, avoids_bind, and_iff_left fun _ _ => avoids_ok _]
        simp only [true_implies]
        exact failsClosed_runChecks_iff (fun _ => trivial) hescaped (htame rows)

end ledgers

section config

theorem loadConfig_eq_ok {file : PaperFile} {config : JsonObject}
    (h : loadConfig i float file = .ok config) : ValidConfig config := by
  obtain ⟨read, -, h⟩ := bind_eq_ok.mp h
  obtain ⟨u, hchecks, h⟩ := bind_eq_ok.mp h
  split at h
  . next hhash =>
    cases h
    exact ⟨validConfig_of_holds (holds_of_runChecks hchecks), equalsStr_iff.mp hhash⟩
  . cases h

theorem failsClosed_loadConfig_iff {file : PaperFile}
    : FailsClosed IsConfigContract (loadConfig i float file)
      ↔ FileContained i float configChecks file := by
  have hdeclared {α : Type} (fault : String) : FailsClosed IsConfigContract
      (.error (.configContract fault) : Except ReadError α) :=
    avoids_error_iff.mpr fun hbad => hbad.2 trivial
  cases file with
  | missing => exact iff_of_true (hdeclared _) nofun
  | unreadable => exact iff_of_true (hdeclared _) nofun
  | bytes data =>
    rw [fileContained_bytes, loadConfig, readConfigText]
    cases Json.decodeUtf8 data with
    | none => exact iff_of_true (hdeclared _) nofun
    | some text =>
      dsimp only
      have hafter (config : JsonObject) : FailsClosed IsConfigContract
          (if equalsStr (configHash config) (get config "config_hash") then .ok config
          else .error (.configContract "hash mismatch")) :=
        avoids_ite (fun _ => avoids_ok config) fun _ => hdeclared "hash mismatch"
      rw [failsClosed_text_iff i float (fun _ => trivial) (fun _ => id)
        (fun _ _ => tame_of_reached_configChecks) hafter]
      simp only [Option.some.injEq, forall_eq']

end config

section readers

theorem failsClosed_readSummaryObj_iff {file : PaperFile}
    : FailsClosed IsLedgerCorruption (readSummaryObj i float file)
      ↔ FileContained i float summaryChecks file := by
  rw [readSummaryObj, FailsClosed, avoids_bind]
  refine (and_iff_left fun _ _ => avoids_ok _).trans ?_
  exact failsClosed_readChecked_iff i float fun _ _ => tame_of_reached_summaryChecks

theorem failsClosed_readStateObj_iff {file : PaperFile}
    : FailsClosed IsLedgerCorruption (readStateObj i float file)
      ↔ FileContained i float stateChecks file :=
  failsClosed_readChecked_iff i float fun _ _ hc => tame_of_mem_stateChecks hc.mem

/--
A summary that is returned is none, for an absent file, or has the shape of its status.
-/
theorem readSummaryObj_eq_ok {file : PaperFile} {summary : JsonObject}
    (h : readSummaryObj i float file = .ok summary)
    : file = .missing ∧ summary = [] ∨ ∃ status, ValidSummary summary status := by
  obtain ⟨read, hread, h⟩ := bind_eq_ok.mp h
  cases h
  cases read with
  | some obj => exact .inr (validSummary_of_holds (readChecked_eq_some i float hread))
  | none =>
    refine .inl ⟨?_, rfl⟩
    obtain ⟨obj, hobj, hread⟩ := bind_eq_ok.mp hread
    cases obj with
    | some obj =>
      obtain ⟨u, -, hread⟩ := bind_eq_ok.mp hread
      cases hread
    | none =>
      cases file with
      | missing => rfl
      | unreadable => cases hobj
      | bytes data =>
        rw [readJsonObj] at hobj
        split at hobj
        . cases hobj
        . next text _ =>
          cases hparse : readObject i float (.ledgerCorruption summaryName) text with
          | ok fields =>
            rw [hparse] at hobj
            cases hobj
          | error e =>
            rw [hparse] at hobj
            cases hobj

/--
Nothing is raised, too deep a nesting apart.
-/
def NeverRaises {α : Type} (x : Except ReadError α) : Prop :=
  Avoids (fun e => e ≠ .escaped .recursionError) x

theorem neverRaises_caught_iff {α : Type} {x : Except ReadError α}
    : NeverRaises (caught x) ↔ FailsClosed IsLedgerCorruption x := by
  have hother {e : ReadError} (he : ¬IsLedgerCorruption e)
      : Undeclared IsLedgerCorruption e ↔ e ≠ .escaped .recursionError :=
    and_iff_left he
  cases x with
  | ok a => exact iff_of_true (avoids_ok _) (avoids_ok a)
  | error e =>
    cases e with
    | ledgerCorruption artifact fault =>
      exact iff_of_true (avoids_ok _) (avoids_error_iff.mpr fun hbad => hbad.2 trivial)
    | configContract fault =>
      rw [caught, NeverRaises, FailsClosed, avoids_error_iff, avoids_error_iff, hother id]
      intro artifact fault h
      cases h
    | escaped e =>
      rw [caught, NeverRaises, FailsClosed, avoids_error_iff, avoids_error_iff, hother id]
      intro artifact fault h
      cases h

def Artifact.Contained (buffer : ℕ) : Artifact → Prop
  | ledger _ spec file => LedgerContained i float buffer spec file
  | summary file => FileContained i float summaryChecks file
  | state file => FileContained i float stateChecks file

theorem neverRaises_read_iff {buffer : ℕ} {a : Artifact}
    : NeverRaises (a.read i float buffer) ↔ a.Contained i float buffer := by
  cases a with
  | ledger name spec file =>
    exact neverRaises_caught_iff.trans (failsClosed_readJsonlValidated_iff i float)
  | summary file => exact neverRaises_caught_iff.trans (failsClosed_readSummaryObj_iff i float)
  | state file => exact neverRaises_caught_iff.trans (failsClosed_readStateObj_iff i float)

theorem neverRaises_readExistingLedgers_iff {buffer : ℕ} {dir : OutputDir}
    : NeverRaises (readExistingLedgers i float buffer dir)
      ↔ ∀ a, Reached (fun b => b.read i float buffer ≠ .error (.escaped .recursionError))
          dir.artifacts a → a.Contained i float buffer := by
  have hreached (b : Artifact) : (∀ e, b.read i float buffer = .error e → e ≠ .escaped .recursionError)
      ↔ b.read i float buffer ≠ .error (.escaped .recursionError) := by
    constructor
    . intro h heq
      exact h _ heq rfl
    . rintro h e he rfl
      exact h he
  rw [readExistingLedgers, NeverRaises, avoids_bind]
  refine (and_iff_left fun _ _ => avoids_ok _).trans ?_
  rw [avoids_mapM_iff_of_bad]
  simp only [hreached]
  exact forall₂_congr fun a _ => neverRaises_read_iff i float

end readers

section hugeEquity

/--
The state of a run before its first bar, with a peak beyond the doubles.
-/
def hugeState : JsonObject :=
  [("accumulators", .obj [("fees_cum", .int 0), ("funding_cum", .int 0), ("realized_gross", .int 0)]),
    ("bars_elapsed", .int 0),
    ("open_positions", .obj []),
    ("peak_equity", .int (10 ^ 400)),
    ("watermark_bar_ts", .str "")]

def hugeStateFile : PaperFile :=
  .bytes (utf8Bytes (String.ofList (JsonValue.text (.obj hugeState))))

theorem isObjectText_hugeState
    : IsObjectText i float (JsonValue.text (.obj hugeState)) hugeState := by
  have hdigits : (Nat.toDigits 10 (10 ^ 400 : ℤ).natAbs).length ≤ Json.maxStrDigits := by
    decide +kernel
  have hzero : (Nat.toDigits 10 (0 : ℤ).natAbs).length ≤ Json.maxStrDigits := by
    decide
  have hreadable : Json.Readable (Json.plainHooks i float) 16 (.obj hugeState) := by
    refine .obj 15 _ rfl (List.forall_iff_forall_mem.mp ?_)
    refine ⟨.obj 14 _ rfl (List.forall_iff_forall_mem.mp ?_), .int 15 _ hzero,
      .obj 14 [] rfl fun _ h => absurd h List.not_mem_nil, .int 15 _ hdigits, .str 15 ""⟩
    exact ⟨.int 14 _ hzero, .int 14 _ hzero, .int 14 _ hzero⟩
  exact Json.loads_text _ (hreadable.mono _ i.room)

theorem runChecks_hugeState
    : runChecks (.ledgerCorruption stateName) (stateChecks hugeState)
        = .error (.escaped .overflowError) := by
  decide +kernel

theorem readStateObj_hugeState
    : readStateObj i float hugeStateFile = .error (.escaped .overflowError) := by
  have hdecode : Json.decodeUtf8 (utf8Bytes (String.ofList (JsonValue.text (.obj hugeState))))
      = some (JsonValue.text (.obj hugeState)) := by
    rw [Json.decodeUtf8_utf8Bytes, String.toList_ofList]
  rw [readStateObj, hugeStateFile, readChecked_bytes i float hdecode,
    (readObject_eq_ok_iff i float).mpr (isObjectText_hugeState i float), ok_bind,
    runChecks_hugeState, error_bind]

theorem not_failsClosed_hugeState
    : ¬FailsClosed IsLedgerCorruption (readStateObj i float hugeStateFile) := by
  rw [readStateObj_hugeState, FailsClosed, avoids_error_iff]
  refine not_not_intro ⟨fun h => ?_, id⟩
  cases h

/--
A directory with nothing in it but the state.
-/
def hugeStateDir : OutputDir :=
  ⟨fun _ => .missing, [.missing], hugeStateFile⟩

theorem not_neverRaises_hugeState (buffer : ℕ)
    : ¬NeverRaises (readExistingLedgers i float buffer hugeStateDir) := by
  intro hnever
  refine not_failsClosed_hugeState i float ?_
  rw [failsClosed_readStateObj_iff]
  refine (neverRaises_readExistingLedgers_iff i float).mp hnever (.state hugeStateFile)
    ⟨_, [], rfl, fun a ha => ?_⟩
  obtain hledger | hsummary := List.mem_append.mp ha
  . obtain ⟨s, -, rfl⟩ := List.mem_map.mp hledger
    intro h
    cases h
  . cases List.mem_singleton.mp hsummary
    intro h
    cases h

/--
The limits that the interpreter starts with.
-/
def startLimits : Json.Interpreter :=
  ⟨1000, 1000, Nat.le_of_ble_eq_true rfl⟩

def noFloats : List Char → JsonValue :=
  fun _ => .null

end hugeEquity

end PaperReader
end Quantbot

import Quantbot.Control.Transition
import Quantbot.Util.JsonDigits

/-!
What the bytes of a control state determine, and what holds along a history of states.
-/

namespace Quantbot

namespace ControlState

open Json (DistinctKeys FloatReader)

section encoding

variable {obj fields : JsonObject} {keys : List String}

theorem sortKeys_of_reads (hdistinct : DistinctKeys (.obj obj)) (hkeys : SameKeys obj keys)
    (hfields : fields.map Prod.fst = keys) (hnodup : keys.Nodup) (h : Reads obj fields)
    : JsonValue.sortKeys (.obj obj) = JsonValue.sortKeys (.obj fields) := by
  refine Json.sortKeys_congr hdistinct.nodup (hfields ▸ hnodup) (by rwa [hfields]) fun f hf => ?_
  rw [h f hf, Option.getD_some]

theorem sortKeys_of_describes {s : ControlState} (hdistinct : DistinctKeys (.obj fields))
    (h : Describes fields s)
    : ∃ m, s.object.mapping = some m ∧ JsonValue.sortKeys (.obj fields) = JsonValue.sortKeys (.obj m) := by
  obtain ⟨obj1, hlookup1, hkeys1, hreads1⟩ := h.scientific
  obtain ⟨obj2, hlookup2, hkeys2, hreads2⟩ := h.administrative
  obtain ⟨obj3, hlookup3, hkeys3, hreads3⟩ := h.runtime
  obtain ⟨obj4, hlookup4, hkeys4, hreads4⟩ := h.provenance
  have h1 := sortKeys_of_reads (hdistinct.lookup hlookup1) hkeys1 rfl (by decide) hreads1
  have h2 := sortKeys_of_reads (hdistinct.lookup hlookup2) hkeys2 rfl (by decide) hreads2
  have h3 := sortKeys_of_reads (hdistinct.lookup hlookup3) hkeys3 rfl (by decide) hreads3
  have h4 := sortKeys_of_reads (hdistinct.lookup hlookup4) hkeys4 rfl (by decide) hreads4
  refine ⟨_, rfl, Json.sortKeys_congr hdistinct.nodup ?_ h.keys ?_⟩
  . exact (by decide : topKeys.Nodup)
  . have hwords := h.words
    simp only [Reads, List.forall_mem_cons, List.not_mem_nil, false_implies, implies_true,
      and_true] at hwords
    simp only [List.forall_mem_cons, List.not_mem_nil, false_implies, implies_true, hwords.1,
      hwords.2.1, hwords.2.2.1, hwords.2.2.2, hlookup1, hlookup2, hlookup3, hlookup4,
      Option.getD_some, h1, h2, h3, h4, and_self, object]

end encoding

section own

variable {α β : Type}

/--
No exception of the module that adapts legacy documents.
-/
def Own (x : Except ControlError α) : Prop :=
  ∀ code path, x ≠ .error (.legacyAdapter code path)

@[simp]
theorem own_ok (a : α) : Own (.ok a) := by
  intro code path h
  cases h

@[simp]
theorem own_fail (code path : String) : Own (α := α) (fail code path) := by
  intro code' path' h
  cases h

theorem own_ite {p : Prop} [Decidable p] {x y : Except ControlError α} (hx : Own x) (hy : Own y)
    : Own (if p then x else y) := by
  split
  . exact hx
  . exact hy

theorem own_bind {x : Except ControlError α} {f : α → Except ControlError β} (hx : Own x)
    (hf : ∀ a, Own (f a)) : Own (x >>= f) := by
  intro code path h
  rcases Json.bind_eq_error.mp h with hx' | ⟨a, -, ha⟩
  . exact hx code path hx'
  . exact hf a code path ha

variable (obj : JsonObject) (key path : String) (v : JsonValue)

theorem own_item : Own (item obj key) := by
  unfold item
  split
  . exact own_ok _
  . intro code path h
    cases h

theorem own_requireExactKeys (expected : List String) : Own (requireExactKeys v expected path) := by
  unfold requireExactKeys
  split
  . dsimp only
    split
    . exact own_fail _ _
    . split
      . exact own_fail _ _
      . exact own_ok _
  . exact own_fail _ _

theorem own_requireStr : Own (requireStr obj key path) := by
  refine own_bind (own_item obj key) fun v => ?_
  split
  . exact own_ok _
  . exact own_fail _ _

theorem own_requireText (test : String → Bool) (code : String)
    : Own (requireText test code obj key path) :=
  own_bind (own_requireStr obj key path) fun _ => own_ite (own_ok _) (own_fail _ _)

theorem own_requireInt : Own (requireInt obj key path) := by
  refine own_bind (own_item obj key) fun v => ?_
  split
  . exact own_ok _
  . exact own_fail _ _

theorem own_requirePositiveRevision : Own (requirePositiveRevision obj key path) :=
  own_bind (own_requireInt obj key path) fun _ => own_ite (own_fail _ _) (own_ok _)

theorem own_requireZero : Own (requireZero obj key path) :=
  own_bind (own_requireInt obj key path) fun _ => own_ite (own_fail _ _) (own_ok _)

theorem own_requireOptionalStr : Own (requireOptionalStr obj key path) := by
  refine own_bind (own_item obj key) fun v => ?_
  split
  . exact own_ok _
  . exact own_ok _
  . exact own_fail _ _

theorem own_requireSafePath : Own (requireSafePath obj key path) :=
  own_bind (own_requireText obj key path _ _) fun _ => own_ite (own_ok _) (own_fail _ _)

theorem own_validateScientificState : Own (validateScientificState v path) := by
  refine own_bind (own_requireExactKeys path v _) fun obj => ?_
  refine own_bind (own_requireText obj _ path _ _) fun _ => ?_
  refine own_bind (own_requireText obj _ path _ _) fun _ => ?_
  refine own_bind (own_requireText obj _ path _ _) fun _ => ?_
  refine own_bind (own_requireText obj _ path _ _) fun _ => ?_
  refine own_bind (own_requireText obj _ path _ _) fun _ => ?_
  refine own_bind (own_requireZero obj _ path) fun _ => ?_
  exact own_bind (own_requireZero obj _ path) fun _ => own_ok _

theorem own_validateAdministrativeState : Own (validateAdministrativeState v path) := by
  refine own_bind (own_requireExactKeys path v _) fun obj => ?_
  refine own_bind (own_requireText obj _ path _ _) fun _ => ?_
  refine own_bind (own_requireSafePath obj _ path) fun _ => ?_
  exact own_bind (own_requireOptionalStr obj _ path) fun _ => own_ok _

theorem own_validateRuntimeAuthorization : Own (validateRuntimeAuthorization v path) := by
  refine own_bind (own_requireExactKeys path v _) fun obj => ?_
  refine own_bind (own_requireText obj _ path _ _) fun _ => ?_
  refine own_bind (own_requireText obj _ path _ _) fun _ => ?_
  refine own_bind (own_requireText obj _ path _ _) fun _ => ?_
  refine own_bind (own_requireText obj _ path _ _) fun _ => ?_
  refine own_bind (own_requireText obj _ path _ _) fun _ => ?_
  exact own_bind (own_requireText obj _ path _ _) fun _ => own_ok _

theorem own_validateProvenance : Own (validateProvenance v path) := by
  refine own_bind (own_requireExactKeys path v _) fun obj => ?_
  refine own_bind (own_requireSafePath obj _ path) fun _ => ?_
  refine own_bind (own_requireText obj _ path _ _) fun _ => ?_
  exact own_bind (own_requireText obj _ path _ _) fun _ => own_ok _

theorem own_validateRoot : Own (validateRoot v) := by
  refine own_bind (own_requireExactKeys "$" v _) fun obj => ?_
  refine own_bind (own_requireText obj _ "$" _ _) fun _ => ?_
  refine own_bind (own_requireText obj _ "$" _ _) fun _ => ?_
  refine own_bind (own_requirePositiveRevision obj _ "$") fun _ => ?_
  refine own_bind (own_requireText obj _ "$" _ _) fun _ => ?_
  refine own_bind (own_item obj _) fun _ => ?_
  refine own_bind (own_validateScientificState _ _) fun _ => ?_
  refine own_bind (own_item obj _) fun _ => ?_
  refine own_bind (own_validateAdministrativeState _ _) fun _ => ?_
  refine own_bind (own_item obj _) fun _ => ?_
  refine own_bind (own_validateRuntimeAuthorization _ _) fun _ => ?_
  refine own_bind (own_item obj _) fun _ => ?_
  exact own_bind (own_validateProvenance _ _) fun _ => own_ok _

end own

section loading

variable (i : Json.Interpreter) (read : FloatReader)

theorem admits_distinctKeys (duplicateKey : ControlError)
    : Json.Admits (strictHooks i read.toJson duplicateKey) DistinctKeys where
  null := .null
  bool := .bool
  int := fun n _ => .int n
  str := .str
  float := fun s => by
    simp only [strictHooks, FloatReader.toJson]
    split
    . exact .float _
    . exact .infinity _
  constant := fun v w hv h => by
    cases h
    cases hv with
    | nan => exact .nan
    | infinity negative => exact .infinity negative
  arr := .arr
  obj := fun pairs fields h hall => by
    simp only [strictHooks, noDuplicates] at h
    split at h
    . cases h
      exact .obj pairs (by assumption) hall
    . cases h

theorem raises_strictHooks (duplicateKey : ControlError)
    : Json.Raises (strictHooks i read.toJson duplicateKey) (fun e => e = duplicateKey) where
  pairs := fun pairs e h => by
    simp only [strictHooks, noDuplicates] at h
    split at h
    . cases h
    . cases h
      rfl
  constant := fun v e h => by cases h

/--
What is loaded from some bytes encodes as these bytes.
-/
theorem encodes_of_load {raw : Bytes} {s : ControlState}
    (h : loadAndValidateControlState i read.toJson raw = .ok s)
    : ∃ m, s.object.mapping = some m
        ∧ utf8Bytes (JsonValue.obj m).canonicalJsonDumps = raw := by
  obtain ⟨v, hv, h⟩ := bind_eq_ok.mp h
  split at h
  . cases h
  . rename_i hcanonical
    rw [ne_eq, not_not] at hcanonical
    obtain ⟨fields, rfl, hdescribes⟩ := validateRoot_ok h
    have hdistinct : DistinctKeys (.obj fields) := by
      unfold loadsStrict at hv
      split at hv
      . cases hv
      . split at hv
        . rename_i hloads
          cases hv
          exact Json.loads_admits (admits_distinctKeys i read _) hloads
        all_goals cases hv
    obtain ⟨m, hm, hsort⟩ := sortKeys_of_describes hdistinct hdescribes
    refine ⟨m, hm, ?_⟩
    rw [← hcanonical, JsonValue.canonicalJsonDumps, JsonValue.canonicalJsonDumps, hsort]

/--
The text of some bytes has an integer of more digits than the interpreter converts, at a place that
`json.loads` comes to.
-/
def TooManyDigits (raw : Bytes) : Prop :=
  ∃ text, Json.decodeUtf8 raw = some text
    ∧ ∃ t, Json.AtomAt (strictHooks i read.toJson (.controlState "DUPLICATE_KEY" "$")) i.nesting
        (Json.skip text) t
      ∧ Json.LongInteger t

theorem loadsStrict_valueError {raw : Bytes}
    : loadsStrict i read.toJson (.controlState "DUPLICATE_KEY" "$") (.controlState "INVALID_JSON" "$")
        raw = .error (.escaped .valueError)
      ↔ TooManyDigits i read raw := by
  unfold loadsStrict TooManyDigits
  cases Json.decodeUtf8 raw with
  | none => simp
  | some text =>
    have hloads := @Json.loads_valueError _
      (strictHooks i read.toJson (.controlState "DUPLICATE_KEY" "$")) text
    simp only [Option.some.injEq, exists_eq_left']
    refine Iff.trans ?_ hloads
    unfold strictHooks
    split
    . rename_i hloads
      simp [hloads]
    . rename_i hloads
      simp [hloads]
    . rename_i e hloads
      have he := Json.loads_raises (raises_strictHooks i read _) hloads
      simp [hloads, he]
    . rename_i hloads
      simp [hloads]
    . rename_i hloads
      simp [hloads]

/--
What loading some bytes should end with, apart from brackets that nest too deep.
-/
def LoadsFaithfully (raw : Bytes) : Prop :=
  match loadAndValidateControlState i read.toJson raw with
  | .ok s => ∃ m, s.object.mapping = some m ∧ utf8Bytes (JsonValue.obj m).canonicalJsonDumps = raw
  | .error (.controlState _ _) => True
  | .error e => e = .escaped .recursionError

theorem loadsStrict_error {raw : Bytes} {e : ControlError} (duplicateCode decodeCode : String)
    (h : loadsStrict i read.toJson (.controlState duplicateCode "$") (.controlState decodeCode "$") raw
      = .error e)
    : (∃ code path, e = .controlState code path) ∨ e = .escaped .valueError
        ∨ e = .escaped .recursionError := by
  unfold loadsStrict at h
  split at h
  . cases h
    exact .inl ⟨_, _, rfl⟩
  . split at h
    . cases h
    . cases h
      exact .inl ⟨_, _, rfl⟩
    . rename_i hloads
      cases h
      exact .inl ⟨_, _, Json.loads_raises (raises_strictHooks i read _) hloads⟩
    . cases h
      exact .inr (.inl rfl)
    . cases h
      exact .inr (.inr rfl)

theorem loadsFaithfully_iff (raw : Bytes)
    : LoadsFaithfully i read raw ↔ ¬TooManyDigits i read raw := by
  rw [← loadsStrict_valueError]
  unfold LoadsFaithfully
  cases hload : loadAndValidateControlState i read.toJson raw with
  | ok s =>
    refine iff_of_true (encodes_of_load i read hload) fun hdigits => ?_
    rw [loadAndValidateControlState, hdigits] at hload
    cases hload
  | error e =>
    rcases Json.bind_eq_error.mp hload with hread | ⟨v, hread, hrest⟩
    . rcases loadsStrict_error i read _ _ hread with ⟨code, path, rfl⟩ | rfl | rfl
      . exact iff_of_true trivial fun hdigits => by cases hread.symm.trans hdigits
      . exact iff_of_false (fun h => by cases h) (not_not.mpr hread)
      . exact iff_of_true rfl fun hdigits => by cases hread.symm.trans hdigits
    . have hclean : Clean (α := ControlState) (.error e) := by
        rw [← hrest]
        exact clean_ite (clean_fail _ _) (clean_validateRoot v)
      have hown : Own (α := ControlState) (.error e) := by
        rw [← hrest]
        exact own_ite (own_fail _ _) (own_validateRoot v)
      have hdigits : ¬loadsStrict i read.toJson (.controlState "DUPLICATE_KEY" "$")
          (.controlState "INVALID_JSON" "$") raw = .error (.escaped .valueError) := by
        rw [hread]
        exact fun h => by cases h
      refine iff_of_true ?_ hdigits
      cases e with
      | controlState code path => trivial
      | escaped e => exact absurd rfl (hclean e)
      | legacyAdapter code path => exact absurd rfl (hown code path)

theorem load_of_readable {v : JsonValue}
    (hv : Json.Readable (strictHooks i read.toJson (.controlState "DUPLICATE_KEY" "$")) 2 v)
    (h : 2 ≤ i.nesting)
    : loadAndValidateControlState i read.toJson (utf8Bytes v.canonicalJsonDumps)
        = validateRoot v.sortKeys := by
  have hload := loadsStrict_canonical i read.toJson (.controlState "DUPLICATE_KEY" "$")
    (.controlState "INVALID_JSON" "$") hv h
  have hsame : ¬utf8Bytes v.sortKeys.canonicalJsonDumps ≠ utf8Bytes v.canonicalJsonDumps := by
    rw [JsonValue.canonicalJsonDumps, JsonValue.canonicalJsonDumps, JsonValue.sortKeys_sortKeys]
    exact not_not.mpr rfl
  rw [loadAndValidateControlState, hload]
  exact if_neg hsame

end loading

section histories

variable {s t : StateObject} {a b : ControlState}

theorem eq_scientific {x : ScientificFields} {y : ScientificState}
    (h : Reads x.mapping y.fields.mapping) : x = y.fields := by
  cases x
  simpa [Reads, ScientificFields.mapping, ScientificState.fields, List.lookup] using h

theorem eq_administrative {x : AdministrativeFields} {y : AdministrativeState}
    (h : Reads x.mapping y.fields.mapping) : x = y.fields := by
  cases x
  simpa [Reads, AdministrativeFields.mapping, AdministrativeState.fields, List.lookup] using h

theorem eq_runtime {x : RuntimeFields} {y : RuntimeAuthorization}
    (h : Reads x.mapping y.fields.mapping) : x = y.fields := by
  cases x
  simpa [Reads, RuntimeFields.mapping, RuntimeAuthorization.fields, List.lookup] using h

theorem eq_provenance {x : ProvenanceFields} {y : ControlProvenance}
    (h : Reads x.mapping y.fields.mapping) : x = y.fields := by
  cases x
  simpa [Reads, ProvenanceFields.mapping, ControlProvenance.fields, List.lookup] using h

/--
Nothing of an object that passes the validators again is forged.
-/
theorem eq_object_of_revalidate (h : revalidate s = .ok a)
    : s = a.object ∧ ∃ fields, Describes fields a := by
  obtain ⟨kind, version, revision, protocol, scientific, administrative, runtime, provenance⟩ := s
  unfold revalidate at h
  split at h
  . rename_i fields hmapping
    simp only [StateObject.mapping, Option.bind_eq_bind, Option.bind_eq_some_iff,
      Option.some.injEq] at hmapping
    obtain ⟨x, rfl, y, rfl, z, rfl, w, rfl, rfl⟩ := hmapping
    obtain ⟨fields, hfields, hdescribes⟩ := validateRoot_ok h
    refine ⟨?_, fields, hdescribes⟩
    cases hfields
    obtain ⟨obj1, hlookup1, -, hreads1⟩ := hdescribes.scientific
    obtain ⟨obj2, hlookup2, -, hreads2⟩ := hdescribes.administrative
    obtain ⟨obj3, hlookup3, -, hreads3⟩ := hdescribes.runtime
    obtain ⟨obj4, hlookup4, -, hreads4⟩ := hdescribes.provenance
    cases hlookup1
    cases hlookup2
    cases hlookup3
    cases hlookup4
    have hwords := hdescribes.words
    simp only [Reads, List.forall_mem_cons, List.not_mem_nil, false_implies, implies_true,
      and_true] at hwords
    obtain ⟨hkind, hversion, hrevision, hprotocol⟩ := hwords
    cases hkind
    cases hversion
    cases hrevision
    cases hprotocol
    rw [eq_scientific hreads1, eq_administrative hreads2, eq_runtime hreads3,
      eq_provenance hreads4, object]
  . cases h

theorem validateTransition_ok (h : validateTransition s t = .ok ())
    : ∃ a b, revalidate s = .ok a ∧ revalidate t = .ok b ∧ b.protocolId = a.protocolId
        ∧ b.stateRevision = a.stateRevision + 1 := by
  obtain ⟨a, ha, h⟩ := bind_eq_ok.mp h
  obtain ⟨b, hb, h⟩ := bind_eq_ok.mp h
  refine ⟨a, b, ha, hb, ?_⟩
  split at h
  . cases h
  . split at h
    . cases h
    . split at h
      . cases h
      . rename_i hprotocol
        split at h
        . cases h
        . split at h
          . cases h
          . split at h
            . cases h
            . rename_i hrevision
              exact ⟨(not_not.mp hprotocol).symm, not_not.mp hrevision⟩

/--
Nothing is allowed, nothing has run, and the hypothesis is the one of the protocol.
-/
structure DenyOnly (s : StateObject) : Prop where
  scientific : ∃ x, s.scientificState = some x ∧ x.hypothesisId = .str "H001"
    ∧ x.realDataAccess = .str "FORBIDDEN" ∧ x.executionCount = .int 0 ∧ x.executionBudget = .int 0
  denied : s.runtimeAuthorization = some ⟨.str "DENIED", .str "DENIED", .str "DENIED",
    .str "DENIED", .str "DENIED", .str "DENIED"⟩

theorem denyOnly_object {fields : JsonObject} (h : Describes fields a) : DenyOnly a.object where
  scientific := by
    refine ⟨_, rfl, ?_⟩
    rw [h.literal]
    exact ⟨rfl, rfl, rfl, rfl⟩
  denied := by
    have hdenied : a.runtimeAuthorization = ⟨_, _, _, _, _, _⟩ := h.denied
    rw [object, hdenied]
    rfl

/--
Every two neighbours have been accepted as a transition.
-/
def History (states : List StateObject) : Prop :=
  states.IsChain (fun s t => validateTransition s t = .ok ())

/--
The state at a place of a history, when the history starts at a given revision and protocol.
-/
def At (revision : ℤ) (protocol : String) (k : ℕ) (s : StateObject) : Prop :=
  s.stateRevision = .int (revision + k) ∧ s.protocolId = .str protocol ∧ DenyOnly s

theorem at_of_revalidate (h : revalidate s = .ok a)
    : At a.stateRevision a.protocolId 0 s := by
  obtain ⟨rfl, fields, hdescribes⟩ := eq_object_of_revalidate h
  refine ⟨?_, rfl, denyOnly_object hdescribes⟩
  rw [object, Nat.cast_zero, add_zero]

/--
A history that goes on from a valid state.
-/
theorem history_run {states : List StateObject} (hs : revalidate s = .ok a)
    (h : History (s :: states)) (k : ℕ) (hk : k < (s :: states).length)
    : At a.stateRevision a.protocolId k (s :: states)[k] := by
  induction states generalizing s a k with
  | nil =>
    cases k with
    | zero => exact at_of_revalidate hs
    | succ k => simp at hk
  | cons t states ih =>
    cases k with
    | zero => exact at_of_revalidate hs
    | succ k =>
      obtain ⟨hstep, hrest⟩ := List.isChain_cons_cons.mp h
      obtain ⟨a', b, ha, hb, hprotocol, hrevision⟩ := validateTransition_ok hstep
      cases hs.symm.trans ha
      obtain ⟨hk', hp', hdeny⟩ := ih hb hrest k (by simpa using hk)
      refine ⟨hk'.trans ?_, hp'.trans (by rw [hprotocol]), hdeny⟩
      rw [hrevision]
      push_cast
      ring_nf

theorem history_at {states : List StateObject} (h : History states) (hlength : 2 ≤ states.length)
    : ∃ revision protocol, ∀ k (hk : k < states.length), At revision protocol k states[k] := by
  obtain ⟨s, states, rfl⟩ := List.exists_cons_of_length_pos (Nat.zero_lt_of_lt hlength)
  obtain ⟨t, states, rfl⟩ := List.exists_cons_of_length_pos (Nat.lt_of_succ_lt_succ hlength)
  obtain ⟨a, b, ha, -, -, -⟩ := validateTransition_ok (List.isChain_cons_cons.mp h).1
  exact ⟨a.stateRevision, a.protocolId, fun k hk => history_run ha h k hk⟩

end histories

section examples

/--
The states of the examples.
-/
def exampleState (revision : ℤ) : ControlState where
  controlKind := "qnty_control_state"
  schemaVersion := "1.0.0"
  stateRevision := revision
  protocolId := "candidate-1"
  scientificState :=
    ⟨"H001", "EDGE_UNPROVEN", "BLOCK_LIVE_INTEGRATION", "FORBIDDEN", "NOT_AUTHORIZED", 0, 0⟩
  administrativeState := ⟨"OPEN", "docs/proposal.json", none⟩
  runtimeAuthorization := ⟨"DENIED", "DENIED", "DENIED", "DENIED", "DENIED", "DENIED"⟩
  provenance := ⟨"receipts/0034.json", String.ofList (List.replicate 64 '0'),
    String.ofList (List.replicate 40 '0')⟩

def exampleFields : JsonObject :=
  (exampleState 1).object.mapping.getD []

theorem exampleFrames_le_nesting : (16 : ℕ) ≤ 16 :=
  le_rfl

def exampleInterpreter : Json.Interpreter :=
  ⟨16, 16, exampleFrames_le_nesting⟩

def exampleReader (_ : List Char) : ℚ ⊕ Bool :=
  .inr false

theorem readable_exampleFields {hooks : Json.Hooks ControlError}
    (hpairs : ∀ l : JsonObject, (l.map Prod.fst).Nodup → hooks.pairs l = .ok l)
    : Json.Readable hooks 2 (.obj exampleFields) := by
  have hobj {depth : ℕ} {fields : JsonObject} (hnodup : (fields.map Prod.fst).Nodup)
      (h : fields.Forall fun f => Json.Readable hooks depth f.2)
      : Json.Readable hooks (depth + 1) (.obj fields) :=
    .obj depth fields (hpairs fields hnodup) (List.forall_iff_forall_mem.mp h)
  have hstr (depth : ℕ) (s : String) : Json.Readable hooks depth (.str s) := .str depth s
  refine hobj (by decide) ⟨hstr 1 _, hstr 1 _, .int 1 _ (by decide), hstr 1 _, hobj (by decide) ?_,
    hobj (by decide) ?_, hobj (by decide) ?_, hobj (by decide) ?_⟩
  . exact ⟨hstr 0 _, hstr 0 _, hstr 0 _, hstr 0 _, hstr 0 _, .int 0 _ (by decide),
      .int 0 _ (by decide)⟩
  . exact ⟨hstr 0 _, hstr 0 _, .null 0⟩
  . exact ⟨hstr 0 _, hstr 0 _, hstr 0 _, hstr 0 _, hstr 0 _, hstr 0 _⟩
  . exact ⟨hstr 0 _, hstr 0 _, hstr 0 _⟩

theorem validateRoot_exampleFields
    : validateRoot (JsonValue.obj exampleFields).sortKeys = .ok (exampleState 1) := by
  rfl

theorem load_exampleFields
    : loadAndValidateControlState exampleInterpreter (FloatReader.toJson exampleReader)
        (utf8Bytes (JsonValue.obj exampleFields).canonicalJsonDumps) = .ok (exampleState 1) := by
  have hread := @readable_exampleFields
    (strictHooks exampleInterpreter (FloatReader.toJson exampleReader)
      (.controlState "DUPLICATE_KEY" "$")) fun l h => if_pos h
  rw [load_of_readable exampleInterpreter exampleReader hread (by decide)]
  exact validateRoot_exampleFields

theorem history_example : History [(exampleState 1).object, (exampleState 2).object] :=
  List.isChain_pair.mpr rfl

/--
The integer of as many ones, alone in its document.
-/
def ones (n : ℕ) : Bytes :=
  utf8Bytes (String.ofList (List.replicate (n + 1) '1'))

theorem longInteger_ones {n : ℕ} (h : Json.maxStrDigits < n + 1)
    : Json.LongInteger ('1' :: List.replicate n '1') := by
  have hspan : ('1' :: List.replicate n '1').span Char.isDigit = ('1' :: List.replicate n '1', []) := by
    have hspan := @Json.span_digits (List.replicate (n + 1) '1') []
      (fun c hc => by rw [List.eq_of_mem_replicate hc]; rfl) (fun c hc => by cases hc)
    rwa [List.append_nil, List.replicate_succ] at hspan
  have hwhole : Json.wholePart ('1' :: List.replicate n '1') = ('1' :: List.replicate n '1', []) := hspan
  have hsign : ¬('1' :: List.replicate n '1').head? = some '-' := fun h => by cases h
  unfold Json.LongInteger
  rw [if_neg hsign]
  dsimp only
  rw [hwhole]
  refine ⟨?_, rfl, rfl⟩
  rw [List.length_cons, List.length_replicate]
  exact h

theorem tooManyDigits_ones {n : ℕ} (h : Json.maxStrDigits < n + 1)
    : TooManyDigits exampleInterpreter exampleReader (ones n) := by
  refine ⟨'1' :: List.replicate n '1', ?_, _, .atom _ '1' _ (by decide), longInteger_ones h⟩
  rw [ones, Json.decodeUtf8_utf8Bytes, String.toList_ofList, List.replicate_succ]

end examples

end ControlState

end Quantbot

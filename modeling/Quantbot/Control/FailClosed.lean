import Quantbot.Control.LegacyAdapter

/-!
When the projection of a legacy packet fails closed.
-/

namespace Quantbot

namespace LegacyAdapter

open ControlState (Clean clean_ok clean_bind clean_of_forall clean_forM clean_foldlM clean_ite)

variable {α : Type} {i : Json.Interpreter} {float : List Char → JsonValue}

section stages

@[simp]
theorem clean_legacyFail (code path : String) : Clean (α := α) (fail code path) := by
  intro e h
  cases h

theorem clean_ensure (p : Prop) [Decidable p] (code path : String)
    : Clean (ensure p code path) :=
  clean_ite (clean_ok _) (clean_legacyFail _ _)

theorem ensure_ok {p : Prop} [Decidable p] {code path : String} {u : Unit}
    : ensure p code path = .ok u ↔ p := by
  unfold ensure
  split
  . simp [*]
  . simp [fail, *]

theorem clean_required (obj : JsonObject) (key path : String) : Clean (required obj key path) := by
  unfold required
  split
  . exact clean_ok _
  . exact clean_legacyFail _ _

theorem clean_requiredStr (obj : JsonObject) (key path : String)
    : Clean (requiredStr obj key path) := by
  refine clean_of_forall (clean_required obj key path) fun v => ?_
  split
  . exact clean_ok _
  . exact clean_legacyFail _ _

theorem clean_requiredInt (obj : JsonObject) (key path : String)
    : Clean (requiredInt obj key path) := by
  refine clean_of_forall (clean_required obj key path) fun v => ?_
  split
  . exact clean_ok _
  . exact clean_legacyFail _ _

theorem clean_requiredList (obj : JsonObject) (key path : String)
    : Clean (requiredList obj key path) := by
  refine clean_of_forall (clean_required obj key path) fun v => ?_
  split
  . exact clean_ok _
  . exact clean_legacyFail _ _

theorem clean_requiredDict (obj : JsonObject) (key path : String)
    : Clean (requiredDict obj key path) := by
  refine clean_of_forall (clean_required obj key path) fun v => ?_
  split
  . exact clean_ok _
  . exact clean_legacyFail _ _

theorem clean_safePath (path label : String) : Clean (safePath path label) :=
  clean_of_forall (clean_ensure _ _ _) fun _ => clean_ok _

theorem clean_checkDecisionToken (token : JsonValue) (path : String)
    : Clean (checkDecisionToken token path) := by
  unfold checkDecisionToken
  split
  . dsimp only
    split
    . exact clean_ok _
    . refine clean_ite (clean_ok _) ?_
      split
      . exact clean_ensure _ _ _
      . exact clean_ok _
  . exact clean_ok _

theorem clean_checkDecisionTokens (decisions : Option JsonValue) (path : String)
    : Clean (checkDecisionTokens decisions path) := by
  unfold checkDecisionTokens
  split
  . exact clean_forM fun t _ => clean_checkDecisionToken t.1 _
  . exact clean_ok _

theorem clean_checkNextActions (nextActions : Option JsonValue) (path : String)
    : Clean (checkNextActions nextActions path) := by
  unfold checkNextActions
  split
  . exact clean_ok _
  . exact clean_ok _
  . exact clean_ok _
  . exact clean_legacyFail _ _

theorem clean_checkAuthorityStructure (value : JsonObject) (path : String)
    : Clean (checkAuthorityStructure i value path)
        ↔ Clean (checkBooleanAuthorityFields i.frames (.obj value) path) := by
  rw [checkAuthorityStructure, clean_bind, and_iff_left]
  exact fun _ _ => clean_of_forall (clean_checkDecisionTokens _ _) fun _ =>
    clean_checkNextActions _ _

theorem clean_safeDecisions (receipt : JsonObject) : Clean (safeDecisions receipt) := by
  refine clean_of_forall (clean_requiredDict _ _ _) fun safety => ?_
  refine clean_of_forall (clean_forM fun f _ => ?_) fun _ => clean_requiredList _ _ _
  exact clean_of_forall (clean_required _ _ _) fun _ => clean_ensure _ _ _

theorem clean_decisionSet {decisions : List JsonValue}
    : Clean (decisionSet decisions) ↔ decisions.all hashable = true := by
  unfold decisionSet
  split
  . simp [*]
  . simp [*]

theorem clean_validateAmendmentsContainer (amendments : List LegacyDocument)
    : Clean (validateAmendmentsContainer amendments) := by
  refine clean_of_forall (clean_forM fun d _ => clean_ensure _ _ _) fun _ => ?_
  exact clean_of_forall (clean_ensure _ _ _) fun _ => clean_ok _

theorem clean_evidenceOf (receipt : JsonObject) : Clean (evidenceOf receipt) :=
  clean_of_forall (clean_requiredList _ _ _) fun _ => clean_ok _

theorem clean_checkDocumentKind (documentKind : Option JsonValue) (role path : String)
    : Clean (checkDocumentKind documentKind role path) := by
  unfold checkDocumentKind
  split
  . exact clean_ok _
  . exact clean_ok _
  . exact clean_ensure _ _ _

theorem clean_identifyAmendment (roles : List (String × String)) (document : LegacyDocument)
    (parsed : JsonObject) : Clean (identifyAmendment roles document parsed) := by
  unfold identifyAmendment
  split
  . exact clean_legacyFail _ _
  . refine clean_of_forall (clean_ensure _ _ _) fun _ => ?_
    refine clean_of_forall (clean_checkDocumentKind _ _ _) fun _ => ?_
    refine clean_of_forall (clean_ensure _ _ _) fun _ => ?_
    exact clean_of_forall (clean_ensure _ _ _) fun _ => clean_ok _

theorem clean_bindAmendment (evidence : List (String × String)) (document : LegacyDocument)
    (role : String) : Clean (bindAmendment evidence document role) :=
  clean_of_forall (clean_ensure _ _ _) fun _ => clean_ensure _ _ _

theorem clean_checkIdentity (activeTask : LegacyDocument) (active : JsonObject)
    (sourceReceipt : LegacyDocument) (receipt : JsonObject) (sourceHeadCommit : String)
    : Clean (checkIdentity activeTask active sourceReceipt receipt sourceHeadCommit) := by
  refine clean_of_forall (clean_ensure _ _ _) fun _ => ?_
  refine clean_of_forall (clean_requiredStr _ _ _) fun _ => ?_
  refine clean_of_forall (clean_ensure _ _ _) fun _ => ?_
  refine clean_of_forall (clean_requiredStr _ _ _) fun _ => ?_
  refine clean_of_forall (clean_ensure _ _ _) fun _ => ?_
  refine clean_of_forall (clean_requiredStr _ _ _) fun _ => ?_
  refine clean_of_forall (clean_ensure _ _ _) fun _ => ?_
  refine clean_of_forall (clean_requiredStr _ _ _) fun _ => ?_
  refine clean_of_forall (clean_ensure _ _ _) fun _ => ?_
  refine clean_of_forall (clean_requiredStr _ _ _) fun _ => ?_
  refine clean_of_forall (clean_ensure _ _ _) fun _ => ?_
  refine clean_of_forall (clean_ensure _ _ _) fun _ => ?_
  refine clean_of_forall (clean_requiredStr _ _ _) fun _ => ?_
  refine clean_of_forall (clean_ensure _ _ _) fun _ => ?_
  refine clean_of_forall (clean_requiredStr _ _ _) fun _ => ?_
  refine clean_of_forall (clean_ensure _ _ _) fun _ => ?_
  refine clean_of_forall (clean_requiredInt _ _ _) fun _ => ?_
  exact clean_of_forall (clean_ensure _ _ _) fun _ => clean_ok _

theorem clean_proposalOf (receipt : JsonObject) : Clean (proposalOf receipt) := by
  refine clean_of_forall (clean_requiredDict _ _ _) fun _ => ?_
  refine clean_of_forall (clean_requiredStr _ _ _) fun _ => ?_
  exact clean_of_forall (clean_safePath _ _) fun _ => clean_ok _

def engineStatus (binding : JsonObject) : JsonValue :=
  (binding.lookup "engine_implementation_status").getD .null

theorem clean_checkStatus {binding : JsonObject}
    : Clean (checkStatus binding) ↔ hashable (engineStatus binding) = true := by
  unfold checkStatus engineStatus
  dsimp only
  split
  . simp only [*, iff_true]
    exact clean_ensure _ _ _
  . simp [*]

theorem clean_requireSafety {receipt : JsonObject}
    : Clean (requireSafety i receipt)
        ↔ ∀ decisions, safeDecisions receipt = .ok decisions →
            decisions.all hashable = true ∧ (hasRequiredDecisions decisions = true →
              Clean (checkBooleanAuthorityFields i.frames (.obj receipt) "source_receipt")) := by
  rw [requireSafety, clean_bind, and_iff_right (clean_safeDecisions receipt)]
  refine forall₂_congr fun decisions _ => ?_
  rw [clean_bind, clean_decisionSet]
  refine and_congr_right fun hhash => ?_
  rw [decisionSet, if_pos hhash]
  simp only [Except.ok.injEq, forall_eq']
  rw [clean_bind, and_iff_right (clean_ensure _ _ _)]
  simp only [ensure_ok, clean_checkAuthorityStructure]
  exact forall_const Unit

/--
The amendments that are effective and of the frozen kind stay within the recursion limit, and all
that are read have no integer that is too long.
-/
def AmendmentsRead (i : Json.Interpreter) (float : List Char → JsonValue)
    (amendments : List LegacyDocument) (evidence : List (String × String)) : Prop :=
  ∀ pre d post, amendments = pre ++ d :: post →
    ∀ roles, pre.foldlM (validateAmendment i float evidence) [] = .ok roles →
      Clean (load i float d "amendment") ∧
        ∀ parsed, load i float d "amendment" = .ok parsed → isBool parsed "effective" true = true →
          ∀ role, identifyAmendment roles d parsed = .ok role →
            Clean (checkBooleanAuthorityFields i.frames (.obj parsed) "amendment")

theorem clean_validateAmendment {evidence roles : List (String × String)} {d : LegacyDocument}
    : Clean (validateAmendment i float evidence roles d)
        ↔ Clean (load i float d "amendment") ∧
          ∀ parsed, load i float d "amendment" = .ok parsed →
            isBool parsed "effective" true = true →
              ∀ role, identifyAmendment roles d parsed = .ok role →
                Clean (checkBooleanAuthorityFields i.frames (.obj parsed) "amendment") := by
  rw [validateAmendment, clean_bind]
  refine and_congr_right fun _ => forall₂_congr fun parsed _ => ?_
  split
  . rename_i heffective
    rw [clean_bind, and_iff_right (clean_identifyAmendment roles d parsed)]
    simp only [heffective, true_implies]
    refine forall₂_congr fun role _ => ?_
    rw [clean_bind, clean_checkAuthorityStructure]
    constructor
    . exact And.left
    . exact fun h => ⟨h, fun _ _ => clean_of_forall (clean_bindAmendment _ _ _) fun _ => clean_ok _⟩
  . rename_i heffective
    simp only [heffective, false_implies, iff_true, Bool.false_eq_true]
    exact clean_ok roles

theorem clean_validateAmendments {amendments : List LegacyDocument} {receipt : JsonObject}
    : Clean (validateAmendments i float amendments receipt)
        ↔ ∀ evidence, evidenceOf receipt = .ok evidence →
            AmendmentsRead i float amendments evidence := by
  rw [validateAmendments, clean_bind, and_iff_right (clean_evidenceOf receipt)]
  refine forall₂_congr fun evidence _ => ?_
  rw [clean_bind, clean_foldlM, and_iff_left fun _ _ => clean_ensure _ _ _]
  simp only [clean_validateAmendment]
  rfl

theorem clean_checkBinding {receipt : JsonObject}
    : Clean (checkBinding receipt)
        ↔ ∀ binding ref, proposalOf receipt = .ok (binding, ref) →
            hashable (engineStatus binding) = true := by
  rw [checkBinding, clean_bind, and_iff_right (clean_proposalOf receipt)]
  constructor
  . intro h binding ref hproposal
    exact clean_checkStatus.mp (clean_bind.mp (h _ hproposal)).1
  . intro h p hproposal
    refine clean_bind.mpr ⟨clean_checkStatus.mpr (h p.1 p.2 hproposal), fun _ _ => ?_⟩
    refine clean_of_forall (clean_ensure _ _ _) fun _ => ?_
    exact clean_of_forall (clean_ensure _ _ _) fun _ => clean_ok _

end stages

/--
What the projection is given.
-/
structure Packet where
  activeTask : LegacyDocument
  sourceReceipt : LegacyDocument
  amendments : List LegacyDocument
  sourceHeadCommit : String

namespace Packet

def project (i : Json.Interpreter) (float : List Char → JsonValue) (p : Packet)
    : Except ControlError ControlState :=
  projectLegacyControlState i float p.activeTask p.sourceReceipt p.amendments p.sourceHeadCommit

/--
No step that the projection gets to raises a foreign exception: every document it reads has
integers of at most 4300 digits and brackets within the limit, the walk over the receipt and over
each effective amendment stays within the limit, no decision of the receipt is a list or a
dictionary, and neither is the status of the engine.
-/
def NothingEscapes (i : Json.Interpreter) (float : List Char → JsonValue) (p : Packet) : Prop :=
  Clean (load i float p.activeTask "active_task") ∧
    ∀ active, load i float p.activeTask "active_task" = .ok active →
      Clean (load i float p.sourceReceipt "source_receipt") ∧
        ∀ receipt, load i float p.sourceReceipt "source_receipt" = .ok receipt →
          ∀ amendments, validateAmendmentsContainer p.amendments = .ok amendments →
            ∀ index, checkIdentity p.activeTask active p.sourceReceipt receipt p.sourceHeadCommit
                = .ok index →
              (∀ decisions, safeDecisions receipt = .ok decisions →
                decisions.all hashable = true ∧ (hasRequiredDecisions decisions = true →
                  Clean (checkBooleanAuthorityFields i.frames (.obj receipt) "source_receipt"))) ∧
              (requireSafety i receipt = .ok () →
                (∀ evidence, evidenceOf receipt = .ok evidence →
                  AmendmentsRead i float amendments evidence) ∧
                (validateAmendments i float amendments receipt = .ok () →
                  ∀ binding ref, proposalOf receipt = .ok (binding, ref) →
                    hashable (engineStatus binding) = true))

end Packet

section final

theorem readable_projected (hooks : Json.Hooks ControlError)
    (hpairs : ∀ l : JsonObject, (l.map Prod.fst).Nodup → hooks.pairs l = .ok l) (ref : String)
    (receipt : LegacyDocument) (commit : String)
    : Json.Readable hooks 2 (projected currentReceiptIndex ref receipt commit) := by
  have hobj {depth : ℕ} {fields : JsonObject} (hnodup : (fields.map Prod.fst).Nodup)
      (h : fields.Forall fun f => Json.Readable hooks depth f.2)
      : Json.Readable hooks (depth + 1) (.obj fields) :=
    .obj depth fields (hpairs fields hnodup) (List.forall_iff_forall_mem.mp h)
  have hstr (depth : ℕ) (s : String) : Json.Readable hooks depth (.str s) := .str depth s
  rw [projected]
  refine hobj ?_ ?_
  . simp
  . simp only [List.Forall]
    refine ⟨hstr 1 _, hstr 1 _, .int 1 _ ?_, hstr 1 _, hobj ?_ ?_, hobj ?_ ?_, hobj ?_ ?_,
      hobj ?_ ?_⟩
    . decide
    . simp
    . simp only [List.Forall]
      exact ⟨hstr 0 _, hstr 0 _, hstr 0 _, hstr 0 _, hstr 0 _, .int 0 _ (by decide),
        .int 0 _ (by decide)⟩
    . simp
    . simp only [List.Forall]
      exact ⟨hstr 0 _, hstr 0 _, .null 0⟩
    . simp
    . simp only [List.Forall]
      exact ⟨hstr 0 _, hstr 0 _, hstr 0 _, hstr 0 _, hstr 0 _, hstr 0 _⟩
    . simp
    . simp only [List.Forall]
      exact ⟨hstr 0 _, hstr 0 _, hstr 0 _⟩

/--
The last step reads back the document that the projection wrote.
-/
theorem clean_loadProjected (ref : String) (receipt : LegacyDocument) (commit : String)
    : Clean (ControlState.loadAndValidateControlState i float
        (utf8Bytes (projected currentReceiptIndex ref receipt commit).canonicalJsonDumps)) := by
  have hpairs (l : JsonObject) (h : (l.map Prod.fst).Nodup)
      : (ControlState.strictHooks i float (.controlState "DUPLICATE_KEY" "$")).pairs l = .ok l :=
    if_pos h
  have hroom := i.room
  have hload := ControlState.loadsStrict_canonical i float (.controlState "DUPLICATE_KEY" "$")
    (.controlState "INVALID_JSON" "$") (readable_projected _ hpairs ref receipt commit) (by omega)
  rw [ControlState.loadAndValidateControlState, hload]
  refine clean_of_forall (clean_ok _) fun v => ?_
  exact clean_ite (ControlState.clean_fail _ _) (ControlState.clean_validateRoot v)

theorem index_of_checkIdentity {activeTask : LegacyDocument} {active : JsonObject}
    {sourceReceipt : LegacyDocument} {receipt : JsonObject} {commit : String} {index : ℤ}
    (h : checkIdentity activeTask active sourceReceipt receipt commit = .ok index)
    : index = currentReceiptIndex := by
  obtain ⟨_, -, h⟩ := bind_eq_ok.mp h
  obtain ⟨_, -, h⟩ := bind_eq_ok.mp h
  obtain ⟨_, -, h⟩ := bind_eq_ok.mp h
  obtain ⟨_, -, h⟩ := bind_eq_ok.mp h
  obtain ⟨_, -, h⟩ := bind_eq_ok.mp h
  obtain ⟨_, -, h⟩ := bind_eq_ok.mp h
  obtain ⟨_, -, h⟩ := bind_eq_ok.mp h
  obtain ⟨_, -, h⟩ := bind_eq_ok.mp h
  obtain ⟨_, -, h⟩ := bind_eq_ok.mp h
  obtain ⟨_, -, h⟩ := bind_eq_ok.mp h
  obtain ⟨_, -, h⟩ := bind_eq_ok.mp h
  obtain ⟨_, -, h⟩ := bind_eq_ok.mp h
  obtain ⟨_, -, h⟩ := bind_eq_ok.mp h
  obtain ⟨_, -, h⟩ := bind_eq_ok.mp h
  obtain ⟨_, -, h⟩ := bind_eq_ok.mp h
  obtain ⟨_, -, h⟩ := bind_eq_ok.mp h
  obtain ⟨index', -, h⟩ := bind_eq_ok.mp h
  obtain ⟨_, hindex, h⟩ := bind_eq_ok.mp h
  cases h
  exact ensure_ok.mp hindex

theorem clean_project (p : Packet) : Clean (p.project i float) ↔ p.NothingEscapes i float := by
  rw [Packet.project, projectLegacyControlState, clean_bind]
  refine and_congr_right fun _ => forall₂_congr fun active _ => ?_
  rw [clean_bind]
  refine and_congr_right fun _ => forall₂_congr fun receipt _ => ?_
  rw [clean_bind, and_iff_right (clean_validateAmendmentsContainer _)]
  refine forall₂_congr fun amendments _ => ?_
  rw [clean_bind, and_iff_right (clean_checkIdentity _ _ _ _ _)]
  refine forall₂_congr fun index hindex => ?_
  rw [clean_bind, clean_requireSafety]
  refine and_congr_right fun _ => ?_
  constructor
  . intro h hsafety
    have h := clean_bind.mp (h () hsafety)
    refine ⟨clean_validateAmendments.mp h.1, fun hamendments => ?_⟩
    exact clean_checkBinding.mp (clean_bind.mp (h.2 () hamendments)).1
  . intro h _ hsafety
    obtain ⟨hamendments, hbinding⟩ := h hsafety
    refine clean_bind.mpr ⟨clean_validateAmendments.mpr hamendments, fun _ hvalid => ?_⟩
    refine clean_bind.mpr ⟨clean_checkBinding.mpr (hbinding hvalid), fun ref _ => ?_⟩
    rw [index_of_checkIdentity hindex]
    exact clean_loadProjected ref p.sourceReceipt p.sourceHeadCommit

end final

section accepted

theorem exists_step_of_foldlM_ok {β : Type} {f : α → β → Except ControlError α} {l : List β}
    {init s : α} (h : l.foldlM f init = .ok s) {b : β} (hb : b ∈ l)
    : ∃ s₁ s₂, f s₁ b = .ok s₂ := by
  induction l generalizing init with
  | nil => cases hb
  | cons c l ih =>
    rw [List.foldlM_cons] at h
    obtain ⟨s', hs', h⟩ := bind_eq_ok.mp h
    rw [List.mem_cons] at hb
    rcases hb with rfl | hb
    . exact ⟨init, s', hs'⟩
    . exact ih h hb

/--
Every field of a document, at any depth, has been classified.
-/
def Classified (obj : JsonObject) : Prop :=
  EveryField (fun key item => ∃ path, classifyAuthorityLeaf key item path = .ok ()) (.obj obj)

theorem classified_of_checkAuthorityStructure {value : JsonObject} {path : String}
    (h : checkAuthorityStructure i value path = .ok ()) : Classified value := by
  obtain ⟨_, hcheck, -⟩ := bind_eq_ok.mp h
  exact everyField_of_check hcheck

theorem classified_of_requireSafety {receipt : JsonObject}
    (h : requireSafety i receipt = .ok ()) : Classified receipt := by
  obtain ⟨_, -, h⟩ := bind_eq_ok.mp h
  obtain ⟨_, -, h⟩ := bind_eq_ok.mp h
  obtain ⟨_, -, h⟩ := bind_eq_ok.mp h
  exact classified_of_checkAuthorityStructure h

theorem classified_of_validateAmendment {evidence roles roles' : List (String × String)}
    {d : LegacyDocument} (h : validateAmendment i float evidence roles d = .ok roles')
    : ∃ parsed, load i float d "amendment" = .ok parsed ∧
        (isBool parsed "effective" true = true → Classified parsed) := by
  obtain ⟨parsed, hload, h⟩ := bind_eq_ok.mp h
  refine ⟨parsed, hload, fun heffective => ?_⟩
  rw [if_pos heffective] at h
  obtain ⟨_, -, h⟩ := bind_eq_ok.mp h
  obtain ⟨_, hstructure, -⟩ := bind_eq_ok.mp h
  exact classified_of_checkAuthorityStructure hstructure

theorem classified_of_validateAmendments {amendments : List LegacyDocument} {receipt : JsonObject}
    (h : validateAmendments i float amendments receipt = .ok ()) {d : LegacyDocument}
    (hd : d ∈ amendments)
    : ∃ parsed, load i float d "amendment" = .ok parsed ∧
        (isBool parsed "effective" true = true → Classified parsed) := by
  obtain ⟨evidence, -, h⟩ := bind_eq_ok.mp h
  obtain ⟨roles, hroles, -⟩ := bind_eq_ok.mp h
  obtain ⟨_, _, hstep⟩ := exists_step_of_foldlM_ok hroles hd
  exact classified_of_validateAmendment hstep

theorem perm_of_validateAmendmentsContainer {amendments sorted : List LegacyDocument}
    (h : validateAmendmentsContainer amendments = .ok sorted) : sorted.Perm amendments := by
  obtain ⟨_, -, h⟩ := bind_eq_ok.mp h
  obtain ⟨_, -, h⟩ := bind_eq_ok.mp h
  cases h
  exact List.perm_insertionSort pathLe amendments

/--
A state that is returned denies every action, and what it was projected from has been classified.
-/
theorem Packet.project_ok {p : Packet} {state : ControlState} (h : p.project i float = .ok state)
    : state.runtimeAuthorization.Denied ∧
        (∃ receipt, load i float p.sourceReceipt "source_receipt" = .ok receipt
          ∧ Classified receipt) ∧
        ∀ d ∈ p.amendments, ∃ parsed, load i float d "amendment" = .ok parsed ∧
          (isBool parsed "effective" true = true → Classified parsed) := by
  obtain ⟨active, -, h⟩ := bind_eq_ok.mp h
  obtain ⟨receipt, hreceipt, h⟩ := bind_eq_ok.mp h
  obtain ⟨amendments, hcontainer, h⟩ := bind_eq_ok.mp h
  obtain ⟨index, -, h⟩ := bind_eq_ok.mp h
  obtain ⟨_, hsafety, h⟩ := bind_eq_ok.mp h
  obtain ⟨_, hamendments, h⟩ := bind_eq_ok.mp h
  obtain ⟨ref, -, h⟩ := bind_eq_ok.mp h
  refine ⟨ControlState.denied_of_loadAndValidate h,
    ⟨receipt, hreceipt, classified_of_requireSafety hsafety⟩, fun d hd => ?_⟩
  have hperm := perm_of_validateAmendmentsContainer hcontainer
  exact classified_of_validateAmendments hamendments (hperm.mem_iff.mpr hd)

end accepted

section order

theorem forM_cons_eq {β ε : Type} (f : β → Except ε Unit) (b : β) (l : List β)
    : (b :: l).forM f = f b >>= fun _ => l.forM f :=
  rfl

theorem forM_ensure_ok {β : Type} {p : β → Prop} [DecidablePred p] {code : String}
    {label : β → String} {l : List β} (h : ∀ b ∈ l, p b)
    : l.forM (fun b => ensure (p b) code (label b)) = .ok () := by
  induction l with
  | nil => rfl
  | cons b l ih =>
    have hb : ensure (p b) code (label b) = .ok () := ensure_ok.mpr (h b List.mem_cons_self)
    rw [forM_cons_eq, hb]
    exact ih fun c hc => h c (List.mem_cons_of_mem b hc)

theorem forM_ensure_error {β : Type} {p : β → Prop} [DecidablePred p] {code : String}
    {label : β → String} {l : List β} (h : ∃ b ∈ l, ¬p b)
    : ∃ path, l.forM (fun b => ensure (p b) code (label b)) = .error (.legacyAdapter code path) := by
  induction l with
  | nil =>
    obtain ⟨b, hb, -⟩ := h
    cases hb
  | cons b l ih =>
    rw [forM_cons_eq]
    by_cases hb : p b
    . have hok : ensure (p b) code (label b) = .ok () := ensure_ok.mpr hb
      rw [hok]
      apply ih
      obtain ⟨c, hc, hnot⟩ := h
      rw [List.mem_cons] at hc
      rcases hc with rfl | hc
      . exact absurd hb hnot
      . exact ⟨c, hc, hnot⟩
    . refine ⟨label b, ?_⟩
      rw [ensure, if_neg hb]
      rfl

theorem insertionSort_pathLe_perm {amendments amendments' : List LegacyDocument}
    (h : amendments'.Perm amendments) (hnodup : (amendments.map LegacyDocument.path).Nodup)
    : amendments'.insertionSort pathLe = amendments.insertionSort pathLe := by
  have htotal : Std.Total pathLe := ⟨fun a b => le_total a.path b.path⟩
  have htrans : IsTrans LegacyDocument pathLe := ⟨fun a b c hab hbc => le_trans hab hbc⟩
  have hperm := List.perm_insertionSort pathLe amendments
  have hperm' := (List.perm_insertionSort pathLe amendments').trans h
  refine List.Perm.eq_of_pairwise ?_ (List.pairwise_insertionSort pathLe amendments')
    (List.pairwise_insertionSort pathLe amendments) (hperm'.trans hperm.symm)
  intro a b ha hb hab hba
  exact List.inj_on_of_nodup_map hnodup (hperm'.mem_iff.mp ha) (hperm.mem_iff.mp hb)
    (le_antisymm hab hba)

theorem validateAmendmentsContainer_of_safe {amendments : List LegacyDocument}
    (h : ∀ d ∈ amendments, isSafePath d.path = true)
    : validateAmendmentsContainer amendments
      = if (amendments.map LegacyDocument.path).Nodup then .ok (amendments.insertionSort pathLe)
        else .error (.legacyAdapter "DUPLICATE_AMENDMENT_PATH" "amendments") := by
  have hpaths : amendments.zipIdx.forM (fun d =>
      ensure (isSafePath d.1.path) "INVALID_LEGACY_PATH" s!"amendments[{d.2}].path") = .ok () :=
    forM_ensure_ok fun d hd => h d.1 (List.fst_mem_of_mem_zipIdx hd)
  rw [validateAmendmentsContainer, hpaths]
  simp only [ensure, fail]
  split <;> rfl

theorem validateAmendmentsContainer_of_unsafe {amendments : List LegacyDocument}
    (h : ¬∀ d ∈ amendments, isSafePath d.path = true)
    : ∃ path, validateAmendmentsContainer amendments
      = .error (.legacyAdapter "INVALID_LEGACY_PATH" path) := by
  have hunsafe : ∃ d ∈ amendments.zipIdx, ¬isSafePath d.1.path = true := by
    simp only [not_forall] at h
    obtain ⟨d, hd, hnot⟩ := h
    obtain ⟨n, hn, rfl⟩ := List.getElem_of_mem hd
    refine ⟨(amendments[n], n), ?_, hnot⟩
    rw [List.mem_zipIdx_iff_getElem?]
    exact List.getElem?_eq_getElem hn
  obtain ⟨path, herror⟩ := forM_ensure_error hunsafe
  refine ⟨path, ?_⟩
  rw [validateAmendmentsContainer, herror]
  rfl

/--
The class and the code of an error.
-/
def withoutPath : ControlError → ControlError
  | .legacyAdapter code _ => .legacyAdapter code ""
  | .controlState code _ => .controlState code ""
  | .escaped e => .escaped e

/--
The order of the amendments decides at most which unsafe path an error names.
-/
def OrderIndependent (i : Json.Interpreter) (float : List Char → JsonValue) (p : Packet) : Prop :=
  ∀ amendments, amendments.Perm p.amendments →
    (Packet.project i float { p with amendments }).mapError withoutPath
        = (p.project i float).mapError withoutPath ∧
      ((∀ d ∈ p.amendments, isSafePath d.path = true) →
        Packet.project i float { p with amendments } = p.project i float)

theorem validateAmendmentsContainer_perm {amendments amendments' : List LegacyDocument}
    (hperm : amendments'.Perm amendments) (h : ∀ d ∈ amendments, isSafePath d.path = true)
    : validateAmendmentsContainer amendments' = validateAmendmentsContainer amendments := by
  have hnodup := (hperm.map LegacyDocument.path).nodup_iff
  rw [validateAmendmentsContainer_of_safe h,
    validateAmendmentsContainer_of_safe fun d hd => h d (hperm.mem_iff.mp hd)]
  by_cases hpaths : (amendments.map LegacyDocument.path).Nodup
  . rw [if_pos hpaths, if_pos (hnodup.mpr hpaths), insertionSort_pathLe_perm hperm hpaths]
  . rw [if_neg hpaths, if_neg (hnodup.not.mpr hpaths)]

theorem Packet.orderIndependent (p : Packet) : OrderIndependent i float p := by
  intro amendments hperm
  by_cases hsafe : ∀ d ∈ p.amendments, isSafePath d.path = true
  . have heq : Packet.project i float { p with amendments } = p.project i float := by
      simp only [Packet.project, projectLegacyControlState,
        validateAmendmentsContainer_perm hperm hsafe]
    exact ⟨by rw [heq], fun _ => heq⟩
  . have hsafe' : ¬∀ d ∈ amendments, isSafePath d.path = true := by
      simpa only [hperm.mem_iff] using hsafe
    obtain ⟨path, hcontainer⟩ := validateAmendmentsContainer_of_unsafe hsafe
    obtain ⟨path', hcontainer'⟩ := validateAmendmentsContainer_of_unsafe hsafe'
    refine ⟨?_, fun h => absurd h hsafe⟩
    simp only [Packet.project, projectLegacyControlState, hcontainer, hcontainer']
    cases load i float p.activeTask "active_task" with
    | error e => rfl
    | ok active =>
      cases load i float p.sourceReceipt "source_receipt" with
      | error e => rfl
      | ok receipt => rfl

end order

section failClosed

/--
At every depth of a document, an authority field denies.
-/
def DenySafeFields (isAuthority : String → Bool) (obj : JsonObject) : Prop :=
  EveryField (fun key item => isAuthority key = true → DenySafe item) (.obj obj)

/--
What a returned state or an error says of the packet, with a reading of which fields carry
authority.
-/
def OutcomeSafe (isAuthority : String → Bool) (i : Json.Interpreter)
    (float : List Char → JsonValue) (p : Packet) : Prop :=
  match p.project i float with
  | .ok state =>
    state.runtimeAuthorization.Denied ∧
      (∃ receipt, load i float p.sourceReceipt "source_receipt" = .ok receipt
        ∧ DenySafeFields isAuthority receipt) ∧
      ∀ d ∈ p.amendments, ∃ parsed, load i float d "amendment" = .ok parsed ∧
        (isBool parsed "effective" true = true → DenySafeFields isAuthority parsed)
  | .error (.escaped _) => False
  | .error _ => True

def FailClosed (isAuthority : String → Bool) (i : Json.Interpreter)
    (float : List Char → JsonValue) (p : Packet) : Prop :=
  OutcomeSafe isAuthority i float p ∧ OrderIndependent i float p

/--
If the packet is accepted, no administrative field of the receipt or of an effective amendment
grants anything.
-/
def NothingGranted (i : Json.Interpreter) (float : List Char → JsonValue) (p : Packet) : Prop :=
  ∀ state, p.project i float = .ok state →
    ∀ (d : LegacyDocument) (label : String) (obj : JsonObject), load i float d label = .ok obj →
      (d = p.sourceReceipt ∧ label = "source_receipt") ∨
        (d ∈ p.amendments ∧ label = "amendment" ∧ isBool obj "effective" true = true) →
      EveryField (fun key item => administrativeBoolean key = true → item ≠ .bool true) (.obj obj)

theorem clean_of_outcomeSafe {isAuthority : String → Bool} {p : Packet}
    (h : OutcomeSafe isAuthority i float p) : Clean (p.project i float) := by
  intro e heq
  rw [OutcomeSafe, heq] at h
  exact h

theorem outcomeSafe_of_clean {isAuthority : String → Bool} {p : Packet}
    (h : Clean (p.project i float))
    (hfields : ∀ state, p.project i float = .ok state →
      ∀ (d : LegacyDocument) (label : String) (obj : JsonObject), load i float d label = .ok obj →
        (d = p.sourceReceipt ∧ label = "source_receipt") ∨
          (d ∈ p.amendments ∧ label = "amendment" ∧ isBool obj "effective" true = true) →
        Classified obj → DenySafeFields isAuthority obj)
    : OutcomeSafe isAuthority i float p := by
  rw [OutcomeSafe]
  split
  . rename_i state hstate
    obtain ⟨hdenied, ⟨receipt, hreceipt, hclassified⟩, hamendments⟩ := Packet.project_ok hstate
    refine ⟨hdenied, ⟨receipt, hreceipt,
      hfields state hstate _ _ _ hreceipt (.inl ⟨rfl, rfl⟩) hclassified⟩, fun d hd => ?_⟩
    obtain ⟨parsed, hparsed, heffective⟩ := hamendments d hd
    refine ⟨parsed, hparsed, fun h => ?_⟩
    exact hfields state hstate _ _ _ hparsed (.inr ⟨hd, rfl, h⟩) (heffective h)
  . rename_i e heq
    exact h e heq
  . trivial

theorem denySafeFields_of_classified {obj : JsonObject} (h : Classified obj)
    : DenySafeFields recognised obj := by
  intro fields hwithin f hf hkey
  obtain ⟨path, hclassify⟩ := h fields hwithin f hf
  exact denySafe_of_classify hclassify hkey

/--
By its name alone an administrative field is an authority field.
-/
theorem authorityName_of_administrativeBoolean {key : String}
    (h : administrativeBoolean key = true) : authorityName key = true := by
  simp only [administrativeBoolean, administrativeAllowBooleanFields, decide_eq_true_eq,
    List.mem_cons, List.not_mem_nil, or_false] at h
  rcases h with h | h
  . simp only [authorityName, h]
    decide
  . simp only [authorityName, h]
    decide

theorem denySafeFields_authorityName {obj : JsonObject} (h : Classified obj)
    : DenySafeFields authorityName obj ↔
        EveryField (fun key item => administrativeBoolean key = true → item ≠ .bool true)
          (.obj obj) := by
  refine forall₄_congr fun fields hwithin f hf => ?_
  obtain ⟨path, hclassify⟩ := h fields hwithin f hf
  constructor
  . intro hdeny hadministrative heq
    rcases hdeny (authorityName_of_administrativeBoolean hadministrative) with hfalse | ⟨s, -, hs⟩
    . rw [heq] at hfalse
      cases hfalse
    . rw [heq] at hs
      cases hs
  . intro hgrant hname
    cases hadministrative : administrativeBoolean f.1 with
    | true =>
      obtain ⟨b, hb⟩ := bool_of_classify hclassify hadministrative
      cases b with
      | true => exact absurd hb (hgrant hadministrative)
      | false => exact .inl hb
    | false =>
      have hstatus : administrativeStatus f.1 = false := by
        cases hstatus : administrativeStatus f.1 with
        | false => rfl
        | true =>
          rw [not_authorityName_of_status hstatus] at hname
          cases hname
      apply denySafe_of_classify hclassify
      rw [recognised, hadministrative, hstatus, hname]
      rfl

section unhashable

def unhashableReceipt : JsonObject :=
  [("decisions", .arr [.arr []]), ("protocol_id", .str protocolId),
    ("receipt_index", .int currentReceiptIndex),
    ("safety_state", .obj [("decomposition_execution_count", .int 0),
      ("edge_status", .str "EDGE_UNPROVEN"), ("live_integration_authorized", .bool false),
      ("live_status", .str "BLOCK_LIVE_INTEGRATION"), ("paper_trade_authorized", .bool false),
      ("scientific_use_authorized", .bool false)]), ("task_id", .str taskId)]

def documentOf (path : String) (obj : JsonObject) : LegacyDocument :=
  ⟨path, utf8Bytes (JsonValue.obj obj).canonicalJsonDumps⟩

def unhashableDocument : LegacyDocument :=
  documentOf "receipts/0034.json" unhashableReceipt

def activePointer : JsonObject :=
  [("control_kind", .str "qnty_active_task_pointer"),
    ("handoff_receipt_path", .str unhashableDocument.path),
    ("handoff_receipt_sha256", .str (sha256Bytes unhashableDocument.raw)),
    ("protocol_id", .str protocolId), ("task_id", .str taskId)]

/--
A receipt among whose decisions is a list.
-/
def unhashablePacket : Packet where
  activeTask := documentOf "docs/control/active_task.json" activePointer
  sourceReceipt := unhashableDocument
  amendments := []
  sourceHeadCommit := "0000000000000000000000000000000000000000"

theorem room_of_default : 16 ≤ 1000 := by
  decide

def defaultInterpreter : Json.Interpreter :=
  ⟨1000, 1000, room_of_default⟩

def noFloat (_ : List Char) : JsonValue :=
  .nan

theorem sorted_unhashable : (JsonValue.obj unhashableReceipt).sortKeys = .obj unhashableReceipt := by
  rfl

theorem sorted_active : (JsonValue.obj activePointer).sortKeys = .obj activePointer := by
  rfl

theorem readable_flat {hooks : Json.Hooks ControlError} {depth : ℕ} {fields : JsonObject}
    (hpairs : hooks.pairs fields = .ok fields)
    (h : fields.Forall fun f => Json.Readable hooks depth f.2)
    : Json.Readable hooks (depth + 1) (.obj fields) :=
  .obj depth fields hpairs (List.forall_iff_forall_mem.mp h)

theorem load_documentOf {path label : String} {obj : JsonObject} (depth : ℕ)
    (hpath : isSafePath path = true)
    (hread : Json.Readable (ControlState.strictHooks defaultInterpreter noFloat
      (.legacyAdapter "DUPLICATE_LEGACY_KEY" label)) depth (.obj obj)) (hdepth : depth ≤ 1000)
    (hsorted : (JsonValue.obj obj).sortKeys = .obj obj)
    : load defaultInterpreter noFloat (documentOf path obj) label = .ok obj := by
  have hload := ControlState.loadsStrict_canonical defaultInterpreter noFloat
    (.legacyAdapter "DUPLICATE_LEGACY_KEY" label) (.legacyAdapter "INVALID_LEGACY_JSON" label) hread
    hdepth
  rw [hsorted] at hload
  rw [load, safePath, ensure, documentOf, if_pos hpath, hload]
  rfl

theorem load_unhashable : load defaultInterpreter noFloat unhashableDocument "source_receipt"
    = .ok unhashableReceipt := by
  refine load_documentOf 3 (by decide) (readable_flat rfl ?_) (by decide)
    sorted_unhashable
  refine ⟨.arr 1 _ fun v hv => ?_, .str 2 _, .int 2 _ (by decide), readable_flat rfl ?_, .str 2 _⟩
  . cases List.mem_singleton.mp hv
    exact .arr 0 [] fun _ h => absurd h List.not_mem_nil
  . exact ⟨.int 1 _ (by decide), .str 1 _, .bool 1 _, .str 1 _, .bool 1 _, .bool 1 _⟩

theorem load_active
    : load defaultInterpreter noFloat unhashablePacket.activeTask "active_task"
      = .ok activePointer := by
  refine load_documentOf 1 (by decide) (readable_flat rfl ?_) (by decide) sorted_active
  exact ⟨.str 0 _, .str 0 _, .str 0 _, .str 0 _, .str 0 _⟩

theorem checkIdentity_unhashable
    : checkIdentity unhashablePacket.activeTask activePointer unhashablePacket.sourceReceipt
        unhashableReceipt unhashablePacket.sourceHeadCommit = .ok currentReceiptIndex := by
  refine bind_eq_ok.mpr ⟨(), ensure_ok.mpr rfl, ?_⟩
  refine bind_eq_ok.mpr ⟨"qnty_active_task_pointer", rfl, ?_⟩
  refine bind_eq_ok.mpr ⟨(), ensure_ok.mpr rfl, ?_⟩
  refine bind_eq_ok.mpr ⟨taskId, rfl, ?_⟩
  refine bind_eq_ok.mpr ⟨(), ensure_ok.mpr rfl, ?_⟩
  refine bind_eq_ok.mpr ⟨protocolId, rfl, ?_⟩
  refine bind_eq_ok.mpr ⟨(), ensure_ok.mpr rfl, ?_⟩
  refine bind_eq_ok.mpr ⟨unhashableDocument.path, rfl, ?_⟩
  refine bind_eq_ok.mpr ⟨(), ensure_ok.mpr rfl, ?_⟩
  refine bind_eq_ok.mpr ⟨sha256Bytes unhashableDocument.raw, rfl, ?_⟩
  refine bind_eq_ok.mpr ⟨(), ensure_ok.mpr rfl, ?_⟩
  refine bind_eq_ok.mpr ⟨(), ensure_ok.mpr (by decide), ?_⟩
  refine bind_eq_ok.mpr ⟨taskId, rfl, ?_⟩
  refine bind_eq_ok.mpr ⟨(), ensure_ok.mpr rfl, ?_⟩
  refine bind_eq_ok.mpr ⟨protocolId, rfl, ?_⟩
  refine bind_eq_ok.mpr ⟨(), ensure_ok.mpr rfl, ?_⟩
  refine bind_eq_ok.mpr ⟨currentReceiptIndex, rfl, ?_⟩
  exact bind_eq_ok.mpr ⟨(), ensure_ok.mpr rfl, rfl⟩

end unhashable

end failClosed

end LegacyAdapter

end Quantbot

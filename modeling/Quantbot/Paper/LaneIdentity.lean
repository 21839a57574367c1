import Quantbot.Util.JsonKeys
import Quantbot.Util.MapM
import Quantbot.Util.Sha256

/-!
The identity of an accounting lane, and the config hash that is made of it.
-/

namespace Quantbot

/--
`$` at the rest of a text: at its end, and before a newline that ends it.
-/
def dollar (rest : List Char) : Bool :=
  rest = [] || rest = ['\n']

/--
`re.match` of `^[class]{count}$`
-/
def matchLine (cls : Char → Bool) (count : ℕ → Bool) (s : String) : Bool :=
  (List.range (s.toList.length + 1)).any
    (fun n => count n && (s.toList.take n).all cls && dollar (s.toList.drop n))

section matchLine

variable {cls : Char → Bool} {count : ℕ → Bool} {s : String}

/--
As many characters of the class as asked for, and nothing else.
-/
def Word (cls : Char → Bool) (count : ℕ → Bool) (s : String) : Prop :=
  count s.toList.length = true ∧ ∀ c ∈ s.toList, cls c = true

def EndsInNewline (s t : String) : Prop :=
  s = t ++ "\n"

theorem matchLine_iff
    : matchLine cls count s = true ↔
        Word cls count s ∨ ∃ t, EndsInNewline s t ∧ Word cls count t := by
  simp only [matchLine, List.any_eq_true, List.mem_range, Bool.and_eq_true, List.all_eq_true, dollar,
    Bool.or_eq_true, decide_eq_true_eq]
  constructor
  . rintro ⟨n, hn, ⟨hcount, hall⟩, hrest | hrest⟩
    . have hlength : n = s.toList.length := by
        have hle := List.drop_eq_nil_iff.mp hrest
        omega
      rw [hlength, List.take_length] at hall
      exact .inl ⟨hlength ▸ hcount, hall⟩
    . refine .inr ⟨String.ofList (s.toList.take n), ?_, ?_⟩
      . rw [EndsInNewline, ← String.toList_inj, String.toList_append, String.toList_ofList]
        exact (List.take_append_drop n s.toList).symm.trans (by rw [hrest]; rfl)
      . rw [Word, String.toList_ofList, List.length_take, Nat.min_eq_left (by omega)]
        exact ⟨hcount, hall⟩
  . rintro (⟨hcount, hall⟩ | ⟨t, ht, hcount, hall⟩)
    . refine ⟨s.toList.length, by omega, ⟨hcount, ?_⟩, .inl List.drop_length⟩
      rwa [List.take_length]
    . have hlist : s.toList = t.toList ++ ['\n'] := by
        rw [ht, String.toList_append]
        rfl
      refine ⟨t.toList.length, ?_, ⟨hcount, ?_⟩, .inr ?_⟩
      . rw [hlist, List.length_append]
        omega
      . rwa [hlist, List.take_left]
      . rw [hlist, List.drop_left]

/--
A class without the newline tells a word from a word and a newline.
-/
theorem Word.not_endsInNewline (hs : Word cls count s) (hnewline : cls '\n' = false) (t : String)
    : ¬EndsInNewline s t := by
  intro h
  have hmem : '\n' ∈ s.toList := by
    rw [h, String.toList_append]
    exact List.mem_append_right _ List.mem_cons_self
  rw [hs.2 _ hmem] at hnewline
  cases hnewline

end matchLine

namespace Lane

/--
Why an identifier or a digest is refused.
-/
inductive Refusal where
  | empty (fieldName : String)
  | characters (fieldName : String)
  | traversal (fieldName : String)
  | meaningless (fieldName : String)
  | baseline
  | digest (fieldName : String)
deriving DecidableEq

def baselineLaneId : String :=
  "paper_pnl_v1"

/--
`[a-z0-9._-]`
-/
def identChar (c : Char) : Bool :=
  c.isLower || c.isDigit || c = '.' || c = '_' || c = '-'

/--
`[0-9a-f]`
-/
def hexChar (c : Char) : Bool :=
  c.isDigit || ('a' ≤ c && c ≤ 'f')

def hasTraversal (value : String) : Bool :=
  decide (['.', '.'] <:+: value.toList)

def validateIdentifier (value fieldName : String) : Except Refusal String :=
  if value = "" then
    .error (.empty fieldName)
  else if !matchLine identChar (fun n => 1 ≤ n) value then
    .error (.characters fieldName)
  else if hasTraversal value then
    .error (.traversal fieldName)
  else if value ∈ [".", "-", "_"] then
    .error (.meaningless fieldName)
  else
    .ok value

def validateLaneId (value : String) : Except Refusal String := do
  let laneId ← validateIdentifier value "lane_id"
  if laneId = baselineLaneId then .error .baseline else .ok laneId

def validateStrategyId (value : String) : Except Refusal String :=
  validateIdentifier value "strategy_id"

def validateStrategyVersion (value : String) : Except Refusal String :=
  validateIdentifier value "strategy_version"

def validateSha256 (value fieldName : String) : Except Refusal String :=
  if matchLine hexChar (fun n => n = 64) value then .ok value else .error (.digest fieldName)

def validateOptionalSha256 (value : Option String) (fieldName : String)
    : Except Refusal (Option String) :=
  match value with
  | none => .ok none
  | some value => do
    let value ← validateSha256 value fieldName
    .ok (some value)

/--
An identity that has been validated.
-/
structure LaneIdentity where
  laneId : String
  strategyId : String
  strategyVersion : String
  sourceDataDigest : Option String
  preRegistrationHash : Option String
  lane : validateLaneId laneId = .ok laneId
  strategy : validateStrategyId strategyId = .ok strategyId
  version : validateStrategyVersion strategyVersion = .ok strategyVersion
  digest : validateOptionalSha256 sourceDataDigest "source_data_digest" = .ok sourceDataDigest
  registration : validateOptionalSha256 preRegistrationHash "pre_registration_hash"
    = .ok preRegistrationHash

def configHashVersion : ℤ :=
  2

def validateV1Hash (accountingConfigHashV1 : String) : Except Refusal String :=
  validateSha256 accountingConfigHashV1 "accounting_config_hash_v1"

def payload (v1 : String) (identity : LaneIdentity) : JsonValue :=
  .obj [("config_hash_version", .int configHashVersion),
    ("accounting_config_hash_v1", .str v1),
    ("lane_identity", .obj [("lane_id", .str identity.laneId),
      ("strategy_id", .str identity.strategyId),
      ("strategy_version", .str identity.strategyVersion)])]

def configHashV2Payload (accountingConfigHashV1 : String) (identity : LaneIdentity)
    : Except Refusal JsonValue := do
  let v1 ← validateV1Hash accountingConfigHashV1
  .ok (payload v1 identity)

def configHashV2Text (accountingConfigHashV1 : String) (identity : LaneIdentity)
    : Except Refusal String := do
  let payload ← configHashV2Payload accountingConfigHashV1 identity
  .ok payload.canonicalJsonDumps

def configHashV2 (accountingConfigHashV1 : String) (identity : LaneIdentity)
    : Except Refusal String := do
  let text ← configHashV2Text accountingConfigHashV1 identity
  .ok (String.ofList (Sha256.hexdigest text))

section grammar

variable {s : String}

/--
At least one character of the class, and no `..`
-/
def Identifier (s : String) : Prop :=
  Word identChar (fun n => 1 ≤ n) s ∧ ¬['.', '.'] <:+: s.toList

/--
What a lane id is meant to be.
-/
def LaneId (s : String) : Prop :=
  s ≠ "" ∧ (∀ c ∈ s.toList, identChar c = true) ∧ ¬['.', '.'] <:+: s.toList
    ∧ s ∉ [".", "-", "_"] ∧ s ≠ baselineLaneId

def HexDigest (s : String) : Prop :=
  s.toList.length = 64 ∧ ∀ c ∈ s.toList, hexChar c = true

theorem laneId_iff : LaneId s ↔ Identifier s ∧ s ∉ [".", "-", "_"] ∧ s ≠ baselineLaneId := by
  have hlength : (1 ≤ s.toList.length) ↔ s ≠ "" := by
    rw [Nat.one_le_iff_ne_zero, ne_eq, List.length_eq_zero_iff, ne_eq, String.toList_eq_nil_iff]
  simp only [LaneId, Identifier, Word, decide_eq_true_eq, hlength]
  tauto

theorem validateIdentifier_eq_ok {fieldName t : String}
    : validateIdentifier s fieldName = .ok t ↔
        t = s ∧ s ≠ "" ∧ matchLine identChar (fun n => 1 ≤ n) s = true
          ∧ ¬['.', '.'] <:+: s.toList ∧ s ∉ [".", "-", "_"] := by
  unfold validateIdentifier hasTraversal
  split
  . exact iff_of_false (fun h => by cases h) (fun h => h.2.1 (by assumption))
  . split
    . rename_i hmatch
      refine iff_of_false (fun h => by cases h) (fun h => ?_)
      rw [h.2.2.1] at hmatch
      cases hmatch
    . split
      . rename_i hdots
        exact iff_of_false (fun h => by cases h) (fun h => h.2.2.2.1 (of_decide_eq_true hdots))
      . split
        . exact iff_of_false (fun h => by cases h) (fun h => h.2.2.2.2 (by assumption))
        . rename_i hne hmatch hdots hmeaning
          rw [Bool.not_eq_true', Bool.not_eq_false] at hmatch
          rw [Except.ok.injEq, eq_comm]
          refine (and_iff_left ?_).symm
          exact ⟨hne, hmatch, fun h => hdots (decide_eq_true h), hmeaning⟩

theorem validateLaneId_eq_ok
    : validateLaneId s = .ok s ↔
        s ≠ "" ∧ matchLine identChar (fun n => 1 ≤ n) s = true ∧ ¬['.', '.'] <:+: s.toList
          ∧ s ∉ [".", "-", "_"] ∧ s ≠ baselineLaneId := by
  rw [validateLaneId, bind_eq_ok]
  constructor
  . rintro ⟨t, ht, h⟩
    obtain ⟨rfl, hne, hmatch, hdots, hmeaning⟩ := validateIdentifier_eq_ok.mp ht
    split at h
    . cases h
    . exact ⟨hne, hmatch, hdots, hmeaning, by assumption⟩
  . rintro ⟨hne, hmatch, hdots, hmeaning, hbaseline⟩
    exact ⟨s, validateIdentifier_eq_ok.mpr ⟨rfl, hne, hmatch, hdots, hmeaning⟩, if_neg hbaseline⟩

/--
What follows a text and a newline is never one of the texts that are refused by name.
-/
theorem endsInNewline_accepted {t : String} (h : EndsInNewline s t) (ht : Identifier t)
    : validateLaneId s = .ok s := by
  have hlist : s.toList = t.toList ++ ['\n'] := by
    rw [h, String.toList_append]
    rfl
  have hmem : '\n' ∈ s.toList := by
    rw [hlist]
    exact List.mem_append_right _ List.mem_cons_self
  have hother (u : String) (hu : '\n' ∉ u.toList) : s ≠ u := by
    rintro rfl
    exact hu hmem
  refine validateLaneId_eq_ok.mpr ⟨hother _ (by decide), matchLine_iff.mpr (.inr ⟨t, h, ht.1⟩), ?_, ?_,
    hother _ (by decide)⟩
  . rw [hlist]
    intro hdots
    rcases List.infix_concat_iff.mp hdots with hsuffix | hinfix
    . have hlast := hsuffix.getLast (by simp)
      simp at hlast
    . exact ht.2 hinfix
  . simp only [List.mem_cons, List.not_mem_nil, or_false, not_or]
    exact ⟨hother _ (by decide), hother _ (by decide), hother _ (by decide)⟩

theorem validateLaneId_iff
    : validateLaneId s = .ok s ↔ LaneId s ∨ ∃ t, EndsInNewline s t ∧ Identifier t := by
  constructor
  . intro h
    obtain ⟨hne, hmatch, hdots, hmeaning, hbaseline⟩ := validateLaneId_eq_ok.mp h
    rcases matchLine_iff.mp hmatch with hword | ⟨t, ht, hword⟩
    . exact .inl (laneId_iff.mpr ⟨⟨hword, hdots⟩, hmeaning, hbaseline⟩)
    . refine .inr ⟨t, ht, hword, fun hinfix => hdots ?_⟩
      rw [ht, String.toList_append]
      exact hinfix.trans (List.prefix_append _ _).isInfix
  . rintro (h | ⟨t, h, ht⟩)
    . obtain ⟨⟨hword, hdots⟩, hmeaning, hbaseline⟩ := laneId_iff.mp h
      exact validateLaneId_eq_ok.mpr ⟨h.1, matchLine_iff.mpr (.inl hword), hdots, hmeaning, hbaseline⟩
    . exact endsInNewline_accepted h ht

theorem hexDigest_iff : Word hexChar (fun n => n = 64) s ↔ HexDigest s := by
  simp only [Word, HexDigest, decide_eq_true_eq]

theorem validateOptionalSha256_iff {fieldName : String}
    : validateOptionalSha256 (some s) fieldName = .ok (some s) ↔
        HexDigest s ∨ ∃ t, EndsInNewline s t ∧ HexDigest t := by
  have hmatch : validateOptionalSha256 (some s) fieldName = .ok (some s) ↔
      matchLine hexChar (fun n => n = 64) s = true := by
    simp only [validateOptionalSha256, validateSha256]
    split_ifs with h
    . exact iff_of_true rfl h
    . exact iff_of_false (fun heq => by cases heq) h
  simp only [hmatch, matchLine_iff, hexDigest_iff]

end grammar

section payload

variable {v1 v1' : String} {identity identity' : LaneIdentity}

theorem sortKeys_payload
    : (payload v1 identity).sortKeys
      = .obj [("accounting_config_hash_v1", .str v1), ("config_hash_version", .int configHashVersion),
          ("lane_identity", .obj [("lane_id", .str identity.laneId),
            ("strategy_id", .str identity.strategyId),
            ("strategy_version", .str identity.strategyVersion)])] := by
  simp [payload, JsonValue.sortKeys, JsonValue.sortFields, List.insertionSort, List.orderedInsert,
    JsonValue.keyLe]

theorem configHashV2Text_eq (h : validateV1Hash v1 = .ok v1)
    : configHashV2Text v1 identity = .ok (payload v1 identity).canonicalJsonDumps := by
  rw [configHashV2Text, configHashV2Payload, h]
  rfl

/--
The text tells the fields of the payload apart.
-/
theorem payload_inj (h : (payload v1 identity).canonicalJsonDumps
      = (payload v1' identity').canonicalJsonDumps)
    : v1 = v1' ∧ identity.laneId = identity'.laneId ∧ identity.strategyId = identity'.strategyId
        ∧ identity.strategyVersion = identity'.strategyVersion := by
  have hsame := JsonValue.canonicalJsonDumps_inj h
  rw [sortKeys_payload, sortKeys_payload] at hsame
  obtain ⟨_, hl, hfields⟩ := hsame.fields
  cases hl
  cases hfields with
  | cons _ hv1 hrest =>
  cases hrest with
  | cons _ _ hrest =>
  cases hrest with
  | cons _ hidentity _ =>
  obtain ⟨_, hl, hfields⟩ := hidentity.fields
  cases hl
  cases hfields with
  | cons _ hlane hrest =>
  cases hrest with
  | cons _ hstrategy hrest =>
  cases hrest with
  | cons _ hversion _ =>
  exact ⟨JsonValue.str.inj hv1.eq_str, JsonValue.str.inj hlane.eq_str,
    JsonValue.str.inj hstrategy.eq_str, JsonValue.str.inj hversion.eq_str⟩

end payload

/--
An identifier or a digest is accepted as its grammar says, unless one that is well formed has a
newline after it. The payload always tells two lanes apart.
-/
theorem lane_grammar_iff (s fieldName : String)
    : ((validateLaneId s = .ok s ↔ LaneId s) ↔ ¬∃ t, EndsInNewline s t ∧ Identifier t)
      ∧ ((validateOptionalSha256 (some s) fieldName = .ok (some s) ↔ HexDigest s) ↔
          ¬∃ t, EndsInNewline s t ∧ HexDigest t)
      ∧ ∀ v1 v1' : String, validateV1Hash v1 = .ok v1 → validateV1Hash v1' = .ok v1' →
          ∀ identity identity' : LaneIdentity,
            (configHashV2Text v1 identity = configHashV2Text v1' identity' ↔
              v1 = v1' ∧ identity.laneId = identity'.laneId
                ∧ identity.strategyId = identity'.strategyId
                ∧ identity.strategyVersion = identity'.strategyVersion) := by
  refine ⟨?_, ?_, ?_⟩
  . rw [validateLaneId_iff]
    constructor
    . rintro h ⟨t, ht, hident⟩
      have hs := laneId_iff.mp (h.mp (.inr ⟨t, ht, hident⟩))
      exact hs.1.1.not_endsInNewline (by decide) t ht
    . intro h
      exact or_iff_left h
  . rw [validateOptionalSha256_iff]
    constructor
    . rintro h ⟨t, ht, hdigest⟩
      have hs := hexDigest_iff.mpr (h.mp (.inr ⟨t, ht, hdigest⟩))
      exact hs.not_endsInNewline (by decide) t ht
    . intro h
      exact or_iff_left h
  . intro v1 v1' hv1 hv1' identity identity'
    rw [configHashV2Text_eq hv1, configHashV2Text_eq hv1', Except.ok.injEq]
    refine ⟨payload_inj, ?_⟩
    rintro ⟨rfl, hlane, hstrategy, hversion⟩
    rw [payload, payload, hlane, hstrategy, hversion]

/--
The lanes of the examples.
-/
def exampleIdentity (version : String) (h : validateStrategyVersion version = .ok version)
    : LaneIdentity where
  laneId := "shadow-momentum"
  strategyId := "momentum"
  strategyVersion := version
  sourceDataDigest := none
  preRegistrationHash := none
  lane := by decide
  strategy := by decide
  version := h
  digest := rfl
  registration := rfl

def exampleV1Hash : String :=
  String.ofList (List.replicate 64 '0')

theorem lane_grammar_momentum
    : configHashV2Text exampleV1Hash (exampleIdentity "1.0" (by decide))
      ≠ configHashV2Text exampleV1Hash (exampleIdentity "1.1" (by decide)) := by
  have hhash : validateV1Hash exampleV1Hash = .ok exampleV1Hash := by decide
  intro h
  have hagree := ((lane_grammar_iff "shadow-momentum" "source_data_digest").2.2 _ _ hhash hhash _ _).mp h
  exact absurd hagree.2.2.2 (by decide)

/--
The id of the baseline passes with a newline after it.
-/
theorem baseline_impersonated
    : validateLaneId "paper_pnl_v1\n" = .ok "paper_pnl_v1\n" ∧ ¬LaneId "paper_pnl_v1\n" := by
  refine ⟨by decide, fun h => ?_⟩
  exact absurd (h.2.1 '\n' (by decide)) (by decide)

end Lane

end Quantbot

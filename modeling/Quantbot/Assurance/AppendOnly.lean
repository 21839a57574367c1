import Quantbot.Assurance.Ledger
import Quantbot.Util.Avoids

/-!
A ledger that is only appended to keeps its entries, and what is refused is refused by the
module's own exception unless a text cannot be read at all.
-/

namespace Quantbot
namespace Assurance

section ensure

variable {α : Type}

theorem ensure_ok {p : Prop} [Decidable p] {message : String} {u : Unit}
    : ensure p message = .ok u ↔ p := by
  rw [ensure]
  split
  . next hp => exact iff_of_true rfl hp
  . next hp => exact iff_of_false (fun h => by cases h) hp

theorem text_ok {value : JsonValue} {test : String → Bool} {message s : String}
    : text value test message = .ok s ↔ value = .str s ∧ test s = true := by
  cases value with
  | str s' =>
    rw [text, JsonValue.str.injEq]
    split
    . next htest =>
      rw [Except.ok.injEq]
      exact ⟨fun h => ⟨h, h ▸ htest⟩, fun h => h.1⟩
    . next htest =>
      refine iff_of_false (fun h => by cases h) fun h => htest ?_
      rw [h.1]
      exact h.2
  | _ => exact iff_of_false (fun h => by cases h) fun h => by cases h.1

theorem item_ok {obj : JsonObject} {key : String} {v : JsonValue}
    : item obj key = .ok v ↔ obj.lookup key = some v := by
  rw [item]
  cases obj.lookup key with
  | some v' => rw [Except.ok.injEq, Option.some.injEq]
  | none => exact iff_of_false (fun h => by cases h) (fun h => by cases h)

theorem keys_ok {value : JsonValue} {expected : List String} {label : String} {obj : JsonObject}
    : keys value expected label = .ok obj
        ↔ value = .obj obj ∧ (obj.map Prod.fst).Perm expected := by
  cases value with
  | obj fields =>
    rw [keys, bind_eq_ok]
    simp only [ensure_ok, Except.ok.injEq, JsonValue.obj.injEq]
    constructor
    . rintro ⟨-, h, rfl⟩
      exact ⟨rfl, h⟩
    . rintro ⟨rfl, h⟩
      exact ⟨(), h, rfl⟩
  | _ => exact iff_of_false (fun h => by cases h) fun h => by cases h.1

theorem timestamp_text {value : JsonValue} {label : String} {dt : DateTime}
    (h : parseCanonicalUtcTimestamp value label = .ok dt) : ∃ s, value = .str s := by
  obtain ⟨s, hs, -⟩ := bind_eq_ok.mp h
  exact ⟨s, (text_ok.mp hs).1⟩

theorem identifier_text {value : JsonValue} {label s : String}
    (h : identifier value label = .ok s) : value = .str s := by
  obtain ⟨s', hs, hid⟩ := bind_eq_ok.mp h
  rw [(text_ok.mp hs).1]
  exact (text_ok.mp hid).1

end ensure

section entries

/--
An object with the fields of an entry, all of them texts.
-/
structure IsEntry (data : JsonObject) : Prop where
  keys : (data.map Prod.fst).Perm entryKeys
  texts : ∀ k ∈ entryKeys, ∃ s, data.lookup k = some (.str s)

def entryRecordedAt (data : JsonObject) : Option DateTime :=
  (data.lookup "recorded_at_utc").bind
    (fun v => (parseCanonicalUtcTimestamp v "recorded_at_utc").toOption)

theorem entry_ok {frames : ℕ} {value : JsonValue} {data : JsonObject}
    (h : entry frames value = .ok data) : value = .obj data ∧ IsEntry data := by
  obtain ⟨data', hkeys, h⟩ := bind_eq_ok.mp h
  obtain ⟨hvalue, hperm⟩ := keys_ok.mp hkeys
  obtain ⟨entryId, hentryId, h⟩ := bind_eq_ok.mp h
  obtain ⟨_, hentryId', h⟩ := bind_eq_ok.mp h
  obtain ⟨protocolId, hprotocolId, h⟩ := bind_eq_ok.mp h
  obtain ⟨_, hprotocolId', h⟩ := bind_eq_ok.mp h
  obtain ⟨hypothesisId, hhypothesisId, h⟩ := bind_eq_ok.mp h
  obtain ⟨_, hhypothesisId', h⟩ := bind_eq_ok.mp h
  obtain ⟨regionId, hregionId, h⟩ := bind_eq_ok.mp h
  obtain ⟨_, hregionId', h⟩ := bind_eq_ok.mp h
  obtain ⟨kind, hkind, h⟩ := bind_eq_ok.mp h
  obtain ⟨_, hkind', h⟩ := bind_eq_ok.mp h
  obtain ⟨status, hstatus, h⟩ := bind_eq_ok.mp h
  obtain ⟨_, hstatus', h⟩ := bind_eq_ok.mp h
  obtain ⟨path, hpath, h⟩ := bind_eq_ok.mp h
  obtain ⟨_, hpath', h⟩ := bind_eq_ok.mp h
  obtain ⟨digest, hdigest, h⟩ := bind_eq_ok.mp h
  obtain ⟨_, hdigest', h⟩ := bind_eq_ok.mp h
  obtain ⟨start, hstart, h⟩ := bind_eq_ok.mp h
  obtain ⟨_, hstart', h⟩ := bind_eq_ok.mp h
  obtain ⟨stop, hstop, h⟩ := bind_eq_ok.mp h
  obtain ⟨_, hstop', h⟩ := bind_eq_ok.mp h
  obtain ⟨recorded, hrecorded, h⟩ := bind_eq_ok.mp h
  obtain ⟨_, hrecorded', h⟩ := bind_eq_ok.mp h
  obtain ⟨_, -, h⟩ := bind_eq_ok.mp h
  obtain ⟨_, -, h⟩ := bind_eq_ok.mp h
  cases h
  refine ⟨hvalue, hperm, ?_⟩
  have htext {key : String} {v : JsonValue} {s : String} (hitem : item data key = .ok v)
      (hv : v = .str s) : ∃ s, data.lookup key = some (.str s) := ⟨s, hv ▸ item_ok.mp hitem⟩
  simp only [entryKeys, List.forall_mem_cons, List.not_mem_nil, false_implies, implies_true,
    and_true]
  refine ⟨htext hregionId (identifier_text hregionId'), htext hkind (text_ok.mp hkind').1,
    htext hstatus (text_ok.mp hstatus').1, htext hentryId (identifier_text hentryId'),
    htext hhypothesisId (identifier_text hhypothesisId'),
    htext hprotocolId (identifier_text hprotocolId'),
    htext hrecorded (timestamp_text hrecorded').choose_spec,
    htext hstop (timestamp_text hstop').choose_spec,
    htext hstart (timestamp_text hstart').choose_spec,
    htext hpath (text_ok.mp hpath').1, htext hdigest (text_ok.mp hdigest').1⟩

/--
What the loop over the entries keeps is what they hold, and none of them repeats or goes back.
-/
structure Seen.Inv (seen : Seen) : Prop where
  ids : seen.ids = (seen.items.map entryId).reverse
  semantics : seen.semantics = (seen.items.map semanticDisclosureKey).reverse
  entries : ∀ e ∈ seen.items, IsEntry e ∧ (entryRecordedAt e).isSome = true
  latest : ∀ e ∈ seen.items, ∃ t ∈ seen.recordedAt, ∀ t' ∈ entryRecordedAt e, t' ≤ t
  distinctIds : (seen.items.map entryId).Nodup
  distinctSemantics : (seen.items.map semanticDisclosureKey).Nodup
  ordered : seen.items.Pairwise
    (fun e e' => ∀ t ∈ entryRecordedAt e, ∀ t' ∈ entryRecordedAt e', t ≤ t')

theorem Seen.inv_start : Seen.Inv ⟨[], [], [], none⟩ where
  ids := rfl
  semantics := rfl
  entries := fun _ h => absurd h List.not_mem_nil
  latest := fun _ h => absurd h List.not_mem_nil
  distinctIds := List.nodup_nil
  distinctSemantics := List.nodup_nil
  ordered := List.Pairwise.nil

theorem validateLedgerEntry_ok {frames : ℕ} {seen seen' : Seen} {value : JsonValue}
    (h : validateLedgerEntry frames seen value = .ok seen') (hinv : seen.Inv)
    : seen'.Inv ∧ ∃ data, value = .obj data ∧ seen'.items = seen.items ++ [data] := by
  obtain ⟨data, hdata, h⟩ := bind_eq_ok.mp h
  obtain ⟨_, hid, h⟩ := bind_eq_ok.mp h
  obtain ⟨_, hsemantics, h⟩ := bind_eq_ok.mp h
  obtain ⟨v, hv, h⟩ := bind_eq_ok.mp h
  obtain ⟨t, ht, h⟩ := bind_eq_ok.mp h
  obtain ⟨_, horder, h⟩ := bind_eq_ok.mp h
  cases h
  obtain ⟨hvalue, hentry⟩ := entry_ok hdata
  replace hid := ensure_ok.mp hid
  replace hsemantics := ensure_ok.mp hsemantics
  replace horder := ensure_ok.mp horder
  rw [hinv.ids, List.mem_reverse] at hid
  rw [hinv.semantics, List.mem_reverse] at hsemantics
  have hrecorded : entryRecordedAt data = some t := by
    rw [entryRecordedAt, item_ok.mp hv, Option.bind_some, ht]
    rfl
  have hle (e : JsonObject) (he : e ∈ seen.items) (t' : DateTime) (ht' : t' ∈ entryRecordedAt e)
      : t' ≤ t := by
    obtain ⟨latest, hlatest, hall⟩ := hinv.latest e he
    exact (hall t' ht').trans (horder latest hlatest)
  refine ⟨?_, data, hvalue, rfl⟩
  constructor
  . rw [hinv.ids, List.map_append, List.reverse_append]
    rfl
  . rw [hinv.semantics, List.map_append, List.reverse_append]
    rfl
  . intro e he
    rw [List.mem_append, List.mem_singleton] at he
    rcases he with he | rfl
    . exact hinv.entries e he
    . exact ⟨hentry, by rw [hrecorded]; rfl⟩
  . intro e he
    refine ⟨t, rfl, fun t' ht' => ?_⟩
    rw [List.mem_append, List.mem_singleton] at he
    rcases he with he | rfl
    . exact hle e he t' ht'
    . rw [hrecorded] at ht'
      cases ht'
      exact le_rfl
  . rw [List.map_append, List.map_singleton, List.nodup_append]
    refine ⟨hinv.distinctIds, List.nodup_singleton _, fun a ha b hb => ?_⟩
    rw [List.mem_singleton] at hb
    rintro rfl
    exact hid (hb ▸ ha)
  . rw [List.map_append, List.map_singleton, List.nodup_append]
    refine ⟨hinv.distinctSemantics, List.nodup_singleton _, fun a ha b hb => ?_⟩
    rw [List.mem_singleton] at hb
    rintro rfl
    exact hsemantics (hb ▸ ha)
  . rw [List.pairwise_append]
    refine ⟨hinv.ordered, List.pairwise_singleton _ _, fun e he e' he' t₁ ht₁ t₂ ht₂ => ?_⟩
    rw [List.mem_singleton.mp he', hrecorded] at ht₂
    cases ht₂
    exact hle e he t₁ ht₁

theorem foldlM_validateLedgerEntry_ok {frames : ℕ} {seen seen' : Seen} {values : List JsonValue}
    (h : values.foldlM (validateLedgerEntry frames) seen = .ok seen') (hinv : seen.Inv)
    : seen'.Inv ∧ ∃ items, values = items.map .obj ∧ seen'.items = seen.items ++ items := by
  induction values generalizing seen with
  | nil =>
    cases h
    exact ⟨hinv, [], rfl, (List.append_nil _).symm⟩
  | cons value values ih =>
    rw [List.foldlM_cons] at h
    obtain ⟨next, hnext, hrest⟩ := bind_eq_ok.mp h
    obtain ⟨hinv', data, rfl, hitems⟩ := validateLedgerEntry_ok hnext hinv
    obtain ⟨hinv'', items, rfl, hitems'⟩ := ih hrest hinv'
    refine ⟨hinv'', data :: items, rfl, ?_⟩
    rw [hitems', hitems, List.append_assoc, List.singleton_append]

end entries

section ledger

/--
What is claimed of a ledger.
-/
structure Ledger.Sound (ledger : Ledger) : Prop where
  listed : ledger.data.lookup "entries" = some (.arr (ledger.entries.map .obj))
  entries : ∀ e ∈ ledger.entries, IsEntry e ∧ (entryRecordedAt e).isSome = true
  distinctIds : (ledger.entries.map entryId).Nodup
  distinctSemantics : (ledger.entries.map semanticDisclosureKey).Nodup
  ordered : ledger.entries.Pairwise
    (fun e e' => ∀ t ∈ entryRecordedAt e, ∀ t' ∈ entryRecordedAt e', t ≤ t')
  status : ledger.status ∈ ledgerStatuses
  populated : ledger.status = populatedStatus ↔ ledger.entries ≠ []

theorem sound_of_validate {frames : ℕ} {value : JsonValue} {ledger : Ledger}
    (h : validateHoldoutDisclosureLedger frames value = .ok ledger) : ledger.Sound := by
  obtain ⟨data, hkeys, h⟩ := bind_eq_ok.mp h
  obtain ⟨_, -, h⟩ := bind_eq_ok.mp h
  obtain ⟨_, -, h⟩ := bind_eq_ok.mp h
  obtain ⟨_, -, h⟩ := bind_eq_ok.mp h
  obtain ⟨_, -, h⟩ := bind_eq_ok.mp h
  obtain ⟨_, -, h⟩ := bind_eq_ok.mp h
  obtain ⟨status, hstatus, h⟩ := bind_eq_ok.mp h
  obtain ⟨_, -, h⟩ := bind_eq_ok.mp h
  obtain ⟨v, hv, h⟩ := bind_eq_ok.mp h
  obtain ⟨entries, hentries, h⟩ := bind_eq_ok.mp h
  obtain ⟨_, hempty, h⟩ := bind_eq_ok.mp h
  obtain ⟨_, hpopulated, h⟩ := bind_eq_ok.mp h
  obtain ⟨items, hitems, h⟩ := bind_eq_ok.mp h
  cases h
  obtain ⟨seen, hseen, hitems⟩ := bind_eq_ok.mp hitems
  cases hitems
  obtain ⟨hinv, items, hvalues, heq⟩ := foldlM_validateLedgerEntry_ok hseen Seen.inv_start
  rw [List.nil_append] at heq
  have hv' : v = .arr entries := by
    cases v with
    | arr l =>
      cases hentries
      rfl
    | _ => cases hentries
  have hstatus' := (text_ok.mp hstatus).2
  rw [decide_eq_true_eq] at hstatus'
  replace hempty := ensure_ok.mp hempty
  replace hpopulated := ensure_ok.mp hpopulated
  rw [hvalues, ← heq] at hempty hpopulated
  rw [List.isEmpty_map] at hempty hpopulated
  exact {
    listed := by
      rw [item_ok.mp hv, hv', hvalues, ← heq]
    entries := hinv.entries
    distinctIds := hinv.distinctIds
    distinctSemantics := hinv.distinctSemantics
    ordered := hinv.ordered
    status := hstatus'
    populated := by
      constructor
      . intro h hnil
        have hnonempty := hpopulated h
        rw [show seen.items = [] from hnil] at hnonempty
        cases hnonempty
      . intro hne
        rcases List.mem_cons.mp hstatus' with h | h
        . exact absurd (List.isEmpty_iff.mp (hempty h)) hne
        . exact List.mem_singleton.mp h
  }

end ledger

section history

theorem utf8Bytes_inj {s t : String} (h : utf8Bytes s = utf8Bytes t) : s = t := by
  have hdecode := congrArg Json.decodeUtf8 h
  rw [Json.decodeUtf8_utf8Bytes, Json.decodeUtf8_utf8Bytes, Option.some.injEq] at hdecode
  exact String.toList_injective hdecode

theorem map_eq_of_map_eq {α β γ : Type} {f : α → β} {g : α → γ} {l l' : List α}
    (h : l.map f = l'.map f) (hfg : ∀ a, ∀ b ∈ l', f a = f b → g a = g b) : l.map g = l'.map g := by
  induction l' generalizing l with
  | nil =>
    rw [List.map_nil, List.map_eq_nil_iff] at h
    rw [h]
  | cons b l' ih =>
    cases l with
    | nil => cases h
    | cons a l =>
      rw [List.map_cons, List.map_cons, List.cons.injEq] at h
      rw [List.map_cons, List.map_cons, hfg a b List.mem_cons_self h.1,
        ih h.2 fun a c hc => hfg a c (List.mem_cons_of_mem b hc)]

/--
Fields with the same text and texts for values are the same fields.
-/
theorem eq_of_sameFields {l l' : JsonObject} (h : JsonValue.SameFields l l')
    (htexts : ∀ f ∈ l', ∃ s, f.2 = .str s) : l = l' := by
  induction l' generalizing l with
  | nil =>
    cases h
    rfl
  | cons f l' ih =>
    cases h with
    | cons k hv hl =>
      obtain ⟨s, hs⟩ := htexts _ List.mem_cons_self
      dsimp only at hs
      subst hs
      rw [hv.eq_str, ih hl fun g hg => htexts g (List.mem_cons_of_mem _ hg)]

theorem IsEntry.mem_text {data : JsonObject} (h : IsEntry data) {f : String × JsonValue}
    (hf : f ∈ data) : ∃ s, f.2 = .str s := by
  have hnodup : (data.map Prod.fst).Nodup := h.keys.nodup_iff.mpr (by decide)
  obtain ⟨s, hs⟩ := h.texts f.1 (h.keys.mem_iff.mp (List.mem_map_of_mem hf))
  rw [JsonValue.lookup_of_mem hnodup hf, Option.some.injEq] at hs
  exact ⟨s, hs⟩

/--
Entries with the same canonical bytes are the same JSON value.
-/
theorem IsEntry.eq_of_bytes {data data' : JsonObject} (h' : IsEntry data')
    (hbytes : canonicalJsonBytes (.obj data) = canonicalJsonBytes (.obj data'))
    : (JsonValue.obj data).sortKeys = (JsonValue.obj data').sortKeys := by
  have hsame := JsonValue.canonicalJsonDumps_inj (utf8Bytes_inj hbytes)
  rw [JsonValue.sortKeys, JsonValue.sortKeys] at hsame ⊢
  obtain ⟨l, hl, hfields⟩ := hsame.fields
  rw [hl]
  rw [eq_of_sameFields hfields]
  intro f hf
  obtain ⟨g, hg, rfl⟩ := List.mem_map.mp ((JsonValue.perm_of_sorted rfl).mem_iff.mp hf)
  obtain ⟨s, hs⟩ := h'.mem_text hg
  exact ⟨s, by rw [hs]; rfl⟩

/--
The entries as JSON values, in which the order of the keys does not count.
-/
def Ledger.values (ledger : Ledger) : List JsonValue :=
  ledger.entries.map (fun e => (JsonValue.obj e).sortKeys)

theorem prefixed_values {before after : Ledger} (hbefore : before.Sound)
    (h : sameEntries before.entries after.entries = true) : before.values <+: after.values := by
  rw [sameEntries, Bool.and_eq_true, decide_eq_true_eq, decide_eq_true_eq] at h
  obtain ⟨hlength, hbytes⟩ := h
  have hvalues : (after.entries.take before.entries.length).map
      (fun e => (JsonValue.obj e).sortKeys) = before.values :=
    map_eq_of_map_eq hbytes fun e e' he' heq => (hbefore.entries e' he').1.eq_of_bytes heq
  rw [← hvalues]
  exact (List.take_prefix _ _).map _

variable {i : Json.Interpreter} {float : List Char → JsonValue}

theorem sound_of_loadLedger {raw : Bytes} {ledger : Ledger}
    (h : loadLedger i float raw = .ok ledger) : ledger.Sound := by
  obtain ⟨v, -, h⟩ := bind_eq_ok.mp h
  obtain ⟨_, -, h⟩ := bind_eq_ok.mp h
  exact sound_of_validate h

/--
An accepted append is of one sound ledger to another, and keeps the entries.
-/
theorem append_ok {previous candidate : Bytes} {ledger : Ledger}
    (h : validateLedgerAppend i float (.bytes previous) (.bytes candidate) = .ok ledger)
    : loadLedger i float candidate = .ok ledger
      ∧ ∃ before, loadLedger i float previous = .ok before ∧ before.values <+: ledger.values := by
  obtain ⟨before, hbefore, h⟩ := bind_eq_ok.mp h
  obtain ⟨after, hafter, h⟩ := bind_eq_ok.mp h
  obtain ⟨_, hsame, h⟩ := bind_eq_ok.mp h
  obtain ⟨_, -, h⟩ := bind_eq_ok.mp h
  obtain ⟨_, -, h⟩ := bind_eq_ok.mp h
  cases h
  exact ⟨hafter, before, hbefore,
    prefixed_values (sound_of_loadLedger hbefore) (ensure_ok.mp hsame)⟩

/--
Every two neighbours of a history have been accepted as an append.
-/
def Appended (i : Json.Interpreter) (float : List Char → JsonValue) (b : ℕ → Bytes) (n : ℕ)
    : Prop :=
  ∀ k < n, ∃ ledger, validateLedgerAppend i float (.bytes (b k)) (.bytes (b (k + 1))) = .ok ledger

theorem Appended.load {b : ℕ → Bytes} {n : ℕ} (h : Appended i float b n) (hn : 0 < n) {k : ℕ}
    (hk : k ≤ n) : ∃ ledger, loadLedger i float (b k) = .ok ledger := by
  cases k with
  | zero =>
    obtain ⟨_, h⟩ := h 0 hn
    obtain ⟨-, before, hbefore, -⟩ := append_ok h
    exact ⟨before, hbefore⟩
  | succ k =>
    obtain ⟨ledger, h⟩ := h k hk
    exact ⟨ledger, (append_ok h).1⟩

/--
The entries of an earlier ledger are a prefix of those of every later one.
-/
theorem Appended.prefixed {b : ℕ → Bytes} {n : ℕ} (h : Appended i float b n) {k l : ℕ}
    {earlier later : Ledger} (hkl : k ≤ l) (hl : l ≤ n)
    (hearlier : loadLedger i float (b k) = .ok earlier)
    (hlater : loadLedger i float (b l) = .ok later) : earlier.values <+: later.values := by
  induction l, hkl using Nat.le_induction generalizing later with
  | base =>
    rw [hearlier] at hlater
    cases hlater
    exact List.prefix_rfl
  | succ l hkl ih =>
    obtain ⟨ledger, happend⟩ := h l hl
    obtain ⟨hload, before, hbefore, hprefix⟩ := append_ok happend
    rw [hlater] at hload
    cases hload
    exact (ih (by omega) hbefore).trans hprefix

end history

section clean

def IsEscaped : AssuranceError → Prop
  | .validation _ => False
  | .escaped _ => True

/--
No exception but `AssuranceValidationError`.
-/
def Clean {α : Type} (x : Except AssuranceError α) : Prop :=
  Avoids IsEscaped x

variable {α β : Type}

theorem clean_ok (a : α) : Clean (.ok a) :=
  avoids_ok a

theorem clean_fail (message : String) : Clean (α := α) (fail message) :=
  avoids_error_iff.mpr fun h => h

theorem not_clean_escaped (e : PyError) : ¬Clean (α := α) (.error (.escaped e)) :=
  fun h => avoids_error_iff.mp h trivial

theorem clean_bind {x : Except AssuranceError α} {f : α → Except AssuranceError β}
    : Clean (x >>= f) ↔ Clean x ∧ ∀ a, x = .ok a → Clean (f a) :=
  avoids_bind

theorem clean_of_forall {x : Except AssuranceError α} {f : α → Except AssuranceError β}
    (hx : Clean x) (hf : ∀ a, Clean (f a)) : Clean (x >>= f) :=
  avoids_of_forall hx hf

theorem clean_ensure (p : Prop) [Decidable p] (message : String) : Clean (ensure p message) :=
  avoids_ite (fun _ => clean_ok ()) (fun _ => clean_fail message)

theorem clean_text (value : JsonValue) (test : String → Bool) (message : String)
    : Clean (text value test message) := by
  cases value with
  | str s => exact avoids_ite (fun _ => clean_ok s) (fun _ => clean_fail message)
  | _ => exact clean_fail message

theorem clean_keys (value : JsonValue) (expected : List String) (label : String)
    : Clean (keys value expected label) := by
  cases value with
  | obj fields => exact clean_of_forall (clean_ensure _ _) fun _ => clean_ok fields
  | _ => exact clean_fail _

theorem clean_item {data : JsonObject} {expected : List String}
    (h : (data.map Prod.fst).Perm expected) {key : String} (hkey : key ∈ expected)
    : Clean (item data key) := by
  obtain ⟨f, hf, rfl⟩ := List.mem_map.mp (h.mem_iff.mpr hkey)
  rw [item]
  cases hlookup : data.lookup f.1 with
  | some v => exact clean_ok v
  | none =>
    have hne := List.lookup_eq_none_iff.mp hlookup f hf
    simp only [bne_self_eq_false, Bool.false_eq_true] at hne

theorem clean_identifier (value : JsonValue) (label : String) : Clean (identifier value label) :=
  clean_of_forall (clean_text _ _ _) fun _ => clean_text _ _ _

theorem clean_parseCanonicalUtcTimestamp (value : JsonValue) (label : String)
    : Clean (parseCanonicalUtcTimestamp value label) := by
  refine clean_of_forall (clean_text _ _ _) fun s => ?_
  split
  . exact clean_ok _
  . exact clean_fail _

theorem list_ok {value : JsonValue} {label : String} {items : List JsonValue}
    : list value label = .ok items ↔ value = .arr items := by
  cases value with
  | arr items' => rw [list, Except.ok.injEq, JsonValue.arr.injEq]
  | _ => exact iff_of_false (fun h => by cases h) (fun h => by cases h)

theorem clean_list (value : JsonValue) (label : String) : Clean (list value label) := by
  cases value with
  | arr items => exact clean_ok items
  | _ => exact clean_fail _

theorem walkForbidden_field {frames : ℕ} {fields : JsonObject}
    (h : walkForbidden (frames + 1) (.obj fields) = .ok ()) {f : String × JsonValue}
    (hf : f ∈ fields) : walkForbidden frames f.2 = .ok () := by
  obtain ⟨_, -, hwalk⟩ := bind_eq_ok.mp (forM_ok h hf)
  exact hwalk

/--
The walk through a ledger has been through its entries.
-/
theorem walkForbidden_entry {frames : ℕ} {data : JsonObject} {entries : List JsonValue}
    (h : walkForbidden frames (.obj data) = .ok ())
    (hentries : data.lookup "entries" = some (.arr entries)) {e : JsonValue} (he : e ∈ entries)
    : walkForbidden (frames - 2) e = .ok () := by
  cases frames with
  | zero => cases h
  | succ frames =>
    have hlist := walkForbidden_field h (mem_of_lookup hentries)
    cases frames with
    | zero => cases hlist
    | succ frames => exact forM_ok hlist he

theorem clean_entry {frames : ℕ} {value : JsonValue}
    (hwalk : walkForbidden (frames - 2) value = .ok ()) : Clean (entry frames value) := by
  refine clean_bind.mpr ⟨clean_keys _ _ _, fun data hdata => ?_⟩
  obtain ⟨rfl, hperm⟩ := keys_ok.mp hdata
  have hitem {key : String} (h : key ∈ entryKeys) : Clean (item data key) := clean_item hperm h
  refine clean_of_forall (hitem (by decide)) fun v => ?_
  refine clean_of_forall (clean_identifier _ _) fun _ => ?_
  refine clean_of_forall (hitem (by decide)) fun v => ?_
  refine clean_of_forall (clean_identifier _ _) fun _ => ?_
  refine clean_of_forall (hitem (by decide)) fun v => ?_
  refine clean_of_forall (clean_identifier _ _) fun _ => ?_
  refine clean_of_forall (hitem (by decide)) fun v => ?_
  refine clean_of_forall (clean_identifier _ _) fun _ => ?_
  refine clean_of_forall (hitem (by decide)) fun v => ?_
  refine clean_of_forall (clean_text _ _ _) fun _ => ?_
  refine clean_of_forall (hitem (by decide)) fun v => ?_
  refine clean_of_forall (clean_text _ _ _) fun _ => ?_
  refine clean_of_forall (hitem (by decide)) fun v => ?_
  refine clean_of_forall (clean_text _ _ _) fun _ => ?_
  refine clean_of_forall (hitem (by decide)) fun v => ?_
  refine clean_of_forall (clean_text _ _ _) fun _ => ?_
  refine clean_of_forall (hitem (by decide)) fun v => ?_
  refine clean_of_forall (clean_parseCanonicalUtcTimestamp _ _) fun start => ?_
  refine clean_of_forall (hitem (by decide)) fun v => ?_
  refine clean_of_forall (clean_parseCanonicalUtcTimestamp _ _) fun stop => ?_
  refine clean_of_forall (hitem (by decide)) fun v => ?_
  refine clean_of_forall (clean_parseCanonicalUtcTimestamp _ _) fun _ => ?_
  refine clean_of_forall (clean_ensure _ _) fun _ => ?_
  rw [hwalk]
  exact clean_ok data

theorem clean_validateLedgerEntries {frames : ℕ} {entries : List JsonValue}
    (hwalk : ∀ e ∈ entries, walkForbidden (frames - 2) e = .ok ())
    : Clean (validateLedgerEntries frames entries) := by
  refine clean_of_forall (avoids_foldlM (fun seen e he => ?_) _) fun _ => clean_ok _
  refine clean_bind.mpr ⟨clean_entry (hwalk e he), fun data hdata => ?_⟩
  have hperm := (entry_ok hdata).2.keys
  refine clean_of_forall (clean_ensure _ _) fun _ => ?_
  refine clean_of_forall (clean_ensure _ _) fun _ => ?_
  refine clean_of_forall (clean_item hperm (by decide)) fun v => ?_
  refine clean_of_forall (clean_parseCanonicalUtcTimestamp _ _) fun t => ?_
  exact clean_of_forall (clean_ensure _ _) fun _ => clean_ok _

end clean

section failClosed

/--
A document that gets as far as the walk through its fields.
-/
structure LedgerHeader (data : JsonObject) : Prop where
  keys : (data.map Prod.fst).Perm documentKeys
  version : ∃ v, data.lookup "schema_version" = some v ∧ isStr v schemaVersion = true
  kind : ∃ v, data.lookup "document_kind" = some v ∧ isStr v ledgerKind = true
  id : ∃ v, data.lookup "document_id" = some v ∧ isStr v ledgerId = true
  status : ∃ s ∈ ledgerStatuses, data.lookup "status" = some (.str s)

/--
The walk through the document does not run out of calls, if it is taken at all.
-/
def Walkable (frames : ℕ) (value : JsonValue) : Prop :=
  ∀ data, value = .obj data → LedgerHeader data → Clean (walkForbidden frames value)

theorem clean_validate_iff (frames : ℕ) (value : JsonValue)
    : Clean (validateHoldoutDisclosureLedger frames value) ↔ Walkable frames value := by
  constructor
  . rintro h data rfl hheader
    obtain ⟨version, hversion, hversion'⟩ := hheader.version
    obtain ⟨kind, hkind, hkind'⟩ := hheader.kind
    obtain ⟨id, hid, hid'⟩ := hheader.id
    obtain ⟨s, hs, hstatus⟩ := hheader.status
    replace h := (clean_bind.mp h).2 data (keys_ok.mpr ⟨rfl, hheader.keys⟩)
    replace h := (clean_bind.mp h).2 version (item_ok.mpr hversion)
    replace h := (clean_bind.mp h).2 kind (item_ok.mpr hkind)
    replace h := (clean_bind.mp h).2 id (item_ok.mpr hid)
    replace h := (clean_bind.mp h).2 () (ensure_ok.mpr ⟨hversion', hkind', hid'⟩)
    replace h := (clean_bind.mp h).2 (.str s) (item_ok.mpr hstatus)
    replace h := (clean_bind.mp h).2 s (text_ok.mpr ⟨rfl, decide_eq_true hs⟩)
    exact (clean_bind.mp h).1
  . intro h
    refine clean_bind.mpr ⟨clean_keys _ _ _, fun data hdata => ?_⟩
    obtain ⟨rfl, hperm⟩ := keys_ok.mp hdata
    have hitem {key : String} (h : key ∈ documentKeys) : Clean (item data key) :=
      clean_item hperm h
    refine clean_bind.mpr ⟨hitem (by decide), fun version hversion => ?_⟩
    refine clean_bind.mpr ⟨hitem (by decide), fun kind hkind => ?_⟩
    refine clean_bind.mpr ⟨hitem (by decide), fun id hid => ?_⟩
    refine clean_bind.mpr ⟨clean_ensure _ _, fun _ hidentity => ?_⟩
    refine clean_bind.mpr ⟨hitem (by decide), fun status hstatus => ?_⟩
    refine clean_bind.mpr ⟨clean_text _ _ _, fun s hs => ?_⟩
    obtain ⟨rfl, hmem⟩ := text_ok.mp hs
    rw [decide_eq_true_eq] at hmem
    obtain ⟨hversion', hkind', hid'⟩ := ensure_ok.mp hidentity
    have hheader : LedgerHeader data := {
      keys := hperm
      version := ⟨version, item_ok.mp hversion, hversion'⟩
      kind := ⟨kind, item_ok.mp hkind, hkind'⟩
      id := ⟨id, item_ok.mp hid, hid'⟩
      status := ⟨s, hmem, item_ok.mp hstatus⟩
    }
    refine clean_bind.mpr ⟨h data rfl hheader, fun _ hwalk => ?_⟩
    refine clean_bind.mpr ⟨hitem (by decide), fun v hv => ?_⟩
    refine clean_bind.mpr ⟨clean_list _ _, fun entries hentries => ?_⟩
    refine clean_of_forall (clean_ensure _ _) fun _ => ?_
    refine clean_of_forall (clean_ensure _ _) fun _ => ?_
    refine clean_of_forall (clean_validateLedgerEntries fun e he => ?_) fun _ => clean_ok _
    rw [list_ok.mp hentries] at hv
    exact walkForbidden_entry hwalk (item_ok.mp hv) he

variable {i : Json.Interpreter} {float : List Char → JsonValue}

theorem clean_loads_iff {raw : Bytes} : Clean (loads i float raw) ↔ ∃ v, loads i float raw = .ok v
    := by
  constructor
  . intro h
    rw [loads] at h ⊢
    cases hdecode : Json.decodeUtf8 raw with
    | none =>
      rw [hdecode] at h
      exact absurd h (not_clean_escaped _)
    | some chars =>
      rw [hdecode] at h
      dsimp only at h ⊢
      split at h
      . next v hv => exact ⟨v, rfl⟩
      . exact absurd h (not_clean_escaped _)
      . next e he => exact e.elim
      . exact absurd h (not_clean_escaped _)
      . exact absurd h (not_clean_escaped _)
  . rintro ⟨v, hv⟩
    rw [hv]
    exact clean_ok v

/--
The text is UTF-8 and JSON within the limits, and the walk through it stays within them too.
-/
def Contained (i : Json.Interpreter) (float : List Char → JsonValue) (raw : Bytes) : Prop :=
  ∃ v, loads i float raw = .ok v ∧ (canonicalJsonBytes v = raw → Walkable i.frames v)

theorem clean_loadLedger_iff {raw : Bytes}
    : Clean (loadLedger i float raw) ↔ Contained i float raw := by
  rw [loadLedger, clean_bind, clean_loads_iff]
  constructor
  . rintro ⟨⟨v, hv⟩, h⟩
    refine ⟨v, hv, fun hcanonical => ?_⟩
    rw [← clean_validate_iff]
    exact (clean_bind.mp (h v hv)).2 () (ensure_ok.mpr hcanonical)
  . rintro ⟨v, hv, hwalk⟩
    refine ⟨⟨v, hv⟩, fun w hw => ?_⟩
    rw [hv] at hw
    cases hw
    refine clean_bind.mpr ⟨clean_ensure _ _, fun _ hcanonical => ?_⟩
    rw [clean_validate_iff]
    exact hwalk (ensure_ok.mp hcanonical)

/--
Of two byte strings, the first can be read, and so can the second if the first is a ledger.
-/
def Readable (i : Json.Interpreter) (float : List Char → JsonValue) (previous candidate : Argument)
    : Prop :=
  match previous, candidate with
  | .bytes previous, .bytes candidate =>
    Contained i float previous
      ∧ ((∃ before, loadLedger i float previous = .ok before) → Contained i float candidate)
  | _, _ => True

theorem clean_append_iff (previous candidate : Argument)
    : Clean (validateLedgerAppend i float previous candidate)
        ↔ Readable i float previous candidate := by
  match previous, candidate with
  | .other, _ => exact iff_of_true (clean_fail _) trivial
  | .bytes _, .other => exact iff_of_true (clean_fail _) trivial
  | .bytes previous, .bytes candidate =>
    rw [validateLedgerAppend, clean_bind, clean_loadLedger_iff, Readable]
    refine and_congr_right fun _ => ?_
    constructor
    . rintro h ⟨before, hbefore⟩
      exact clean_loadLedger_iff.mp (clean_bind.mp (h before hbefore)).1
    . intro h before hbefore
      refine clean_bind.mpr ⟨clean_loadLedger_iff.mpr (h ⟨before, hbefore⟩), fun after _ => ?_⟩
      refine clean_of_forall (clean_ensure _ _) fun _ => ?_
      refine clean_of_forall (clean_ensure _ _) fun _ => ?_
      exact clean_of_forall (clean_ensure _ _) fun _ => clean_ok after

/--
An empty file raises a `JSONDecodeError`.
-/
theorem loads_nil : loads i float [] = .error (.escaped .valueError) := by
  have hdecode : Json.decodeUtf8 [] = some [] := Json.decodeUtf8_utf8Bytes ""
  have hscan (hooks : Json.Hooks Empty) : Json.loads hooks [] = .error .decodeError := by
    rw [Json.loads, Json.skip, List.dropWhile_nil, Json.scanOnce.eq_def]
    rfl
  rw [loads, hdecode]
  dsimp only
  rw [hscan]

def emptyLedger : JsonObject := [
  ("document_id", .str ledgerId),
  ("document_kind", .str ledgerKind),
  ("entries", .arr []),
  ("schema_version", .str schemaVersion),
  ("status", .str emptyStatus)
]

def exampleInterpreter : Json.Interpreter :=
  ⟨16, 16, le_rfl⟩

def exampleFloat (_ : List Char) : JsonValue :=
  .nan

theorem loads_emptyLedger
    : loads exampleInterpreter exampleFloat (canonicalJsonBytes (.obj emptyLedger))
        = .ok (.obj emptyLedger) := by
  have hsorted : (JsonValue.obj emptyLedger).sortKeys = .obj emptyLedger := rfl
  have hreadable : Json.Readable (Json.plainHooks exampleInterpreter exampleFloat) 16
      (.obj emptyLedger) := by
    refine .obj 15 _ rfl (List.forall_iff_forall_mem.mp ?_)
    exact ⟨.str 15 _, .str 15 _, .arr 14 [] fun _ h => absurd h List.not_mem_nil, .str 15 _,
      .str 15 _⟩
  rw [loads, canonicalJsonBytes, Json.decodeUtf8_utf8Bytes, JsonValue.canonicalJsonDumps,
    String.toList_ofList, hsorted]
  dsimp only
  rw [Json.loads_text _ hreadable]

theorem validate_emptyLedger (frames : ℕ)
    : validateHoldoutDisclosureLedger (frames + 3) (.obj emptyLedger)
        = .ok ⟨emptyLedger, emptyStatus, []⟩ := by
  rfl

theorem appended_emptyLedger
    : Appended exampleInterpreter exampleFloat (fun _ => canonicalJsonBytes (.obj emptyLedger)) 1
    := by
  intro k hk
  have hload : loadLedger exampleInterpreter exampleFloat (canonicalJsonBytes (.obj emptyLedger))
      = .ok ⟨emptyLedger, emptyStatus, []⟩ := by
    rw [loadLedger, loads_emptyLedger, ok_bind, ensure, if_pos rfl, ok_bind]
    exact validate_emptyLedger 13
  refine ⟨⟨emptyLedger, emptyStatus, []⟩, ?_⟩
  rw [validateLedgerAppend, hload]
  rfl

end failClosed

end Assurance
end Quantbot

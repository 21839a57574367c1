import Quantbot.Paper.PublicFunding.Basic
import Quantbot.Util.JsonKeys
import Quantbot.Util.MapM

/-!
When the reconstructed amounts are the exact products of the texts of the fixture.
-/

namespace Quantbot

namespace PublicFunding

open Decimal

/--
The number that a decimal text denotes.
-/
def Denotes (text : String) (x : ℚ) : Prop :=
  (Decimal.ofString text).map Decimal.toRat = some x

/--
The value of a text that denotes a number.
-/
def valueOf (text : String) : ℚ :=
  ((Decimal.ofString text).map Decimal.toRat).getD 0

def exactNotional (fixture : ParsedPublicEconomicFixture) : ℚ :=
  |valueOf fixture.position.signedPositionQuantity| * valueOf fixture.event.fundingMarkPrice
    * valueOf fixture.position.contractMultiplier

def exactTransfer (fixture : ParsedPublicEconomicFixture) : ℚ :=
  -valueOf fixture.position.signedPositionQuantity * valueOf fixture.event.fundingMarkPrice
    * valueOf fixture.event.fundingRate * valueOf fixture.position.contractMultiplier

def directionOf (x : ℚ) : String :=
  if 0 < x then "RECEIVES" else if x < 0 then "PAYS" else "ZERO"

/--
The reconstruction succeeds with the exact amounts and the direction of the exact transfer.
-/
def ReconstructedExactly (fixture : ParsedPublicEconomicFixture) : Prop :=
  ∃ receipt notional transfer, reconstructTransfer fixture = .ok receipt
    ∧ receipt.lookup "calculated_notional" = some (.str notional)
    ∧ Denotes notional (exactNotional fixture)
    ∧ receipt.lookup "calculated_transfer" = some (.str transfer)
    ∧ Denotes transfer (exactTransfer fixture)
    ∧ receipt.lookup "transfer_direction" = some (.str (directionOf (exactTransfer fixture)))

section texts

/--
A calculated amount is written as it is.
-/
theorem denotes_decimalToString {d : Decimal} {n : ℕ} (hn : n ≤ 1000000) (h : Within n d)
    : Denotes (decimalToString d) d.toRat := by
  unfold Denotes decimalToString
  split
  next hzero =>
    rw [toRat_eq_zero.mpr hzero]
    have hread : Decimal.ofString "0" = some .zero := by decide +kernel
    rw [hread]
    simp [Decimal.zero, Decimal.ofInt, toRat, signed]
  next hzero =>
    obtain ⟨hlower, hupper⟩ := h
    have hmax : maxExponent = 999999999999999999 := rfl
    have hmin : minExponent = -1999999999999999997 := rfl
    obtain ⟨r, hr, hvalue⟩ := @ofString_fixed d (by omega) (by omega)
    rw [hr, ← hvalue]
    rfl

theorem transferDirection_eq (d : Decimal) : transferDirection d = directionOf d.toRat := by
  unfold transferDirection directionOf
  have hzero : (Decimal.zero).toRat = 0 := by
    simp [Decimal.zero, Decimal.ofInt, toRat, signed]
  simp only [lt_iff, hzero]

theorem directionOf_congr {x y : ℚ} (h : SignType.sign x = SignType.sign y)
    : directionOf x = directionOf y := by
  unfold directionOf
  have hpos : 0 < x ↔ 0 < y := by rw [← sign_eq_one_iff, ← sign_eq_one_iff, h]
  have hneg : x < 0 ↔ y < 0 := by rw [← sign_eq_neg_one_iff, ← sign_eq_neg_one_iff, h]
  simp only [hpos, hneg]

end texts

section parse

variable {value : String} {reason : Reason} {canonical : Bool} {d : Decimal}

theorem require_eq_ok {condition : Bool} {detail : String} {u : Unit}
    : require condition reason detail = .ok u ↔ condition = true := by
  unfold require reject
  cases condition <;> simp

theorem no_exponent {s : List Char} (h : isPlainDecimalLexeme s = true)
    : ∀ c ∈ s, c ∉ ['e', 'E'] := by
  unfold isPlainDecimalLexeme at h
  split at h
  . cases h
  next first rest =>
    simp only [Bool.and_eq_true, Bool.not_eq_true', List.any_eq_false, decide_eq_true_eq] at h
    exact h.1.2

theorem canonical_representable {n : ℕ} (hn : n ≤ 999990) (hread : Decimal.ofString value = some d)
    (hwithin : Within n d) (hcanonical : canonicalPlainDecimalString d = .ok value)
    : Representable contextPrec d.toRat := by
  unfold canonicalPlainDecimalString at hcanonical
  split at hcanonical
  next hzero =>
    apply representable_of_coeff_lt
    rw [hzero]
    decide
  next hzero =>
    obtain ⟨r, hr, hrwithin, hexact⟩ := normalizeAt_spec (by decide : 0 < contextPrec) hn hwithin
    rw [hr] at hcanonical
    have hfixed : r.fixed = value := by
      have := Except.ok.inj hcanonical
      exact this
    have hmax : maxExponent = 999999999999999999 := rfl
    have hmin : minExponent = -1999999999999999997 := rfl
    have hlower := hrwithin.lower
    have hupper := hrwithin.upper
    obtain ⟨r', hr', hvalue⟩ := @ofString_fixed r (by omega) (by omega)
    rw [hfixed, hread] at hr'
    cases hr'
    exact hexact.mp hvalue.symm

/--
What an admitted text says of its number.
-/
theorem parsePlainDecimal_ok (h : parsePlainDecimal value reason canonical = .ok d)
    : Decimal.ofString value = some d ∧ Within 129 d
      ∧ (canonical = true → Representable contextPrec d.toRat) := by
  unfold parsePlainDecimal at h
  obtain ⟨_, hlength, h⟩ := bind_eq_ok.mp h
  rw [require_eq_ok, decide_eq_true_eq] at hlength
  dsimp only at h
  split at h
  . cases h
  next hlexeme =>
    rw [Bool.not_eq_true, Bool.not_eq_false'] at hlexeme
    split at h
    . cases h
    next parsed hread =>
      have hwithin := ofString_within hread (no_exponent hlexeme)
      unfold decimalLexicalMaxLength at hlength
      have hbound : Within 129 parsed := hwithin.mono (by omega)
      cases canonical with
      | false =>
        cases h
        exact ⟨hread, hbound, fun hfalse => absurd hfalse Bool.false_ne_true⟩
      | true =>
        rw [if_pos rfl] at h
        split at h
        . cases h
        obtain ⟨text, htext, hparsed⟩ := bind_eq_ok.mp h
        split at hparsed
        . cases hparsed
        next hcanonical =>
          rw [ne_eq, not_not] at hcanonical
          subst hcanonical
          cases hparsed
          exact ⟨hread, hbound, fun _ => canonical_representable (by norm_num) hread hbound htext⟩

end parse

section calculate

/--
The amounts are the numbers of the texts, and short enough to stay far from the limits.
-/
structure Admitted (fixture : ParsedPublicEconomicFixture) (a : Amounts) : Prop where
  quantity : a.quantity.toRat = valueOf fixture.position.signedPositionQuantity
  mark : a.mark.toRat = valueOf fixture.event.fundingMarkPrice
  rate : a.rate.toRat = valueOf fixture.event.fundingRate
  multiplier : a.multiplier.toRat = valueOf fixture.position.contractMultiplier
  withinQuantity : Within 129 a.quantity
  withinMark : Within 129 a.mark
  withinRate : Within 129 a.rate
  withinMultiplier : Within 129 a.multiplier
  short : Representable contextPrec a.quantity.toRat

variable {fixture : ParsedPublicEconomicFixture} {a : Amounts}

theorem valueOf_eq {text : String} {d : Decimal} (h : Decimal.ofString text = some d)
    : d.toRat = valueOf text := by
  unfold valueOf
  rw [h]
  rfl

theorem readAmounts_ok (h : readAmounts fixture = .ok a) : Admitted fixture a := by
  unfold readAmounts at h
  obtain ⟨quantity, hquantity, h⟩ := bind_eq_ok.mp h
  obtain ⟨mark, hmark, h⟩ := bind_eq_ok.mp h
  obtain ⟨rate, hrate, h⟩ := bind_eq_ok.mp h
  obtain ⟨multiplier, hmultiplier, h⟩ := bind_eq_ok.mp h
  cases h
  obtain ⟨hquantity, hwithinQuantity, hshort⟩ := parsePlainDecimal_ok hquantity
  obtain ⟨hmark, hwithinMark, -⟩ := parsePlainDecimal_ok hmark
  obtain ⟨hrate, hwithinRate, -⟩ := parsePlainDecimal_ok hrate
  obtain ⟨hmultiplier, hwithinMultiplier, -⟩ := parsePlainDecimal_ok hmultiplier
  exact ⟨valueOf_eq hquantity, valueOf_eq hmark, valueOf_eq hrate, valueOf_eq hmultiplier,
    hwithinQuantity, hwithinMark, hwithinRate, hwithinMultiplier, hshort rfl⟩

/--
What a fixture must have been to be accepted, as far as the amounts go.
-/
theorem validateFixture_ok (h : validateFixture fixture = .ok ())
    : fixture.position.contractMultiplier = "1"
      ∧ ∃ a, readAmounts fixture = .ok a ∧ Decimal.le a.mark .zero = false := by
  unfold validateFixture at h
  obtain ⟨_, -, h⟩ := bind_eq_ok.mp h
  obtain ⟨_, -, h⟩ := bind_eq_ok.mp h
  obtain ⟨_, -, h⟩ := bind_eq_ok.mp h
  obtain ⟨_, -, h⟩ := bind_eq_ok.mp h
  obtain ⟨_, -, h⟩ := bind_eq_ok.mp h
  obtain ⟨_, -, h⟩ := bind_eq_ok.mp h
  obtain ⟨_, hmultiplier, h⟩ := bind_eq_ok.mp h
  obtain ⟨_, -, h⟩ := bind_eq_ok.mp h
  obtain ⟨_, -, h⟩ := bind_eq_ok.mp h
  obtain ⟨_, -, h⟩ := bind_eq_ok.mp h
  obtain ⟨a, ha, h⟩ := bind_eq_ok.mp h
  rw [require_eq_ok, decide_eq_true_eq] at hmultiplier
  rw [require_eq_ok, Bool.not_eq_true'] at h
  exact ⟨hmultiplier, a, ha, h⟩

theorem valueOf_one : valueOf "1" = 1 := by
  have hread : Decimal.ofString "1" = some ⟨false, 1, 0⟩ := by decide +kernel
  rw [← valueOf_eq hread, toRat_mk]
  simp

/--
A product with the multiplier 1 is not rounded again.
-/
theorem mulAt_one {x m : Decimal} {n : ℕ} (hn : n + 129 ≤ 999990) (hx : Within n x)
    (hm : Within 129 m) (hone : m.toRat = 1) (hshort : Representable contextPrec x.toRat)
    : ∃ r, mulAt contextPrec x m = some r ∧ Within (n + 130) r ∧ r.toRat = x.toRat := by
  obtain ⟨r, hr, hwithin, -, -, hexact⟩ := mulAt_spec (by decide : 0 < contextPrec) hn hx hm
  rw [hone, mul_one] at hexact
  exact ⟨r, hr, hwithin, hexact.mpr hshort⟩

/--
The calculation goes through. The notional is exact when the digits suffice for it, and the transfer
is then exact when they also suffice for it.
-/
theorem calculate_spec (h : Admitted fixture a) (hone : fixture.position.contractMultiplier = "1")
    : ∃ c, calculate a = .ok c ∧ Within 1000 c.notional ∧ Within 1000 c.transfer
      ∧ SignType.sign c.transfer.toRat = SignType.sign (exactTransfer fixture)
      ∧ (c.notional.toRat = exactNotional fixture
        ↔ Representable contextPrec (exactNotional fixture))
      ∧ (Representable contextPrec (exactNotional fixture) →
        (c.transfer.toRat = exactTransfer fixture
          ↔ Representable contextPrec (exactTransfer fixture))) := by
  have hp : 0 < contextPrec := by decide
  have hmultiplier : a.multiplier.toRat = 1 := by rw [h.multiplier, hone, valueOf_one]
  unfold exactNotional exactTransfer
  rw [← h.quantity, ← h.mark, ← h.rate, ← h.multiplier, hmultiplier]
  simp only [mul_one]
  obtain ⟨q, hq, hqwithin, hqvalue⟩ := absAt_spec hp (by norm_num) h.withinQuantity h.short
  obtain ⟨n, hn, hnwithin, hnshort, -, hnexact⟩ := mulAt_spec hp (by norm_num) hqwithin h.withinMark
  obtain ⟨notional, hnotional, hwithin, hvalue⟩ :=
    mulAt_one (by norm_num) hnwithin h.withinMultiplier hmultiplier hnshort
  obtain ⟨s, hs, hswithin, hsvalue⟩ := minusAt_spec hp (by norm_num) h.withinQuantity h.short
  obtain ⟨t, ht, htwithin, htshort, htsign, htexact⟩ :=
    mulAt_spec hp (by norm_num) hswithin h.withinMark
  obtain ⟨u, hu, huwithin, hushort, husign, huexact⟩ :=
    mulAt_spec hp (by norm_num) htwithin h.withinRate
  obtain ⟨transfer, htransfer, hwithin', hvalue'⟩ :=
    mulAt_one (by norm_num) huwithin h.withinMultiplier hmultiplier hushort
  rw [hqvalue] at hnexact
  rw [hsvalue] at htsign htexact
  refine ⟨⟨notional, transfer⟩, ?_, ?_, ?_, ?_, ?_, ?_⟩
  . simp only [calculate, hq, hn, hnotional, hs, ht, hu, htransfer, Option.bind_eq_bind,
      Option.bind_some, inContext]
    rfl
  . exact hwithin.mono (by norm_num)
  . exact hwithin'.mono (by norm_num)
  . rw [hvalue', husign, sign_mul, htsign, ← sign_mul]
  . rw [hvalue]
    exact hnexact
  . intro hshort
    have ht' : t.toRat = -a.quantity.toRat * a.mark.toRat := by
      rw [htexact, neg_mul, representable_neg]
      rcases abs_choice a.quantity.toRat with heq | heq
      . rwa [heq] at hshort
      . rwa [heq, neg_mul, representable_neg] at hshort
    rw [hvalue', ← ht']
    exact huexact

end calculate

section verify

variable {fixture : ParsedPublicEconomicFixture} {c : Calculated}

def receiptKeys : List String :=
  ["receipt_id", "receipt_version", "contract_id", "contract_version", "claim_scope",
    "evidence_level", "source_event_identity", "source_raw_sha256", "source_selected_event_sha256",
    "source_receipt_sha256", "venue", "market", "symbol", "funding_time", "funding_time_utc",
    "funding_rate", "funding_mark_price", "rate_type", "signed_position_quantity", "quantity_unit",
    "contract_multiplier", "formula_version", "notional_formula", "transfer_formula",
    "sign_convention", "numeric_policy", "precision_status", "calculated_notional",
    "calculated_transfer", "transfer_direction", "account_posting_status", "implementation_owner",
    "research_state_policy", "non_claims", "verification"]

theorem keys_receiptOf (fixture : ParsedPublicEconomicFixture) (c : Calculated)
    : (receiptOf fixture c).map Prod.fst = receiptKeys := by
  rfl

theorem lookup_receiptOf {key : String} {value : JsonValue}
    (h : (key, value) ∈ receiptOf fixture c) : (receiptOf fixture c).lookup key = some value := by
  apply JsonValue.lookup_of_mem _ h
  rw [keys_receiptOf]
  decide

theorem receiptGet_receiptOf {key : String} {value : JsonValue}
    (h : (key, value) ∈ receiptOf fixture c) : receiptGet (receiptOf fixture c) key = value := by
  unfold receiptGet
  rw [lookup_receiptOf h]
  rfl

theorem rejectBoundaryFields_receiptOf : rejectBoundaryFields (receiptOf fixture c) = .ok () := by
  unfold rejectBoundaryFields
  dsimp only
  rw [require_eq_ok, decide_eq_true_eq, List.filter_eq_nil_iff]
  intro field hfield hsome
  obtain ⟨value, hvalue⟩ := Option.isSome_iff_exists.mp hsome
  have hkey : field ∈ receiptKeys := by
    rw [← keys_receiptOf fixture c]
    exact List.mem_map_of_mem (mem_of_lookup hvalue)
  have hdisjoint : ∀ field ∈ forbiddenScopeFields, field ∉ receiptKeys := by decide
  exact hdisjoint field hfield hkey

theorem requireFields_ok {receipt expected : JsonObject}
    (h : ∀ f ∈ expected, receiptGet receipt f.1 = f.2) : requireFields receipt expected = .ok () := by
  induction expected with
  | nil => rfl
  | cons f expected ih =>
    rw [List.forall_mem_cons] at h
    rw [requireFields, h.1, JsonValue.equals_self]
    exact ih h.2

theorem verifyReceipt_receiptOf {a : Amounts} (ha : readAmounts fixture = .ok a)
    (hc : calculate a = .ok c) : ∃ v, verifyReceipt fixture (receiptOf fixture c) = .ok v := by
  have hfields : requireFields (receiptOf fixture c) (receiptWithoutSelfVerificationDrift fixture)
      = .ok () := by
    apply requireFields_ok
    intro f hf
    apply receiptGet_receiptOf
    unfold receiptWithoutSelfVerificationDrift at hf
    unfold receiptOf
    simp only [List.mem_append] at hf ⊢
    tauto
  have hid : receiptGet (receiptOf fixture c) "receipt_id" = .str (receiptId fixture) := by
    apply receiptGet_receiptOf
    simp [receiptOf]
  have hnotional : receiptGet (receiptOf fixture c) "calculated_notional"
      = .str (decimalToString c.notional) := by
    apply receiptGet_receiptOf
    simp [receiptOf]
  have htransfer : receiptGet (receiptOf fixture c) "calculated_transfer"
      = .str (decimalToString c.transfer) := by
    apply receiptGet_receiptOf
    simp [receiptOf]
  have hdirection : receiptGet (receiptOf fixture c) "transfer_direction"
      = .str (transferDirection c.transfer) := by
    apply receiptGet_receiptOf
    simp [receiptOf]
  have hverification : receiptGet (receiptOf fixture c) "verification"
      = .obj (expectedVerificationMetadata fixture) := by
    apply receiptGet_receiptOf
    simp [receiptOf]
  unfold verifyReceipt
  rw [rejectBoundaryFields_receiptOf, ok_bind, hfields, ok_bind, ha, ok_bind, hc, ok_bind, hid,
    hnotional, htransfer, hdirection, hverification]
  simp only [JsonValue.equals_self]
  exact ⟨_, rfl⟩

end verify

/--
The reconstruction of an accepted fixture succeeds, with the amounts of the calculation.
-/
theorem reconstructTransfer_ok {fixture : ParsedPublicEconomicFixture}
    (h : validateFixture fixture = .ok ())
    : ∃ a c, Admitted fixture a ∧ calculate a = .ok c
      ∧ reconstructTransfer fixture = .ok (receiptOf fixture c)
      ∧ fixture.position.contractMultiplier = "1" := by
  obtain ⟨hone, a, ha, hmark⟩ := validateFixture_ok h
  have hadmitted := readAmounts_ok ha
  obtain ⟨c, hc, -⟩ := calculate_spec hadmitted hone
  obtain ⟨v, hv⟩ := verifyReceipt_receiptOf ha hc
  refine ⟨a, c, hadmitted, hc, ?_, hone⟩
  unfold reconstructTransfer
  rw [h, ok_bind, ha, ok_bind, hmark]
  change (calculate a >>= _) = _
  rw [hc, ok_bind]
  dsimp only
  rw [hv]
  rfl

theorem lookup_amounts (fixture : ParsedPublicEconomicFixture) (c : Calculated)
    : (receiptOf fixture c).lookup "calculated_notional" = some (.str (decimalToString c.notional))
      ∧ (receiptOf fixture c).lookup "calculated_transfer"
        = some (.str (decimalToString c.transfer))
      ∧ (receiptOf fixture c).lookup "transfer_direction"
        = some (.str (transferDirection c.transfer)) := by
  refine ⟨lookup_receiptOf ?_, lookup_receiptOf ?_, lookup_receiptOf ?_⟩ <;> simp [receiptOf]

theorem denotes_inj {text : String} {x y : ℚ} (hx : Denotes text x) (hy : Denotes text y) : x = y :=
  Option.some.inj (hx.symm.trans hy)

/--
Exact amounts need the digits.
-/
theorem representable_of_exact {fixture : ParsedPublicEconomicFixture}
    (h : validateFixture fixture = .ok ()) (hexact : ReconstructedExactly fixture)
    : Representable contextPrec (exactNotional fixture)
      ∧ Representable contextPrec (exactTransfer fixture) := by
  obtain ⟨a, c, hadmitted, hc, hrun, hone⟩ := reconstructTransfer_ok h
  obtain ⟨c', hc', hnotionalWithin, htransferWithin, -, hnotional, htransfer⟩ :=
    calculate_spec hadmitted hone
  cases hc.symm.trans hc'
  obtain ⟨hn, ht, -⟩ := lookup_amounts fixture c
  obtain ⟨receipt, notional, transfer, hreceipt, hlookup, hdenotes, hlookup', hdenotes', -⟩ := hexact
  cases hrun.symm.trans hreceipt
  cases hn.symm.trans hlookup
  cases ht.symm.trans hlookup'
  have hdn := denotes_decimalToString (by norm_num) hnotionalWithin
  have hdt := denotes_decimalToString (by norm_num) htransferWithin
  have hfits := hnotional.mp (denotes_inj hdn hdenotes)
  exact ⟨hfits, (htransfer hfits).mp (denotes_inj hdt hdenotes')⟩

/--
The digits suffice for exact amounts.
-/
theorem exact_of_representable {fixture : ParsedPublicEconomicFixture}
    (h : validateFixture fixture = .ok ())
    (hnotional : Representable contextPrec (exactNotional fixture))
    (htransfer : Representable contextPrec (exactTransfer fixture))
    : ReconstructedExactly fixture := by
  obtain ⟨a, c, hadmitted, hc, hrun, hone⟩ := reconstructTransfer_ok h
  obtain ⟨c', hc', hnotionalWithin, htransferWithin, hsign, hiff, hiff'⟩ :=
    calculate_spec hadmitted hone
  cases hc.symm.trans hc'
  obtain ⟨hn, ht, hd⟩ := lookup_amounts fixture c
  refine ⟨_, _, _, hrun, hn, ?_, ht, ?_, ?_⟩
  . rw [← hiff.mpr hnotional]
    exact denotes_decimalToString (by norm_num) hnotionalWithin
  . rw [← (hiff' hnotional).mpr htransfer]
    exact denotes_decimalToString (by norm_num) htransferWithin
  . rw [hd, transferDirection_eq, directionOf_congr hsign]

/--
An accepted fixture is reconstructed exactly if and only if both products have at most fifty digits.
-/
theorem reconstructedExactly_iff (fixture : ParsedPublicEconomicFixture)
    (h : validateFixture fixture = .ok ())
    : ReconstructedExactly fixture
        ↔ Representable contextPrec (exactNotional fixture)
          ∧ Representable contextPrec (exactTransfer fixture) :=
  ⟨representable_of_exact h, fun hfits => exact_of_representable h hfits.1 hfits.2⟩

section examples

def fixtureOf (quantity mark rate : String) : ParsedPublicEconomicFixture where
  contractId := "PUBLIC_FUNDING"
  contractVersion := "V0"
  claimScope := PublicFunding.claimScope
  sourceRawSha256 := ""
  sourceSelectedEventSha256 := ""
  sourceReceiptSha256 := ""
  event := {
    venue := "binance"
    market := "usdm"
    symbol := "BTCUSDT"
    fundingTime := 1780272000000
    fundingTimeUtc := "2026-06-01T00:00:00Z"
    fundingRate := rate
    fundingMarkPrice := mark
    rateType := "Regular"
    sourceEventIdentity := [("symbol", .str "BTCUSDT"), ("fundingTime", .int 1780272000000),
      ("fundingTimeUtc", .str "2026-06-01T00:00:00Z")]
  }
  position := {
    signedPositionQuantity := quantity
    quantityUnit := "BTC"
    contractMultiplier := "1"
  }
  numericPolicy := "Decimal strings, context precision 50, no binary float"
  signConvention := "positive signed quantity is long"
  requiredNonClaims := PublicFunding.requiredNonClaims

theorem reconstructedExactly_short
    : ReconstructedExactly (fixtureOf "-0.01" "104.5" "0.0001")
        ↔ Representable contextPrec (exactNotional (fixtureOf "-0.01" "104.5" "0.0001"))
          ∧ Representable contextPrec (exactTransfer (fixtureOf "-0.01" "104.5" "0.0001")) :=
  reconstructedExactly_iff (fixtureOf "-0.01" "104.5" "0.0001") (by decide +kernel)

/--
Two numbers of thirty digits: their product has fifty-nine.
-/
theorem long_product_rounded
    : ¬∀ fixture, validateFixture fixture = .ok () → ReconstructedExactly fixture := by
  intro hexact
  have hvalid : validateFixture (fixtureOf "1.00000000000000000000000000001"
      "1.00000000000000000000000000001" "0.0001") = .ok () := by
    decide +kernel
  obtain ⟨hfits, -⟩ := representable_of_exact hvalid (hexact _ hvalid)
  have hread : Decimal.ofString "1.00000000000000000000000000001"
      = some ⟨false, 100000000000000000000000000001, -29⟩ := by
    decide +kernel
  have hvalue : exactNotional (fixtureOf "1.00000000000000000000000000001"
      "1.00000000000000000000000000001" "0.0001")
      = (exactProduct ⟨false, 100000000000000000000000000001, -29⟩
        ⟨false, 100000000000000000000000000001, -29⟩).toRat := by
    simp only [exactNotional, fixtureOf]
    rw [valueOf_one, mul_one, ← valueOf_eq hread, toRat_exactProduct, ← toRat_abs]
  rw [hvalue, representable_iff_dvd (by decide) (by decide +kernel)] at hfits
  revert hfits
  decide +kernel

end examples

end PublicFunding

end Quantbot

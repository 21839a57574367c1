import Quantbot.Util.DecimalContext
import Quantbot.Util.DecimalText
import Quantbot.Util.JsonEqual
import Quantbot.Util.Sha256

/-!
The reconstruction of one public funding transfer in decimal arithmetic.
-/

namespace Quantbot

namespace PublicFunding

def receiptVersion : String :=
  "PUBLIC_ECONOMIC_RECONSTRUCTION_RECEIPT_V0"

def formulaVersion : String :=
  "PUBLIC_FUNDING_ECONOMIC_FORMULA_V0"

def claimVerdict : String :=
  "PROVEN_FOR_PINNED_FIXTURE"

def decimalLexicalMaxLength : ℕ :=
  128

def claimScope : String :=
  "HYPOTHETICAL_PUBLIC_FUNDING_ECONOMIC_RECONSTRUCTION_ONLY"

def evidenceLevel : String :=
  "AUTHORITATIVE_PUBLIC_EVENT_PLUS_SYNTHETIC_POSITION"

def precisionStatus : String :=
  "EXACT_DECIMAL_ECONOMIC_AMOUNT"

def accountPostingStatus : String :=
  "ACCOUNT_POSTING_NOT_APPLICABLE_NO_REAL_POSITION"

def researchStatePolicy : String :=
  "DO_NOT_REGISTER_AS_CANDIDATE_TRIAL_OR_DECISION"

def implementationOwner : String :=
  "QNTY"

def requiredNonClaims : List String :=
  ["not an account receipt",
    "not a real wallet posting",
    "not a real position",
    "not a real trade",
    "not evidence of execution",
    "not evidence of a spot hedge",
    "not evidence of capital efficiency",
    "not evidence of margin survival",
    "not evidence of liquidation survival",
    "not evidence about ADL",
    "not evidence of profitability",
    "not evidence of alpha",
    "not a strategy trial",
    "not a research candidate"]

/--
In the order of the alphabet.
-/
def forbiddenScopeFields : List String :=
  ["account_receipt", "alpha", "candidate_authorization", "profitability", "real_position",
    "real_trade", "strategy_authorization", "trial_authorization", "wallet_balance"]

inductive Reason
  | eventIdentityMismatch
  | symbolMismatch
  | markPriceMissing
  | markPriceNonPositive
  | fundingRateInvalid
  | fundingTimeInvalid
  | rateTypeInvalid
  | quantityInvalid
  | quantityUnitUnresolved
  | contractMultiplierUnresolved
  | signConventionUnresolved
  | numericPolicyViolation
  | receiptIdentityMismatch
  | verificationMetadataMismatch
  | calculatedNotionalMismatch
  | calculatedTransferMismatch
  | qntyExtensionBoundaryUnsafe
deriving DecidableEq

/--
A text, or the Python literal of one.
-/
inductive Detail
  | text (s : String)
  | repr (s : String)
deriving DecidableEq

/--
A `PublicEconomicFixtureError`, or the signal of an overflow.
-/
inductive Failure
  | fixture (reason : Reason) (detail : Detail)
  | overflow
deriving DecidableEq

abbrev Result :=
  Except Failure

def reject {α : Type} (reason : Reason) (detail : String) : Result α :=
  .error (.fixture reason (.text detail))

def require (condition : Bool) (reason : Reason) (detail : String) : Result Unit :=
  if condition then .ok () else reject reason detail

structure PublicFundingEvent where
  venue : String
  market : String
  symbol : String
  fundingTime : ℤ
  fundingTimeUtc : String
  fundingRate : String
  fundingMarkPrice : String
  rateType : String
  sourceEventIdentity : JsonObject

structure SyntheticPosition where
  signedPositionQuantity : String
  quantityUnit : String
  contractMultiplier : String

structure ParsedPublicEconomicFixture where
  contractId : String
  contractVersion : String
  claimScope : String
  sourceRawSha256 : String
  sourceSelectedEventSha256 : String
  sourceReceiptSha256 : String
  event : PublicFundingEvent
  position : SyntheticPosition
  numericPolicy : String
  signConvention : String
  requiredNonClaims : List String

section decimals

/--
The precision of the local context.
-/
def contextPrec : ℕ :=
  50

/--
`str.isdigit`, but for the characters that `Decimal` then rejects with the same error.
-/
def isDigits (s : List Char) : Bool :=
  s ≠ [] && s.all (fun c => (Decimal.asciiDigit c).isDigit)

def isPlainDecimalLexeme (value : List Char) : Bool :=
  match value with
  | [] => false
  | first :: rest =>
    first ≠ '+' && !value.any Decimal.isBlank && !value.any (fun c => c ∈ ['e', 'E']) &&
      match (if first = '-' then rest else value).splitOn '.' with
      | [whole] => isDigits whole
      | [whole, fraction] => isDigits whole && isDigits fraction
      | _ => false

def inContext {α : Type} : Option α → Result α
  | some x => .ok x
  | none => .error .overflow

def decimalToString (value : Decimal) : String :=
  if value.coeff = 0 then "0" else value.fixed

def canonicalPlainDecimalString (value : Decimal) : Result String :=
  if value.coeff = 0 then
    .ok "0"
  else do
    return (← inContext (Decimal.normalizeAt contextPrec value)).fixed

def parsePlainDecimal (value : String) (reason : Reason) (canonical : Bool) : Result Decimal := do
  require (value.length ≤ decimalLexicalMaxLength) reason "decimal string too long"
  if !isPlainDecimalLexeme value.toList then
    .error (.fixture reason (.repr value))
  match Decimal.ofString value with
  | none => .error (.fixture reason (.repr value))
  | some parsed =>
    if canonical then
      if parsed.coeff = 0 ∧ parsed.negative then
        .error (.fixture reason (.repr value))
      if (← canonicalPlainDecimalString parsed) ≠ value then
        .error (.fixture reason (.repr value))
    return parsed

def sourceDecimalFromString (value : String) (reason : Reason) : Result Decimal :=
  parsePlainDecimal value reason false

def canonicalDecimalFromString (value : String) (reason : Reason) : Result Decimal :=
  parsePlainDecimal value reason true

def transferDirection (value : Decimal) : String :=
  if Decimal.lt .zero value then "RECEIVES"
  else if Decimal.lt value .zero then "PAYS"
  else "ZERO"

end decimals

section fixture

variable (fixture : ParsedPublicEconomicFixture)

/--
`source_event_identity.get(key)`
-/
def identityGet (key : String) : JsonValue :=
  (fixture.event.sourceEventIdentity.lookup key).getD .null

/--
The four decimals of the fixture, in the order in which they are read.
-/
structure Amounts where
  quantity : Decimal
  mark : Decimal
  rate : Decimal
  multiplier : Decimal

def readAmounts : Result Amounts := do
  let quantity ←
    canonicalDecimalFromString fixture.position.signedPositionQuantity .quantityInvalid
  let mark ← sourceDecimalFromString fixture.event.fundingMarkPrice .markPriceMissing
  let rate ← sourceDecimalFromString fixture.event.fundingRate .fundingRateInvalid
  let multiplier ←
    canonicalDecimalFromString fixture.position.contractMultiplier .contractMultiplierUnresolved
  return { quantity, mark, rate, multiplier }

def requireNonClaims (nonClaims : List String) : List String → Result Unit
  | [] => .ok ()
  | claim :: rest => do
    require (claim ∈ nonClaims) .qntyExtensionBoundaryUnsafe claim
    requireNonClaims nonClaims rest

def validateFixture : Result Unit := do
  require (fixture.claimScope = claimScope) .eventIdentityMismatch "claim scope"
  require ((JsonValue.str fixture.event.symbol).equals (identityGet fixture "symbol"))
    .symbolMismatch ""
  require ((JsonValue.int fixture.event.fundingTime).equals (identityGet fixture "fundingTime"))
    .fundingTimeInvalid ""
  require
    ((JsonValue.str fixture.event.fundingTimeUtc).equals (identityGet fixture "fundingTimeUtc"))
    .eventIdentityMismatch ""
  require (fixture.event.rateType = "Regular") .rateTypeInvalid ""
  require (fixture.position.quantityUnit = "BTC") .quantityUnitUnresolved ""
  require (fixture.position.contractMultiplier = "1") .contractMultiplierUnresolved ""
  require ("positive signed quantity is long".toList <:+: fixture.signConvention.toList)
    .signConventionUnresolved ""
  require (fixture.numericPolicy = "Decimal strings, context precision 50, no binary float")
    .numericPolicyViolation ""
  requireNonClaims fixture.requiredNonClaims PublicFunding.requiredNonClaims
  let amounts ← readAmounts fixture
  require (!Decimal.le amounts.mark .zero) .markPriceNonPositive ""

/--
The receipt up to its precision status, and after its calculated values. The verifier expects both
as they are.
-/
def receiptHead : JsonObject :=
  [("receipt_version", .str receiptVersion),
    ("contract_id", .str fixture.contractId),
    ("contract_version", .str fixture.contractVersion),
    ("claim_scope", .str fixture.claimScope),
    ("evidence_level", .str evidenceLevel),
    ("source_event_identity", .obj fixture.event.sourceEventIdentity),
    ("source_raw_sha256", .str fixture.sourceRawSha256),
    ("source_selected_event_sha256", .str fixture.sourceSelectedEventSha256),
    ("source_receipt_sha256", .str fixture.sourceReceiptSha256),
    ("venue", .str fixture.event.venue),
    ("market", .str fixture.event.market),
    ("symbol", .str fixture.event.symbol),
    ("funding_time", .int fixture.event.fundingTime),
    ("funding_time_utc", .str fixture.event.fundingTimeUtc),
    ("funding_rate", .str fixture.event.fundingRate),
    ("funding_mark_price", .str fixture.event.fundingMarkPrice),
    ("rate_type", .str fixture.event.rateType),
    ("signed_position_quantity", .str fixture.position.signedPositionQuantity),
    ("quantity_unit", .str fixture.position.quantityUnit),
    ("contract_multiplier", .str fixture.position.contractMultiplier),
    ("formula_version", .str formulaVersion),
    ("notional_formula",
      .str "abs(signed_position_quantity) * funding_mark_price * contract_multiplier"),
    ("transfer_formula", .str ("-signed_position_quantity * funding_mark_price * "
      ++ "finalized_funding_rate * contract_multiplier")),
    ("sign_convention", .str fixture.signConvention),
    ("numeric_policy", .str fixture.numericPolicy),
    ("precision_status", .str precisionStatus)]

def receiptTail : JsonObject :=
  [("account_posting_status", .str accountPostingStatus),
    ("implementation_owner", .str implementationOwner),
    ("research_state_policy", .str researchStatePolicy),
    ("non_claims", .arr (fixture.requiredNonClaims.map .str))]

def receiptWithoutSelfVerificationDrift : JsonObject :=
  receiptHead fixture ++ receiptTail fixture

def identityPayload : JsonObject :=
  [("contract_id", .str fixture.contractId),
    ("contract_version", .str fixture.contractVersion),
    ("claim_scope", .str fixture.claimScope),
    ("source_raw_sha256", .str fixture.sourceRawSha256),
    ("source_selected_event_sha256", .str fixture.sourceSelectedEventSha256),
    ("source_event_identity", .obj fixture.event.sourceEventIdentity),
    ("symbol", .str fixture.event.symbol),
    ("funding_time", .int fixture.event.fundingTime),
    ("funding_rate", .str fixture.event.fundingRate),
    ("funding_mark_price", .str fixture.event.fundingMarkPrice),
    ("rate_type", .str fixture.event.rateType),
    ("signed_position_quantity", .str fixture.position.signedPositionQuantity),
    ("quantity_unit", .str fixture.position.quantityUnit),
    ("contract_multiplier", .str fixture.position.contractMultiplier),
    ("formula_version", .str formulaVersion),
    ("numeric_policy", .str fixture.numericPolicy)]

def receiptId : String :=
  sha256Bytes (utf8Bytes (JsonValue.canonicalJsonDumps (.obj (identityPayload fixture))))

def expectedVerificationMetadata : JsonObject :=
  [("claim_scope", .str fixture.claimScope),
    ("claim_verdict", .str claimVerdict),
    ("reason_codes", .arr []),
    ("source_hashes_verified", .bool true),
    ("source_event_identity_verified", .bool true),
    ("arithmetic_verified", .bool true),
    ("account_posting", .str "NOT_APPLICABLE")]

end fixture

section calculated

structure Calculated where
  notional : Decimal
  transfer : Decimal

/--
`abs(quantity) * mark * multiplier` and `-quantity * mark * rate * multiplier`
-/
def calculate (a : Amounts) : Result Calculated := do
  let notional ← inContext (do
    let x ← Decimal.absAt contextPrec a.quantity
    let x ← Decimal.mulAt contextPrec x a.mark
    Decimal.mulAt contextPrec x a.multiplier)
  let transfer ← inContext (do
    let x ← Decimal.minusAt contextPrec a.quantity
    let x ← Decimal.mulAt contextPrec x a.mark
    let x ← Decimal.mulAt contextPrec x a.rate
    Decimal.mulAt contextPrec x a.multiplier)
  return { notional, transfer }

end calculated

section receipt

def reasonForField (key : String) : Reason :=
  if key = "receipt_id" then .receiptIdentityMismatch
  else if key = "symbol" then .symbolMismatch
  else if key ∈ ["funding_time", "fundingTime"] then .fundingTimeInvalid
  else if key ∈ ["funding_rate", "fundingRate"] then .fundingRateInvalid
  else if key ∈ ["funding_mark_price", "markPrice"] then .markPriceMissing
  else if key ∈ ["rate_type", "rateType"] then .rateTypeInvalid
  else if key = "signed_position_quantity" then .quantityInvalid
  else if key = "quantity_unit" then .quantityUnitUnresolved
  else if key = "contract_multiplier" then .contractMultiplierUnresolved
  else if key = "numeric_policy" then .numericPolicyViolation
  else if key = "calculated_notional" then .calculatedNotionalMismatch
  else if key = "calculated_transfer" then .calculatedTransferMismatch
  else .eventIdentityMismatch

def rejectBoundaryFields (value : JsonObject) : Result Unit :=
  let found := forbiddenScopeFields.filter (fun field => (value.lookup field).isSome)
  require (found = []) .qntyExtensionBoundaryUnsafe (",".intercalate found)

/--
`receipt.get(key)`
-/
def receiptGet (receipt : JsonObject) (key : String) : JsonValue :=
  (receipt.lookup key).getD .null

def requireFields (receipt : JsonObject) : JsonObject → Result Unit
  | [] => .ok ()
  | (key, value) :: rest => do
    require ((receiptGet receipt key).equals value) (reasonForField key) key
    requireFields receipt rest

def verifyReceipt (fixture : ParsedPublicEconomicFixture) (receipt : JsonObject)
    : Result JsonObject := do
  rejectBoundaryFields receipt
  requireFields receipt (receiptWithoutSelfVerificationDrift fixture)
  let amounts ← readAmounts fixture
  let calculated ← calculate amounts
  require ((receiptGet receipt "receipt_id").equals (.str (receiptId fixture)))
    .receiptIdentityMismatch ""
  require ((receiptGet receipt "calculated_notional").equals
    (.str (decimalToString calculated.notional))) .calculatedNotionalMismatch ""
  require ((receiptGet receipt "calculated_transfer").equals
    (.str (decimalToString calculated.transfer))) .calculatedTransferMismatch ""
  require ((receiptGet receipt "transfer_direction").equals
    (.str (transferDirection calculated.transfer))) .calculatedTransferMismatch ""
  require ((receiptGet receipt "verification").equals
      (.obj (expectedVerificationMetadata fixture)))
    .verificationMetadataMismatch "verification metadata differs from derived object"
  return [("claim_scope", .str claimScope), ("claim_verdict", .str claimVerdict)]

def receiptOf (fixture : ParsedPublicEconomicFixture) (calculated : Calculated) : JsonObject :=
  [("receipt_id", .str (receiptId fixture))]
    ++ receiptHead fixture
    ++ [("calculated_notional", .str (decimalToString calculated.notional)),
      ("calculated_transfer", .str (decimalToString calculated.transfer)),
      ("transfer_direction", .str (transferDirection calculated.transfer))]
    ++ receiptTail fixture
    ++ [("verification", .obj (expectedVerificationMetadata fixture))]

def reconstructTransfer (fixture : ParsedPublicEconomicFixture) : Result JsonObject := do
  validateFixture fixture
  let amounts ← readAmounts fixture
  require (!Decimal.le amounts.mark .zero) .markPriceNonPositive ""
  let calculated ← calculate amounts
  let receipt := receiptOf fixture calculated
  discard <| verifyReceipt fixture receipt
  return receipt

end receipt

end PublicFunding

end Quantbot

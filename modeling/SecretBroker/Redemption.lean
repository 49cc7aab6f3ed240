import SecretBroker.CryptoEngine
import SecretBroker.Identity

/-! Redeeming a handle: the handler that unwraps a sealed secret, and the one that does so with the
shares of custodians. -/

open Wire

namespace SecretBroker

variable (env : Env)

/-- What a request on a stored record draws: how the record is loaded, and when the event is logged. -/
structure LoadDraws where
  disk : Disk
  accessedAt : DateTime
  loggedAt : DateTime

/-- The record of a handle, which must exist. -/
def loadRecord (d : LoadDraws) (handleId : Uuid) : Eff Broker Failure StoredEnvelopeRecord := do
  let loaded ← Eff.mapError .asStorage (perform d.disk handleId (SealedStore.load env.serde d.accessedAt))
  check (Eff.okOr loaded .handleNotFound)

structure UnwrapV2Request where
  handle : String
  redeemToken : String
  tenantId : Option String
  provider : Option String
  circuitId : Option String
  nodeId : Option String
  discharges : List (DischargeMacaroon (Block 32))

structure UnwrapResponse where
  plaintext : String
  deriving DecidableEq, Repr

/-- What unwrapping draws. -/
structure UnwrapDraws where
  load : LoadDraws
  verifierNow : DateTime
  now : DateTime
  keyLoadFails : Bool
  markDisk : Disk

/-- How a failed verification of the macaroon is reported. -/
def macaroonFailure : MacaroonError → ServiceError
  | .signatureInvalid => .invalidHandle
  | .expired => .expiredHandle
  | other => .crypto ("macaroon: " ++ other.message)

/-- The request as the caveats see it. -/
def unwrapVerifier (now : DateTime) (payload : UnwrapV2Request) (keys : List (DischargeKeyRef Bytes)) :
    CaveatVerifier Bytes (Block 32) where
  tenantId := payload.tenantId
  provider := payload.provider
  circuitId := payload.circuitId
  nodeId := payload.nodeId
  action := some "unwrap"
  useCount := 1
  now := now
  discharges := payload.discharges
  dischargeKeys := keys

def verifyHandle (now : DateTime) (payload : UnwrapV2Request) (mac : Macaroon String (Block 32))
    (record : StoredEnvelopeRecord) : Except ServiceError Unit := do
  let keys ← dischargeKeysForRecord env record
  (mac.verify env.mac (env.rootKey mac.identifier) (unwrapVerifier now payload keys)).mapError macaroonFailure

/-- The lease of a renewable secret must not have expired. -/
def checkLease (now : DateTime) (record : StoredEnvelopeRecord) : Except ServiceError Unit :=
  match record.lifecycle, record.leaseExpiresAt with
  | .renewableLease, some leaseExp =>
      Eff.rejectIf (now > leaseExp) (.crypto ("lease expired at " ++ env.chrono.display leaseExp ++
        "; renew with RenewLease before unwrapping"))
  | _, _ => .ok ()

def checkSigningKey (now : DateTime) (record : StoredEnvelopeRecord) : Except ServiceError Unit :=
  match record.signingKeyExpiresAt with
  | some expiresAt =>
      Eff.rejectIf (now > expiresAt) (.crypto ("sealed envelope signing key expired at " ++ env.chrono.display expiresAt))
  | none => .ok ()

/-- The stored signature must be that of the stored envelope under the stored key. -/
def verifyEnvelope (record : StoredEnvelopeRecord) : Except ServiceError Unit := do
  let signature ← record.signatureBytes
  let signingPublicKey ← Eff.okOr (Base64.standard.decode record.signingPublicKey) .signatureInvalid
  let verified ← (verifyPersistedEnvelopeSignature env (env.serde.envelopeToVec record.envelope) signature
    signingPublicKey).mapError .crypto
  Eff.rejectIf (verified = false) .signatureInvalid

/-- What the presented token must be bound to. -/
def effectiveBinding (context : BrokerClientContext) (record : StoredEnvelopeRecord) : Except ServiceError Bytes :=
  let bindingHash := (env.sha256 context.exporter).val
  match record.redeemBinding with
  | some binding =>
      if binding ≠ "" then
        if binding ≠ Base64.standard.encode bindingHash then .error .redeemTokenInvalid else .ok bindingHash
      else if record.lifecycle = .singleUseUnwrap then .error .redeemTokenInvalid
      else .ok []
  | none => if record.lifecycle = .singleUseUnwrap then .error .redeemTokenInvalid else .ok []

/-- The token that the request presents, put together from shares if the record asks for several. -/
def providedToken (record : StoredEnvelopeRecord) (redeemToken : String) : Except ServiceError Bytes :=
  if record.threshold.getD 1 > 1 then do
    let shares ← Eff.okOr (env.serde.sharesFromStr redeemToken) .redeemTokenInvalid
    let stored ← Eff.okOr record.thresholdCommitments .redeemTokenInvalid
    let commitments ← stored.mapM fun c => Eff.okOr (Base64.standard.decode c) .redeemTokenInvalid
    let reconstructed ← (Threshold.reconstruct env.curve shares (record.threshold.getD 1) commitments).mapError fun _ =>
      .redeemTokenInvalid
    return reconstructed.val
  else Eff.okOr (Base64.standard.decode redeemToken) .redeemTokenInvalid

/-- The token to compare with; a reconstructed one is known only up to the group order. -/
def comparedToken (record : StoredEnvelopeRecord) (expectedToken : Block 32) : Block 32 :=
  if record.threshold.getD 1 > 1 then Threshold.canonicalSecretBytes expectedToken else expectedToken

/-- The comparison of the presented token with the one computed for the record. -/
def compareRedeemToken (record : StoredEnvelopeRecord) (expectedToken : Block 32) (redeemToken : String) :
    Except ServiceError Unit := do
  let provided ← providedToken env record redeemToken
  Eff.rejectIf (provided ≠ (comparedToken record expectedToken).val) .redeemTokenInvalid

def checkRedeemToken (now : DateTime) (context : BrokerClientContext) (handleId : Uuid) (redeemToken : String)
    (record : StoredEnvelopeRecord) : Except ServiceError Unit := do
  let redeemNonceB64 ← Eff.okOr record.redeemNonce .redeemTokenInvalid
  let binding ← effectiveBinding env context record
  Eff.rejectIf (record.lifecycle ≠ .renewableLease ∧ record.redeemUsed = true) .redeemTokenUsed
  let redeemExpiresAt ← Eff.okOr record.redeemExpiresAt .redeemTokenInvalid
  Eff.rejectIf (now > redeemExpiresAt) .redeemTokenExpired
  let redeemNonce ← Eff.okOr (Base64.standard.decode redeemNonceB64) .redeemTokenInvalid
  let expectedToken := computeRedeemToken env.mac env.broker.handleHmacKey handleId binding redeemNonce
  compareRedeemToken env record expectedToken redeemToken

/-- Check the exporter binding and decrypt. -/
def openEnvelope (kyberTree : String → Option KyberKeyPair) (keyLoadFails : Bool) (context : BrokerClientContext)
    (record : StoredEnvelopeRecord) : Except ServiceError Bytes := do
  let exporterBinding ← record.exporterBindingBytes
  Eff.rejectIf (exporterBinding.any fun binding => binding ≠ context.exporter) .exporterBindingMismatch
  let ciphertext ← record.ciphertextBytes
  let kemCipher ← record.kemCiphertextBytes
  (decryptPqc env kyberTree keyLoadFails ciphertext kemCipher record.envelope.envelopeKeyId).mapError .crypto

/-- Everything between loading the record and consuming the token. -/
def unwrapChecks (kyberTree : String → Option KyberKeyPair) (d : UnwrapDraws) (context : BrokerClientContext)
    (payload : UnwrapV2Request) (mac : Macaroon String (Block 32)) (record : StoredEnvelopeRecord) :
    Except ServiceError Bytes := do
  verifyHandle env d.verifierNow payload mac record
  Eff.rejectIf (record.revoked = true) .revokedHandle
  Eff.rejectIf (record.isExpired d.now = true) .expiredHandle
  validateV2RecordIdentityRequirements record context
  checkLease env d.now record
  checkSigningKey env d.now record
  verifyEnvelope env record
  checkRedeemToken env d.now context mac.identifier payload.redeemToken record
  openEnvelope env kyberTree d.keyLoadFails context record

/-- Consume the redeem token, except for a renewable secret. -/
def consumeToken (markDisk : Disk) (handleId : Uuid) (lifecycle : SecretLifecycle) : Eff Broker Failure Unit :=
  if lifecycle = .renewableLease then pure ()
  else Eff.mapError .asStorage (perform markDisk handleId (SealedStore.markRedeemUsed env.serde))

def unwrapEventLabel : SecretLifecycle → String
  | .renewableLease => "lease_unwrap"
  | .serviceBootstrap => "bootstrap_unwrap"
  | .singleUseUnwrap => "unwrap"

/-- What the entry of an unwrap says. -/
def unwrapMeta (context : BrokerClientContext) (record : StoredEnvelopeRecord) : List (String × Option Value) :=
  [("lifecycle", some (.string (unwrapEventLabel record.lifecycle)))] ++ contextMeta context ++ issuerMeta record ++
    [("lease_renewal_count",
      if record.lifecycle = .renewableLease then some (.integer record.leaseRenewalCount.toNat) else none)]

/-- `unwrap_secret_v2_impl`. -/
def unwrapSecretV2Impl (d : UnwrapDraws) (context : BrokerClientContext) (payload : UnwrapV2Request) :
    Eff Broker Failure UnwrapResponse := do
  let mac ← check (parseHandleV2 payload.handle)
  let record ← loadRecord env d.load mac.identifier
  let s ← Eff.read
  let plaintext ← check (unwrapChecks env s.kyberTree d context payload mac record)
  consumeToken env d.markDisk mac.identifier record.lifecycle
  recordTransparency env (transparencyEvent env .unwrap "unwrapped" payload.handle
    (some record.envelope.envelopeKeyId) (some record.envelope.customerId) context d.load.loggedAt
    (unwrapMeta context record))
  return { plaintext := Base64.standard.encode plaintext }

structure CombineSharesRequest where
  handle : String
  shares : List Threshold.Share
  tenantId : Option String
  provider : Option String
  custodianIds : List String

structure CombineSharesResponse where
  plaintext : Bytes
  deriving DecidableEq, Repr

/-- The loop over custodians and their shares, with the indices seen so far. -/
def custodyLoop (assignments : List ShareAssignment) (heldShares : List HeldShare) :
    List UInt8 → List (String × Threshold.Share) → Except String (List Threshold.Share)
  | _, [] => .ok []
  | seen, (custodianId, share) :: rest => do
      let assignment ← Eff.okOr (assignments.find? fun a => a.custodianId = custodianId)
        ("custodian_id '" ++ custodianId ++ "' not assigned to this handle")
      Eff.rejectIf (assignment.claimed = false)
        ("custodian_id '" ++ custodianId ++ "' has not claimed their assigned share")
      Eff.rejectIf (assignment.shareIndex ∈ seen)
        ("combine_shares requires distinct assigned shares; share index " ++
          toString assignment.shareIndex.toNat ++ " was provided more than once")
      Eff.rejectIf (share.x ≠ assignment.shareIndex)
        ("custodian_id '" ++ custodianId ++ "' must provide assigned share index " ++
          toString assignment.shareIndex.toNat ++ ", got " ++ toString share.x.toNat)
      let heldShare ← Eff.okOr (heldShares.find? fun h => h.x = assignment.shareIndex)
        ("share index " ++ toString assignment.shareIndex.toNat ++ " not found in held shares")
      let expectedY ← Eff.okOr (Base64.standard.decode heldShare.yB64)
        ("decode held share y-value: " ++ env.base64Error heldShare.yB64)
      Eff.rejectIf (share.y ≠ expectedY) ("custodian_id '" ++ custodianId ++
        "' provided share data that does not match the broker-held assignment")
      let validated ← custodyLoop assignments heldShares (assignment.shareIndex :: seen) rest
      return share :: validated

/-- A record with a threshold needs that many shares. -/
def checkShareCount (threshold : Option UInt8) (count : ℕ) : Except String Unit :=
  match threshold with
  | some threshold =>
      Eff.rejectIf (count < threshold.toNat) ("combine_shares requires at least " ++
        toString threshold.toNat ++ " shares, got " ++ toString count)
  | none => .ok ()

/-- `validate_combine_shares_custody`. -/
def validateCombineSharesCustody (record : StoredEnvelopeRecord) (req : CombineSharesRequest) :
    Except String (List Threshold.Share) := do
  Eff.rejectIf (req.custodianIds.length ≠ req.shares.length)
    ("combine_shares requires exactly one custodian_id per share; got " ++ toString req.custodianIds.length ++
      " custodian ids for " ++ toString req.shares.length ++ " shares")
  Eff.rejectIf (req.custodianIds.dedup.length ≠ req.shares.length)
    ("combine_shares requires distinct custodians for each share; got " ++ toString req.custodianIds.dedup.length ++
      " unique for " ++ toString req.shares.length ++ " shares")
  Eff.rejectIf (req.custodianIds.any fun id => trim id = "") "custodian_id must not be empty"
  let assignments ← Eff.okOr record.shareAssignments "no share assignments for this handle"
  let heldShares ← Eff.okOr record.heldShares "no held shares for this handle"
  checkShareCount record.threshold req.shares.length
  custodyLoop env assignments heldShares [] (req.custodianIds.zip req.shares)

/-- The error of a handler inside another one that reports plain messages. -/
def Failure.asAnyhow (context : String) : Failure → Failure
  | .service e => .anyhow (context ++ e.message)
  | .anyhow message => .anyhow (context ++ message)
  | .panic => .panic

/-- What the entry of a recovery says. -/
def recoveryMeta (context : BrokerClientContext) (custodianIds : List String) (shares : List Threshold.Share)
    (threshold : Option UInt8) : List (String × Option Value) :=
  [("custodians", some (.array (custodianIds.map .string))),
    ("share_indices", some (.array (shares.map fun share => .integer share.x.toNat))),
    ("share_count", some (.integer shares.length)),
    ("threshold", threshold.map fun t => .integer t.toNat)] ++ contextMeta context

/-- `combine_shares_impl`. -/
def combineSharesImpl (load : LoadDraws) (d : UnwrapDraws) (context : BrokerClientContext)
    (req : CombineSharesRequest) : Eff Broker Failure CombineSharesResponse := do
  Eff.lift (Eff.rejectIf (req.handle = "") (.anyhow "handle is required"))
  Eff.lift (Eff.rejectIf (req.shares = []) (.anyhow "at least one share is required"))
  let handleId ← Eff.mapError (.asAnyhow "invalid V2 handle: ") (check (parseHandleIdentifier env req.handle))
  let loaded ← Eff.mapError (.asAnyhow "load sealed record failed: ")
    (perform load.disk handleId (SealedStore.load env.serde load.accessedAt))
  let record ← Eff.lift (Eff.okOr loaded (.anyhow "sealed secret handle not found"))
  let validatedShares ← Eff.lift ((validateCombineSharesCustody env record req).mapError .anyhow)
  let result ← Eff.mapError (.asAnyhow "") (unwrapSecretV2Impl env d context {
    handle := req.handle
    redeemToken := env.serde.sharesToString validatedShares
    tenantId := req.tenantId
    provider := req.provider
    circuitId := none
    nodeId := none
    discharges := [] })
  let plaintext ← Eff.lift (Eff.okOr (Base64.standard.decode result.plaintext)
    (.anyhow ("base64 decode: " ++ env.base64Error result.plaintext)))
  recordTransparency env
    (transparencyEvent env .unwrap "unwrapped" req.handle none (some "threshold-recovery") context load.loggedAt
      (recoveryMeta context req.custodianIds validatedShares record.threshold))
  return { plaintext }

end SecretBroker

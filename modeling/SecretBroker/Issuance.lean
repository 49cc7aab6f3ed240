import SecretBroker.CryptoEngine
import SecretBroker.Identity

/-! Sealing a secret under a new handle: the handlers that wrap a given secret and that mint a key. -/

open Wire

namespace SecretBroker

variable (env : Env)

/-- `enforce_ttl`. The comparison is that of signed numbers. -/
def enforceTtl (ttlSeconds : Option UInt64) (createdAt : DateTime) :
    Except Failure (Option DateTime × Option UInt64) :=
  match ttlSeconds with
  | none => .ok (none, none)
  | some secs => do
      Eff.rejectIf (secs = 0) (.service .invalidTtl)
      Eff.rejectIf (asI64 secs > env.broker.maxHandleTtl) (.service .invalidTtl)
      let expiresAt ← Eff.okOr (createdAt.addSeconds (asI64 secs)) .panic
      return (some expiresAt, some secs)

/-- What sealing a secret draws. -/
structure PersistDraws where
  handleId : Uuid
  redeemNonce : Block 16
  envelopeKeyId : Uuid
  encryption : EncryptDraws
  keyPair : KeyPairDraws
  signCheckNow : DateTime
  signUsageNow : DateTime
  insertDisk : Disk
  /-- When the event of the request is logged. -/
  loggedAt : DateTime

structure PersistSecretV2Input where
  plaintext : Bytes
  customerId : String
  metadata : Option Value
  createdAt : DateTime
  expiresAt : Option DateTime
  lifecycle : SecretLifecycle
  initialLeaseSeconds : Option UInt64
  unwrapPrincipalId : Option String

structure StoredSecretOutcome where
  handleId : Uuid
  customerId : String
  expiresAt : Option DateTime
  envelopeKeyId : String
  redeemToken : String
  redeemTokenExpiresAt : Option DateTime

/-- What the redeem token is bound to: a single-use token to the TLS exporter, the others to nothing. -/
def redeemBindingBytes (lifecycle : SecretLifecycle) (context : BrokerClientContext) : Bytes :=
  match lifecycle with
  | .singleUseUnwrap => (env.sha256 context.exporter).val
  | .renewableLease | .serviceBootstrap => []

/-- The stored form of that binding. -/
def newRedeemBinding (lifecycle : SecretLifecycle) (context : BrokerClientContext) : Option String :=
  match lifecycle with
  | .singleUseUnwrap => some (Base64.standard.encode (env.sha256 context.exporter).val)
  | .renewableLease | .serviceBootstrap => none

/-- The exporter that a single-use secret is sealed to. -/
def newExporterBinding (lifecycle : SecretLifecycle) (context : BrokerClientContext) : Option String :=
  match lifecycle with
  | .singleUseUnwrap => some (Base64.standard.encode context.exporter)
  | .renewableLease | .serviceBootstrap => none

/-- The token that redeems a handle. -/
def Env.redeemToken (handleId : Uuid) (binding nonce : Bytes) : Block 32 :=
  computeRedeemToken env.mac env.broker.handleHmacKey handleId binding nonce

/-- The envelope of a new secret. -/
def newEnvelope (d : PersistDraws) (context : BrokerClientContext) (input : PersistSecretV2Input)
    (encryption : EncryptionResult) : SecretEnvelope where
  envelopeKeyId := d.envelopeKeyId.toString
  algorithm := encryption.algorithm
  ciphertext := Base64.standard.encode encryption.ciphertext
  kyberCiphertext := Base64.standard.encode encryption.nonce
  customerId := input.customerId
  exporterBinding := newExporterBinding input.lifecycle context
  metadata := input.metadata
  createdAt := input.createdAt

/-- The record of a new secret. -/
def newRecord (d : PersistDraws) (context : BrokerClientContext) (input : PersistSecretV2Input)
    (encryption : EncryptionResult) (keyPair : KeyPair) (signature : Bytes)
    (redeemExpiresAt : DateTime) (leaseExpiresAt : Option DateTime) : StoredEnvelopeRecord where
  envelope := newEnvelope d context input encryption
  signature := Base64.standard.encode signature
  signingKeyId := keyPair.keyId
  signingPublicKey := Base64.standard.encode keyPair.publicKey
  signingKeyExpiresAt := keyPair.expiresAt
  expiresAt := input.expiresAt
  lastAccessed := none
  redeemNonce := some (Base64.standard.encode d.redeemNonce.val)
  redeemBinding := newRedeemBinding env input.lifecycle context
  unwrapPrincipalId := input.unwrapPrincipalId
  issuedWithAuthenticatedTransport := context.authenticatedTransport
  issuedByPrincipalId := normalizedContextPrincipal context
  issuedByPeerCertSha256 := context.peerCertSha256.map Base64.standard.encode
  issuedByAttestationDigest := context.attestationDigest.map Base64.standard.encode
  thirdPartyCaveatKeys := none
  redeemExpiresAt := some redeemExpiresAt
  redeemUsed := false
  threshold := none
  thresholdCommitments := none
  lifecycle := input.lifecycle
  leaseExpiresAt := leaseExpiresAt
  leaseRenewalCount := 0
  revoked := false
  revokedAt := none
  revocationReason := none
  shareAssignments := none
  heldShares := none

/-- The end of the first lease; a time out of range is a panic. -/
def initialLease (createdAt : DateTime) : Option UInt64 → Option (Option DateTime)
  | none => some none
  | some secs => (createdAt.addSeconds (asI64 secs)).map some

/-- `persist_secret_v2_with_lifecycle`. -/
def persistSecretV2WithLifecycle (d : PersistDraws) (context : BrokerClientContext) (input : PersistSecretV2Input) :
    Eff Broker Failure StoredSecretOutcome := do
  let redeemExpiresAt ← checkTime (input.createdAt.addSeconds env.broker.redeemTokenTtl)
  let redeemToken := env.redeemToken d.handleId (redeemBindingBytes env input.lifecycle context) d.redeemNonce.val
  let encryption ← Eff.mapError .asCrypto (encryptPqc env d.encryption input.plaintext d.envelopeKeyId.toString)
  let keyPair ← Eff.mapError .asCrypto (generateKeyPair env d.keyPair "dilithium5" input.customerId)
  let envelopeBytes := env.serde.envelopeToVec (newEnvelope d context input encryption)
  let signature ← Eff.mapError .asCrypto (signData env d.signCheckNow d.signUsageNow envelopeBytes keyPair.keyId)
  let leaseExpiresAt ← checkTime (initialLease input.createdAt input.initialLeaseSeconds)
  let record := newRecord env d context input encryption keyPair signature redeemExpiresAt leaseExpiresAt
  Eff.mapError .asStorage (perform d.insertDisk d.handleId (SealedStore.insertWithId record))
  return {
    handleId := d.handleId
    customerId := input.customerId
    expiresAt := input.expiresAt
    envelopeKeyId := d.envelopeKeyId.toString
    redeemToken := Base64.standard.encode redeemToken.val
    redeemTokenExpiresAt := some redeemExpiresAt }

/-- What sealing a secret has done when it succeeds. -/
theorem persist_eq_ok {d : PersistDraws} {context : BrokerClientContext} {input : PersistSecretV2Input}
    {s s' : Broker} {outcome : StoredSecretOutcome}
    (h : persistSecretV2WithLifecycle env d context input s = (.ok outcome, s')) :
    ∃ redeemExpiresAt encryption keyPair signature leaseExpiresAt s₁ s₂ s₃,
      encryptPqc env d.encryption input.plaintext d.envelopeKeyId.toString s = (.ok encryption, s₁) ∧
      generateKeyPair env d.keyPair "dilithium5" input.customerId s₁ = (.ok keyPair, s₂) ∧
      signData env d.signCheckNow d.signUsageNow
        (env.serde.envelopeToVec (newEnvelope d context input encryption)) keyPair.keyId s₂ = (.ok signature, s₃) ∧
      s' = s₃.putRecord d.handleId
        (some (newRecord env d context input encryption keyPair signature redeemExpiresAt leaseExpiresAt)) ∧
      outcome = {
        handleId := d.handleId
        customerId := input.customerId
        expiresAt := input.expiresAt
        envelopeKeyId := d.envelopeKeyId.toString
        redeemToken := Base64.standard.encode
          (env.redeemToken d.handleId (redeemBindingBytes env input.lifecycle context) d.redeemNonce.val).val
        redeemTokenExpiresAt := some redeemExpiresAt } := by
  simp only [persistSecretV2WithLifecycle, Eff.bind_eq_ok, checkTime_eq_ok, Eff.mapError_eq_ok, perform_eq_ok,
    Eff.pure_eq_ok] at h
  obtain ⟨redeemExpiresAt, _, ⟨-, rfl⟩, encryption, s₁, hencrypt, keyPair, s₂, hkeyPair, signature, s₃, hsign,
    leaseExpiresAt, _, ⟨-, rfl⟩, _, _, ⟨-, -, rfl⟩, rfl, rfl⟩ := h
  exact ⟨redeemExpiresAt, encryption, keyPair, signature, leaseExpiresAt, s₁, s₂, _, hencrypt, hkeyPair, hsign, rfl, rfl⟩

/-- The handle of a new secret. -/
def Env.mintHandle (handleId : Uuid) (caveats : List Caveat) : String :=
  handleV2 (Macaroon.mint env.mac (env.rootKey handleId) handleId caveats)

/-- The customer that a request names, or the default one. -/
def requestCustomer (customerId : Option String) : String :=
  (customerId.bind normalizeOptionalString).getD env.broker.defaultCustomerId

structure WrapV2Request where
  plaintext : Bytes
  customerId : Option String
  metadata : Option Value
  lifecycle : SecretLifecycle
  ttlSeconds : Option UInt64
  initialLeaseSeconds : Option UInt64
  label : Option String
  tenantId : Option String
  provider : Option String
  circuitId : Option String
  nodeId : Option String
  unwrapPrincipalId : Option String

structure WrapSecretOutcome where
  handle : String
  expiresAt : Option DateTime
  redeemToken : String
  redeemTokenExpiresAt : Option DateTime
  deriving DecidableEq, Repr

/-- The caveat for a request field, if the field is not blank. -/
def fieldCaveat (caveat : String → Caveat) (field : Option String) : List Caveat :=
  ((field.bind normalizeOptionalString).map caveat).toList

def wrapCaveats (request : WrapV2Request) (expiresAt : Option DateTime) : List Caveat :=
  fieldCaveat .tenantId request.tenantId ++ fieldCaveat .provider request.provider ++
    fieldCaveat .circuitId request.circuitId ++ fieldCaveat .nodeId request.nodeId ++
    (expiresAt.map Caveat.expires).toList ++ [.action "unwrap", .maxUses]

/-- What a request to wrap asks to be sealed. -/
def wrapInput (createdAt : DateTime) (request : WrapV2Request) (expiresAt : Option DateTime)
    (unwrapPrincipalId : Option String) : PersistSecretV2Input where
  plaintext := request.plaintext
  customerId := requestCustomer env request.customerId
  metadata := request.metadata
  createdAt := createdAt
  expiresAt := expiresAt
  lifecycle := request.lifecycle
  initialLeaseSeconds := request.initialLeaseSeconds
  unwrapPrincipalId := unwrapPrincipalId

/-- What the entry of a wrap says. -/
def wrapMeta (context : BrokerClientContext) (request : WrapV2Request) (handle customerId : String)
    (effectiveTtl : Option UInt64) (unwrapPrincipalId : Option String) : List (String × Option Value) :=
  [("purpose", some (.string "wrap-secret-v2")), ("handle_version", some (.integer 2)),
    ("lifecycle", some (.string request.lifecycle.label)),
    ("handle_fingerprint", some (.string (handleFingerprint env handle)))] ++ contextMeta context ++
    [("label", (request.label.bind normalizeOptionalString).map .string), ("customer_id", some (.string customerId)),
      ("ttl_seconds", effectiveTtl.map fun t => .integer t.toNat), ("unwrap_principal_id", unwrapPrincipalId.map .string),
      ("secret_metadata", request.metadata)]

/-- `wrap_secret_v2_impl`. -/
def wrapSecretV2Impl (createdAt : DateTime) (d : PersistDraws) (context : BrokerClientContext)
    (request : WrapV2Request) : Eff Broker Failure WrapSecretOutcome := do
  let (expiresAt, effectiveTtl) ← Eff.lift (enforceTtl env request.ttlSeconds createdAt)
  let unwrapPrincipalId ← check (v2UnwrapPrincipal context request.lifecycle request.unwrapPrincipalId)
  let outcome ← persistSecretV2WithLifecycle env d context (wrapInput env createdAt request expiresAt unwrapPrincipalId)
  let handle := env.mintHandle outcome.handleId (wrapCaveats request outcome.expiresAt)
  recordTransparency env
    (transparencyEvent env .wrap "issued" handle (some outcome.envelopeKeyId) (some outcome.customerId) context d.loggedAt
      (wrapMeta env context request handle outcome.customerId effectiveTtl unwrapPrincipalId))
  return {
    handle
    expiresAt := outcome.expiresAt
    redeemToken := outcome.redeemToken
    redeemTokenExpiresAt := outcome.redeemTokenExpiresAt }

/-- What a successful wrap has done. -/
theorem wrap_eq_ok {createdAt : DateTime} {d : PersistDraws} {context : BrokerClientContext} {request : WrapV2Request}
    {outcome : WrapSecretOutcome} {s s' : Broker}
    (h : wrapSecretV2Impl env createdAt d context request s = (.ok outcome, s')) :
    ∃ expiresAt ttl unwrapPrincipalId stored s₁,
      enforceTtl env request.ttlSeconds createdAt = .ok (expiresAt, ttl) ∧
      persistSecretV2WithLifecycle env d context (wrapInput env createdAt request expiresAt unwrapPrincipalId) s =
        (.ok stored, s₁) ∧
      s'.records = s₁.records ∧ s'.kyberTree = s₁.kyberTree ∧
      outcome.handle = env.mintHandle d.handleId (wrapCaveats request expiresAt) ∧
      outcome.redeemToken = Base64.standard.encode
        (env.redeemToken d.handleId (redeemBindingBytes env request.lifecycle context) d.redeemNonce.val).val := by
  simp only [wrapSecretV2Impl, Eff.bind_eq_ok, Eff.lift_eq_ok, check_eq_ok, recordTransparency, Eff.modify_eq_ok,
    Eff.pure_eq_ok, Prod.exists] at h
  obtain ⟨expiresAt, ttl, _, ⟨httl, rfl⟩, unwrapPrincipalId, _, ⟨-, rfl⟩, stored, s₁, hpersist, _, _, rfl, rfl, rfl⟩ := h
  refine ⟨expiresAt, ttl, unwrapPrincipalId, stored, s₁, httl, hpersist, ?_, ?_, ?_⟩
  · split_ifs <;> rfl
  · split_ifs <;> rfl
  · obtain ⟨_, _, _, _, _, _, _, _, -, -, -, -, rfl⟩ := persist_eq_ok env hpersist
    exact ⟨rfl, rfl⟩

structure MintV2Request where
  ttlSeconds : Option UInt64
  label : Option String
  tenantId : Option String
  provider : Option String
  threshold : Option UInt8
  numShares : Option UInt8
  lifecycle : SecretLifecycle
  initialLeaseSeconds : Option UInt64
  custodianIds : List String
  unwrapPrincipalId : Option String

structure MintV2Response where
  handle : String
  key : String
  expiresAt : Option DateTime
  redeemToken : String
  redeemTokenExpiresAt : Option DateTime
  deriving DecidableEq, Repr

/-- What minting a key draws. -/
structure MintDraws where
  createdAt : DateTime
  keyBytes : Block 32
  persist : PersistDraws
  coefficients : ℕ → Scalar
  thresholdDisk : Disk
  assignmentsDisk : Disk

/-- The metadata of a minted key; the members of a JSON object are in the order of their names. -/
def mintMetadata (label : Option String) (ttlSeconds : Option UInt64) : Value :=
  .object ([("handle_version", .integer 2)] ++ (label.map fun l => ("label", Value.string l)).toList ++
    [("purpose", .string "aead-key")] ++ (ttlSeconds.map fun t => ("ttl_seconds", Value.integer t.toNat)).toList)

/-- The caveats of a minted key. The fields are taken as they are. -/
def mintCaveats (request : MintV2Request) (expiresAt : Option DateTime) : List Caveat :=
  (request.tenantId.map Caveat.tenantId).toList ++ (request.provider.map Caveat.provider).toList ++
    (expiresAt.map Caveat.expires).toList ++ [.action "unwrap", .maxUses]

/-- The shares of a redeem token. -/
def splitRedeemToken (coefficients : ℕ → Scalar) (redeemToken : String) (threshold numShares : UInt8) :
    Except Failure Threshold.SplitResult := do
  let tokenBytes ← Eff.okOr (Base64.standard.decode redeemToken) (.service (.crypto "bad redeem token base64"))
  let token ← Eff.okOr (sized 32 tokenBytes) (.service (.crypto "redeem token not 32 bytes"))
  (Threshold.split env.curve token threshold numShares fun i => coefficients i).mapError fun e =>
    .service (.crypto ("feldman split: " ++ e.message))

def encodedCommitments (split : Threshold.SplitResult) : List String :=
  split.commitments.map Base64.standard.encode

/-- The custodians with the shares in their order. -/
def assignShares (custodianIds : List String) (split : Threshold.SplitResult) : List ShareAssignment :=
  List.zipWith (fun custodianId share => { custodianId, shareIndex := share.x, claimed := false })
    custodianIds split.shares

def holdShares (split : Threshold.SplitResult) : List HeldShare :=
  split.shares.map fun share => { x := share.x, yB64 := Base64.standard.encode share.y }

/-- The redeem material of a minted key: the token itself, its shares, or nothing if the broker holds
the shares for custodians. -/
def mintRedeemMaterial (d : MintDraws) (custodianIds : List String) (threshold numShares : UInt8)
    (outcome : StoredSecretOutcome) : Eff Broker Failure String :=
  if threshold > 1 then do
    let split ← Eff.lift (splitRedeemToken env d.coefficients outcome.redeemToken threshold numShares)
    Eff.mapError .asStorage (perform d.thresholdDisk outcome.handleId
      (SealedStore.updateThresholdConfig env.serde threshold (encodedCommitments split)))
    if custodianIds ≠ [] then do
      Eff.mapError .asStorage (perform d.assignmentsDisk outcome.handleId
        (SealedStore.updateShareAssignments env.serde (assignShares custodianIds split) (holdShares split)))
      return ""
    else return env.serde.sharesToString split.shares
  else return outcome.redeemToken

/-- What a request to mint a key asks to be sealed. -/
def mintInput (d : MintDraws) (request : MintV2Request) (expiresAt : Option DateTime) (ttlSeconds : Option UInt64)
    (unwrapPrincipalId : Option String) : PersistSecretV2Input where
  plaintext := d.keyBytes.val
  customerId := env.broker.defaultCustomerId
  metadata := some (mintMetadata (request.label.bind normalizeOptionalString) ttlSeconds)
  createdAt := d.createdAt
  expiresAt := expiresAt
  lifecycle := request.lifecycle
  initialLeaseSeconds := request.initialLeaseSeconds
  unwrapPrincipalId := unwrapPrincipalId

/-- What the entry of a mint says. -/
def mintMeta (context : BrokerClientContext) (label : Option String) (threshold numShares : UInt8)
    (unwrapPrincipalId : Option String) : List (String × Option Value) :=
  [("purpose", some (.string "aead-key-v2")), ("handle_version", some (.integer 2)),
    ("threshold", some (.integer threshold.toNat)), ("num_shares", some (.integer numShares.toNat))] ++
    contextMeta context ++ [("label", label.map .string), ("unwrap_principal_id", unwrapPrincipalId.map .string)]

/-- `mint_aead_key_v2_impl`. The number of custodians is checked after the record has been stored. -/
def mintAeadKeyV2Impl (d : MintDraws) (context : BrokerClientContext) (request : MintV2Request) :
    Eff Broker Failure MintV2Response := do
  let (expiresAt, ttlSeconds) ← Eff.lift (enforceTtl env request.ttlSeconds d.createdAt)
  let label := request.label.bind normalizeOptionalString
  let threshold := request.threshold.getD 1
  let numShares := request.numShares.getD 1
  check (Eff.rejectIf (threshold < 1 ∨ threshold > numShares) .invalidTtl)
  let unwrapPrincipalId ← check (v2UnwrapPrincipal context request.lifecycle request.unwrapPrincipalId)
  let outcome ← persistSecretV2WithLifecycle env d.persist context
    (mintInput env d request expiresAt ttlSeconds unwrapPrincipalId)
  let handle := env.mintHandle outcome.handleId (mintCaveats request expiresAt)
  check (Eff.rejectIf (threshold > 1 ∧ request.custodianIds ≠ [] ∧ request.custodianIds.length ≠ numShares.toNat)
    .invalidTtl)
  let redeemToken ← mintRedeemMaterial env d request.custodianIds threshold numShares outcome
  recordTransparency env
    (transparencyEvent env .wrap "issued" handle (some outcome.envelopeKeyId) (some outcome.customerId) context
      d.persist.loggedAt (mintMeta context label threshold numShares unwrapPrincipalId))
  return {
    handle
    key := Base64.standard.encode d.keyBytes.val
    expiresAt
    redeemToken
    redeemTokenExpiresAt := outcome.redeemTokenExpiresAt }

/-- What a successful mint has checked and done. -/
theorem mint_eq_ok {d : MintDraws} {context : BrokerClientContext} {request : MintV2Request} {response : MintV2Response}
    {s s' : Broker} (h : mintAeadKeyV2Impl env d context request s = (.ok response, s')) :
    ∃ expiresAt ttlSeconds unwrapPrincipalId outcome s₁ s₂,
      enforceTtl env request.ttlSeconds d.createdAt = .ok (expiresAt, ttlSeconds) ∧
      ¬ (request.threshold.getD 1 < 1 ∨ request.threshold.getD 1 > request.numShares.getD 1) ∧
      v2UnwrapPrincipal context request.lifecycle request.unwrapPrincipalId = .ok unwrapPrincipalId ∧
      persistSecretV2WithLifecycle env d.persist context
        (mintInput env d request expiresAt ttlSeconds unwrapPrincipalId) s = (.ok outcome, s₁) ∧
      ¬ (request.threshold.getD 1 > 1 ∧ request.custodianIds ≠ [] ∧
        request.custodianIds.length ≠ (request.numShares.getD 1).toNat) ∧
      mintRedeemMaterial env d request.custodianIds (request.threshold.getD 1) (request.numShares.getD 1) outcome s₁ =
        (.ok response.redeemToken, s₂) ∧
      s'.records = s₂.records ∧ s'.kyberTree = s₂.kyberTree ∧
      response.handle = env.mintHandle outcome.handleId (mintCaveats request expiresAt) := by
  simp only [mintAeadKeyV2Impl, Eff.bind_eq_ok, Eff.lift_eq_ok, check_eq_ok, Eff.rejectIf_eq_ok, recordTransparency,
    Eff.modify_eq_ok, Eff.pure_eq_ok, Prod.exists] at h
  obtain ⟨expiresAt, ttlSeconds, _, ⟨httl, rfl⟩, _, _, ⟨hthreshold, rfl⟩, unwrapPrincipalId, _, ⟨hprincipal, rfl⟩,
    outcome, s₁, hpersist, _, _, ⟨hcustodians, rfl⟩, redeemToken, s₂, hmaterial, _, _, rfl, rfl, rfl⟩ := h
  refine ⟨expiresAt, ttlSeconds, unwrapPrincipalId, outcome, _, s₂, httl, hthreshold, hprincipal, hpersist, hcustodians,
    hmaterial, ?_, ?_, rfl⟩
  · split_ifs <;> rfl
  · split_ifs <;> rfl

end SecretBroker

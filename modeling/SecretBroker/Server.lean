import SecretBroker.CryptoService
import SecretBroker.Management

/-! The gRPC server: it takes the caller's context from the connection, turns a message into a request of a handler
and the handler's outcome into a message. Redeem tokens are raw bytes in messages and base64 texts in handlers. -/

open Wire

namespace SecretBroker

inductive Code where
  | invalidArgument
  | notFound
  | failedPrecondition
  | unauthenticated
  | permissionDenied
  | internal
  deriving DecidableEq, Repr

/-- How a call fails: with a status, or with a panic of its task. -/
inductive RpcError where
  | status (code : Code) (message : String)
  | panic
  deriving DecidableEq, Repr

/-- The code of `svc_service_err`. -/
def ServiceError.code : ServiceError → Code
  | .serialization _ | .invalidHandle | .invalidTtl | .invalidAttenuation _ => .invalidArgument
  | .handleNotFound => .notFound
  | .expiredHandle | .revokedHandle | .missingLineage _ => .failedPrecondition
  | .unauthenticatedTransport | .authenticatedPrincipalRequired => .unauthenticated
  | .signatureInvalid | .exporterBindingMismatch | .redeemTokenInvalid | .redeemTokenExpired | .redeemTokenUsed
  | .principalMismatch | .peerCertMismatch | .attestationMismatch | .unauthorizedDischargePrincipal => .permissionDenied
  | .storage _ | .crypto _ => .internal

/-- `svc_service_err`; the handlers under it report no plain message. -/
def svcServiceErr : Failure → RpcError
  | .service e => .status e.code e.message
  | .anyhow message => .status .internal message
  | .panic => .panic

/-- `svc_err`. -/
def svcErr (env : ServerEnv) : Failure → RpcError
  | .service e => .status .internal (env.debugError e.message)
  | .anyhow message => .status .internal (env.debugError message)
  | .panic => .panic

/-- `broker_context`: only a live mTLS connection has one. -/
def brokerContext (context : Option BrokerClientContext) : Except RpcError BrokerClientContext :=
  Eff.okOr context
    (.status .failedPrecondition "secret-broker requests require authenticated live mTLS connection context")

def emptyToNone (value : String) : Option String := normalizeOptionalString value

/-- A number for which zero stands for absence. -/
def positive (n : UInt64) : Option UInt64 := if n > 0 then some n else none

/-- A text for which the empty one stands for absence. -/
def nonEmpty (value : String) : Option String := if value = "" then none else some value

/-- `SecretLifecycle::from_proto_i32`. -/
def SecretLifecycle.fromProto (v : Int32) : SecretLifecycle :=
  if v = 1 then .renewableLease else if v = 2 then .serviceBootstrap else .singleUseUnwrap

structure Timestamp where
  seconds : Int
  nanos : Int
  deriving DecidableEq, Repr

def chronoToTimestamp (t : DateTime) : Option Timestamp := some ⟨t.secs, t.nanos⟩

/-- The bytes of a base64 text that a handler has made. -/
def decodeOutcome (env : ServerEnv) (what text : String) : Except RpcError Bytes :=
  Eff.okOr (Base64.standard.decode text) (.status .internal (what ++ env.base64Error text))

namespace Proto

structure ThresholdShare where
  x : UInt32
  y : Bytes
  deriving DecidableEq, Repr

/-- The metadata of a request is given as the JSON document that it is turned into. -/
structure WrapSecretV2Request where
  plaintext : Bytes
  customerId : String
  metadata : Option Value
  lifecycle : Int32
  initialLeaseSeconds : UInt64
  label : String
  tenantId : String
  provider : String
  circuitId : String
  nodeId : String
  unwrapPrincipalId : String
  ttlSeconds : UInt64

structure WrapSecretResponse where
  handle : String
  createdAt : Option Timestamp
  expiresAt : Option Timestamp
  redeemToken : Bytes
  redeemTokenExpiresAt : Option Timestamp
  deriving DecidableEq, Repr

structure MintAeadKeyV2Request where
  ttlSeconds : UInt64
  label : String
  tenantId : String
  provider : String
  threshold : UInt32
  numShares : UInt32
  lifecycle : Int32
  initialLeaseSeconds : UInt64
  custodianIds : List String
  unwrapPrincipalId : String

structure MintAeadKeyV2Response where
  key : Bytes
  handle : String
  expiresAt : Option Timestamp
  redeemToken : Bytes
  redeemShares : List ThresholdShare
  redeemTokenExpiresAt : Option Timestamp
  threshold : UInt32
  numShares : UInt32
  deriving DecidableEq, Repr

/-- A discharge is given by its token. -/
structure UnwrapSecretV2Request where
  handle : String
  redeemToken : Bytes
  redeemShares : List ThresholdShare
  tenantId : String
  provider : String
  circuitId : String
  nodeId : String
  discharges : List String

structure UnwrapSecretResponse where
  plaintext : Bytes
  deriving DecidableEq, Repr

structure DescribeChannelResponse where
  sessionId : String
  tlsExporter : Bytes
  tlsExporterHash : Bytes
  authenticatedTransport : Bool
  principalId : String
  peerCertSha256 : Bytes
  attestationDigest : Bytes
  deriving DecidableEq, Repr

structure RotateSecretRequest where
  oldHandle : String
  newPlaintext : Bytes
  customerId : String
  metadata : Option Value
  ttlSeconds : UInt64
  lifecycle : Int32
  rotationReason : String
  threshold : UInt32
  numShares : UInt32

structure RotateSecretResponse where
  newHandle : String
  createdAt : Option Timestamp
  expiresAt : Option Timestamp
  redeemToken : Bytes
  redeemTokenExpiresAt : Option Timestamp
  oldRevoked : Bool
  newShares : List ThresholdShare
  deriving DecidableEq, Repr

structure RevokeSecretRequest where
  handle : String
  reason : String

structure RevokeSecretResponse where
  revoked : Bool
  revokedAt : Option Timestamp
  deriving DecidableEq, Repr

structure DistributeShareRequest where
  handle : String
  shareIndex : UInt32
  share : Option ThresholdShare
  custodianId : String

structure DistributeShareResponse where
  accepted : Bool
  ackToken : String
  deriving DecidableEq, Repr

structure CryptoEncryptRequest where
  plaintext : Bytes
  algorithm : String
  keyId : String

structure CryptoEncryptResponse where
  ciphertext : Bytes
  keyId : String
  nonce : Bytes
  deriving DecidableEq, Repr

structure CryptoDecryptRequest where
  ciphertext : Bytes
  algorithm : String
  keyId : String

structure CryptoDecryptResponse where
  plaintext : Bytes
  verified : Bool
  deriving DecidableEq, Repr

end Proto

variable (env : ServerEnv)

/-- What `wrap_secret_v2` hands to its handler. -/
def wrapRequest (req : Proto.WrapSecretV2Request) : WrapV2Request where
  plaintext := req.plaintext
  customerId := emptyToNone req.customerId
  metadata := req.metadata
  lifecycle := .fromProto req.lifecycle
  ttlSeconds := positive req.ttlSeconds
  initialLeaseSeconds := positive req.initialLeaseSeconds
  label := emptyToNone req.label
  tenantId := emptyToNone req.tenantId
  provider := emptyToNone req.provider
  circuitId := emptyToNone req.circuitId
  nodeId := emptyToNone req.nodeId
  unwrapPrincipalId := emptyToNone req.unwrapPrincipalId

/-- `wrap_secret_v2`. -/
def wrapSecretV2 (now createdAt : DateTime) (d : PersistDraws) (context : Option BrokerClientContext)
    (req : Proto.WrapSecretV2Request) : Eff Broker RpcError Proto.WrapSecretResponse := do
  let context ← Eff.lift (brokerContext context)
  let outcome ← Eff.mapError svcServiceErr (wrapSecretV2Impl env.toEnv createdAt d context (wrapRequest req))
  let redeemToken ← Eff.lift (decodeOutcome env "redeem token base64 decode: " outcome.redeemToken)
  return {
    handle := outcome.handle
    createdAt := chronoToTimestamp now
    expiresAt := outcome.expiresAt.bind chronoToTimestamp
    redeemToken
    redeemTokenExpiresAt := outcome.redeemTokenExpiresAt.bind chronoToTimestamp }

/-- A number of shares that must fit into a byte; zero stands for absence. -/
def byteOrNone (n : UInt32) (error : String) : Except RpcError (Option UInt8) :=
  if n = 0 then .ok none
  else if n ≤ 255 then .ok (some n.toUInt8)
  else .error (.status .invalidArgument error)

/-- What `mint_aead_key_v2` hands to its handler. -/
def mintRequest (req : Proto.MintAeadKeyV2Request) (threshold numShares : Option UInt8) : MintV2Request where
  ttlSeconds := positive req.ttlSeconds
  label := emptyToNone req.label
  tenantId := emptyToNone req.tenantId
  provider := emptyToNone req.provider
  threshold := threshold
  numShares := numShares
  lifecycle := .fromProto req.lifecycle
  initialLeaseSeconds := positive req.initialLeaseSeconds
  custodianIds := req.custodianIds
  unwrapPrincipalId := emptyToNone req.unwrapPrincipalId

def protoShare (share : Threshold.Share) : Proto.ThresholdShare := ⟨share.x.toUInt32, share.y⟩

/-- The redeem token and the shares of a minted key as they are sent. With custodians both are empty. -/
def mintedMaterial (effectiveThreshold : UInt32) (redeemToken : String) :
    Except RpcError (Bytes × List Proto.ThresholdShare) :=
  if effectiveThreshold > 1 then
    if redeemToken = "" then .ok ([], [])
    else do
      let shares ← Eff.okOr (env.serde.sharesFromStr redeemToken)
        (.status .internal ("share decode: " ++ env.sharesError redeemToken))
      return ([], shares.map protoShare)
  else do
    let token ← decodeOutcome env "redeem token base64 decode: " redeemToken
    return (token, [])

/-- `mint_aead_key_v2`. -/
def mintAeadKeyV2 (d : MintDraws) (context : Option BrokerClientContext) (req : Proto.MintAeadKeyV2Request) :
    Eff Broker RpcError Proto.MintAeadKeyV2Response := do
  let context ← Eff.lift (brokerContext context)
  let threshold ← Eff.lift (byteOrNone req.threshold "threshold must be <= 255")
  let numShares ← Eff.lift (byteOrNone req.numShares "num_shares must be <= 255")
  let effectiveThreshold := (threshold.getD 1).toUInt32
  let effectiveNumShares := (numShares.getD 1).toUInt32
  let result ← Eff.mapError svcServiceErr (mintAeadKeyV2Impl env.toEnv d context (mintRequest req threshold numShares))
  let key ← Eff.lift (decodeOutcome env "key base64 decode: " result.key)
  let (redeemToken, redeemShares) ← Eff.lift (mintedMaterial env effectiveThreshold result.redeemToken)
  return {
    key
    handle := result.handle
    expiresAt := result.expiresAt.bind chronoToTimestamp
    redeemToken
    redeemShares
    redeemTokenExpiresAt := result.redeemTokenExpiresAt.bind chronoToTimestamp
    threshold := effectiveThreshold
    numShares := effectiveNumShares }

/-- What `rotate_secret` hands to its handler. The numbers of shares are cut to a byte. -/
def rotateRequest (req : Proto.RotateSecretRequest) : RotateSecretRequest where
  oldHandle := req.oldHandle
  newPlaintext := req.newPlaintext
  customerId := nonEmpty req.customerId
  metadata := req.metadata
  ttlSeconds := positive req.ttlSeconds
  rotationReason := nonEmpty req.rotationReason
  lifecycle := .fromProto req.lifecycle
  threshold := if req.threshold > 0 then some req.threshold.toUInt8 else none
  numShares := if req.numShares > 0 then some req.numShares.toUInt8 else none

/-- `rotate_secret`. The redeem token is sent as the text that the handler returns. -/
def rotateSecret (d : RotateDraws) (context : Option BrokerClientContext) (req : Proto.RotateSecretRequest) :
    Eff Broker RpcError Proto.RotateSecretResponse := do
  let context ← Eff.lift (brokerContext context)
  let result ← Eff.mapError svcServiceErr (rotateSecretImpl env.toEnv d context (rotateRequest req))
  return {
    newHandle := result.newHandle
    createdAt := chronoToTimestamp result.createdAt
    expiresAt := result.expiresAt.bind chronoToTimestamp
    redeemToken := asBytes result.redeemToken
    redeemTokenExpiresAt := result.redeemTokenExpiresAt.bind chronoToTimestamp
    oldRevoked := result.oldRevoked
    newShares := result.newShares.map protoShare }

/-- A share of a message. -/
def presentedShare (share : Proto.ThresholdShare) : Except RpcError Threshold.Share := do
  Eff.rejectIf (share.x = 0 ∨ share.x > 255) (.status .invalidArgument "share x must be in 1..=255")
  Eff.rejectIf (share.y.length ≠ 32) (.status .invalidArgument "share y must be exactly 32 bytes")
  return ⟨share.x.toUInt8, share.y⟩

/-- The text that `unwrap_secret_v2` hands to its handler for the shares or the token of a message. -/
def presentedToken (req : Proto.UnwrapSecretV2Request) : Except RpcError String :=
  if req.redeemShares ≠ [] then do
    let shares ← req.redeemShares.mapM presentedShare
    return env.serde.sharesToString shares
  else if req.redeemToken ≠ [] then .ok (Base64.standard.encode req.redeemToken)
  else .error (.status .invalidArgument "either redeem_token or redeem_shares must be provided")

/-- What `unwrap_secret_v2` hands to its handler. Discharges that cannot be read are dropped. -/
def unwrapRequest (req : Proto.UnwrapSecretV2Request) (redeemToken : String) : UnwrapV2Request where
  handle := req.handle
  redeemToken := redeemToken
  tenantId := emptyToNone req.tenantId
  provider := emptyToNone req.provider
  circuitId := emptyToNone req.circuitId
  nodeId := emptyToNone req.nodeId
  discharges := req.discharges.filterMap fun token => (DischargeMacaroon.deserialize token).toOption

/-- `unwrap_secret_v2`. -/
def unwrapSecretV2 (d : UnwrapDraws) (context : Option BrokerClientContext) (req : Proto.UnwrapSecretV2Request) :
    Eff Broker RpcError Proto.UnwrapSecretResponse := do
  let context ← Eff.lift (brokerContext context)
  let redeemToken ← Eff.lift (presentedToken env req)
  let resp ← Eff.mapError svcServiceErr (unwrapSecretV2Impl env.toEnv d context (unwrapRequest req redeemToken))
  let plaintext ← Eff.lift (decodeOutcome env "base64 decode: " resp.plaintext)
  return { plaintext }

/-- `delete_secret`. -/
def deleteSecret (d : LoadDraws) (deleteDisk : Disk) (context : Option BrokerClientContext) (handle : String) :
    Eff Broker RpcError Unit := do
  let context ← Eff.lift (brokerContext context)
  let _ ← Eff.mapError (svcErr env) (deleteSecretImpl env.toEnv d deleteDisk context handle)
  return ()

/-- `revoke_secret`. -/
def revokeSecret (d : RevokeDraws) (context : Option BrokerClientContext) (req : Proto.RevokeSecretRequest) :
    Eff Broker RpcError Proto.RevokeSecretResponse := do
  let context ← Eff.lift (brokerContext context)
  let result ← Eff.mapError svcServiceErr (revokeSecretImpl env.toEnv d context ⟨req.handle, nonEmpty req.reason⟩)
  return { revoked := result.revoked, revokedAt := result.revokedAt.bind chronoToTimestamp }

/-- `distribute_share`. -/
def distributeShare (d : LoadDraws) (context : Option BrokerClientContext) (req : Proto.DistributeShareRequest) :
    Eff Broker RpcError Proto.DistributeShareResponse := do
  let context ← Eff.lift (brokerContext context)
  let share ← Eff.lift (Eff.okOr req.share (.status .invalidArgument "share is required"))
  Eff.lift (Eff.rejectIf (share.x = 0 ∨ share.x > 255) (.status .invalidArgument "share x must be 1..=255"))
  Eff.lift (Eff.rejectIf (share.y.length ≠ 32) (.status .invalidArgument "share y must be 32 bytes"))
  let result ← Eff.mapError (svcErr env) (distributeShareImpl env.toEnv d context
    ⟨req.handle, req.shareIndex, ⟨share.x.toUInt8, share.y⟩, req.custodianId⟩)
  return { accepted := result.accepted, ackToken := result.ackToken }

/-- `describe_channel`. The session id is a part of the context that only this call reads. -/
def describeChannel (sessionId : Option Uuid) (context : Option BrokerClientContext) :
    Except RpcError Proto.DescribeChannelResponse := do
  let context ← brokerContext context
  let sessionId ← Eff.okOr sessionId (.status .internal "authenticated TLS context is missing session ID")
  return {
    sessionId := sessionId.toString
    tlsExporter := context.exporter
    tlsExporterHash := (env.sha256 context.exporter).val
    authenticatedTransport := context.authenticatedTransport
    principalId := context.principalId.getD ""
    peerCertSha256 := context.peerCertSha256.getD []
    attestationDigest := context.attestationDigest.getD [] }

def parseCryptoAlgorithm (value : String) : Except RpcError EncryptionAlgorithm :=
  if trim value = "" ∨ trim value = "aes-256-gcm" then .ok .aes256Gcm
  else if trim value = "chacha20-poly1305" then .ok .chaCha20Poly1305
  else if trim value = "xchacha20-poly1305" then .ok .xChaCha20Poly1305
  else if trim value = "kyber768" then .ok .kyber768
  else .error (.status .invalidArgument ("unsupported algorithm: " ++ trim value))

/-- `crypto_encrypt`. -/
def cryptoEncrypt (d : CryptoDraws) (context : Option BrokerClientContext) (req : Proto.CryptoEncryptRequest) :
    Eff ServerState RpcError Proto.CryptoEncryptResponse := do
  let _ ← Eff.lift (brokerContext context)
  let algorithm ← Eff.lift (parseCryptoAlgorithm req.algorithm)
  let result ← Eff.mapError (svcErr env) (encryptDataWithKey env d req.plaintext algorithm (emptyToNone req.keyId))
  return { ciphertext := result.ciphertext, keyId := result.keyId.getD "", nonce := result.nonce }

/-- `crypto_decrypt`. -/
def cryptoDecrypt (now : DateTime) (loadFails : Bool) (context : Option BrokerClientContext)
    (req : Proto.CryptoDecryptRequest) (s : ServerState) : Except RpcError Proto.CryptoDecryptResponse := do
  let _ ← brokerContext context
  let keyId := trim req.keyId
  Eff.rejectIf (keyId = "") (.status .invalidArgument "key_id is required")
  let algorithm ← parseCryptoAlgorithm req.algorithm
  let result ← (decryptData env now loadFails s req.ciphertext algorithm keyId).mapError fun message =>
    svcErr env (.anyhow message)
  return { plaintext := result.plaintext, verified := result.verified }

end SecretBroker

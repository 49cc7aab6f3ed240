import SecretBroker.Server

/-! The client library. It calls the broker over gRPC and keeps the redeem material of what it wraps, mints and rotates in
a cache, from which a later unwrap takes it. Materials are base64 texts and shares in the cache, raw bytes and shares
on the wire. -/

open Wire

namespace SecretBroker

/-- `Utc.timestamp_opt`: a second that chrono represents, with a fraction that is a leap second at most at the end of a
minute. -/
def DateTime.timestampOpt (secs : Int) (nanos : ℕ) : Option DateTime :=
  if secs < minSecs ∨ maxSecs < secs then none
  else if nanos < 1000000000 ∨ (nanos < 2000000000 ∧ secs % 60 = 59) then some ⟨secs, nanos⟩
  else none

/-- `SecretLifecycle::into_proto`, as the number of the message. -/
def SecretLifecycle.intoProto : SecretLifecycle → Int32
  | .singleUseUnwrap => 0
  | .renewableLease => 1
  | .serviceBootstrap => 2

/-- The `Debug` text of a lifecycle. -/
def SecretLifecycle.debugText : SecretLifecycle → String
  | .singleUseUnwrap => "SingleUseUnwrap"
  | .renewableLease => "RenewableLease"
  | .serviceBootstrap => "ServiceBootstrap"

namespace Client

/-- The texts that other crates give to errors and times. -/
structure ClientEnv where
  statusText : RpcError → String
  timeText : DateTime → String

/-- `SecretBrokerGrpcAdapter`, without its connection and its cache. -/
structure Adapter where
  clientPrincipalId : Option String

/-- `SecretBrokerGrpcAdapter::new`, from the configuration that `connect` makes. -/
def Adapter.new : Adapter := ⟨none⟩

structure ThresholdShareMaterial where
  x : UInt8
  y : Bytes
  deriving DecidableEq, Repr

/-- The conversion of metadata: the `Debug` text of a document, and the document that an object is after it has been a
message, where all numbers are doubles. -/
structure ClientJson where
  debugText : Value → String
  asStruct : List (String × Value) → Value

structure WrapV2Params where
  metadata : Option Value
  tenantId : Option String
  provider : Option String
  circuitId : Option String
  nodeId : Option String
  ttlSeconds : Option UInt64
  lifecycle : Option SecretLifecycle
  initialLeaseSeconds : Option UInt64
  label : Option String
  unwrapPrincipalId : Option String

structure WrapResponse where
  handle : String
  createdAt : DateTime
  expiresAt : Option DateTime
  redeemToken : String
  redeemTokenExpiresAt : Option DateTime
  deriving DecidableEq, Repr

structure MintAeadKeyV2Params where
  ttlSeconds : Option UInt64
  label : Option String
  tenantId : Option String
  provider : Option String
  threshold : Option UInt8
  numShares : Option UInt8
  lifecycle : Option SecretLifecycle
  initialLeaseSeconds : Option UInt64
  unwrapPrincipalId : Option String
  custodianIds : Option (List String)

structure MintAeadKeyV2Lease where
  key : Bytes
  handle : String
  redeemToken : Option String
  redeemShares : List ThresholdShareMaterial
  redeemTokenExpiresAt : Option DateTime
  expiresAt : Option DateTime
  threshold : UInt8
  numShares : UInt8
  deriving DecidableEq, Repr

structure UnwrapSecretV2Params where
  handle : String
  redeemToken : Option String
  redeemShares : List ThresholdShareMaterial
  tenantId : Option String
  provider : Option String
  circuitId : Option String
  nodeId : Option String
  discharges : List String

structure RevokeResult where
  revoked : Bool
  revokedAt : Option DateTime
  deriving DecidableEq, Repr

structure RotateParams where
  customerId : Option String
  metadata : Option Value
  ttlSeconds : Option UInt64
  lifecycle : Option SecretLifecycle
  rotationReason : Option String
  threshold : Option UInt8
  numShares : Option UInt8

structure RotateResult where
  newHandle : String
  createdAt : Option DateTime
  expiresAt : Option DateTime
  redeemToken : String
  redeemTokenExpiresAt : Option DateTime
  oldRevoked : Bool
  newShares : List ThresholdShareMaterial
  deriving DecidableEq, Repr

def shareYLen : ℕ := 32

/-- `validate_threshold_shares`. -/
def validateThresholdShares (shares : List ThresholdShareMaterial) : Except String Unit := do
  Eff.rejectIf (shares = []) "threshold shares cannot be empty"
  shares.forM fun share => do
    Eff.rejectIf (share.x = 0) "threshold share x must be in 1..=255"
    Eff.rejectIf (share.y.length ≠ shareYLen) "threshold share y must be exactly 32 bytes"

/-- A share of a response, before its length is checked. -/
def protoShareToMaterial (share : Proto.ThresholdShare) : Except String ThresholdShareMaterial := do
  Eff.rejectIf (share.x = 0 ∨ share.x > 255) "threshold share x must be in 1..=255"
  return ⟨share.x.toUInt8, share.y⟩

/-- `proto_shares_to_material`. -/
def protoSharesToMaterial (shares : List Proto.ThresholdShare) : Except String (List ThresholdShareMaterial) :=
  if shares = [] then .ok []
  else do
    let materials ← shares.mapM protoShareToMaterial
    validateThresholdShares materials
    return materials

/-- `material_to_proto_shares`. -/
def materialToProtoShares (shares : List ThresholdShareMaterial) : Except String (List Proto.ThresholdShare) := do
  validateThresholdShares shares
  return shares.map fun share => ⟨share.x.toUInt32, share.y⟩

/-- `timestamp_to_datetime`. The fraction of a message is a natural number here, so that the check for a negative one
has nothing to refuse. -/
def timestampToDatetime (ts : Timestamp) : Except String DateTime := do
  Eff.rejectIf (ts.nanos < 0) "timestamp nanos cannot be negative"
  Eff.okOr (DateTime.timestampOpt ts.seconds ts.nanos.toNat) "invalid timestamp (out of range)"

/-- `optional_timestamp`. -/
def optionalTimestamp : Option Timestamp → Except String (Option DateTime)
  | none => .ok none
  | some ts => do
      let t ← timestampToDatetime ts
      return some t

/-- `required_timestamp`. -/
def requiredTimestamp (ts : Option Timestamp) (field : String) : Except String DateTime := do
  let ts ← Eff.okOr ts ("response missing required field " ++ field)
  timestampToDatetime ts

/-- `option_json_to_struct`. -/
def optionJsonToStruct (json : ClientJson) : Option Value → Except String (Option Value)
  | none => .ok none
  | some (.object members) => .ok (some (json.asStruct members))
  | some other => .error ("metadata JSON must be an object, received " ++ json.debugText other)

inductive RedeemMaterial where
  | token (token : String)
  | shares (shares : List ThresholdShareMaterial)
  deriving DecidableEq, Repr

structure RedeemCacheEntry where
  material : RedeemMaterial
  expiresAt : Option DateTime
  deriving DecidableEq, Repr

/-- `is_expired`. -/
def RedeemCacheEntry.isExpired (entry : RedeemCacheEntry) (now : DateTime) : Bool :=
  entry.expiresAt.any fun expiry => now > expiry

/-- The entries by their handles. -/
abbrev RedeemCache := String → Option RedeemCacheEntry

/-- The accesses to the cache that change it. -/
inductive CacheOp where
  | insert (handle : String) (entry : RedeemCacheEntry)
  | remove (handle : String)
  | retain (clock : String → DateTime)

def CacheOp.apply (cache : RedeemCache) : CacheOp → RedeemCache
  | .insert handle entry => Function.update cache handle (some entry)
  | .remove handle => Function.update cache handle none
  -- the clock is read anew for each entry
  | .retain clock => fun handle => (cache handle).filter fun entry => !entry.isExpired (clock handle)

def access (op : CacheOp) : Eff RedeemCache String Unit := Eff.modify op.apply

variable (lib : ClientEnv)

/-- `purge_expired`, which does not use the time it is given. -/
def purgeExpired (clock : String → DateTime) : Eff RedeemCache String Unit := access (.retain clock)

/-- `remember_redeem_token`. -/
def rememberRedeemToken (handle token : String) (expiresAt : Option DateTime) : Eff RedeemCache String Unit := do
  let trimmed := trim token
  let _ ← Eff.lift (Eff.okOr (Base64.standard.decode trimmed) ("invalid redeem token received for handle " ++ handle))
  access (.insert (trim handle) ⟨.token trimmed, expiresAt⟩)

/-- `remember_redeem_shares`. -/
def rememberRedeemShares (handle : String) (shares : List ThresholdShareMaterial) (expiresAt : Option DateTime) :
    Eff RedeemCache String Unit := do
  Eff.lift (validateThresholdShares shares)
  access (.insert (trim handle) ⟨.shares shares, expiresAt⟩)

/-- `take_redeem_material`. A capability has the parts of an entry. -/
def takeRedeemMaterial (handle : String) (now : DateTime) : Eff RedeemCache String RedeemCacheEntry := do
  let cache ← Eff.read
  match cache handle with
  | none => Eff.fail ("redeem material for handle " ++ handle ++ " not loaded")
  | some entry => do
      access (.remove handle)
      match entry.expiresAt with
      | none => return entry
      | some expiry => do
          Eff.lift (Eff.rejectIf (now > expiry)
            ("redeem token for handle " ++ handle ++ " expired at " ++ lib.timeText expiry))
          return entry

/-- `validate_expiry`. -/
def validateExpiry (now : DateTime) : Option DateTime → Except String Unit
  | none => .ok ()
  | some expiry => Eff.rejectIf (now > expiry) ("redeem material expired at " ++ lib.timeText expiry)

/-- `preload_redeem_token`. -/
def preloadRedeemToken (clock : String → DateTime) (handle token : String) (expiresAt : Option DateTime) :
    Eff RedeemCache String Unit := do
  purgeExpired clock
  rememberRedeemToken (trim handle) token expiresAt

/-- `preload_redeem_shares`. -/
def preloadRedeemShares (clock : String → DateTime) (handle : String) (shares : List ThresholdShareMaterial)
    (expiresAt : Option DateTime) : Eff RedeemCache String Unit := do
  purgeExpired clock
  rememberRedeemShares (trim handle) shares expiresAt

namespace Adapter

variable (adapter : Adapter)

/-- `require_authenticated_channel_principal`. -/
def requireAuthenticatedChannelPrincipal (operation : String) (channel : Proto.DescribeChannelResponse)
    (requirePeerCert : Bool) : Except String String := do
  let channelPrincipal := trim channel.principalId
  Eff.rejectIf (channel.authenticatedTransport = false)
    ("broker DescribeChannel reports unauthenticated transport for " ++ operation)
  Eff.rejectIf (channelPrincipal = "") ("broker DescribeChannel reports no authenticated principal for " ++ operation)
  Eff.rejectIf (requirePeerCert ∧ channel.peerCertSha256 = [])
    ("broker DescribeChannel reports no peer certificate lineage for " ++ operation)
  match adapter.clientPrincipalId with
  | none => return channelPrincipal
  | some clientPrincipal => do
      Eff.rejectIf (trim clientPrincipal ≠ "" ∧ trim clientPrincipal ≠ channelPrincipal)
        ("broker channel principal mismatch: client=" ++ trim clientPrincipal ++ " broker=" ++ channelPrincipal)
      return channelPrincipal

/-- `resolve_v2_unwrap_principal`. -/
def resolveV2UnwrapPrincipal (lifecycle : SecretLifecycle) (requestedPrincipal : Option String)
    (channel : Proto.DescribeChannelResponse) : Except String String := do
  let requested := requestedPrincipal.bind normalizeOptionalString
  if ¬ (requested.isSome ∨ lifecycle ≠ .singleUseUnwrap) then return ""
  else
    let channelPrincipal ←
      adapter.requireAuthenticatedChannelPrincipal lifecycle.debugText channel (lifecycle ≠ .singleUseUnwrap)
    match lifecycle, requested with
    | .singleUseUnwrap, some principal => do
        Eff.rejectIf (principal ≠ channelPrincipal) ("single-use explicit unwrap principal " ++ principal ++
          " does not match broker channel principal " ++ channelPrincipal)
        return principal
    | .singleUseUnwrap, none => return ""
    | .renewableLease, _ | .serviceBootstrap, _ => return requested.getD channelPrincipal

end Adapter

/-! ### Calls -/

/-- A broker and the cache of one of its clients. -/
structure Deployment where
  broker : Broker
  cache : RedeemCache

/-- What the other side of the connection makes of a call, with errors that `map_status` has turned into texts. It is a
broker, some other server, or none. -/
abbrev Remote (α : Type) := Eff Broker String α

/-- A call over the connection. -/
def call {α : Type} (m : Remote α) : Eff Deployment String α :=
  Eff.zoom Deployment.broker (fun w broker => { w with broker }) m

/-- A broker at the other side. -/
def served {α : Type} (handler : Eff Broker RpcError α) : Remote α := Eff.mapError lib.statusText handler

/-- A computation on the cache. -/
def onCache {α : Type} (m : Eff RedeemCache String α) : Eff Deployment String α :=
  Eff.zoom Deployment.cache (fun w cache => { w with cache }) m

/-- The message for a request to mint. -/
def MintAeadKeyV2Params.message (params : MintAeadKeyV2Params) (unwrapPrincipalId : String) :
    Proto.MintAeadKeyV2Request where
  ttlSeconds := params.ttlSeconds.getD 0
  label := params.label.getD ""
  tenantId := params.tenantId.getD ""
  provider := params.provider.getD ""
  threshold := (params.threshold.getD 0).toUInt32
  numShares := (params.numShares.getD 0).toUInt32
  lifecycle := (params.lifecycle.getD .singleUseUnwrap).intoProto
  initialLeaseSeconds := params.initialLeaseSeconds.getD 0
  custodianIds := params.custodianIds.getD []
  unwrapPrincipalId := unwrapPrincipalId

/-- A number of a response that must fit into a byte. -/
def responseByte (n : UInt32) (default : UInt8) (error : String) : Except String UInt8 :=
  if n = 0 then .ok default
  else if n ≤ 255 then .ok n.toUInt8
  else .error error

/-- The base64 text of a token, if there is one. -/
def tokenText (token : Bytes) : Option String := if token = [] then none else some (Base64.standard.encode token)

/-- The part of `mint_aead_key_v2` after the call. -/
def acceptMinted (response : Proto.MintAeadKeyV2Response) : Eff RedeemCache String MintAeadKeyV2Lease := do
  let threshold ← Eff.lift (responseByte response.threshold 1 "response threshold exceeds u8")
  let numShares ← Eff.lift (responseByte response.numShares threshold "response num_shares exceeds u8")
  let expiresAt ← Eff.lift (optionalTimestamp response.expiresAt)
  let redeemExpiresAt ← Eff.lift (optionalTimestamp response.redeemTokenExpiresAt)
  let redeemShares ← Eff.lift (protoSharesToMaterial response.redeemShares)
  let redeemToken := tokenText response.redeemToken
  if threshold > 1 then do
    Eff.lift (Eff.rejectIf (redeemShares = []) "mint_aead_key_v2 response missing threshold shares")
    rememberRedeemShares response.handle redeemShares redeemExpiresAt
  else do
    let token ← Eff.lift (Eff.okOr redeemToken "mint_aead_key_v2 response missing redeem token")
    rememberRedeemToken response.handle token redeemExpiresAt
  return {
    key := response.key
    handle := response.handle
    redeemToken
    redeemShares
    redeemTokenExpiresAt := redeemExpiresAt
    expiresAt
    threshold
    numShares }

/-- The principal that `wrap_bytes_v2` and `mint_aead_key_v2` send. The channel is described only if a principal is
needed. -/
def resolvePrincipal (adapter : Adapter) (describe : Remote Proto.DescribeChannelResponse) (lifecycle : SecretLifecycle)
    (unwrapPrincipalId : Option String) : Eff Deployment String String :=
  let requested := unwrapPrincipalId.bind normalizeOptionalString
  if requested.isSome ∨ lifecycle ≠ .singleUseUnwrap then do
    let channel ← call describe
    Eff.lift (adapter.resolveV2UnwrapPrincipal lifecycle requested channel)
  else return ""

/-- `mint_aead_key_v2`, with any server. -/
def mintAeadKeyV2Over (adapter : Adapter) (describe : Remote Proto.DescribeChannelResponse)
    (serve : Proto.MintAeadKeyV2Request → Remote Proto.MintAeadKeyV2Response) (params : MintAeadKeyV2Params) :
    Eff Deployment String MintAeadKeyV2Lease := do
  let resolved ← resolvePrincipal adapter describe (params.lifecycle.getD .singleUseUnwrap) params.unwrapPrincipalId
  let response ← call (serve (params.message resolved))
  onCache (acceptMinted response)

/-- `mint_aead_key_v2`, with a broker. -/
def mintAeadKeyV2 (env : ServerEnv) (adapter : Adapter) (sessionId : Option Uuid) (d : MintDraws)
    (context : Option BrokerClientContext) (params : MintAeadKeyV2Params) : Eff Deployment String MintAeadKeyV2Lease :=
  mintAeadKeyV2Over adapter (served lib (Eff.lift (describeChannel env sessionId context)))
    (fun req => served lib (SecretBroker.mintAeadKeyV2 env d context req)) params

/-- The readings of the clock during an unwrap. -/
structure UnwrapClock where
  now : DateTime
  purge : String → DateTime
  validate : DateTime

/-- What a cached entry is sent as. -/
def sendEntry (now : DateTime) (entry : RedeemCacheEntry) : Except String (Bytes × List Proto.ThresholdShare) := do
  validateExpiry lib now entry.expiresAt
  match entry.material with
  | .token token => do
      let bytes ← Eff.okOr (Base64.standard.decode token) "cached redeem token is not valid base64"
      return (bytes, [])
  | .shares shares => do
      let protoShares ← materialToProtoShares shares
      return ([], protoShares)

/-- The token and the shares that `unwrap_secret_v2` sends. -/
def unwrapMaterial (clock : UnwrapClock) (params : UnwrapSecretV2Params) :
    Eff RedeemCache String (Bytes × List Proto.ThresholdShare) :=
  match params.redeemToken with
  | some token => Eff.lift do
      let bytes ← Eff.okOr (Base64.standard.decode (trim token)) "redeem token is not valid base64"
      return (bytes, [])
  | none =>
      if params.redeemShares ≠ [] then Eff.lift do
        let shares ← materialToProtoShares params.redeemShares
        return ([], shares)
      else do
        let entry ← takeRedeemMaterial lib (trim params.handle) clock.now
        Eff.lift (sendEntry lib clock.validate entry)

/-- The message for a request to unwrap. -/
def UnwrapSecretV2Params.message (params : UnwrapSecretV2Params) (redeemToken : Bytes)
    (redeemShares : List Proto.ThresholdShare) : Proto.UnwrapSecretV2Request where
  handle := trim params.handle
  redeemToken := redeemToken
  redeemShares := redeemShares
  tenantId := params.tenantId.getD ""
  provider := params.provider.getD ""
  circuitId := params.circuitId.getD ""
  nodeId := params.nodeId.getD ""
  discharges := params.discharges

/-- The request that `unwrap_secret_v2` sends. -/
def unwrapMessage (clock : UnwrapClock) (params : UnwrapSecretV2Params) :
    Eff RedeemCache String Proto.UnwrapSecretV2Request := do
  purgeExpired clock.purge
  Eff.lift (Eff.rejectIf (params.redeemToken.isSome ∧ params.redeemShares ≠ [])
    "unwrap_secret_v2 requires either redeem_token or redeem_shares, not both")
  let (redeemToken, redeemShares) ← unwrapMaterial lib clock params
  return params.message redeemToken redeemShares

/-- `unwrap_secret_v2`, with any server. -/
def unwrapSecretV2Over (serve : Proto.UnwrapSecretV2Request → Remote Proto.UnwrapSecretResponse) (clock : UnwrapClock)
    (params : UnwrapSecretV2Params) : Eff Deployment String Bytes := do
  let request ← onCache (unwrapMessage lib clock params)
  let response ← call (serve request)
  return response.plaintext

/-- `unwrap_secret_v2`, with a broker. -/
def unwrapSecretV2 (env : ServerEnv) (d : UnwrapDraws) (clock : UnwrapClock) (context : Option BrokerClientContext)
    (params : UnwrapSecretV2Params) : Eff Deployment String Bytes :=
  unwrapSecretV2Over lib (fun req => served lib (SecretBroker.unwrapSecretV2 env d context req)) clock params

/-- The message for a request to wrap. -/
def WrapV2Params.message (params : WrapV2Params) (plaintext : Bytes) (metadata : Option Value)
    (unwrapPrincipalId : String) : Proto.WrapSecretV2Request where
  plaintext := plaintext
  customerId := ""
  metadata := metadata
  lifecycle := (params.lifecycle.getD .singleUseUnwrap).intoProto
  initialLeaseSeconds := params.initialLeaseSeconds.getD 0
  label := params.label.getD ""
  tenantId := params.tenantId.getD ""
  provider := params.provider.getD ""
  circuitId := params.circuitId.getD ""
  nodeId := params.nodeId.getD ""
  unwrapPrincipalId := unwrapPrincipalId
  ttlSeconds := params.ttlSeconds.getD 0

/-- The part of `wrap_bytes_v2` after the call. -/
def acceptWrapped (response : Proto.WrapSecretResponse) : Eff RedeemCache String WrapResponse := do
  let createdAt ← Eff.lift (requiredTimestamp response.createdAt "created_at")
  let expiresAt ← Eff.lift (optionalTimestamp response.expiresAt)
  let redeemToken := Base64.standard.encode response.redeemToken
  let redeemTokenExpiresAt ← Eff.lift (optionalTimestamp response.redeemTokenExpiresAt)
  rememberRedeemToken response.handle redeemToken redeemTokenExpiresAt
  return { handle := response.handle, createdAt, expiresAt, redeemToken, redeemTokenExpiresAt }

/-- `wrap_bytes_v2`. -/
def wrapBytesV2 (json : ClientJson) (adapter : Adapter) (describe : Remote Proto.DescribeChannelResponse)
    (serve : Proto.WrapSecretV2Request → Remote Proto.WrapSecretResponse) (clock : String → DateTime) (plaintext : Bytes)
    (params : WrapV2Params) : Eff Deployment String WrapResponse := do
  onCache (purgeExpired clock)
  let metadata ← Eff.lift (optionJsonToStruct json params.metadata)
  let resolved ← resolvePrincipal adapter describe (params.lifecycle.getD .singleUseUnwrap) params.unwrapPrincipalId
  let response ← call (serve (params.message plaintext metadata resolved))
  onCache (acceptWrapped response)

/-- `delete_secret`. The handle is not trimmed, on the wire or for the cache. -/
def deleteSecret (serve : String → Remote Unit) (handle : String) : Eff Deployment String Unit := do
  call (serve handle)
  onCache (access (.remove handle))

/-- `revoke_secret`. -/
def revokeSecret (serve : Proto.RevokeSecretRequest → Remote Proto.RevokeSecretResponse) (handle : String)
    (reason : Option String) : Eff Deployment String RevokeResult := do
  let response ← call (serve ⟨trim handle, reason.getD ""⟩)
  onCache (access (.remove (trim handle)))
  let revokedAt ← Eff.lift (optionalTimestamp response.revokedAt)
  return { revoked := response.revoked, revokedAt }

/-- The message for a request to rotate. -/
def RotateParams.message (params : RotateParams) (oldHandle : String) (newPlaintext : Bytes) (metadata : Option Value) :
    Proto.RotateSecretRequest where
  oldHandle := trim oldHandle
  newPlaintext := newPlaintext
  customerId := params.customerId.getD ""
  metadata := metadata
  ttlSeconds := params.ttlSeconds.getD 0
  lifecycle := (params.lifecycle.map SecretLifecycle.intoProto).getD 0
  rotationReason := params.rotationReason.getD ""
  threshold := (params.threshold.getD 0).toUInt32
  numShares := (params.numShares.getD 0).toUInt32

/-- The redeem token of a rotation, which is a text already; bytes that are none stand for no token. -/
def rotatedToken (response : Proto.RotateSecretResponse) : String := (fromUtf8 response.redeemToken).getD ""

/-- A token that cannot be kept is no failure of a rotation. -/
def rememberRotated (response : Proto.RotateSecretResponse) (expiresAt : Option DateTime) : Eff RedeemCache String Unit :=
  if rotatedToken response ≠ "" then
    Eff.attempt (rememberRedeemToken (trim response.newHandle) (rotatedToken response) expiresAt)
  else return ()

/-- The part of `rotate_secret` after the call. -/
def acceptRotated (oldHandle : String) (response : Proto.RotateSecretResponse) : Eff RedeemCache String RotateResult := do
  let redeemTokenExpiresAt ← Eff.lift (optionalTimestamp response.redeemTokenExpiresAt)
  rememberRotated response redeemTokenExpiresAt
  access (.remove (trim oldHandle))
  let newShares ← Eff.lift (protoSharesToMaterial response.newShares)
  let createdAt ← Eff.lift (optionalTimestamp response.createdAt)
  let expiresAt ← Eff.lift (optionalTimestamp response.expiresAt)
  return {
    newHandle := trim response.newHandle
    createdAt
    expiresAt
    redeemToken := rotatedToken response
    redeemTokenExpiresAt
    oldRevoked := response.oldRevoked
    newShares }

/-- The answer to the request of `rotate_secret`. -/
def rotateAnswer (json : ClientJson) (serve : Proto.RotateSecretRequest → Remote Proto.RotateSecretResponse)
    (oldHandle : String) (newPlaintext : Bytes) (params : RotateParams) :
    Eff Deployment String Proto.RotateSecretResponse := do
  let metadata ← Eff.lift (optionJsonToStruct json params.metadata)
  call (serve (params.message oldHandle newPlaintext metadata))

/-- `rotate_secret`. -/
def rotateSecret (json : ClientJson) (serve : Proto.RotateSecretRequest → Remote Proto.RotateSecretResponse)
    (oldHandle : String) (newPlaintext : Bytes) (params : RotateParams) : Eff Deployment String RotateResult := do
  let response ← rotateAnswer json serve oldHandle newPlaintext params
  onCache (acceptRotated oldHandle response)

end Client

end SecretBroker

import SecretBroker.Issuance
import SecretBroker.Redemption

/-! The handlers that work on an existing handle without revealing its secret. -/

open Wire

namespace SecretBroker

variable (env : Env)

/-- The record of a handle if there is one, which must then pass a check. -/
def loadChecked (d : LoadDraws) (handleId : Uuid) (validate : StoredEnvelopeRecord → Except ServiceError Unit)
    (onLoad onCheck : Failure → Failure) : Eff Broker Failure Unit := do
  let loaded ← Eff.mapError onLoad (perform d.disk handleId (SealedStore.load env.serde d.accessedAt))
  Eff.mapError onCheck (check (loaded.elim (.ok ()) validate))

/-- `delete_secret_impl`. -/
def deleteSecretImpl (d : LoadDraws) (deleteDisk : Disk) (context : BrokerClientContext) (handle : String) :
    Eff Broker Failure Bool := do
  let handleId ← check (parseHandleIdentifier env handle)
  loadChecked env d handleId (fun record => validateV2RecordManagementRequirements record context) .asStorage id
  let removed ← Eff.mapError .asStorage (perform deleteDisk handleId SealedStore.delete)
  recordTransparency env
    (transparencyEvent env .delete (if removed then "removed" else "not_found") handle none none context d.loggedAt
      (contextMeta context))
  return removed

structure ThirdPartyCaveatRequest where
  location : String
  condition : String

structure AttenuateV2Request where
  handle : String
  tenantId : Option String
  provider : Option String
  circuitId : Option String
  nodeId : Option String
  action : Option String
  maxUses : Option UInt32
  thirdParty : Option ThirdPartyCaveatRequest

structure AttenuateV2Response where
  handle : String
  thirdPartyCaveatId : Option String
  deriving DecidableEq, Repr

/-- What attenuation draws. -/
structure AttenuateDraws where
  load : LoadDraws
  keyId : Uuid
  secret : Block 32
  keyCreatedAt : DateTime
  appendDisk : Disk

def brokerMaxUses : UInt32 := 1

/-- The caveats that a request adds on its own. -/
def firstPartyCaveats (payload : AttenuateV2Request) : Except ServiceError (List Caveat) := do
  Eff.rejectIf (payload.maxUses.any fun uses => uses ≠ brokerMaxUses)
    (.invalidAttenuation "max_uses currently only supports the live single-use value 1")
  return fieldCaveat .tenantId payload.tenantId ++ fieldCaveat .provider payload.provider ++
    fieldCaveat .circuitId payload.circuitId ++ fieldCaveat .nodeId payload.nodeId ++
    fieldCaveat .action payload.action ++ (payload.maxUses.map fun _ => Caveat.maxUses).toList

/-- The stored key of a third-party caveat. -/
def newCaveatKey (d : AttenuateDraws) (location condition : String) : ThirdPartyCaveatKey where
  location := location
  keyId := d.keyId.toString
  condition := some condition
  secretB64 := Base64.standard.encode d.secret.val
  createdAt := d.keyCreatedAt

/-- Register the key of a third-party caveat and return the caveat with its id. -/
def addThirdParty (d : AttenuateDraws) (handleId : Uuid) (tp : ThirdPartyCaveatRequest) :
    Eff Broker Failure Caveat := do
  let location ← check (Eff.okOr (normalizeOptionalString tp.location)
    (.invalidAttenuation "third-party location must be non-empty"))
  let condition ← check (Eff.okOr (normalizeOptionalString tp.condition)
    (.invalidAttenuation "third-party condition must be non-empty"))
  Eff.mapError .asStorage (perform d.appendDisk handleId
    (SealedStore.appendThirdPartyCaveatKey env.serde (newCaveatKey d location condition)))
  return .thirdParty location d.keyId.toString

/-- The third-party caveat of a request, if it asks for one. -/
def thirdPartyCaveat (d : AttenuateDraws) (handleId : Uuid) : Option ThirdPartyCaveatRequest →
    Eff Broker Failure (List Caveat)
  | none => pure []
  | some tp => do
      let caveat ← addThirdParty env d handleId tp
      return [caveat]

/-- The text of a caveat that was added, by its field in the request. -/
def fieldText (name : String) (field : Option String) : List String :=
  ((field.bind normalizeOptionalString).map fun value => name ++ "=" ++ value).toList

/-- The texts of all caveats that a request has added. -/
def addedCaveats (d : AttenuateDraws) (payload : AttenuateV2Request) : List String :=
  fieldText "tenant_id" payload.tenantId ++ fieldText "provider" payload.provider ++
    fieldText "circuit_id" payload.circuitId ++ fieldText "node_id" payload.nodeId ++ fieldText "action" payload.action ++
    (payload.maxUses.map fun _ => "max_uses=1").toList ++
    ((payload.thirdParty.bind fun tp => normalizeOptionalString tp.location).map fun location =>
      "third_party:location=" ++ location ++ " key_id=" ++ d.keyId.toString).toList

/-- What the entry of an attenuation says. -/
def attenuateMeta (d : AttenuateDraws) (context : BrokerClientContext) (payload : AttenuateV2Request) :
    List (String × Option Value) :=
  [("caveats_added", some (.integer (addedCaveats d payload).length)),
    ("caveat_types", some (.array ((addedCaveats d payload).map .string)))] ++ contextMeta context

/-- `attenuate_handle_v2_impl`. -/
def attenuateHandleV2Impl (d : AttenuateDraws) (context : BrokerClientContext) (payload : AttenuateV2Request) :
    Eff Broker Failure AttenuateV2Response := do
  let mac ← check (parseHandleV2 payload.handle)
  check ((mac.verifySignature env.mac (env.rootKey mac.identifier)).mapError fun _ => .invalidHandle)
  let record ← loadRecord env d.load mac.identifier
  check (validateV2RecordIdentityRequirements record context)
  let firstParty ← check (firstPartyCaveats payload)
  let thirdParty ← thirdPartyCaveat env d mac.identifier payload.thirdParty
  check (Eff.rejectIf (firstParty ++ thirdParty = []) (.invalidAttenuation "at least one caveat is required"))
  let attenuated := (firstParty ++ thirdParty).foldl (Macaroon.addCaveat env.mac) mac
  recordTransparency env
    { transparencyEvent env .attenuate "attenuated" payload.handle none (some record.envelope.customerId) context
        d.load.loggedAt (attenuateMeta d context payload) with
      parentHandleFingerprint := some (handleFingerprint env payload.handle) }
  return { handle := handleV2 attenuated, thirdPartyCaveatId := payload.thirdParty.map fun _ => d.keyId.toString }

structure RenewLeaseRequest where
  handle : String
  leaseDurationSeconds : UInt64

structure RenewLeaseResponse where
  leaseExpiresAt : DateTime
  renewalCount : UInt32
  deriving DecidableEq, Repr

/-- What a renewal draws. -/
structure RenewDraws where
  load : LoadDraws
  now : DateTime
  storeNow : DateTime
  renewDisk : Disk

/-- The new lease, which does not go past the hard expiry. -/
def cappedLease (expiresAt : Option DateTime) (newLease : DateTime) : DateTime :=
  match expiresAt with
  | some hardTtl => if newLease > hardTtl then hardTtl else newLease
  | none => newLease

/-- What the entry of a renewal says. -/
def renewMeta (context : BrokerClientContext) (renewalCount : UInt32) (lease : DateTime) : List (String × Option Value) :=
  [("renewal_count", some (.integer renewalCount.toNat)),
    ("lease_expires_at", some (.string (env.chrono.toRfc3339 lease)))] ++ contextMeta context

/-- `renew_lease_impl`. -/
def renewLeaseImpl (d : RenewDraws) (context : BrokerClientContext) (payload : RenewLeaseRequest) :
    Eff Broker Failure RenewLeaseResponse := do
  check (Eff.rejectIf (payload.leaseDurationSeconds = 0 ∨ payload.leaseDurationSeconds > 86400 * 30) .invalidTtl)
  let handleId ← check (parseHandleIdentifier env payload.handle)
  let record ← loadRecord env d.load handleId
  check (Eff.rejectIf (record.revoked = true) .revokedHandle)
  check (Eff.rejectIf (record.lifecycle ≠ .renewableLease)
    (.crypto "only RenewableLease secrets support lease renewal"))
  check (Eff.rejectIf (record.isExpired d.now = true) .expiredHandle)
  check (validateV2RecordIdentityRequirements record context)
  let newLease ← checkTime (d.now.addSeconds (asI64 payload.leaseDurationSeconds))
  let lease := cappedLease record.expiresAt newLease
  let updated ← Eff.mapError .asStorage (perform d.renewDisk handleId (SealedStore.renewLease env.serde lease d.storeNow))
  recordTransparency env
    { transparencyEvent env .renewLease "renewed" payload.handle none (some record.envelope.customerId) context
        d.load.loggedAt (renewMeta env context updated.leaseRenewalCount lease) with
      leaseSequence := some updated.leaseRenewalCount
      previousExpiresAt := some (record.leaseExpiresAt.getD d.now) }
  return { leaseExpiresAt := lease, renewalCount := updated.leaseRenewalCount }

structure RevokeSecretRequest where
  handle : String
  reason : Option String

structure RevokeSecretResponse where
  revoked : Bool
  revokedAt : Option DateTime
  deriving DecidableEq, Repr

/-- What a revocation draws. -/
structure RevokeDraws where
  load : LoadDraws
  storeNow : DateTime
  revokeDisk : Disk
  now : DateTime

/-- What the entry of a revocation says. -/
def revokeMeta (d : RevokeDraws) (context : BrokerClientContext) (payload : RevokeSecretRequest)
    (record : StoredEnvelopeRecord) : List (String × Option Value) :=
  [("handle_version", some (.integer 2)), ("handle_fingerprint", some (.string (handleFingerprint env payload.handle))),
    ("reason", payload.reason.map .string), ("revoked_at", some (.string (env.chrono.toRfc3339 d.now)))] ++
    recordMeta env.chrono record ++ contextMeta context

/-- `revoke_secret_impl`. -/
def revokeSecretImpl (d : RevokeDraws) (context : BrokerClientContext) (payload : RevokeSecretRequest) :
    Eff Broker Failure RevokeSecretResponse := do
  let handleId ← check (parseHandleIdentifier env payload.handle)
  let record ← loadRecord env d.load handleId
  check (validateV2RecordManagementRequirements record context)
  let revoked ← Eff.mapError .asStorage
    (perform d.revokeDisk handleId (SealedStore.revoke env.serde payload.reason d.storeNow))
  if revoked then
    recordTransparency env
      (transparencyEvent env .revoke "revoked" payload.handle none (some record.envelope.customerId) context
        d.load.loggedAt (revokeMeta env d context payload record))
    return { revoked, revokedAt := some d.now }
  else return { revoked, revokedAt := none }

structure RotateSecretRequest where
  oldHandle : String
  newPlaintext : Bytes
  customerId : Option String
  metadata : Option Value
  ttlSeconds : Option UInt64
  rotationReason : Option String
  lifecycle : SecretLifecycle
  threshold : Option UInt8
  numShares : Option UInt8

structure RotateSecretResponse where
  newHandle : String
  createdAt : DateTime
  expiresAt : Option DateTime
  redeemToken : String
  redeemTokenExpiresAt : Option DateTime
  oldRevoked : Bool
  newShares : List Threshold.Share
  deriving DecidableEq, Repr

/-- What a rotation draws. -/
structure RotateDraws where
  load : LoadDraws
  createdAt : DateTime
  persist : PersistDraws
  coefficients : ℕ → Scalar
  thresholdDisk : Disk
  revokeNow : DateTime
  revokeDisk : Disk

/-- The redeem material of a rotated secret: the token, or its shares. -/
def rotateRedeemMaterial (d : RotateDraws) (threshold numShares : UInt8) (outcome : StoredSecretOutcome) :
    Eff Broker Failure (String × List Threshold.Share) :=
  if threshold > 1 then do
    let split ← Eff.lift (splitRedeemToken env d.coefficients outcome.redeemToken threshold numShares)
    Eff.mapError .asStorage (perform d.thresholdDisk outcome.handleId
      (SealedStore.updateThresholdConfig env.serde threshold (encodedCommitments split)))
    return ("", split.shares)
  else return (outcome.redeemToken, [])

/-- What a rotation asks to be sealed. -/
def rotateInput (d : RotateDraws) (payload : RotateSecretRequest) (expiresAt : Option DateTime)
    (unwrapPrincipalId : Option String) : PersistSecretV2Input where
  plaintext := payload.newPlaintext
  customerId := requestCustomer env payload.customerId
  metadata := payload.metadata
  createdAt := d.createdAt
  expiresAt := expiresAt
  lifecycle := payload.lifecycle
  initialLeaseSeconds := none
  unwrapPrincipalId := unwrapPrincipalId

/-- What the entry of a rotation says. -/
def rotateMeta (context : BrokerClientContext) (oldHandle newHandle reason : String) (oldRevoked : Bool) :
    List (String × Option Value) :=
  [("old_revoked", some (.bool oldRevoked)), ("reason", some (.string reason))] ++ contextMeta context ++
    [("old_handle_fingerprint", some (.string (handleFingerprint env oldHandle))),
      ("new_handle_fingerprint", some (.string (handleFingerprint env newHandle)))]

/-- `rotate_secret_impl`: seal the replacement, then revoke the old handle. -/
def rotateSecretImpl (d : RotateDraws) (context : BrokerClientContext) (payload : RotateSecretRequest) :
    Eff Broker Failure RotateSecretResponse := do
  let oldHandleId ← check (parseHandleIdentifier env payload.oldHandle)
  let oldRecord ← loadRecord env d.load oldHandleId
  check (validateV2RecordManagementRequirements oldRecord context)
  let (expiresAt, _) ← Eff.lift (enforceTtl env payload.ttlSeconds d.createdAt)
  let threshold := max (payload.threshold.getD 1) 1
  let numShares := max (payload.numShares.getD 1) threshold
  check (Eff.rejectIf (threshold > numShares) .invalidTtl)
  let unwrapPrincipalId ← check (v2UnwrapPrincipal context payload.lifecycle none)
  let outcome ← persistSecretV2WithLifecycle env d.persist context (rotateInput env d payload expiresAt unwrapPrincipalId)
  let newHandle := env.mintHandle outcome.handleId
    ((outcome.expiresAt.map Caveat.expires).toList ++ [.action "unwrap", .maxUses])
  let (redeemToken, newShares) ← rotateRedeemMaterial env d threshold numShares outcome
  let reason := payload.rotationReason.getD "rotated to replacement capability"
  let oldRevoked ← Eff.mapError .asStorage
    (perform d.revokeDisk oldHandleId (SealedStore.revoke env.serde (some reason) d.revokeNow))
  recordTransparency env
    { transparencyEvent env .rotate "rotated" newHandle (some outcome.envelopeKeyId) (some outcome.customerId) context
        d.persist.loggedAt (rotateMeta env context payload.oldHandle newHandle reason oldRevoked) with
      parentHandleFingerprint := some (handleFingerprint env payload.oldHandle) }
  return {
    newHandle
    createdAt := d.createdAt
    expiresAt
    redeemToken
    redeemTokenExpiresAt := outcome.redeemTokenExpiresAt
    oldRevoked
    newShares }

/-- The replacement that a successful rotation has sealed, and its redeem material. -/
theorem rotate_eq_ok {d : RotateDraws} {context : BrokerClientContext} {payload : RotateSecretRequest}
    {response : RotateSecretResponse} {s s' : Broker} (h : rotateSecretImpl env d context payload s = (.ok response, s')) :
    ∃ expiresAt ttl unwrapPrincipalId outcome s₁ s₂ s₃,
      enforceTtl env payload.ttlSeconds d.createdAt = .ok (expiresAt, ttl) ∧
      persistSecretV2WithLifecycle env d.persist context (rotateInput env d payload expiresAt unwrapPrincipalId) s₁ =
        (.ok outcome, s₂) ∧
      rotateRedeemMaterial env d (max (payload.threshold.getD 1) 1)
        (max (payload.numShares.getD 1) (max (payload.threshold.getD 1) 1)) outcome s₂ =
          (.ok (response.redeemToken, response.newShares), s₃) ∧
      response.newHandle = env.mintHandle outcome.handleId
        ((outcome.expiresAt.map Caveat.expires).toList ++ [.action "unwrap", .maxUses]) := by
  simp only [rotateSecretImpl, Eff.bind_eq_ok, Eff.lift_eq_ok, check_eq_ok, Eff.pure_eq_ok, Prod.exists] at h
  obtain ⟨_, _, -, _, s₁, -, _, _, ⟨-, rfl⟩, expiresAt, ttl, _, ⟨httl, rfl⟩, _, _, ⟨-, rfl⟩, unwrapPrincipalId, _,
    ⟨-, rfl⟩, outcome, s₂, hpersist, redeemToken, newShares, s₃, hmaterial, _, _, -, _, _, -, rfl, -⟩ := h
  exact ⟨expiresAt, ttl, unwrapPrincipalId, outcome, _, s₂, s₃, httl, hpersist, hmaterial, rfl⟩

structure MintDischargeRequest where
  location : String
  primaryHandle : String
  caveatId : String

structure MintDischargeResponse where
  dischargeToken : String
  deriving DecidableEq, Repr

def dischargeTokenTtlSeconds : Int := 300

/-- The discharge for the caveat of a handle that the request selects. The predicate and the key come
from the record. -/
def mintDischarge (now : DateTime) (record : StoredEnvelopeRecord) (primaryMac : Macaroon String (Block 32))
    (location caveatId : String) : Except Failure (DischargeMacaroon (Block 32)) := do
  let rootKey := env.rootKey primaryMac.identifier
  ((primaryMac.verifySignature env.mac rootKey).mapError fun _ => .service .invalidHandle)
  let stored ← Eff.okOr
    ((record.thirdPartyCaveatKeys.getD []).find? fun entry => entry.location = location ∧ entry.keyId = caveatId)
    (.service (.crypto ("no sealed third-party caveat matches opaque caveat_id " ++ caveatId ++ " for " ++ location)))
  let primarySignature ← (primaryMac.thirdPartyBindingInfoByKeyId env.mac rootKey location stored.keyId).mapError fun e =>
    .service (.crypto e.message)
  let condition ← Eff.okOr stored.condition
    (.service (.crypto "stored third-party caveat is missing its predicate"))
  let keys ← (dischargeKeysForRecord env record).mapError .service
  let key ← Eff.okOr (keys.find? fun entry => entry.location = location ∧ entry.keyId = stored.keyId)
    (.service (.crypto ("no discharge secret registered for " ++ location)))
  let expiresAt ← Eff.okOr (now.addSeconds dischargeTokenTtlSeconds) .panic
  return DischargeMacaroon.mintWithExpiry env.mac location condition key.key primarySignature (some expiresAt)

/-- What the entry of a discharge says. The stored caveat has the id that was asked for. -/
def dischargeMeta (context : BrokerClientContext) (primaryHandleId : Uuid) (caveatId : String)
    (discharge : DischargeMacaroon (Block 32)) : List (String × Option Value) :=
  [("type", some (.string "discharge")), ("location", some (.string discharge.location)),
    ("condition", some (.string discharge.condition)), ("caveat_key_id", some (.string caveatId)),
    ("discharge_expires_at", discharge.expiresAt.map fun t => .string (env.chrono.toRfc3339 t)),
    ("primary_handle_id", some (.string primaryHandleId.toString))] ++ contextMeta context

/-- `mint_discharge_impl`. -/
def mintDischargeImpl (d : LoadDraws) (now : DateTime) (context : BrokerClientContext) (payload : MintDischargeRequest) :
    Eff Broker Failure MintDischargeResponse := do
  check (validateDischargeMintRequirements env context payload.location)
  let caveatId := trim payload.caveatId
  check (Eff.rejectIf (caveatId = "") (.invalidAttenuation "mint discharge requires opaque caveat_id"))
  let primaryHandle := trim payload.primaryHandle
  check (Eff.rejectIf (primaryHandle = "") .invalidHandle)
  let primaryMac ← check (parseHandleV2 primaryHandle)
  let record ← loadRecord env d primaryMac.identifier
  let discharge ← Eff.lift (mintDischarge env now record primaryMac payload.location caveatId)
  recordTransparency env (transparencyEvent env .wrap "issued" ("discharge:" ++ payload.location)
    (some "discharge-key") (some env.broker.defaultCustomerId) context d.loggedAt
    (dischargeMeta env context primaryMac.identifier caveatId discharge))
  return { dischargeToken := discharge.serialize }

/-- The checks that both custody handlers make of the caller. -/
def checkCustodian (context : BrokerClientContext) (handle custodianId operation : String) : Except String Unit := do
  Eff.rejectIf (handle = "") "handle is required"
  Eff.rejectIf (custodianId = "") "custodian_id is required"
  let actualPrincipal ← Eff.okOr (normalizedContextPrincipal context)
    ("authenticated principal is required for " ++ operation)
  Eff.rejectIf (actualPrincipal ≠ custodianId) ("custodian_id '" ++ custodianId ++
    "' does not match authenticated principal '" ++ actualPrincipal ++ "'")

structure ClaimShareRequest where
  handle : String
  custodianId : String

/-- What the entry of a claim says. -/
def claimMeta (context : BrokerClientContext) (custodianId : String) (result : ClaimResult) :
    List (String × Option Value) :=
  [("type", some (.string "claim_share")), ("custodian_id", some (.string custodianId)),
    ("share_index", some (.integer result.x.toNat)), ("previously_claimed", some (.bool result.previouslyClaimed))] ++
    contextMeta context

/-- `claim_share_impl`. -/
def claimShareImpl (d : LoadDraws) (claimDisk : Disk) (context : BrokerClientContext) (req : ClaimShareRequest) :
    Eff Broker Failure ClaimResult := do
  Eff.lift ((checkCustodian context req.handle req.custodianId "claim_share").mapError .anyhow)
  let handleId ← Eff.mapError (.asAnyhow "invalid handle: ") (check (parseHandleIdentifier env req.handle))
  loadChecked env d handleId (fun record => validateThresholdCustodyRecordRequirements record context)
    (.asAnyhow "load sealed record: ") (.asAnyhow "identity validation: ")
  let result ← Eff.mapError (.asAnyhow "claim share failed: ")
    (perform claimDisk handleId (SealedStore.claimCustodianShare env.serde req.custodianId))
  recordTransparency env
    (transparencyEvent env .wrap "issued" req.handle (some "threshold-share-claim") (some req.custodianId) context
      d.loggedAt (claimMeta context req.custodianId result))
  return result

structure DistributeShareRequest where
  handle : String
  shareIndex : UInt32
  share : Threshold.Share
  custodianId : String

structure DistributeShareResponse where
  accepted : Bool
  ackToken : String
  deriving DecidableEq, Repr

/-- What an acknowledgment authenticates. -/
def shareAckMessage (req : DistributeShareRequest) : Bytes :=
  asBytes "share-ack-v1:" ++ asBytes req.handle ++ asBytes ":" ++ asBytes req.custodianId ++ asBytes ":" ++
    natLE 4 req.shareIndex.toNat ++ asBytes ":" ++ req.share.y

/-- What the entry of a deposited share says. -/
def distributeMeta (context : BrokerClientContext) (req : DistributeShareRequest) : List (String × Option Value) :=
  [("type", some (.string "distribute_share")), ("share_index", some (.integer req.shareIndex.toNat)),
    ("custodian_id", some (.string req.custodianId))] ++ contextMeta context

/-- `distribute_share_impl`. -/
def distributeShareImpl (d : LoadDraws) (context : BrokerClientContext) (req : DistributeShareRequest) :
    Eff Broker Failure DistributeShareResponse := do
  Eff.lift ((checkCustodian context req.handle req.custodianId "distribute_share").mapError .anyhow)
  Eff.lift (Eff.rejectIf (req.shareIndex = 0 ∨ req.shareIndex > 255) (.anyhow "share_index must be 1..=255"))
  let handleId ← Eff.mapError (.asAnyhow "invalid handle: ") (check (parseHandleIdentifier env req.handle))
  loadChecked env d handleId (fun record => validateThresholdCustodyRecordRequirements record context)
    (.asAnyhow "load sealed record: ") (.asAnyhow "identity validation: ")
  Eff.lift (Eff.rejectIf (req.share.x ≠ req.shareIndex.toUInt8) (.anyhow ("share.x (" ++ toString req.share.x.toNat ++
    ") does not match share_index (" ++ toString req.shareIndex.toNat ++ ")")))
  let ack := Base64.standard.encode (env.hmac env.broker.handleHmacKey (shareAckMessage req)).val
  recordTransparency env
    (transparencyEvent env .wrap "issued" req.handle (some "threshold-share") (some req.custodianId) context d.loggedAt
      (distributeMeta context req))
  return { accepted := true, ackToken := ack }

end SecretBroker

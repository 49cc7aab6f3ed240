import SecretBroker.MacaroonWire
import SecretBroker.SealedStore

/-! The broker: its configuration, the primitives it is built on, the state that its handlers work on,
and who is calling. What a handler draws while it runs (fresh UUIDs, random bytes, the clock, the
outcome of each disk access) is passed to it. -/

open Wire Register

namespace SecretBroker

/-- ML-KEM-768. The checks are those of the encodings of keys and ciphertexts; a failure carries the
`Debug` text of its error. -/
structure MlKem where
  keygen : Block 64 → Except String (Block 1184 × Block 2400)
  checkEncapsKey : Block 1184 → Except String Unit
  encaps : Block 1184 → Block 32 → Except String (Block 32 × Block 1088)
  checkDecapsKey : Block 2400 → Except String Unit
  checkCiphertext : Block 1088 → Except String Unit
  decaps : Block 2400 → Block 1088 → Except String (Block 32)

/-- An AEAD with a 32-byte key and a 12-byte nonce. -/
structure Aead where
  encrypt : Block 32 → Block 12 → Bytes → Except String Bytes
  decrypt : Block 32 → Block 12 → Bytes → Except String Bytes

/-- ML-DSA-65 with its keys expanded from a seed. -/
structure MlDsa where
  verifyingKey : Block 32 → Block 1952
  sign : Block 32 → Bytes → Except String Bytes
  signatureOk : Bytes → Bool
  verify : Block 1952 → Bytes → Bytes → Bool

structure BrokerStateConfig where
  defaultCustomerId : String
  /-- In seconds, as `redeemTokenTtl`. -/
  maxHandleTtl : Int
  transparency : Bool
  handleHmacKey : Bytes
  redeemTokenTtl : Int
  requireAttestedDischargeMint : Bool
  allowedDischargePrincipalIds : List String

structure CryptoConfig where
  allowedAlgorithms : List String
  keyRotationEnabled : Bool
  rotationIntervalHours : UInt64
  maxKeysPerCustomer : UInt32

/-- What a broker process is started with. -/
structure Env where
  chrono : Chrono
  serde : Serde
  curve : Curve
  /-- The text of the error with which decoding a text ends. -/
  base64Error : String → String
  hmac : Bytes → Bytes → Block 32
  sha256 : Bytes → Block 32
  mlKem : MlKem
  aesGcm : Aead
  chaCha20Poly1305 : Aead
  mlDsa : MlDsa
  broker : BrokerStateConfig
  crypto : CryptoConfig
  /-- The key under which the key manager keeps private keys. -/
  masterKey : Block 32

/-- The macaroons of this broker. -/
def Env.mac (env : Env) : MacOps String Bytes (Block 32) := MacOps.code env.chrono env.hmac

structure KyberKeyPair where
  publicKey : Bytes
  privateKey : Bytes
  algorithm : String
  keyId : String
  deriving DecidableEq, Repr

/-- A signing key of the key manager, with its private part encrypted. -/
structure KeyPair where
  keyId : String
  publicKey : Bytes
  privateKey : Bytes
  algorithm : String
  createdAt : DateTime
  expiresAt : Option DateTime
  deriving DecidableEq, Repr

inductive KeyStatus where
  | active
  | rotating
  | rotated
  | expired
  | revoked
  | compromised
  deriving DecidableEq, Repr

structure KeyMetadata where
  keyId : String
  algorithm : String
  createdAt : DateTime
  expiresAt : Option DateTime
  customerId : String
  usageCount : UInt64
  lastUsedAt : Option DateTime
  status : KeyStatus
  /-- A new key has none; rotation notes here which key it replaces. -/
  metadata : List (String × String) := []
  deriving DecidableEq, Repr

inductive EventKind where
  | wrap
  | unwrap
  | delete
  | revoke
  | renewLease
  | attenuate
  | rotate
  deriving DecidableEq, Repr

/-- An entry of the transparency log as the handlers fill it in. -/
structure TransparencyEvent where
  event : EventKind
  handleFingerprint : Option String
  envelopeKeyId : Option String
  customerId : Option String
  status : String
  timestamp : DateTime
  metadata : Option Value
  callerIdentity : Option String
  parentHandleFingerprint : Option String
  leaseSequence : Option UInt32
  previousExpiresAt : Option DateTime

structure Broker where
  records : Uuid → Option StoredEnvelopeRecord
  kyberTree : String → Option KyberKeyPair
  keyPairs : List KeyPair
  keyMetadata : List KeyMetadata
  log : List TransparencyEvent

/-- A broker that has handled no request. -/
def Broker.empty : Broker := ⟨fun _ => none, fun _ => none, [], [], []⟩

/-- The sealed store with the record of one handle replaced. -/
def Broker.putRecord (s : Broker) (handle : Uuid) (cell : Option StoredEnvelopeRecord) : Broker :=
  { s with records := Function.update s.records handle cell }

@[simp] theorem Broker.putRecord_records_self (s : Broker) (handle : Uuid) (cell : Option StoredEnvelopeRecord) :
    (s.putRecord handle cell).records handle = cell := Function.update_self _ _ _

theorem Broker.putRecord_records_of_ne {s : Broker} {handle id : Uuid} (h : id ≠ handle)
    (cell : Option StoredEnvelopeRecord) :
    (s.putRecord handle cell).records id = s.records id := Function.update_of_ne h _ _

theorem Broker.putRecord_records (s : Broker) (handle : Uuid) : s.putRecord handle (s.records handle) = s := by
  rw [Broker.putRecord, Function.update_eq_self]

theorem Broker.putRecord_putRecord (s : Broker) (handle : Uuid) (cell cell' : Option StoredEnvelopeRecord) :
    (s.putRecord handle cell).putRecord handle cell' = s.putRecord handle cell' := by
  simp only [Broker.putRecord, Function.update_idem]

/-- How an access to the disk ends. A write that was made but not flushed is reported as an error. -/
inductive Disk where
  | ok
  | failed (message : String)
  | unflushed (message : String)
  deriving DecidableEq, Repr

/-- One operation of the sealed store. -/
def perform {α : Type} (disk : Disk) (handle : Uuid) (op : Op StoredEnvelopeRecord (Except String α)) :
    Eff Broker Failure α := fun s =>
  match disk with
  | .ok => ((op.run (s.records handle)).2.mapError .anyhow, s.putRecord handle (op.run (s.records handle)).1)
  | .failed message => (.error (.anyhow message), s)
  | .unflushed message => (.error (.anyhow message), s.putRecord handle (op.run (s.records handle)).1)

/-- `map_err(ServiceError::Storage)`. -/
def Failure.asStorage : Failure → Failure
  | .anyhow message => .service (.storage message)
  | e => e

/-- `map_err(ServiceError::Crypto)`. -/
def Failure.asCrypto : Failure → Failure
  | .anyhow message => .service (.crypto message)
  | e => e

/-- A check that ends with one of the service's errors. -/
def check {α : Type} (x : Except ServiceError α) : Eff Broker Failure α := Eff.lift (x.mapError .service)

/-- A time that must be in range. -/
def checkTime {α : Type} (t : Option α) : Eff Broker Failure α := Eff.lift (Eff.okOr t .panic)

theorem perform_eq_ok {α : Type} {disk : Disk} {handle : Uuid} {op : Op StoredEnvelopeRecord (Except String α)}
    {a : α} {s s' : Broker} :
    perform disk handle op s = (.ok a, s') ↔ disk = .ok ∧ (op.run (s.records handle)).2 = .ok a ∧
      s' = s.putRecord handle (op.run (s.records handle)).1 := by
  cases disk with
  | ok =>
      simp only [perform, Prod.mk.injEq, Eff.except_mapError_eq_ok, true_and]
      rw [eq_comm (a := s')]
  | failed message => simp [perform]
  | unflushed message => simp [perform]

theorem check_eq_ok {α : Type} {x : Except ServiceError α} {a : α} {s s' : Broker} :
    check x s = (.ok a, s') ↔ x = .ok a ∧ s' = s := by
  rw [check, Eff.lift_eq_ok, Eff.except_mapError_eq_ok]

theorem checkTime_eq_ok {α : Type} {t : Option α} {a : α} {s s' : Broker} :
    checkTime t s = (.ok a, s') ↔ t = some a ∧ s' = s := by
  rw [checkTime, Eff.lift_eq_ok, Eff.okOr_eq_ok]

/-- Who is calling, as proven by the connection. A digest that is present is not empty: the certificate
digest is filtered when the context is built, and an attestation digest is a SHA-256 output. -/
structure BrokerClientContext where
  exporter : Bytes
  principalId : Option String
  authenticatedTransport : Bool
  peerCertSha256 : Option Bytes
  attestationDigest : Option Bytes
  peerCert_ne_nil : ∀ d, peerCertSha256 = some d → d ≠ []
  attestation_ne_nil : ∀ d, attestationDigest = some d → d ≠ []

/-- `value.trim()`, or nothing if that is empty. -/
def normalizeOptionalString (value : String) : Option String :=
  if trim value = "" then none else some (trim value)

/-- The caller's principal without surrounding white space. -/
def normalizedContextPrincipal (context : BrokerClientContext) : Option String :=
  context.principalId.bind normalizeOptionalString

/-- `handle_fingerprint`. -/
def handleFingerprint (env : Env) (handle : String) : String :=
  "sha256:" ++ String.ofList (Uuid.hexChars (env.sha256 (asBytes (trim handle))).val)

/-- The members that `append_context_transparency_meta` inserts. -/
def contextMeta (context : BrokerClientContext) : List (String × Option Value) :=
  [("authenticated_transport", some (.bool context.authenticatedTransport)),
    ("authenticated_principal_id", (normalizedContextPrincipal context).map .string),
    ("peer_cert_sha256", context.peerCertSha256.map fun d => .string (Base64.standard.encode d)),
    ("attestation_digest", context.attestationDigest.map fun d => .string (Base64.standard.encode d))]

/-- `secret_lifecycle_label`. -/
def SecretLifecycle.label : SecretLifecycle → String
  | .singleUseUnwrap => "single_use_unwrap"
  | .renewableLease => "renewable_lease"
  | .serviceBootstrap => "service_bootstrap"

/-- Who issued a record, as the entries say it. -/
def issuerMeta (record : StoredEnvelopeRecord) : List (String × Option Value) :=
  [("issued_with_authenticated_transport", some (.bool record.issuedWithAuthenticatedTransport)),
    ("issued_by_principal_id", record.issuedByPrincipalId.map .string),
    ("issued_by_peer_cert_sha256", record.issuedByPeerCertSha256.map .string),
    ("issued_by_attestation_digest", record.issuedByAttestationDigest.map .string),
    ("unwrap_principal_id", record.unwrapPrincipalId.map .string)]

/-- The members that `append_record_transparency_meta` inserts. -/
def recordMeta (chrono : Chrono) (record : StoredEnvelopeRecord) : List (String × Option Value) :=
  [("lifecycle", some (.string record.lifecycle.label))] ++ issuerMeta record ++
    [("expires_at", record.expiresAt.map fun t => .string (chrono.toRfc3339 t)),
      ("redeem_expires_at", record.redeemExpiresAt.map fun t => .string (chrono.toRfc3339 t)),
      ("lease_expires_at", record.leaseExpiresAt.map fun t => .string (chrono.toRfc3339 t)),
      ("lease_renewal_count",
        if record.leaseRenewalCount > 0 then some (.integer record.leaseRenewalCount.toNat) else none),
      ("secret_metadata", record.envelope.metadata)]

/-- An event about a handle by a caller, with the members of its metadata in the order in which they are inserted. -/
def transparencyEvent (env : Env) (event : EventKind) (status handle : String) (envelopeKeyId customerId : Option String)
    (context : BrokerClientContext) (timestamp : DateTime) (metadata : List (String × Option Value)) :
    TransparencyEvent where
  event := event
  handleFingerprint := some (handleFingerprint env handle)
  envelopeKeyId := envelopeKeyId
  customerId := customerId
  status := status
  timestamp := timestamp
  metadata := some (.ofInserts metadata)
  callerIdentity := some (context.principalId.getD "unknown")
  parentHandleFingerprint := none
  leaseSequence := none
  previousExpiresAt := none

/-- `BrokerState::record_transparency`. -/
def recordTransparency (env : Env) (event : TransparencyEvent) : Eff Broker Failure Unit :=
  Eff.modify fun s => if env.broker.transparency then { s with log := s.log ++ [event] } else s

end SecretBroker

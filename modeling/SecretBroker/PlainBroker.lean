import SecretBroker.ConcurrencyStore
import SecretBroker.CryptoLaws
import SecretBroker.Issuance
import SecretBroker.ThresholdSecurity

/-! A broker over the simplest primitives that keep the laws: keys and tags are blank and encryption is
the identity. Sealing a secret succeeds on it. -/

open Wire

namespace SecretBroker

def filledBlock (n : ℕ) (b : UInt8) : Block n := ⟨List.replicate n b, List.length_replicate⟩

/-- A block of zeros. -/
def blank (n : ℕ) : Block n := ⟨List.replicate n 0, List.length_replicate⟩

def plainEnv : Env where
  chrono := Chrono.packed
  serde := plainSerde
  curve := Curve.additive
  base64Error _ := ""
  hmac _ _ := blank 32
  sha256 _ := blank 32
  mlKem := {
    keygen _ := .ok (blank 1184, blank 2400)
    checkEncapsKey _ := .ok ()
    encaps _ _ := .ok (blank 32, blank 1088)
    checkDecapsKey _ := .ok ()
    checkCiphertext _ := .ok ()
    decaps _ _ := .ok (blank 32) }
  aesGcm := { encrypt _ _ plaintext := .ok plaintext, decrypt _ _ ciphertext := .ok ciphertext }
  chaCha20Poly1305 := { encrypt _ _ plaintext := .ok plaintext, decrypt _ _ ciphertext := .ok ciphertext }
  mlDsa := {
    verifyingKey _ := blank 1952
    sign _ _ := .ok []
    signatureOk _ := true
    verify _ _ _ := true }
  broker := {
    defaultCustomerId := "customer"
    maxHandleTtl := 86400
    transparency := true
    handleHmacKey := List.replicate 32 7
    redeemTokenTtl := 3600
    requireAttestedDischargeMint := false
    allowedDischargePrincipalIds := [] }
  crypto := {
    allowedAlgorithms := ["dilithium5"]
    keyRotationEnabled := false
    rotationIntervalHours := 24
    maxKeysPerCustomer := 100 }
  masterKey := blank 32

theorem plainEnv_lawful : plainEnv.Lawful where
  decaps_encaps := by
    intro seed ek dk coins sharedSecret ct _ hencaps
    cases hencaps
    exact ⟨rfl, rfl, rfl⟩
  aesGcm_decrypt h := by cases h; rfl
  chaCha_decrypt h := by cases h; rfl
  verify_sign _ := ⟨rfl, rfl⟩
  reparse _ := rfl

/-- Draws of fresh UUIDs with blank randomness, on a disk that works. -/
def plainDraws (handleId envelopeKeyId keyId : Uuid) : PersistDraws where
  handleId := handleId
  redeemNonce := blank 16
  envelopeKeyId := envelopeKeyId
  encryption := ⟨blank 64, blank 32, blank 12, .ok, false⟩
  keyPair := ⟨blank 64, blank 32, keyId, blank 12, ⟨0, 0⟩, ⟨0, 0⟩⟩
  signCheckNow := ⟨0, 0⟩
  signUsageNow := ⟨0, 0⟩
  insertDisk := .ok
  loggedAt := ⟨0, 0⟩

variable (handleId envelopeKeyId keyId : Uuid)

theorem plain_generateKeyPair (d : KeyPairDraws) (customerId : String) {s : Broker}
    (hlimit : customerKeyCount s.keyMetadata customerId < 100) :
    ∃ pair s', generateKeyPair plainEnv d "dilithium5" customerId s = (.ok pair, s') ∧ pair.expiresAt = none := by
  have hallowed : validatePostQuantumAlgorithm plainEnv "dilithium5" = .ok () := by
    simp [validatePostQuantumAlgorithm, plainEnv, Eff.rejectIf]
  have hlimits : checkKeyLimits plainEnv s.keyMetadata customerId = .ok () := Eff.rejectIf_eq_ok.mpr (not_le.mpr hlimit)
  have hkeys : generateKeys plainEnv d "dilithium5" = .ok (generateDilithiumKeys plainEnv d.dilithiumSeed) := by
    simp [generateKeys]
  simp only [generateKeyPair, Eff.bind_eq_ok, Eff.lift_eq_ok, Eff.read_eq_ok, Eff.modify_eq_ok,
    Eff.except_mapError_eq_ok, Eff.pure_eq_ok]
  exact ⟨_, _, ⟨(), s, ⟨hallowed, rfl⟩, s, s, ⟨rfl, rfl⟩, (), s, ⟨hlimits, rfl⟩, _, s, ⟨hkeys, rfl⟩, _, s, ⟨rfl, rfl⟩,
    none, s, ⟨rfl, rfl⟩, (), _, rfl, rfl, rfl⟩, rfl⟩

/-- A key that was just generated and does not expire signs. -/
theorem plain_signData {d : KeyPairDraws} {customerId : String} {pair : KeyPair} {s s' : Broker}
    (hpair : generateKeyPair plainEnv d "dilithium5" customerId s = (.ok pair, s')) (hexpires : pair.expiresAt = none)
    (checkNow usageNow : DateTime) (data : Bytes) :
    ∃ signature t, signData plainEnv checkNow usageNow data pair.keyId s' = (.ok signature, t) := by
  obtain ⟨ciphertext, rest, metadata, hwrap, -, hprivate, halgorithm, rfl⟩ := generateKeyPair_eq_ok hpair
  cases hwrap
  have hseed : decryptPrivateKey plainEnv pair.privateKey = .ok d.dilithiumSeed.val := by
    simp only [decryptPrivateKey, hprivate, takeBytes_append d.nonce.property, Eff.okOr_some, sized_val, Eff.ok_bind]
    rfl
  have hsign : signWithAlgorithm plainEnv pair.algorithm data d.dilithiumSeed.val = .ok [] := by
    simp only [signWithAlgorithm, halgorithm, if_pos, signDilithium5, sized_val, Eff.okOr_some, Eff.ok_bind]
    rfl
  have hlive : ¬ isKeyExpired pair checkNow = true := by simp [isKeyExpired, hexpires]
  simp only [signData, Eff.bind_eq_ok, Eff.lift_eq_ok, Eff.read_eq_ok, Eff.modify_eq_ok, Eff.pure_eq_ok,
    Eff.except_mapError_eq_ok, Eff.okOr_eq_ok, Eff.rejectIf_eq_ok]
  exact ⟨_, _, _, _, ⟨rfl, rfl⟩, pair, _, ⟨List.find?_cons_of_pos (by simp), rfl⟩, (), _, ⟨hlive, rfl⟩, _, _, ⟨hseed, rfl⟩,
    [], _, ⟨hsign, rfl⟩, (), _, rfl, rfl, rfl⟩

/-- Sealing a secret without a first lease leaves a fresh record. -/
theorem plain_persist (context : BrokerClientContext) (input : PersistSecretV2Input) {s : Broker}
    (hlimit : customerKeyCount s.keyMetadata input.customerId < 100) {redeemExpiresAt : DateTime}
    (hredeem : input.createdAt.addSeconds 3600 = some redeemExpiresAt) (hlease : input.initialLeaseSeconds = none) :
    ∃ outcome r s', persistSecretV2WithLifecycle plainEnv (plainDraws handleId envelopeKeyId keyId) context input s =
        (.ok outcome, s') ∧
      s'.records = Function.update s.records handleId (some r) ∧ r.redeemUsed = false ∧ r.revoked = false ∧
      r.lifecycle = input.lifecycle ∧ r.expiresAt = input.expiresAt ∧ r.leaseExpiresAt = none ∧
      r.redeemExpiresAt = some redeemExpiresAt ∧ r.signingKeyExpiresAt = none := by
  have hencrypt : ∃ encryption, encryptPqc plainEnv (plainDraws handleId envelopeKeyId keyId).encryption input.plaintext
      envelopeKeyId.toString s = (.ok encryption, s.putKyber ⟨(blank 1184).val, (blank 2400).val, "mlkem768",
        envelopeKeyId.toString⟩) := ⟨_, rfl⟩
  obtain ⟨encryption, hencrypt⟩ := hencrypt
  obtain ⟨pair, s₂, hpair, hexpires⟩ := plain_generateKeyPair (plainDraws handleId envelopeKeyId keyId).keyPair
    input.customerId (s := s.putKyber ⟨(blank 1184).val, (blank 2400).val, "mlkem768", envelopeKeyId.toString⟩) hlimit
  obtain ⟨signature, s₃, hsign⟩ := plain_signData hpair hexpires ⟨0, 0⟩ ⟨0, 0⟩
    (plainEnv.serde.envelopeToVec (newEnvelope (plainDraws handleId envelopeKeyId keyId) context input encryption))
  have hrecords : s₃.records = s.records := by
    obtain ⟨_, _, _, -, -, -, -, rfl⟩ := generateKeyPair_eq_ok hpair
    obtain ⟨_, _, _, -, -, -, rfl⟩ := signData_eq_ok hsign
    rfl
  simp only [persistSecretV2WithLifecycle, Eff.bind_eq_ok, checkTime_eq_ok, Eff.mapError_eq_ok, perform_eq_ok,
    Eff.pure_eq_ok]
  refine ⟨_, newRecord plainEnv (plainDraws handleId envelopeKeyId keyId) context input encryption pair signature
    redeemExpiresAt none, _, ⟨redeemExpiresAt, s, ⟨hredeem, rfl⟩, encryption, _, hencrypt, pair, s₂, hpair, signature, s₃,
    hsign, none, s₃, ⟨?_, rfl⟩, (), _, ⟨rfl, rfl, rfl⟩, rfl, rfl⟩, ?_, rfl, rfl, rfl, rfl, rfl, rfl, hexpires⟩
  · rw [hlease]
    rfl
  · rw [← hrecords]
    rfl

/-- A caller on an authenticated connection. -/
def plainContext : BrokerClientContext where
  exporter := [1]
  principalId := some "alice"
  authenticatedTransport := true
  peerCertSha256 := some [2]
  attestationDigest := none
  peerCert_ne_nil := by simp
  attestation_ne_nil := by simp

theorem plain_principal : normalizedContextPrincipal plainContext = some "alice" := by
  have htrim : trim "alice" = "alice" := trim_of_trimmed (trimmed_of_all (by simp [isWhiteSpace]))
  have hne : "alice" ≠ "" := by decide
  simp only [normalizedContextPrincipal, plainContext, Option.bind_some, normalizeOptionalString, htrim, if_neg hne]

theorem plain_unwrapPrincipal (lifecycle : SecretLifecycle) :
    v2UnwrapPrincipal plainContext lifecycle none = .ok (some "alice") := by
  cases lifecycle <;> simp only [v2UnwrapPrincipal, plain_principal] <;> rfl

/-- A request that binds its secret to a tenant and to its caller. -/
def plainRequest (lifecycle : SecretLifecycle) : WrapV2Request where
  plaintext := [1, 2, 3]
  customerId := none
  metadata := none
  lifecycle := lifecycle
  ttlSeconds := none
  initialLeaseSeconds := none
  label := none
  tenantId := some "acme"
  provider := none
  circuitId := none
  nodeId := none
  unwrapPrincipalId := none

/-- Wrapping succeeds for every tenant, with a token that is good for an hour. -/
theorem plain_wrap_tenant (lifecycle : SecretLifecycle) (tenantId : Option String) {s : Broker}
    (hlimit : customerKeyCount s.keyMetadata "customer" < 100) :
    ∃ outcome r s', wrapSecretV2Impl plainEnv ⟨0, 0⟩ (plainDraws handleId envelopeKeyId keyId) plainContext
        { plainRequest lifecycle with tenantId := tenantId } s = (.ok outcome, s') ∧
      s'.records = Function.update s.records handleId (some r) ∧ r.redeemUsed = false ∧ r.revoked = false ∧
      r.lifecycle = lifecycle ∧ r.expiresAt = none ∧ r.leaseExpiresAt = none ∧ r.redeemExpiresAt = some ⟨3600, 0⟩ ∧
      r.signingKeyExpiresAt = none := by
  obtain ⟨stored, r, s', hpersist, hrecords, hrecord⟩ := plain_persist handleId envelopeKeyId keyId
    plainContext (wrapInput plainEnv ⟨0, 0⟩ (plainRequest lifecycle) none (some "alice")) hlimit rfl rfl
  simp only [wrapSecretV2Impl, Eff.bind_eq_ok, Eff.lift_eq_ok, check_eq_ok, recordTransparency, Eff.modify_eq_ok,
    Eff.pure_eq_ok]
  exact ⟨_, r, _, ⟨_, s, ⟨rfl, rfl⟩, some "alice", s, ⟨plain_unwrapPrincipal lifecycle, rfl⟩, stored, s', hpersist, (), _,
    rfl, rfl, rfl⟩, hrecords, hrecord⟩

theorem plain_wrap (lifecycle : SecretLifecycle) {s : Broker}
    (hlimit : customerKeyCount s.keyMetadata "customer" < 100) :
    ∃ outcome r s', wrapSecretV2Impl plainEnv ⟨0, 0⟩ (plainDraws handleId envelopeKeyId keyId) plainContext
        (plainRequest lifecycle) s = (.ok outcome, s') ∧
      s'.records = Function.update s.records handleId (some r) ∧ r.redeemUsed = false ∧ r.revoked = false ∧
      r.lifecycle = lifecycle ∧ r.expiresAt = none ∧ r.leaseExpiresAt = none ∧ r.redeemExpiresAt = some ⟨3600, 0⟩ ∧
      r.signingKeyExpiresAt = none :=
  plain_wrap_tenant handleId envelopeKeyId keyId lifecycle (some "acme") hlimit

end SecretBroker

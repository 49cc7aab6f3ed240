import SecretBroker.Broker

/-! The crypto engine of the broker: hybrid encryption under a fresh ML-KEM key that stays in the key
store, and the key manager, which makes a signing key for every sealed secret. -/

open Wire

namespace SecretBroker

variable (env : Env)

/-- What `encrypt_with_mlkem` draws. -/
structure EncryptDraws where
  keygenSeed : Block 64
  encapsSeed : Block 32
  nonce : Block 12
  kyberStore : Disk
  mldsaStoreFails : Bool

structure EncryptionResult where
  ciphertext : Bytes
  nonce : Bytes
  algorithm : String
  deriving DecidableEq, Repr

def generateMlkemKeypair (seed : Block 64) (keyId : String) : Except String (Block 1184 × KyberKeyPair) := do
  let (ek, dk) ← (env.mlKem.keygen seed).mapError ("ML-KEM keygen failed: " ++ ·)
  return (ek, { publicKey := ek.val, privateKey := dk.val, algorithm := "mlkem768", keyId })

/-- `perform_mlkem_encapsulation`; the public key is one that was generated, so its size is right. -/
def performMlkemEncapsulation (publicKey : Block 1184) (seed : Block 32) : Except String (Block 32 × Block 1088) := do
  (env.mlKem.checkEncapsKey publicKey).mapError ("Invalid ML-KEM public key: " ++ ·)
  (env.mlKem.encaps publicKey seed).mapError ("ML-KEM encapsulation failed: " ++ ·)

def performMlkemDecapsulation (ciphertext secretKey : Bytes) : Except String (Block 32) := do
  let dk ← Eff.okOr (sized 2400 secretKey) "Invalid ML-KEM decapsulation key size"
  let ct ← Eff.okOr (sized 1088 ciphertext) "Invalid ML-KEM ciphertext size"
  (env.mlKem.checkDecapsKey dk).mapError ("Invalid ML-KEM decapsulation key: " ++ ·)
  (env.mlKem.checkCiphertext ct).mapError ("Invalid ML-KEM ciphertext: " ++ ·)
  (env.mlKem.decaps dk ct).mapError ("ML-KEM decapsulation failed: " ++ ·)

def hybridEncryptWithSharedSecret (data : Bytes) (sharedSecret : Block 32) (nonce : Block 12) : Except String Bytes := do
  let ciphertext ← (env.aesGcm.encrypt sharedSecret nonce data).mapError (" AES encryption failed: " ++ ·)
  return nonce.val ++ ciphertext

def hybridDecryptWithSharedSecret (encryptedData : Bytes) (sharedSecret : Block 32) : Except String Bytes := do
  let (nonce, ciphertext) ← Eff.okOr (takeBytes 12 encryptedData) " Invalid encrypted data format"
  let nonce ← Eff.okOr (sized 12 nonce) " Invalid encrypted data format"
  (env.aesGcm.decrypt sharedSecret nonce ciphertext).mapError (" AES decryption failed: " ++ ·)

/-- The key store with a key pair stored under its id. -/
def Broker.putKyber (s : Broker) (pair : KyberKeyPair) : Broker :=
  { s with kyberTree := Function.update s.kyberTree pair.keyId (some pair) }

/-- `SealedKeyStore::store_kyber_keypair`. -/
def storeKyberKeypair (disk : Disk) (pair : KyberKeyPair) : Eff Broker Failure Unit := fun s =>
  match disk with
  | .ok => (.ok (), s.putKyber pair)
  | .failed _ => (.error (.anyhow "failed to persist ML-KEM key pair in sealed store"), s)
  | .unflushed _ => (.error (.anyhow "failed to persist ML-KEM key pair in sealed store"), s.putKyber pair)

theorem storeKyberKeypair_eq_ok {disk : Disk} {pair : KyberKeyPair} {u : Unit} {s s' : Broker} :
    storeKyberKeypair disk pair s = (.ok u, s') ↔ disk = .ok ∧ s' = s.putKyber pair := by
  cases disk <;> simp [storeKyberKeypair, eq_comm]

theorem keeps_storeKyberKeypair {R : Broker → Broker → Prop} [IsPreorder Broker R] {pair : KyberKeyPair}
    (h : ∀ s, R s (s.putKyber pair)) (disk : Disk) : Eff.Keeps R (storeKyberKeypair disk pair) := by
  intro s
  cases disk with
  | ok => exact h s
  | failed message => exact refl_of R s
  | unflushed message => exact h s

/-- `encrypt_with_mlkem` as `encrypt_pqc` calls it. The key pair is stored before anything is encrypted
under it. -/
def encryptPqc (d : EncryptDraws) (data : Bytes) (envelopeKeyId : String) : Eff Broker Failure EncryptionResult := do
  let (ek, pair) ← Eff.lift ((generateMlkemKeypair env d.keygenSeed envelopeKeyId).mapError .anyhow)
  storeKyberKeypair d.kyberStore pair
  Eff.lift (Eff.rejectIf d.mldsaStoreFails (.anyhow "failed to persist ML-DSA key pair in sealed store"))
  let (sharedSecret, kemCiphertext) ← Eff.lift ((performMlkemEncapsulation env ek d.encapsSeed).mapError .anyhow)
  let encryptedData ← Eff.lift ((hybridEncryptWithSharedSecret env data sharedSecret d.nonce).mapError .anyhow)
  return { ciphertext := encryptedData, nonce := kemCiphertext.val, algorithm := "mlkem768-hybrid" }

/-- `decrypt_with_mlkem` as `decrypt_pqc` calls it, on the present content of the key store. -/
def decryptPqc (kyberTree : String → Option KyberKeyPair) (loadFails : Bool) (encryptedData kyberCiphertext : Bytes)
    (envelopeKeyId : String) : Except String Bytes := do
  Eff.rejectIf loadFails "failed to load ML-KEM key pair from sealed store"
  let pair ← Eff.okOr (kyberTree envelopeKeyId) (" ML-KEM key pair not found: " ++ envelopeKeyId)
  let sharedSecret ← performMlkemDecapsulation env kyberCiphertext pair.privateKey
  hybridDecryptWithSharedSecret env encryptedData sharedSecret

/-- What `generate_key_pair` draws. -/
structure KeyPairDraws where
  kyberSeed : Block 64
  dilithiumSeed : Block 32
  keyId : Uuid
  nonce : Block 12
  createdAt : DateTime
  expiryNow : DateTime

def validatePostQuantumAlgorithm (algorithm : String) : Except String Unit := do
  Eff.rejectIf (algorithm ∉ env.crypto.allowedAlgorithms) ("Algorithm not allowed: " ++ algorithm)
  if algorithm = "kyber768" ∨ algorithm = "dilithium5" ∨ algorithm = "kyber-dilithium" then .ok ()
  else if algorithm = "rsa" ∨ algorithm = "ecdsa" ∨ algorithm = "ed25519" then
    .error (" Classical algorithm '" ++ algorithm ++
      "' deprecated. Use 'kyber768', 'dilithium5', or 'kyber-dilithium'")
  else .error (" Unsupported algorithm: " ++ algorithm ++ ". Supported: kyber768, dilithium5, kyber-dilithium")

/-- The customer's keys that count against the limit. -/
def customerKeyCount (keyMetadata : List KeyMetadata) (customerId : String) : ℕ :=
  keyMetadata.countP fun m => m.customerId = customerId ∧ (m.status = .active ∨ m.status = .rotating)

def checkKeyLimits (keyMetadata : List KeyMetadata) (customerId : String) : Except String Unit :=
  Eff.rejectIf (env.crypto.maxKeysPerCustomer.toNat ≤ customerKeyCount keyMetadata customerId)
    ("Maximum key limit reached for customer: " ++ customerId)

def generateKyberKeys (seed : Block 64) : Except String (Bytes × Bytes) := do
  let (ek, dk) ← (env.mlKem.keygen seed).mapError ("ML-KEM-768 keygen failed: " ++ ·)
  return (ek.val, dk.val)

def generateDilithiumKeys (seed : Block 32) : Bytes × Bytes := ((env.mlDsa.verifyingKey seed).val, seed.val)

def generateHybridPqKeys (kyberSeed : Block 64) (dilithiumSeed : Block 32) : Except String (Bytes × Bytes) := do
  let (kyberPub, kyberSec) ← generateKyberKeys env kyberSeed
  let (dilithiumPub, dilithiumSec) := generateDilithiumKeys env dilithiumSeed
  return (kyberPub ++ dilithiumPub, kyberSec ++ dilithiumSec)

def generateKeys (d : KeyPairDraws) (algorithm : String) : Except String (Bytes × Bytes) :=
  if algorithm = "kyber768" then generateKyberKeys env d.kyberSeed
  else if algorithm = "dilithium5" then .ok (generateDilithiumKeys env d.dilithiumSeed)
  else if algorithm = "kyber-dilithium" then generateHybridPqKeys env d.kyberSeed d.dilithiumSeed
  else .error (" Unsupported post-quantum algorithm: " ++ algorithm)

def encryptPrivateKey (privateKey : Bytes) (nonce : Block 12) : Except String Bytes := do
  let ciphertext ← (env.chaCha20Poly1305.encrypt env.masterKey nonce privateKey).mapError
    ("AES-GCM encryption failed: " ++ ·)
  return nonce.val ++ ciphertext

def decryptPrivateKey (encryptedKey : Bytes) : Except String Bytes := do
  let (nonce, ciphertext) ← Eff.okOr (takeBytes 12 encryptedKey) "Invalid encrypted key format"
  let nonce ← Eff.okOr (sized 12 nonce) "Invalid encrypted key format"
  (env.chaCha20Poly1305.decrypt env.masterKey nonce ciphertext).mapError ("AES-GCM decryption failed: " ++ ·)

/-- `calculate_expiry`: out of range is a panic. -/
def calculateExpiry (now : DateTime) : Except Failure (Option DateTime) :=
  if env.crypto.keyRotationEnabled then
    (Eff.okOr (now.addSeconds (asI64 env.crypto.rotationIntervalHours * 3600)) .panic).map some
  else .ok none

/-- The table with the entry of a key replaced. -/
def insertKeyPair (pair : KeyPair) (pairs : List KeyPair) : List KeyPair :=
  pair :: pairs.filter fun p => p.keyId ≠ pair.keyId

def insertKeyMetadata (m : KeyMetadata) (metadata : List KeyMetadata) : List KeyMetadata :=
  m :: metadata.filter fun m' => m'.keyId ≠ m.keyId

/-- `KeyManager::generate_key_pair`. -/
def generateKeyPair (d : KeyPairDraws) (algorithm customerId : String) : Eff Broker Failure KeyPair := do
  Eff.lift ((validatePostQuantumAlgorithm env algorithm).mapError .anyhow)
  let s ← Eff.read
  Eff.lift ((checkKeyLimits env s.keyMetadata customerId).mapError .anyhow)
  let (publicKey, privateKey) ← Eff.lift ((generateKeys env d algorithm).mapError .anyhow)
  let encryptedPrivateKey ← Eff.lift ((encryptPrivateKey env privateKey d.nonce).mapError .anyhow)
  let expiresAt ← Eff.lift (calculateExpiry env d.expiryNow)
  let pair : KeyPair :=
    { keyId := "keypair_" ++ d.keyId.toString, publicKey, privateKey := encryptedPrivateKey, algorithm,
      createdAt := d.createdAt, expiresAt }
  let metadata : KeyMetadata :=
    { keyId := pair.keyId, algorithm, createdAt := pair.createdAt, expiresAt := pair.expiresAt, customerId,
      usageCount := 0, lastUsedAt := none, status := .active }
  Eff.modify fun s =>
    { s with
      keyPairs := insertKeyPair pair s.keyPairs
      keyMetadata := insertKeyMetadata metadata s.keyMetadata }
  return pair

def signDilithium5 (data privateKey : Bytes) : Except String Bytes := do
  let seed ← Eff.okOr (sized 32 privateKey)
    ("Invalid ML-DSA-65 seed size (expected 32 bytes, got " ++ toString privateKey.length ++ ")")
  (env.mlDsa.sign seed data).mapError ("ML-DSA-65 signing failed: " ++ ·)

def signHybridPq (data combinedPrivateKey : Bytes) : Except String Bytes := do
  let (_, dilithiumPrivate) ← Eff.okOr (takeBytes 2400 combinedPrivateKey) "Invalid hybrid private key length"
  signDilithium5 env data dilithiumPrivate

/-- The signature of `sign_data`, by the algorithm of the key. -/
def signWithAlgorithm (algorithm : String) (data privateKey : Bytes) : Except String Bytes :=
  if algorithm = "dilithium5" then signDilithium5 env data privateKey
  else if algorithm = "kyber-dilithium" then signHybridPq env data privateKey
  else if algorithm = "rsa" ∨ algorithm = "ecdsa" ∨ algorithm = "ed25519" then
    .error (" Classical algorithm '" ++ algorithm ++ "' rejected - migrate to Dilithium5")
  else .error (" Unsupported post-quantum algorithm for signing: " ++ algorithm)

def isKeyExpired (pair : KeyPair) (now : DateTime) : Bool := pair.expiresAt.any fun expiresAt => now > expiresAt

/-- `{:?}` of an optional time. -/
def debugOption : Option DateTime → String
  | some t => "Some(" ++ env.chrono.debug t ++ ")"
  | none => "None"

/-- The table after `update_key_usage`. -/
def updateKeyUsage (keyId : String) (now : DateTime) (metadata : List KeyMetadata) : List KeyMetadata :=
  metadata.map fun m =>
    if m.keyId = keyId then { m with usageCount := m.usageCount + 1, lastUsedAt := some now } else m

/-- `KeyManager::sign_data`. -/
def signData (checkNow usageNow : DateTime) (data : Bytes) (keyId : String) : Eff Broker Failure Bytes := do
  let s ← Eff.read
  let pair ← Eff.lift (Eff.okOr (s.keyPairs.find? fun p => p.keyId = keyId) (.anyhow ("Key pair not found: " ++ keyId)))
  Eff.lift (Eff.rejectIf (isKeyExpired pair checkNow) (.anyhow ("Key '" ++ keyId ++ "' has expired (expired at: " ++
    debugOption env pair.expiresAt ++ ", created at: " ++ env.chrono.debug pair.createdAt ++ ")")))
  let privateKey ← Eff.lift ((decryptPrivateKey env pair.privateKey).mapError .anyhow)
  let signature ← Eff.lift ((signWithAlgorithm env pair.algorithm data privateKey).mapError .anyhow)
  Eff.modify fun s => { s with keyMetadata := updateKeyUsage keyId usageNow s.keyMetadata }
  return signature

/-- `verify_dilithium5_with_public_key`. -/
def verifyPersistedEnvelopeSignature (data signature publicKey : Bytes) : Except String Bool := do
  let verifyingKey ← Eff.okOr (sized 1952 publicKey) "Invalid ML-DSA-65 public key size (expected 1952 bytes)"
  Eff.rejectIf (env.mlDsa.signatureOk signature = false) "Invalid ML-DSA-65 signature format"
  return env.mlDsa.verify verifyingKey data signature

end SecretBroker

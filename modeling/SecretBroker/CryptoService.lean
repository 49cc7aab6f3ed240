import SecretBroker.CryptoLaws

/-! The crypto service: symmetric encryption under keys that are kept in a cache of the process, and hybrid
encryption under ML-KEM keys of the key store. A ciphertext of either kind starts with its nonce. -/

open Wire

namespace SecretBroker

inductive EncryptionAlgorithm where
  | aes256Gcm
  | chaCha20Poly1305
  | xChaCha20Poly1305
  | kyber768
  deriving DecidableEq, Repr

/-- The name of an algorithm of the symmetric engine. -/
def EncryptionAlgorithm.classicalName : EncryptionAlgorithm → Option String
  | .aes256Gcm => some "aes-256-gcm"
  | .chaCha20Poly1305 => some "chacha20-poly1305"
  | .xChaCha20Poly1305 => some "xchacha20-poly1305"
  | .kyber768 => none

/-- An AEAD with a 32-byte key and a 24-byte nonce. -/
structure XAead where
  encrypt : Block 32 → Block 24 → Bytes → Except String Bytes
  decrypt : Block 32 → Block 24 → Bytes → Except String Bytes

/-- What a broker process with its crypto service and its gRPC server is started with. -/
structure ServerEnv extends Env where
  xChaCha20Poly1305 : XAead
  maxDataSizeMb : UInt32
  /-- The `Debug` text of an error with a message. -/
  debugError : String → String
  /-- The text of the error with which reading a text as shares ends. -/
  sharesError : String → String

/-- `get_max_data_size`, in bytes. -/
def ServerEnv.maxDataSize (env : ServerEnv) : ℕ := env.maxDataSizeMb.toNat * 1024 * 1024

structure EncryptionKey where
  keyId : String
  keyData : Bytes
  algorithm : String
  createdAt : DateTime
  expiresAt : Option DateTime
  deriving DecidableEq, Repr

/-- What an encryption by the symmetric engine draws. -/
structure EngineDraws where
  keyId : Uuid
  keyData : Block 32
  createdAt : DateTime
  nonce : Block 12
  xNonce : Block 24

/-- The id that a new key is cached under. -/
def generatedKeyId (keyId : Uuid) : String := "key_" ++ keyId.toString

/-- A new key of the symmetric engine, which does not expire. -/
def newKey (d : EngineDraws) (algorithm : String) : EncryptionKey where
  keyId := generatedKeyId d.keyId
  keyData := d.keyData.val
  algorithm := algorithm
  createdAt := d.createdAt
  expiresAt := none

/-- The keys of the symmetric engine. All of them were generated, and each is found under its own id. -/
structure KeyCache where
  get : String → Option EncryptionKey
  generated : ∀ k key, get k = some key → ∃ d algorithm, key = newKey d algorithm ∧ k = generatedKeyId d.keyId

namespace KeyCache

def empty : KeyCache := ⟨fun _ => none, fun _ _ h => by cases h⟩

def insert (cache : KeyCache) (d : EngineDraws) (algorithm : String) : KeyCache where
  get := Function.update cache.get (generatedKeyId d.keyId) (some (newKey d algorithm))
  generated k key h := by
    by_cases hk : k = generatedKeyId d.keyId
    · rw [hk, Function.update_self, Option.some.injEq] at h
      exact ⟨d, algorithm, h.symm, hk⟩
    · rw [Function.update_of_ne hk] at h
      exact cache.generated k key h

theorem insert_get_self (cache : KeyCache) (d : EngineDraws) (algorithm : String) :
    (cache.insert d algorithm).get (generatedKeyId d.keyId) = some (newKey d algorithm) := Function.update_self ..

theorem insert_get_of_ne (cache : KeyCache) {d : EngineDraws} {k : String} (h : k ≠ generatedKeyId d.keyId)
    (algorithm : String) : (cache.insert d algorithm).get k = cache.get k := Function.update_of_ne h ..

/-- A key that is found under some id has that id. -/
theorem keyId_eq (cache : KeyCache) {k : String} {key : EncryptionKey} (h : cache.get k = some key) : key.keyId = k := by
  obtain ⟨d, algorithm, rfl, rfl⟩ := cache.generated k key h
  rfl

end KeyCache

/-- The state of the handlers, and the keys of the symmetric engine, which live as long as the process. -/
structure ServerState where
  broker : Broker
  keyCache : KeyCache

/-- A process that has just been started. -/
def ServerState.start (broker : Broker) : ServerState := ⟨broker, .empty⟩

structure EncryptionRequest where
  data : Bytes
  algorithm : EncryptionAlgorithm
  keyId : Option String

/-- For the post-quantum algorithm the nonce is the KEM ciphertext; the symmetric engine does not look at it. -/
structure DecryptionRequest where
  encryptedData : Bytes
  nonce : Option Bytes
  algorithm : EncryptionAlgorithm
  keyId : String

/-- The result of an encryption with the id of its key. -/
structure KeyedEncryptionResult extends EncryptionResult where
  keyId : Option String
  deriving DecidableEq, Repr

structure DecryptionResult where
  plaintext : Bytes
  algorithm : String
  verified : Bool
  deriving DecidableEq, Repr

variable (env : ServerEnv)

/-- Encryption under a drawn nonce, which is put before the ciphertext. -/
def encryptClassical {n : ℕ} (encrypt : Block 32 → Block n → Bytes → Except String Bytes)
    (sizeError failure algorithm : String) (nonce : Block n) (plaintext : Bytes) (key : EncryptionKey) :
    Except String KeyedEncryptionResult := do
  let cipherKey ← Eff.okOr (sized 32 key.keyData) sizeError
  let ciphertext ← (encrypt cipherKey nonce plaintext).mapError (failure ++ ·)
  return { ciphertext := nonce.val ++ ciphertext, nonce := nonce.val, algorithm, keyId := some key.keyId }

def decryptClassical {n : ℕ} (decrypt : Block 32 → Block n → Bytes → Except String Bytes)
    (sizeError nonceError failure algorithm : String) (ciphertext nonce : Bytes) (key : EncryptionKey) :
    Except String DecryptionResult := do
  let cipherKey ← Eff.okOr (sized 32 key.keyData) sizeError
  let nonce ← Eff.okOr (sized n nonce) nonceError
  let plaintext ← (decrypt cipherKey nonce ciphertext).mapError (failure ++ ·)
  return { plaintext, algorithm, verified := true }

def encryptAes256Gcm : Block 12 → Bytes → EncryptionKey → Except String KeyedEncryptionResult :=
  encryptClassical env.aesGcm.encrypt "Invalid key size for AES-256" "AES-GCM encryption failed: " "aes-256-gcm"

def decryptAes256Gcm : Bytes → Bytes → EncryptionKey → Except String DecryptionResult :=
  decryptClassical env.aesGcm.decrypt "Invalid key size for AES-256" "Invalid nonce size for AES-256-GCM"
    "AES-GCM decryption failed: " "aes-256-gcm"

def encryptChacha20Poly1305 : Block 12 → Bytes → EncryptionKey → Except String KeyedEncryptionResult :=
  encryptClassical env.chaCha20Poly1305.encrypt "Invalid key size for ChaCha20-Poly1305"
    "ChaCha20-Poly1305 encryption failed: " "chacha20-poly1305"

def decryptChacha20Poly1305 : Bytes → Bytes → EncryptionKey → Except String DecryptionResult :=
  decryptClassical env.chaCha20Poly1305.decrypt "Invalid key size for ChaCha20-Poly1305"
    "Invalid nonce size for ChaCha20-Poly1305" "ChaCha20-Poly1305 decryption failed: " "chacha20-poly1305"

def encryptXchacha20Poly1305 : Block 24 → Bytes → EncryptionKey → Except String KeyedEncryptionResult :=
  encryptClassical env.xChaCha20Poly1305.encrypt "Invalid key size for XChaCha20-Poly1305"
    "XChaCha20-Poly1305 encryption failed: " "xchacha20-poly1305"

def decryptXchacha20Poly1305 : Bytes → Bytes → EncryptionKey → Except String DecryptionResult :=
  decryptClassical env.xChaCha20Poly1305.decrypt "Invalid key size for XChaCha20-Poly1305"
    "Invalid nonce size for XChaCha20-Poly1305" "XChaCha20-Poly1305 decryption failed: " "xchacha20-poly1305"

/-- The checks of the size and of the algorithm that encryption and decryption share. -/
def validateClassicalRequest (sizeError : String) (size : ℕ) (algorithm : EncryptionAlgorithm) : Except String Unit := do
  Eff.rejectIf (size > env.maxDataSize) sizeError
  let algorithmStr ← Eff.okOr algorithm.classicalName "Unsupported algorithm"
  Eff.rejectIf (algorithmStr ∉ env.crypto.allowedAlgorithms) ("Algorithm not allowed: " ++ algorithmStr)

def validateEncryptionRequest (request : EncryptionRequest) : Except String Unit :=
  validateClassicalRequest env "Data size exceeds maximum allowed size" request.data.length request.algorithm

def validateDecryptionRequest (request : DecryptionRequest) : Except String Unit :=
  validateClassicalRequest env "Encrypted data size exceeds maximum allowed size" request.encryptedData.length
    request.algorithm

def generateKey (d : EngineDraws) (algorithm : EncryptionAlgorithm) : Eff ServerState Failure EncryptionKey := do
  let name ← Eff.lift (Eff.okOr algorithm.classicalName (.anyhow "Unsupported algorithm for key generation"))
  Eff.modify fun s => { s with keyCache := s.keyCache.insert d name }
  return newKey d name

/-- A key id that is not in the cache is ignored, and a new key is made. -/
def getOrGenerateKey (d : EngineDraws) (keyId : Option String) (algorithm : EncryptionAlgorithm) :
    Eff ServerState Failure EncryptionKey := do
  let s ← Eff.read
  match keyId.bind s.keyCache.get with
  | some key => return key
  | none => generateKey d algorithm

def encryptWithKey (d : EngineDraws) (algorithm : EncryptionAlgorithm) (data : Bytes) (key : EncryptionKey) :
    Except String KeyedEncryptionResult :=
  match algorithm with
  | .aes256Gcm => encryptAes256Gcm env d.nonce data key
  | .chaCha20Poly1305 => encryptChacha20Poly1305 env d.nonce data key
  | .xChaCha20Poly1305 => encryptXchacha20Poly1305 env d.xNonce data key
  | .kyber768 => .error "Unsupported algorithm for classical encryption"

/-- `CryptoEngine::process_encryption_request`. -/
def processEncryptionRequest (d : EngineDraws) (request : EncryptionRequest) :
    Eff ServerState Failure KeyedEncryptionResult := do
  Eff.lift (Eff.rejectIf (request.data = []) (.anyhow "Encryption data cannot be empty"))
  Eff.lift ((validateEncryptionRequest env request).mapError .anyhow)
  let key ← getOrGenerateKey d request.keyId request.algorithm
  Eff.lift ((encryptWithKey env d request.algorithm request.data key).mapError .anyhow)

def decryptWithKey (algorithm : EncryptionAlgorithm) (ciphertext nonce : Bytes) (key : EncryptionKey) :
    Except String DecryptionResult :=
  match algorithm with
  | .aes256Gcm => decryptAes256Gcm env ciphertext nonce key
  | .chaCha20Poly1305 => decryptChacha20Poly1305 env ciphertext nonce key
  | .xChaCha20Poly1305 => decryptXchacha20Poly1305 env ciphertext nonce key
  | .kyber768 => .error "Unsupported algorithm for classical decryption"

/-- `CryptoEngine::process_decryption_request`. The first twelve bytes are taken for the nonce, whatever the
algorithm. -/
def processDecryptionRequest (now : DateTime) (keyCache : KeyCache) (request : DecryptionRequest) :
    Except String DecryptionResult := do
  validateDecryptionRequest env request
  let key ← Eff.okOr (keyCache.get request.keyId) ("Key not found: " ++ request.keyId)
  match key.expiresAt with
  | some expiresAt =>
      Eff.rejectIf (now > expiresAt) ("Key " ++ key.keyId ++ " expired at " ++ env.chrono.display expiresAt ++
        " (algorithm: " ++ key.algorithm ++ ", created: " ++ env.chrono.display key.createdAt ++ ")")
  | none => .ok ()
  let (nonce, ciphertext) ← Eff.okOr (takeBytes 12 request.encryptedData) "Invalid encrypted data format"
  decryptWithKey env request.algorithm ciphertext nonce key

/-- The id under which the key pair of a hybrid encryption is stored. -/
def mlkemKeyId (keyId : Option String) (uuid : Uuid) : String := keyId.getD ("mlkem_" ++ uuid.toString)

/-- `encrypt_with_mlkem`: without a key id the new pair keeps the one it was generated with. -/
def encryptWithMlkem (d : EncryptDraws) (uuid : Uuid) (data : Bytes) (keyId : Option String) :
    Eff Broker Failure KeyedEncryptionResult := do
  let result ← encryptPqc env.toEnv d data (mlkemKeyId keyId uuid)
  return { result with keyId := some (mlkemKeyId keyId uuid) }

/-- `QuantumResistantCrypto::process_decryption_request`. -/
def processQuantumDecryption (kyberTree : String → Option KyberKeyPair) (loadFails : Bool)
    (request : DecryptionRequest) : Except String DecryptionResult :=
  match request.algorithm with
  | .kyber768 => do
      let mlkemCiphertext ← Eff.okOr request.nonce
        " CRITICAL: Missing ML-KEM ciphertext in nonce field for decryption"
      let plaintext ← decryptPqc env.toEnv kyberTree loadFails request.encryptedData mlkemCiphertext request.keyId
      return { plaintext, algorithm := "mlkem768-hybrid", verified := true }
  | _ => .error " Unsupported quantum-resistant algorithm"

/-- What `encrypt_data_with_key` draws, for either engine. -/
structure CryptoDraws where
  engine : EngineDraws
  mlkem : EncryptDraws
  mlkemUuid : Uuid

/-- `CryptoEngineService::encrypt_data_with_key`. -/
def encryptDataWithKey (d : CryptoDraws) (data : Bytes) (algorithm : EncryptionAlgorithm) (keyId : Option String) :
    Eff ServerState Failure KeyedEncryptionResult :=
  match algorithm with
  | .kyber768 => Eff.zoom ServerState.broker (fun s broker => { s with broker })
      (encryptWithMlkem env d.mlkem d.mlkemUuid data keyId)
  | _ => processEncryptionRequest env d.engine { data, algorithm, keyId }

/-- `CryptoEngineService::decrypt_data`. The request is made without a nonce. -/
def decryptData (now : DateTime) (loadFails : Bool) (s : ServerState) (encryptedData : Bytes)
    (algorithm : EncryptionAlgorithm) (keyId : String) : Except String DecryptionResult :=
  match algorithm with
  | .kyber768 => processQuantumDecryption env s.broker.kyberTree loadFails
      { encryptedData, nonce := none, algorithm, keyId }
  | _ => processDecryptionRequest env now s.keyCache { encryptedData, nonce := none, algorithm, keyId }

end SecretBroker

import SecretBroker.CryptoLaws
import SecretBroker.KeyTable

/-! Signatures by keys of the key manager. Every key in its tables was made by a generation, so its two halves
belong together: what the private half signs, the public half verifies, for a hybrid key as well. Keys are
only ever added, each under an id of its own. -/

open Wire

namespace SecretBroker

variable (env : Env)

def verifyHybridPq (data signature combinedPublicKey : Bytes) : Except String Bool := do
  let (_, dilithiumPublic) ← Eff.okOr (takeBytes 1184 combinedPublicKey) "Invalid hybrid public key length"
  verifyPersistedEnvelopeSignature env data signature dilithiumPublic

/-- The check of `verify_signature`, by the algorithm of the key. -/
def verifyWithAlgorithm (algorithm : String) (data signature publicKey : Bytes) : Except String Bool :=
  if algorithm = "dilithium5" then verifyPersistedEnvelopeSignature env data signature publicKey
  else if algorithm = "kyber-dilithium" then verifyHybridPq env data signature publicKey
  else if algorithm = "rsa" ∨ algorithm = "ecdsa" ∨ algorithm = "ed25519" then
    .error (" Classical algorithm '" ++ algorithm ++ "' rejected - migrate to Dilithium5")
  else .error (" Unsupported post-quantum algorithm for verification: " ++ algorithm)

/-- The key of an id. -/
def Broker.keyPair? (s : Broker) (keyId : String) : Option KeyPair := s.keyPairs.find? fun p => p.keyId = keyId

/-- How `sign_data` and `verify_signature` refuse an expired key. -/
def expiredKeyError (keyId : String) (pair : KeyPair) : Failure :=
  .anyhow ("Key '" ++ keyId ++ "' has expired (expired at: " ++ debugOption env pair.expiresAt ++ ", created at: " ++
    env.chrono.debug pair.createdAt ++ ")")

def keyNotFound (keyId : String) : Failure := .anyhow ("Key pair not found: " ++ keyId)

/-- The broker after a use of a key has been noted. -/
def Broker.useKey (s : Broker) (keyId : String) (now : DateTime) : Broker :=
  { s with keyMetadata := updateKeyUsage keyId now s.keyMetadata }

variable {env}

/-- The key pair came out of a generation. -/
def Generated (env : Env) (pair : KeyPair) : Prop := ∃ d : KeyPairDraws, newKeyPair env d pair.algorithm = .ok pair

theorem newKeyPair_spec {d : KeyPairDraws} {algorithm : String} {pair : KeyPair}
    (h : newKeyPair env d algorithm = .ok pair) :
    ∃ privateKey ciphertext, generateKeys env d algorithm = .ok (pair.publicKey, privateKey) ∧
      env.chaCha20Poly1305.encrypt env.masterKey d.nonce privateKey = .ok ciphertext ∧
      pair.privateKey = d.nonce.val ++ ciphertext := by
  simp only [newKeyPair, encryptPrivateKey, Eff.except_bind_eq_ok, Eff.except_mapError_eq_ok, Prod.exists, pure,
    Except.pure, Except.ok.injEq] at h
  obtain ⟨publicKey, privateKey, hkeys, _, ⟨ciphertext, hencrypt, rfl⟩, expiresAt, -, rfl⟩ := h
  exact ⟨privateKey, ciphertext, hkeys, hencrypt, rfl⟩

/-- The private key is read back as it was made. -/
theorem decryptPrivateKey_generated (hlaw : env.Lawful) {d : KeyPairDraws} {privateKey ciphertext : Bytes}
    (h : env.chaCha20Poly1305.encrypt env.masterKey d.nonce privateKey = .ok ciphertext) :
    decryptPrivateKey env (d.nonce.val ++ ciphertext) = .ok privateKey := by
  simp only [decryptPrivateKey, takeBytes_append d.nonce.property, Eff.okOr_some, sized_val, Eff.ok_bind,
    hlaw.chaCha_decrypt h]
  rfl

/-- Signing with a seed, and checking with its verifying key. -/
theorem verify_of_signDilithium5 (hlaw : env.Lawful) {seed : Block 32} {data signature : Bytes}
    (h : signDilithium5 env data seed.val = .ok signature) :
    verifyPersistedEnvelopeSignature env data signature (env.mlDsa.verifyingKey seed).val = .ok true := by
  have hsigned : env.mlDsa.sign seed data = .ok signature := by
    simpa only [signDilithium5, sized_val, Eff.okOr_some, Eff.ok_bind, Eff.except_mapError_eq_ok] using h
  obtain ⟨hformat, hverify⟩ := hlaw.verify_sign hsigned
  simp only [verifyPersistedEnvelopeSignature, sized_val, Eff.okOr_some, Eff.ok_bind, hformat, hverify]
  rfl

/-- The halves of a hybrid key start with the ML-KEM part, which has a fixed length. -/
theorem generateHybridPqKeys_eq_ok {kyberSeed : Block 64} {dilithiumSeed : Block 32} {publicKey privateKey : Bytes}
    (h : generateHybridPqKeys env kyberSeed dilithiumSeed = .ok (publicKey, privateKey)) :
    ∃ (ek : Block 1184) (dk : Block 2400), publicKey = ek.val ++ (env.mlDsa.verifyingKey dilithiumSeed).val ∧
      privateKey = dk.val ++ dilithiumSeed.val := by
  simp only [generateHybridPqKeys, generateKyberKeys, generateDilithiumKeys, Eff.except_bind_eq_ok, Prod.exists, pure,
    Except.pure, Except.ok.injEq, Prod.mk.injEq] at h
  obtain ⟨_, _, ⟨ek, dk, -, rfl, rfl⟩, rfl, rfl⟩ := h
  exact ⟨ek, dk, rfl, rfl⟩

/-- **What a generated key signs, it verifies.** -/
theorem Generated.verifies (hlaw : env.Lawful) {pair : KeyPair} (h : Generated env pair)
    {privateKey data signature : Bytes} (hdecrypt : decryptPrivateKey env pair.privateKey = .ok privateKey)
    (hsign : signWithAlgorithm env pair.algorithm data privateKey = .ok signature) :
    verifyWithAlgorithm env pair.algorithm data signature pair.publicKey = .ok true := by
  obtain ⟨d, hd⟩ := h
  obtain ⟨made, ciphertext, hkeys, hencrypt, hprivate⟩ := newKeyPair_spec hd
  rw [hprivate, decryptPrivateKey_generated hlaw hencrypt] at hdecrypt
  cases hdecrypt
  -- only two of the algorithms sign
  by_cases hdilithium : pair.algorithm = "dilithium5"
  · rw [signWithAlgorithm, if_pos hdilithium] at hsign
    rw [verifyWithAlgorithm, if_pos hdilithium]
    have hmade : generateKeys env d pair.algorithm = .ok (generateDilithiumKeys env d.dilithiumSeed) := by
      rw [hdilithium]
      rfl
    rw [hmade, Except.ok.injEq, generateDilithiumKeys, Prod.mk.injEq] at hkeys
    obtain ⟨hpublic, rfl⟩ := hkeys
    rw [← hpublic]
    exact verify_of_signDilithium5 hlaw hsign
  · by_cases hhybrid : pair.algorithm = "kyber-dilithium"
    · rw [signWithAlgorithm, if_neg hdilithium, if_pos hhybrid] at hsign
      rw [verifyWithAlgorithm, if_neg hdilithium, if_pos hhybrid]
      have hmade : generateKeys env d pair.algorithm = generateHybridPqKeys env d.kyberSeed d.dilithiumSeed := by
        rw [hhybrid]
        rfl
      rw [hmade] at hkeys
      obtain ⟨ek, dk, hpublic, rfl⟩ := generateHybridPqKeys_eq_ok hkeys
      simp only [signHybridPq, takeBytes_append dk.property, Eff.okOr_some, Eff.ok_bind] at hsign
      simp only [verifyHybridPq, hpublic, takeBytes_append ek.property, Eff.okOr_some, Eff.ok_bind]
      exact verify_of_signDilithium5 hlaw hsign
    · rw [signWithAlgorithm, if_neg hdilithium, if_neg hhybrid] at hsign
      split_ifs at hsign

/-- What a request can do to the tables: note a use, or add a key under one of the given ids, which no key
has yet. -/
inductive KeyStep (env : Env) (ids : Uuid → Prop) : Broker → Broker → Prop
  | use (s : Broker) (keyId : String) (now : DateTime) : KeyStep env ids s (s.useKey keyId now)
  | add {s : Broker} {d : KeyPairDraws} {algorithm customerId : String} {pair : KeyPair} (hid : ids d.keyId)
      (hpair : newKeyPair env d algorithm = .ok pair) (hunused : s.keyPair? (keyIdOf d.keyId) = none) :
      KeyStep env ids s (s.addKey pair customerId)

abbrev KeySteps (env : Env) (ids : Uuid → Prop) : Broker → Broker → Prop := Relation.ReflTransGen (KeyStep env ids)

/-- Every key of the table was generated. -/
def Broker.AllGenerated (env : Env) (s : Broker) : Prop := ∀ keyId pair, s.keyPair? keyId = some pair → Generated env pair

/-- The entry that was made for a key, whatever has been noted of its uses since. -/
def KeyMetadata.Describes (m : KeyMetadata) (pair : KeyPair) (customerId : String) : Prop :=
  ∃ usageCount lastUsedAt, m = { newKeyMetadata pair customerId with usageCount, lastUsedAt }

/-- The key is in the table, and beside it the entry that was made for it. -/
def Broker.StoresKey (s : Broker) (pair : KeyPair) (customerId : String) : Prop :=
  s.keyPair? pair.keyId = some pair ∧ ∃ m ∈ s.keyMetadata, m.Describes pair customerId

variable {ids : Uuid → Prop} {s t : Broker}

theorem Broker.addKey_keyPair?_self {pair : KeyPair} {customerId : String} :
    (s.addKey pair customerId).keyPair? pair.keyId = some pair := find?_insertKeyPair_self pair s.keyPairs

theorem Broker.addKey_keyPair?_of_ne {pair : KeyPair} {customerId keyId : String} (h : keyId ≠ pair.keyId) :
    (s.addKey pair customerId).keyPair? keyId = s.keyPair? keyId := find?_insertKeyPair_of_ne h s.keyPairs

theorem KeyStep.mono {ids' : Uuid → Prop} (h : KeyStep env ids s t) (hids : ∀ id, ids id → ids' id) :
    KeyStep env ids' s t := by
  cases h with
  | use => exact .use s _ _
  | add hid hpair hunused => exact .add (hids _ hid) hpair hunused

/-- A key that is in the table stays as it is. -/
theorem KeyStep.keyPair? (h : KeyStep env ids s t) {keyId : String} {pair : KeyPair}
    (hpair : s.keyPair? keyId = some pair) : t.keyPair? keyId = some pair := by
  cases h with
  | use => exact hpair
  | @add d algorithm customerId new hid hnew hunused =>
      have hne : keyId ≠ new.keyId := by
        rw [(newKeyPair_eq_ok hnew).1]
        rintro rfl
        rw [hunused] at hpair
        cases hpair
      rw [Broker.addKey_keyPair?_of_ne hne, hpair]

theorem KeySteps.keyPair? (h : KeySteps env ids s t) {keyId : String} {pair : KeyPair}
    (hpair : s.keyPair? keyId = some pair) : t.keyPair? keyId = some pair := by
  induction h with
  | refl => exact hpair
  | tail _ hlast ih => exact hlast.keyPair? ih

theorem Broker.addKey_storesKey (s : Broker) (pair : KeyPair) (customerId : String) :
    (s.addKey pair customerId).StoresKey pair customerId :=
  ⟨Broker.addKey_keyPair?_self, newKeyMetadata pair customerId, List.mem_cons_self, 0, none, rfl⟩

theorem KeyMetadata.Describes.of_used {m : KeyMetadata} {pair : KeyPair} {customerId keyId : String} {now : DateTime}
    (h : m.Describes pair customerId) :
    (if m.keyId = keyId then { m with usageCount := m.usageCount + 1, lastUsedAt := some now } else m).Describes
      pair customerId := by
  obtain ⟨usageCount, lastUsedAt, rfl⟩ := h
  split_ifs
  · exact ⟨usageCount + 1, some now, rfl⟩
  · exact ⟨usageCount, lastUsedAt, rfl⟩

/-- A key stays beside its entry, which only its uses change. -/
theorem KeyStep.storesKey (h : KeyStep env ids s t) {pair : KeyPair} {customerId : String}
    (hs : s.StoresKey pair customerId) : t.StoresKey pair customerId := by
  obtain ⟨hpair, m, hmem, hm⟩ := hs
  refine ⟨h.keyPair? hpair, ?_⟩
  cases h with
  | use keyId now => exact ⟨_, List.mem_map_of_mem hmem, hm.of_used⟩
  | @add d algorithm customerId' new hid hnew hunused =>
      refine ⟨m, List.mem_cons_of_mem _ (List.mem_filter.mpr ⟨hmem, ?_⟩), hm⟩
      obtain ⟨usageCount, lastUsedAt, rfl⟩ := hm
      rw [decide_eq_true_eq]
      -- the id of the new key was free, and the id of this one was not
      intro heq
      have hid' : pair.keyId = keyIdOf d.keyId := Eq.trans heq (newKeyPair_eq_ok hnew).1
      rw [hid', hunused] at hpair
      cases hpair

/-- An id that is not drawn stays free. -/
theorem KeyStep.unused (h : KeyStep env ids s t) {id : Uuid} (hid : ¬ ids id) (hunused : s.keyPair? (keyIdOf id) = none) :
    t.keyPair? (keyIdOf id) = none := by
  cases h with
  | use => exact hunused
  | @add d algorithm customerId new hid' hnew hunused' =>
      have hne : keyIdOf id ≠ new.keyId := by
        rw [(newKeyPair_eq_ok hnew).1]
        intro heq
        exact hid (keyIdOf_injective heq ▸ hid')
      rw [Broker.addKey_keyPair?_of_ne hne, hunused]

theorem KeyStep.allGenerated (h : KeyStep env ids s t) (hs : s.AllGenerated env) : t.AllGenerated env := by
  cases h with
  | use => exact hs
  | @add d algorithm customerId new hid hnew hunused =>
      obtain ⟨-, halgorithm⟩ := newKeyPair_eq_ok hnew
      intro keyId pair hpair
      by_cases hkeyId : keyId = new.keyId
      · subst hkeyId
        rw [Broker.addKey_keyPair?_self] at hpair
        cases hpair
        exact ⟨d, by rw [halgorithm, hnew]⟩
      · rw [Broker.addKey_keyPair?_of_ne hkeyId] at hpair
        exact hs keyId pair hpair

end SecretBroker

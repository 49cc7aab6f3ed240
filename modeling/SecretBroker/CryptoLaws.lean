import SecretBroker.CryptoEngine

/-! What the primitives promise, and that the crypto engine keeps it: a ciphertext opens with the stored
key, and a signature verifies with the public key of the pair that made it. -/

open Wire

namespace SecretBroker

/-- The primitives undo themselves on matching inputs. -/
structure Env.Lawful (env : Env) : Prop where
  decaps_encaps : ∀ {seed ek dk coins sharedSecret ct}, env.mlKem.keygen seed = .ok (ek, dk) →
    env.mlKem.encaps ek coins = .ok (sharedSecret, ct) →
    env.mlKem.checkDecapsKey dk = .ok () ∧ env.mlKem.checkCiphertext ct = .ok () ∧
      env.mlKem.decaps dk ct = .ok sharedSecret
  aesGcm_decrypt : ∀ {key nonce plaintext ciphertext}, env.aesGcm.encrypt key nonce plaintext = .ok ciphertext →
    env.aesGcm.decrypt key nonce ciphertext = .ok plaintext
  chaCha_decrypt : ∀ {key nonce plaintext ciphertext},
    env.chaCha20Poly1305.encrypt key nonce plaintext = .ok ciphertext →
    env.chaCha20Poly1305.decrypt key nonce ciphertext = .ok plaintext
  verify_sign : ∀ {seed data signature}, env.mlDsa.sign seed data = .ok signature →
    env.mlDsa.signatureOk signature = true ∧ env.mlDsa.verify (env.mlDsa.verifyingKey seed) data signature = true
  reparse : ∀ {v : Value}, v.NoFraction → env.serde.reparse v = v

variable {env : Env}

/-- The stored key pair, the shared secret and the two ciphertexts of a successful encryption. -/
theorem encryptPqc_eq_ok {d : EncryptDraws} {data : Bytes} {keyId : String} {result : EncryptionResult} {s s' : Broker}
    (h : encryptPqc env d data keyId s = (.ok result, s')) :
    ∃ ek dk sharedSecret ct ciphertext, env.mlKem.keygen d.keygenSeed = .ok (ek, dk) ∧
      env.mlKem.encaps ek d.encapsSeed = .ok (sharedSecret, ct) ∧
      env.aesGcm.encrypt sharedSecret d.nonce data = .ok ciphertext ∧
      result = { ciphertext := d.nonce.val ++ ciphertext, nonce := ct.val, algorithm := "mlkem768-hybrid" } ∧
      s' = s.putKyber { publicKey := ek.val, privateKey := dk.val, algorithm := "mlkem768", keyId } := by
  simp only [encryptPqc, generateMlkemKeypair, storeKyberKeypair_eq_ok, performMlkemEncapsulation,
    hybridEncryptWithSharedSecret, Eff.bind_eq_ok, Eff.lift_eq_ok, Eff.except_mapError_eq_ok,
    Eff.except_bind_eq_ok, Prod.exists, pure, Except.pure, Except.ok.injEq, Prod.mk.injEq] at h
  obtain ⟨_, _, _, ⟨⟨ek, dk, hkeygen, rfl, rfl⟩, rfl⟩, _, _, ⟨-, rfl⟩, _, _, ⟨-, rfl⟩,
    sharedSecret, ct, _, ⟨⟨_, -, hencaps⟩, rfl⟩, _, _, ⟨⟨ciphertext, hencrypt, rfl⟩, rfl⟩, rfl, rfl⟩ := h
  exact ⟨ek, dk, sharedSecret, ct, ciphertext, hkeygen, hencaps, hencrypt, rfl, rfl⟩

/-- What was encrypted opens with the stored key pair. -/
theorem decryptPqc_encrypted (hlaw : env.Lawful) {d : EncryptDraws} {data : Bytes} {ek : Block 1184} {dk : Block 2400}
    {sharedSecret : Block 32} {ct : Block 1088} {ciphertext : Bytes}
    (hkeygen : env.mlKem.keygen d.keygenSeed = .ok (ek, dk))
    (hencaps : env.mlKem.encaps ek d.encapsSeed = .ok (sharedSecret, ct))
    (hencrypt : env.aesGcm.encrypt sharedSecret d.nonce data = .ok ciphertext) {kyberTree : String → Option KyberKeyPair}
    {keyId : String} {pair : KyberKeyPair} (hpair : kyberTree keyId = some pair) (hprivate : pair.privateKey = dk.val) :
    decryptPqc env kyberTree false (d.nonce.val ++ ciphertext) ct.val keyId = .ok data := by
  obtain ⟨hdk, hct, hdecaps⟩ := hlaw.decaps_encaps hkeygen hencaps
  have hsecret : performMlkemDecapsulation env ct.val pair.privateKey = .ok sharedSecret := by
    simp only [performMlkemDecapsulation, hprivate, sized_val, Eff.okOr_some, Eff.ok_bind, hdk, hct, hdecaps]
    rfl
  have hopen : hybridDecryptWithSharedSecret env (d.nonce.val ++ ciphertext) sharedSecret = .ok data := by
    simp only [hybridDecryptWithSharedSecret, takeBytes_append d.nonce.property, Eff.okOr_some, sized_val,
      Eff.ok_bind, hlaw.aesGcm_decrypt hencrypt]
    rfl
  simp only [decryptPqc, Eff.rejectIf, hpair, Eff.okOr_some, hsecret, Eff.ok_bind, hopen]
  rfl

/-- The stored form of a new signing key. -/
theorem generateKeyPair_eq_ok {d : KeyPairDraws} {customerId : String} {pair : KeyPair} {s s' : Broker}
    (h : generateKeyPair env d "dilithium5" customerId s = (.ok pair, s')) :
    ∃ ciphertext rest metadata, env.chaCha20Poly1305.encrypt env.masterKey d.nonce d.dilithiumSeed.val = .ok ciphertext ∧
      pair.publicKey = (env.mlDsa.verifyingKey d.dilithiumSeed).val ∧ pair.privateKey = d.nonce.val ++ ciphertext ∧
      pair.algorithm = "dilithium5" ∧ s' = { s with keyPairs := pair :: rest, keyMetadata := metadata } := by
  simp only [generateKeyPair, encryptPrivateKey, Eff.bind_eq_ok, Eff.lift_eq_ok, Eff.read_eq_ok, Eff.modify_eq_ok,
    Eff.except_mapError_eq_ok, Eff.except_bind_eq_ok, Prod.exists, pure, Except.pure, Except.ok.injEq] at h
  obtain ⟨_, _, ⟨-, rfl⟩, _, _, ⟨rfl, rfl⟩, _, _, ⟨-, rfl⟩, publicKey, privateKey, _, ⟨hkeys, rfl⟩,
    _, _, ⟨⟨ciphertext, hwrap, rfl⟩, rfl⟩, expiresAt, _, ⟨-, rfl⟩, _, _, rfl, rfl, rfl⟩ := h
  have hdilithium : generateKeys env d "dilithium5" = .ok (generateDilithiumKeys env d.dilithiumSeed) := by
    simp [generateKeys]
  rw [hdilithium] at hkeys
  cases hkeys
  exact ⟨ciphertext, _, _, hwrap, rfl, rfl, rfl, rfl⟩

theorem signData_eq_ok {checkNow usageNow : DateTime} {data signature : Bytes} {keyId : String} {s s' : Broker}
    (h : signData env checkNow usageNow data keyId s = (.ok signature, s')) :
    ∃ pair privateKey metadata, s.keyPairs.find? (fun p => p.keyId = keyId) = some pair ∧
      decryptPrivateKey env pair.privateKey = .ok privateKey ∧
      signWithAlgorithm env pair.algorithm data privateKey = .ok signature ∧
      s' = { s with keyMetadata := metadata } := by
  simp only [signData, Eff.bind_eq_ok, Eff.lift_eq_ok, Eff.read_eq_ok, Eff.modify_eq_ok, Eff.pure_eq_ok,
    Eff.except_mapError_eq_ok, Eff.okOr_eq_ok] at h
  obtain ⟨_, _, ⟨rfl, rfl⟩, pair, _, ⟨hpair, rfl⟩, _, _, ⟨-, rfl⟩, privateKey, _, ⟨hprivate, rfl⟩,
    _, _, ⟨hsign, rfl⟩, _, _, rfl, rfl, rfl⟩ := h
  exact ⟨pair, privateKey, _, hpair, hprivate, hsign, rfl⟩

/-- A signature by a key that was just generated verifies with its public key. -/
theorem verify_generated (hlaw : env.Lawful) {d : KeyPairDraws} {customerId : String} {pair : KeyPair}
    {checkNow usageNow : DateTime} {data signature : Bytes} {s₁ s₂ s₃ : Broker}
    (hpair : generateKeyPair env d "dilithium5" customerId s₁ = (.ok pair, s₂))
    (hsign : signData env checkNow usageNow data pair.keyId s₂ = (.ok signature, s₃)) :
    verifyPersistedEnvelopeSignature env data signature pair.publicKey = .ok true := by
  obtain ⟨ciphertext, rest, metadata, hwrap, hpublic, hprivate, halgorithm, rfl⟩ := generateKeyPair_eq_ok hpair
  obtain ⟨found, privateKey, _, hfound, hunwrap, hsignature, -⟩ := signData_eq_ok hsign
  -- the key that signs is the one at the head of the table
  rw [List.find?_cons_of_pos (by simp)] at hfound
  cases hfound
  have hseed : decryptPrivateKey env pair.privateKey = .ok d.dilithiumSeed.val := by
    simp only [decryptPrivateKey, hprivate, takeBytes_append d.nonce.property, Eff.okOr_some, sized_val,
      Eff.ok_bind, hlaw.chaCha_decrypt hwrap]
    rfl
  rw [hseed] at hunwrap
  cases hunwrap
  rw [halgorithm] at hsignature
  have hsigned : env.mlDsa.sign d.dilithiumSeed data = .ok signature := by
    simpa only [signWithAlgorithm, if_pos, signDilithium5, sized_val, Eff.okOr_some, Eff.ok_bind,
      Eff.except_mapError_eq_ok] using hsignature
  obtain ⟨hformat, hverify⟩ := hlaw.verify_sign hsigned
  simp only [verifyPersistedEnvelopeSignature, hpublic, sized_val, Eff.okOr_some, Eff.ok_bind, hformat, hverify]
  rfl

end SecretBroker

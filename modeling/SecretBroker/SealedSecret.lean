import SecretBroker.CryptoLaws
import SecretBroker.Issuance
import SecretBroker.RecordLifetime
import SecretBroker.RedemptionSpec

/-! What issuing a secret leaves behind. The record verifies, opens, and carries the redeem material that
the returned token was made from, and it stays so until the token is consumed; the returned handle reads
back and verifies for a request that repeats the fields of the one that issued it. -/

open Wire

namespace SecretBroker

variable {env : Env}

/-- `r` is a record of the secret that was sealed with `d`, whose token has not been consumed. -/
structure Redeemable (env : Env) (d : PersistDraws) (context : BrokerClientContext) (input : PersistSecretV2Input)
    (kyberTree : String → Option KyberKeyPair) (r : StoredEnvelopeRecord) : Prop where
  opens : ∀ c : BrokerClientContext, (input.lifecycle = .singleUseUnwrap → c.exporter = context.exporter) →
    openEnvelope env kyberTree false c r = .ok input.plaintext
  lifecycle : r.lifecycle = input.lifecycle
  expiresAt : r.expiresAt = input.expiresAt
  redeemNonce : r.redeemNonce = some (Base64.standard.encode d.redeemNonce.val)
  redeemBinding : r.redeemBinding = newRedeemBinding env input.lifecycle context
  redeemExpiresAt : ∃ t, r.redeemExpiresAt = some t
  threshold : r.threshold = none
  caveatKeys : ∀ k ∈ r.thirdPartyCaveatKeys.getD [], k.Usable

/-- The same with the signature, whose check reads the metadata back. -/
structure Sealed (env : Env) (d : PersistDraws) (context : BrokerClientContext) (input : PersistSecretV2Input)
    (kyberTree : String → Option KyberKeyPair) (r : StoredEnvelopeRecord) : Prop
    extends Redeemable env d context input kyberTree r where
  signed : verifyEnvelope env r = .ok ()

theorem verifyEnvelope_of_signed {r : StoredEnvelopeRecord} {signature publicKey : Bytes}
    (hsignature : r.signature = Base64.standard.encode signature)
    (hkey : r.signingPublicKey = Base64.standard.encode publicKey)
    (hverify : verifyPersistedEnvelopeSignature env (env.serde.envelopeToVec r.envelope) signature publicKey = .ok true) :
    verifyEnvelope env r = .ok () := by
  simp only [verifyEnvelope, StoredEnvelopeRecord.signatureBytes, hsignature, hkey, decodeStored_encode,
    Base64.decode_encode Base64.standard_lawful, Eff.okOr_some, Eff.ok_bind, hverify]
  rfl

theorem openEnvelope_of_encrypted {kyberTree : String → Option KyberKeyPair} {c : BrokerClientContext}
    {r : StoredEnvelopeRecord} {ciphertext kemCipher plaintext : Bytes}
    (hexporter : ∀ binding, r.envelope.exporterBinding = some binding → binding = Base64.standard.encode c.exporter)
    (hciphertext : r.envelope.ciphertext = Base64.standard.encode ciphertext)
    (hkem : r.envelope.kyberCiphertext = Base64.standard.encode kemCipher)
    (hdecrypt : decryptPqc env kyberTree false ciphertext kemCipher r.envelope.envelopeKeyId = .ok plaintext) :
    openEnvelope env kyberTree false c r = .ok plaintext := by
  have hbinding : ∃ binding, r.exporterBindingBytes = .ok binding ∧
      ¬ (binding.any fun binding => binding ≠ c.exporter) = true := by
    unfold StoredEnvelopeRecord.exporterBindingBytes
    cases hb : r.envelope.exporterBinding with
    | none => exact ⟨none, rfl, by simp⟩
    | some binding =>
        obtain rfl := hexporter binding hb
        refine ⟨some c.exporter, ?_, by simp⟩
        simp only [decodeStored_encode]
        rfl
  obtain ⟨binding, hbytes, hsame⟩ := hbinding
  simp only [openEnvelope, hbytes, Eff.rejectIf, hsame, StoredEnvelopeRecord.ciphertextBytes, hciphertext,
    StoredEnvelopeRecord.kemCiphertextBytes, hkem, decodeStored_encode, Eff.ok_bind, hdecrypt]
  rfl

/-- Sealing leaves a sealed record. -/
theorem persist_sealed (hlaw : env.Lawful) {d : PersistDraws} {context : BrokerClientContext}
    {input : PersistSecretV2Input} {s s' : Broker} {outcome : StoredSecretOutcome}
    (h : persistSecretV2WithLifecycle env d context input s = (.ok outcome, s')) :
    ∃ r, s'.records d.handleId = some r ∧ r.envelope.metadata = input.metadata ∧
      ∀ kyberTree : String → Option KyberKeyPair,
        kyberTree d.envelopeKeyId.toString = s'.kyberTree d.envelopeKeyId.toString →
        Sealed env d context input kyberTree r := by
  obtain ⟨redeemExpiresAt, encryption, keyPair, signature, leaseExpiresAt, s₁, s₂, s₃, hencrypt, hkeyPair, hsign,
    rfl, -⟩ := persist_eq_ok env h
  refine ⟨_, Function.update_self _ _ _, rfl, fun kyberTree hkey => ?_⟩
  obtain ⟨ek, dk, sharedSecret, ct, ciphertext, hkeygen, hencaps, hcipher, rfl, rfl⟩ := encryptPqc_eq_ok hencrypt
  have hverify := verify_generated hlaw hkeyPair hsign
  obtain ⟨_, _, _, -, -, -, -, rfl⟩ := generateKeyPair_eq_ok hkeyPair
  obtain ⟨_, _, _, -, -, -, rfl⟩ := signData_eq_ok hsign
  refine ⟨⟨fun c hc => ?_, rfl, rfl, rfl, rfl, ⟨_, rfl⟩, rfl, ?_⟩, verifyEnvelope_of_signed rfl rfl hverify⟩
  · refine openEnvelope_of_encrypted (fun binding hb => ?_) rfl rfl
      (decryptPqc_encrypted hlaw hkeygen hencaps hcipher (hkey.trans (Function.update_self _ _ _)) rfl)
    -- only a single-use secret is sealed to an exporter
    cases hl : input.lifecycle with
    | singleUseUnwrap =>
        simp only [newRecord, newEnvelope, newExporterBinding, hl, Option.some.injEq] at hb
        rw [← hb, hc hl]
    | renewableLease => simp [newRecord, newEnvelope, newExporterBinding, hl] at hb
    | serviceBootstrap => simp [newRecord, newEnvelope, newExporterBinding, hl] at hb
  · intro k hk
    cases hk

/-- Metadata that survive being written and read back. -/
theorem reloadMetadata_of_noFraction (hlaw : env.Lawful) {metadata : Option Value}
    (h : ∀ v, metadata = some v → v.NoFraction ∧ ∃ members, v = .object members) :
    env.serde.reloadMetadata metadata = metadata := by
  cases metadata with
  | none => rfl
  | some v =>
      obtain ⟨hv, members, rfl⟩ := h v rfl
      simp only [Serde.reloadMetadata, hlaw.reparse hv]

/-- Then the store's operations leave the whole envelope alone. -/
theorem Advances.envelope_eq {serde : Serde} {r r' : StoredEnvelopeRecord} (h : Advances serde r r')
    (hstable : serde.reloadMetadata r.envelope.metadata = r.envelope.metadata) : r'.envelope = r.envelope := by
  obtain ⟨n, hn⟩ := h.metadata
  rw [Function.iterate_fixed hstable] at hn
  have hrest : { r'.envelope with metadata := none } = { r.envelope with metadata := none } :=
    congrArg (·.envelope) h.issued
  calc r'.envelope = { { r'.envelope with metadata := none } with metadata := r'.envelope.metadata } := rfl
    _ = { { r.envelope with metadata := none } with metadata := r.envelope.metadata } := by rw [hrest, hn]
    _ = r.envelope := rfl

/-- A record stays redeemable until its token is consumed. -/
theorem Redeemable.evolves {d : PersistDraws} {context : BrokerClientContext} {input : PersistSecretV2Input}
    {kyberTree : String → Option KyberKeyPair} {r r' : StoredEnvelopeRecord}
    (h : Redeemable env d context input kyberTree r) (hev : Evolves env.serde r r') (hunused : r'.redeemUsed = false) :
    Redeemable env d context input kyberTree r' := by
  have hexporter : r'.envelope.exporterBinding = r.envelope.exporterBinding :=
    congrArg (·.envelope.exporterBinding) hev.issued
  have hciphertext : r'.envelope.ciphertext = r.envelope.ciphertext := congrArg (·.envelope.ciphertext) hev.issued
  have hkem : r'.envelope.kyberCiphertext = r.envelope.kyberCiphertext := congrArg (·.envelope.kyberCiphertext) hev.issued
  have hkey : r'.envelope.envelopeKeyId = r.envelope.envelopeKeyId := congrArg (·.envelope.envelopeKeyId) hev.issued
  obtain ⟨hnonce, hbinding⟩ := hev.redeem hunused
  exact {
    opens := fun c hc => by
      have hsame : openEnvelope env kyberTree false c r' = openEnvelope env kyberTree false c r := by
        simp only [openEnvelope, StoredEnvelopeRecord.exporterBindingBytes, StoredEnvelopeRecord.ciphertextBytes,
          StoredEnvelopeRecord.kemCiphertextBytes, hexporter, hciphertext, hkem, hkey]
      rw [hsame, h.opens c hc]
    lifecycle := (congrArg (·.lifecycle) hev.issued).trans h.lifecycle
    expiresAt := (congrArg (·.expiresAt) hev.issued).trans h.expiresAt
    redeemNonce := hnonce.trans h.redeemNonce
    redeemBinding := hbinding.trans h.redeemBinding
    redeemExpiresAt := by
      obtain ⟨t, ht⟩ := h.redeemExpiresAt
      exact ⟨t, (congrArg (·.redeemExpiresAt) hev.issued).trans ht⟩
    threshold := hev.threshold.trans h.threshold
    caveatKeys := fun k hk => (hev.caveatKeys k hk).elim (h.caveatKeys k) id }

/-- The signature stays good if the metadata survive being written and read back. -/
theorem verifyEnvelope_evolves {r r' : StoredEnvelopeRecord} (h : verifyEnvelope env r = .ok ())
    (hev : Evolves env.serde r r') (hstable : env.serde.reloadMetadata r.envelope.metadata = r.envelope.metadata) :
    verifyEnvelope env r' = .ok () := by
  have henvelope := hev.envelope_eq hstable
  have hsignature : r'.signature = r.signature := congrArg (·.signature) hev.issued
  have hkey : r'.signingPublicKey = r.signingPublicKey := congrArg (·.signingPublicKey) hev.issued
  have hsame : verifyEnvelope env r' = verifyEnvelope env r := by
    simp only [verifyEnvelope, StoredEnvelopeRecord.signatureBytes, henvelope, hsignature, hkey]
  rw [hsame, h]

/-- The token that was returned passes the token check until its deadline. -/
theorem Redeemable.checkRedeemToken_eq_ok {d : PersistDraws} {context c : BrokerClientContext}
    {input : PersistSecretV2Input} {kyberTree : String → Option KyberKeyPair} {r : StoredEnvelopeRecord} {now : DateTime}
    (h : Redeemable env d context input kyberTree r)
    (hexporter : input.lifecycle = .singleUseUnwrap → c.exporter = context.exporter) (hunused : r.redeemUsed = false)
    {u : Unit} : checkRedeemToken env now c d.handleId (Base64.standard.encode
      (env.redeemToken d.handleId (redeemBindingBytes env input.lifecycle context) d.redeemNonce.val).val) r = .ok u ↔
      ∀ t, r.redeemExpiresAt = some t → now ≤ t := by
  have hbinding : effectiveBinding env c r = .ok (redeemBindingBytes env input.lifecycle context) := by
    simp only [effectiveBinding, h.redeemBinding, h.lifecycle]
    cases hl : input.lifecycle with
    | singleUseUnwrap =>
        have hne : Base64.standard.encode (env.sha256 context.exporter).val ≠ "" := by
          intro hempty
          have hnil := (Base64.encode_eq_empty_iff _ _).mp hempty
          have hlen := (env.sha256 context.exporter).property
          rw [hnil] at hlen
          cases hlen
        simp [newRedeemBinding, redeemBindingBytes, hexporter hl, hne]
    | renewableLease => rfl
    | serviceBootstrap => rfl
  obtain ⟨t, ht⟩ := h.redeemExpiresAt
  have hcompare : compareRedeemToken env r
      (env.redeemToken d.handleId (redeemBindingBytes env input.lifecycle context) d.redeemNonce.val)
      (Base64.standard.encode (env.redeemToken d.handleId (redeemBindingBytes env input.lifecycle context)
        d.redeemNonce.val).val) = .ok () := by
    have hone : ¬ r.threshold.getD 1 > 1 := by
      rw [h.threshold]
      decide
    simp only [compareRedeemToken, providedToken, comparedToken, if_neg hone,
      Base64.decode_encode Base64.standard_lawful, Eff.okOr_some, Eff.ok_bind, Eff.rejectIf_eq_ok, not_not]
  have hfree : ¬ (r.lifecycle ≠ .renewableLease ∧ r.redeemUsed = true) := fun hused => by
    rw [hunused] at hused
    cases hused.2
  simp only [checkRedeemToken, h.redeemNonce, hbinding, ht, Eff.okOr_some, Eff.ok_bind, Eff.except_bind_eq_ok,
    Eff.rejectIf_eq_ok, Base64.decode_encode Base64.standard_lawful, Unique.exists_iff, Option.some.injEq, forall_eq',
    gt_iff_lt, not_lt]
  exact ⟨fun hpass => hpass.2.1, fun hnow => ⟨hfree, hnow, hcompare⟩⟩

theorem checkLease_eq_ok {now : DateTime} {r : StoredEnvelopeRecord} {u : Unit} :
    checkLease env now r = .ok u ↔ (r.lifecycle = .renewableLease → ∀ t, r.leaseExpiresAt = some t → now ≤ t) := by
  unfold checkLease
  cases r.lifecycle <;> cases r.leaseExpiresAt <;> simp [Eff.rejectIf_eq_ok]

theorem checkSigningKey_eq_ok {now : DateTime} {r : StoredEnvelopeRecord} {u : Unit} :
    checkSigningKey env now r = .ok u ↔ ∀ t, r.signingKeyExpiresAt = some t → now ≤ t := by
  unfold checkSigningKey
  cases r.signingKeyExpiresAt <;> simp [Eff.rejectIf_eq_ok]

/-- The discharge keys of a redeemable record can be read. -/
theorem Redeemable.dischargeKeys_ok {d : PersistDraws} {context : BrokerClientContext} {input : PersistSecretV2Input}
    {kyberTree : String → Option KyberKeyPair} {r : StoredEnvelopeRecord}
    (h : Redeemable env d context input kyberTree r) : ∃ keys, dischargeKeysForRecord env r = .ok keys := by
  apply Eff.exists_mapM_eq_ok
  intro k hk
  obtain ⟨secret, hdecode, hlen, hcondition⟩ := h.caveatKeys k hk
  obtain ⟨condition, hcondition⟩ := Option.isSome_iff_exists.mp hcondition
  refine ⟨{ location := k.location, keyId := k.keyId, condition, key := secret }, ?_⟩
  simp only [dischargeKey, hdecode, hcondition, sized, hlen, dif_pos, Eff.okOr_some, Eff.ok_bind]
  rfl

end SecretBroker

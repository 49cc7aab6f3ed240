import SecretBroker.Completeness
import SecretBroker.SecurityTwins

/-! What the broker shows of a secret. Two brokers that wrapped different secrets in the same request answer every later
request alike and write the same log, except that a successful unwrap or combination on that one handle returns the secret
that was wrapped. -/

open Wire Register

namespace SecretBroker

/-- The part of a record that depends on the secret, with the key that checks its signature. -/
structure SealedForm where
  envelope : SecretEnvelope
  signature : String
  signingPublicKey : String

/-- The record with another sealed form. -/
def SealedForm.put (x : SealedForm) (r : StoredEnvelopeRecord) : StoredEnvelopeRecord :=
  { r with envelope := x.envelope, signature := x.signature, signingPublicKey := x.signingPublicKey }

/-- The envelope opens to a plaintext wherever the key pair is the stored one. -/
def SealedForm.Opens (env : Env) (pair : KyberKeyPair) (x : SealedForm) (plaintext : Bytes) : Prop :=
  ∃ ciphertext kemCipher, x.envelope.ciphertext = Base64.standard.encode ciphertext ∧
    x.envelope.kyberCiphertext = Base64.standard.encode kemCipher ∧
    ∀ kyberTree : String → Option KyberKeyPair, kyberTree x.envelope.envelopeKeyId = some pair →
      decryptPqc env kyberTree false ciphertext kemCipher x.envelope.envelopeKeyId = .ok plaintext

/-- Two secrets in their sealed forms under one handle. The forms differ in the ciphertext and the signature only, and both
are good. -/
structure TwoSecrets (env : Env) where
  handleId : Uuid
  pair : KyberKeyPair
  first : SealedForm
  second : SealedForm
  plaintext : Bytes
  plaintext' : Bytes
  envelope_eq : second.envelope = { first.envelope with ciphertext := second.envelope.ciphertext }
  publicKey_eq : second.signingPublicKey = first.signingPublicKey
  stable : env.serde.reloadMetadata first.envelope.metadata = first.envelope.metadata
  signed : ∀ r, verifyEnvelope env (first.put r) = .ok ()
  signed' : ∀ r, verifyEnvelope env (second.put r) = .ok ()
  opens : first.Opens env pair plaintext
  opens' : second.Opens env pair plaintext'

namespace TwoSecrets

variable {env : Env} (w : TwoSecrets env)

/-- The same record, or the two records of the one handle. -/
def Twin (i : Uuid) (r r' : StoredEnvelopeRecord) : Prop :=
  r' = r ∨ i = w.handleId ∧ w.first.put r = r ∧ r' = w.second.put r

variable {w}

/-- Both records survive being written and read back. -/
theorem Twin.reload {i : Uuid} {r r' : StoredEnvelopeRecord} (h : w.Twin i r r') :
    w.Twin i (env.serde.reload r) (env.serde.reload r') := by
  rcases h with rfl | ⟨hi, hfirst, rfl⟩
  · exact Or.inl rfl
  · have hmetadata : w.second.envelope.metadata = w.first.envelope.metadata := congrArg (·.metadata) w.envelope_eq
    have hstable : env.serde.reload (w.first.put r) = w.first.put r := by
      simp only [Serde.reload, SealedForm.put, w.stable]
    have hstable' : env.serde.reload (w.second.put r) = w.second.put r := by
      simp only [Serde.reload, SealedForm.put, hmetadata, w.stable]
      rw [← hmetadata]
    rw [hfirst] at hstable
    rw [hstable, hstable']
    exact Or.inr ⟨hi, hfirst, rfl⟩

/-- A change that leaves the contents of a record as they are keeps the sealed form. -/
theorem put_of_put {f : StoredEnvelopeRecord → StoredEnvelopeRecord}
    (hf : ∀ (x : RecordContents) r, f (x.put r) = x.put (f r)) (x : SealedForm) (r : StoredEnvelopeRecord) :
    f (x.put r) = x.put (f r) := by
  have hself : f r = r.contents.put (f r) := hf r.contents r
  have hput : f (x.put r) = RecordContents.put ⟨x.envelope, x.signature, x.signingPublicKey, r.heldShares⟩ (f r) :=
    hf ⟨x.envelope, x.signature, x.signingPublicKey, r.heldShares⟩ r
  rw [hput, hself]
  rfl

variable (w) in
/-- Brokers that differ in which of the two secrets the record of the one handle seals. -/
def twins : RecordTwins env where
  Twin := w.Twin
  Pair keyId pair := keyId = w.first.envelope.envelopeKeyId ∧ pair = w.pair
  refl _ _ := Or.inl rfl
  hidden := by
    rintro i r r' (rfl | ⟨-, hfirst, rfl⟩)
    · exact ⟨_, _, _, rfl⟩
    · refine ⟨w.second.envelope.ciphertext, w.second.signature, r.heldShares, ?_⟩
      have henvelope : r.envelope = w.first.envelope := congrArg (·.envelope) hfirst.symm
      have hkey : r.signingPublicKey = w.first.signingPublicKey := congrArg (·.signingPublicKey) hfirst.symm
      rw [henvelope, ← w.envelope_eq, SealedForm.put, w.publicKey_eq, ← hkey]
  update := by
    rintro i r r' f (rfl | ⟨hi, hfirst, rfl⟩) hf
    · exact Or.inl rfl
    · refine Or.inr ⟨hi, ?_, put_of_put hf w.second r⟩
      rw [← put_of_put hf, hfirst]
  reload := Twin.reload
  assign := by
    rintro i r r' assignments held (rfl | ⟨hi, hfirst, rfl⟩)
    · exact Or.inl rfl
    · refine Or.inr ⟨hi, ?_, rfl⟩
      conv_rhs => rw [← hfirst]
      rfl

/-- A claim reads the other fields only. -/
theorem claim_put (x : SealedForm) (custodianId : String) (r : StoredEnvelopeRecord) :
    SealedStore.claim custodianId (x.put r) = (SealedStore.claim custodianId r).map fun p => (x.put p.1, p.2) := by
  simp only [SealedStore.claim, SealedForm.put]
  cases r.shareAssignments with
  | none => rfl
  | some assignments =>
      cases r.heldShares with
      | none => rfl
      | some held =>
          cases r.thresholdCommitments with
          | none => rfl
          | some commitments =>
              simp only [Eff.okOr_some, Eff.ok_bind]
              cases assignments.find? fun a => a.custodianId = custodianId with
              | none => rfl
              | some assignment =>
                  simp only [Eff.okOr_some, Eff.ok_bind]
                  cases held.find? fun h => h.x = assignment.shareIndex with
                  | none => rfl
                  | some share =>
                      simp only [Eff.okOr_some, Eff.ok_bind]
                      cases Base64.standard.decode share.yB64 with
                      | none => rfl
                      | some y => rfl

theorem Twin.claim {i : Uuid} {r r' : StoredEnvelopeRecord} (h : w.Twin i r r') (custodianId : String) :
    Eff.Alike (fun p p' => w.Twin i p.1 p'.1 ∧ p'.2 = p.2) (SealedStore.claim custodianId r)
      (SealedStore.claim custodianId r') := by
  rcases h with rfl | ⟨hi, hfirst, rfl⟩
  · exact (Eff.alike_refl _).mono fun p p' hp => by subst hp; exact ⟨Or.inl rfl, rfl⟩
  · have hput := claim_put w.first custodianId r
    rw [claim_put]
    cases hclaim : SealedStore.claim custodianId r with
    | error e => exact .error e
    | ok p =>
        rw [hfirst, hclaim] at hput
        have hp : p.1 = w.first.put p.1 := congrArg Prod.fst (Except.ok.inj hput)
        exact .ok ⟨Or.inr ⟨hi, hp.symm, rfl⟩, rfl⟩

/-- Opening gives the secret that is sealed, or the same error. -/
theorem openEnvelope_alike {kyberTree : String → Option KyberKeyPair}
    (hpair : kyberTree w.first.envelope.envelopeKeyId = some w.pair) (keyLoadFails : Bool) (context : BrokerClientContext)
    (r : StoredEnvelopeRecord) :
    Eff.Alike (fun p p' => p = w.plaintext ∧ p' = w.plaintext')
      (openEnvelope env kyberTree keyLoadFails context (w.first.put r))
      (openEnvelope env kyberTree keyLoadFails context (w.second.put r)) := by
  obtain ⟨ciphertext, kemCipher, hciphertext, hkem, hopen⟩ := w.opens
  obtain ⟨ciphertext', kemCipher', hciphertext', hkem', hopen'⟩ := w.opens'
  have hkeyId : w.second.envelope.envelopeKeyId = w.first.envelope.envelopeKeyId :=
    congrArg (·.envelopeKeyId) w.envelope_eq
  have hexporter : (w.second.put r).exporterBindingBytes = (w.first.put r).exporterBindingBytes := by
    have hbinding : w.second.envelope.exporterBinding = w.first.envelope.exporterBinding :=
      congrArg (·.exporterBinding) w.envelope_eq
    simp only [StoredEnvelopeRecord.exporterBindingBytes, SealedForm.put, hbinding]
  unfold openEnvelope
  rw [hexporter]
  refine .check _ fun binding => .check _ fun _ => ?_
  simp only [StoredEnvelopeRecord.ciphertextBytes, StoredEnvelopeRecord.kemCiphertextBytes, SealedForm.put, hciphertext,
    hkem, hciphertext', hkem', decodeStored_encode, Eff.ok_bind]
  cases keyLoadFails with
  | true => exact .error _
  | false =>
      rw [hopen _ hpair, hopen' _ (hkeyId ▸ hpair)]
      exact .ok ⟨rfl, rfl⟩

variable (w) in
/-- The plaintexts are the same, or those of the one handle. -/
def SamePlaintext (i : Uuid) (p p' : Bytes) : Prop := p' = p ∨ i = w.handleId ∧ p = w.plaintext ∧ p' = w.plaintext'

theorem unwrapChecks_alike {mac : Macaroon String (Block 32)} {r r' : StoredEnvelopeRecord}
    (h : w.Twin mac.identifier r r') {kyberTree : String → Option KyberKeyPair}
    (hpair : kyberTree w.first.envelope.envelopeKeyId = some w.pair) (d : UnwrapDraws) (context : BrokerClientContext)
    (payload : UnwrapV2Request) : Eff.Alike (w.SamePlaintext mac.identifier)
      (unwrapChecks env kyberTree d context payload mac r) (unwrapChecks env kyberTree d context payload mac r') := by
  rcases h with rfl | ⟨hi, hfirst, rfl⟩
  · exact (Eff.alike_refl _).mono fun p p' hp => Or.inl hp.symm
  · rw [← hfirst]
    have hopen := (openEnvelope_alike hpair d.keyLoadFails context r).mono fun p p' hp =>
      (Or.inr ⟨hi, hp⟩ : w.SamePlaintext mac.identifier p p')
    have hput : w.second.put (w.first.put r) = w.second.put r := rfl
    simp only [unwrapChecks, hput, w.signed, w.signed', Eff.ok_bind]
    -- the checks before the signature and the check of the token read the other fields
    refine .check (verifyHandle env d.verifierNow payload mac r) fun _ => ?_
    refine .check (Eff.rejectIf (r.revoked = true) ServiceError.revokedHandle) fun _ => ?_
    refine .check (Eff.rejectIf (r.isExpired d.now = true) ServiceError.expiredHandle) fun _ => ?_
    refine .check (validateV2RecordIdentityRequirements r context) fun _ => ?_
    refine .check (checkLease env d.now r) fun _ => .check (checkSigningKey env d.now r) fun _ => ?_
    exact .check (checkRedeemToken env d.now context mac.identifier payload.redeemToken r) fun _ => hopen

theorem unwrap_coupled (d : UnwrapDraws) (context : BrokerClientContext) (payload : UnwrapV2Request) :
    Eff.Coupled w.twins.Twins (fun response response' => response' = response ∨
        (∃ mac, parseHandleV2 payload.handle = .ok mac ∧ mac.identifier = w.handleId) ∧
          response = ⟨Base64.standard.encode w.plaintext⟩ ∧ response' = ⟨Base64.standard.encode w.plaintext'⟩)
      (unwrapSecretV2Impl env d context payload) (unwrapSecretV2Impl env d context payload) := by
  refine Eff.coupled_mono (RecordTwins.unwrap_coupled fun mac r r' kyberTree h hpairs =>
    unwrapChecks_alike h (hpairs _ _ ⟨rfl, rfl⟩) d context payload) ?_
  rintro _ _ ⟨mac, plaintext, plaintext', hmac, rfl | ⟨hid, rfl, rfl⟩, rfl, rfl⟩
  · exact Or.inl rfl
  · exact Or.inr ⟨⟨mac, hmac, hid⟩, rfl, rfl⟩

theorem combineShares_coupled (load : LoadDraws) (d : UnwrapDraws) (context : BrokerClientContext)
    (req : CombineSharesRequest) :
    Eff.Coupled w.twins.Twins (fun response response' => response' = response ∨
        (∃ mac, parseHandleV2 req.handle = .ok mac ∧ mac.identifier = w.handleId) ∧
          response.plaintext = w.plaintext ∧ response'.plaintext = w.plaintext')
      (combineSharesImpl env load d context req) (combineSharesImpl env load d context req) := by
  refine RecordTwins.combineShares_coupled
    (P := fun p p' => (∃ mac, parseHandleV2 req.handle = .ok mac ∧ mac.identifier = w.handleId) ∧
      p = w.plaintext ∧ p' = w.plaintext') (fun i r r' h => ?_)
    (fun payload hpayload => hpayload ▸ unwrap_coupled (w := w) d context payload) ?_
  · rcases h with rfl | ⟨-, -, rfl⟩
    · rfl
    · rfl
  · rintro x x' (rfl | ⟨hid, rfl, rfl⟩)
    · exact Or.inl rfl
    · exact Or.inr ⟨_, _, Base64.decode_encode Base64.standard_lawful _, Base64.decode_encode Base64.standard_lawful _,
        hid, rfl, rfl⟩

end TwoSecrets

/-- The reply gives out the plaintext of a handle: it answers an unwrap or a combination of shares on it. -/
def Call.Discloses (call : Call) (id : Uuid) (plaintext : Bytes) (reply : Reply) : Prop :=
  match call, reply with
  | .unwrap _ _ payload, .unwrapped response =>
      (∃ mac, parseHandleV2 payload.handle = .ok mac ∧ mac.identifier = id) ∧
        response.plaintext = Base64.standard.encode plaintext
  | .combineShares _ _ _ req, .sharesCombined response =>
      (∃ mac, parseHandleV2 req.handle = .ok mac ∧ mac.identifier = id) ∧ response.plaintext = plaintext
  | _, _ => False

namespace TwoSecrets

variable {env : Env} (w : TwoSecrets env)

/-- The replies are the same, or they give out the two secrets. -/
def SameReply (call : Call) (reply reply' : Reply) : Prop :=
  reply' = reply ∨ call.Discloses w.handleId w.plaintext reply ∧ call.Discloses w.handleId w.plaintext' reply'

theorem exec_coupled (call : Call) (hcall : ∀ id ∈ call.uuids, w.first.envelope.envelopeKeyId ≠ id.toString) :
    Eff.Coupled w.twins.Twins (w.SameReply call) (call.exec env) (call.exec env) := by
  refine RecordTwins.exec_coupled (fun _ => Or.inl rfl) call (fun id hid pair hpair => hcall id hid hpair.1.symm) ?_ ?_ ?_
  · rintro d context payload rfl
    refine Eff.coupled_mono (unwrap_coupled d context payload) ?_
    rintro response response' (rfl | ⟨hid, rfl, rfl⟩)
    · exact Or.inl rfl
    · exact Or.inr ⟨⟨hid, rfl⟩, hid, rfl⟩
  · rintro load d context req rfl
    refine Eff.coupled_mono (combineShares_coupled load d context req) ?_
    rintro response response' (rfl | ⟨hid, h, h'⟩)
    · exact Or.inl rfl
    · exact Or.inr ⟨⟨hid, h⟩, hid, h'⟩
  · rintro d claimDisk context req rfl
    refine Eff.coupled_mono (RecordTwins.claimShare_coupled (Q := fun _ p p' => p' = p)
      (fun i r r' h => Twin.claim h req.custodianId) ?_) ?_
    · rintro i p p' rfl
      exact ⟨rfl, rfl⟩
    · rintro p p' ⟨i, -, rfl⟩
      exact Or.inl rfl

theorem after_twins {w : TwoSecrets env} {s s' : Broker} (h : w.twins.Twins s s') {calls : List Call}
    (hcalls : ∀ id ∈ calls.flatMap Call.uuids, w.first.envelope.envelopeKeyId ≠ id.toString) :
    w.twins.Twins (s.after env calls) (s'.after env calls) := by
  induction calls generalizing s s' with
  | nil => exact h
  | cons call calls ih =>
      rw [Broker.after_cons, Broker.after_cons]
      refine ih (w.exec_coupled call (fun id hid => hcalls id ?_) s s' h).2 fun id hid => hcalls id ?_
      · exact List.mem_append_left _ hid
      · exact List.mem_append_right _ hid

end TwoSecrets

section

variable {env : Env}

/-- What signing does to the broker does not depend on what is signed. -/
theorem signData_state {checkNow usageNow : DateTime} {data signature : Bytes} {keyId : String} {s s' : Broker}
    (h : signData env checkNow usageNow data keyId s = (.ok signature, s')) :
    s' = { s with keyMetadata := updateKeyUsage keyId usageNow s.keyMetadata } := by
  simp only [signData, Eff.bind_eq_ok, Eff.lift_eq_ok, Eff.read_eq_ok, Eff.modify_eq_ok, Eff.pure_eq_ok] at h
  obtain ⟨_, _, ⟨rfl, rfl⟩, _, _, ⟨-, rfl⟩, _, _, ⟨-, rfl⟩, _, _, ⟨-, rfl⟩, _, _, ⟨-, rfl⟩, _, _, rfl, -, rfl⟩ := h
  rfl

/-- Sealing one or the other secret returns the same token and leaves the same broker, up to the sealed form. -/
theorem persist_twins (hlaw : env.Lawful) {d : PersistDraws} {context : BrokerClientContext} {input : PersistSecretV2Input}
    (hstable : env.serde.reloadMetadata input.metadata = input.metadata) {plaintext' : Bytes} {s t t' : Broker}
    {outcome outcome' : StoredSecretOutcome} (h : persistSecretV2WithLifecycle env d context input s = (.ok outcome, t))
    (h' : persistSecretV2WithLifecycle env d context { input with plaintext := plaintext' } s = (.ok outcome', t')) :
    outcome' = outcome ∧ ∃ w : TwoSecrets env, w.handleId = d.handleId ∧ w.plaintext = input.plaintext ∧
      w.plaintext' = plaintext' ∧ w.first.envelope.envelopeKeyId = d.envelopeKeyId.toString ∧ w.twins.Twins t t' := by
  simp only [persistSecretV2WithLifecycle, Eff.bind_eq_ok, checkTime_eq_ok, Eff.mapError_eq_ok, perform_eq_ok,
    Eff.pure_eq_ok] at h h'
  obtain ⟨redeemExpiresAt, _, ⟨hredeem, rfl⟩, encryption, s₁, hencrypt, keyPair, s₂, hkeyPair, signature, s₃, hsign,
    leaseExpiresAt, _, ⟨hlease, rfl⟩, _, _, ⟨-, -, rfl⟩, rfl, rfl⟩ := h
  obtain ⟨redeemExpiresAt', _, ⟨hredeem', rfl⟩, encryption', s₁', hencrypt', keyPair', s₂', hkeyPair', signature', s₃',
    hsign', leaseExpiresAt', _, ⟨hlease', rfl⟩, _, _, ⟨-, -, rfl⟩, rfl, rfl⟩ := h'
  obtain ⟨ek, dk, sharedSecret, ct, ciphertext, hkeygen, hencaps, hcipher, rfl, rfl⟩ := encryptPqc_eq_ok hencrypt
  obtain ⟨_, _, _, _, ciphertext', hkeygen', hencaps', hcipher', rfl, rfl⟩ := encryptPqc_eq_ok hencrypt'
  -- the keys, the times and the states are drawn alike
  obtain ⟨rfl, rfl⟩ := Prod.mk.inj (Except.ok.inj (hkeygen.symm.trans hkeygen'))
  obtain ⟨rfl, rfl⟩ := Prod.mk.inj (Except.ok.inj (hencaps.symm.trans hencaps'))
  rw [hkeyPair] at hkeyPair'
  cases hkeyPair'
  rw [hredeem] at hredeem'
  cases hredeem'
  rw [hlease] at hlease'
  cases hlease'
  have hverify := verify_generated hlaw hkeyPair hsign
  have hverify' := verify_generated hlaw hkeyPair hsign'
  obtain rfl := signData_state hsign
  obtain rfl := signData_state hsign'
  obtain ⟨_, _, _, -, -, -, -, rfl⟩ := generateKeyPair_eq_ok hkeyPair
  let w : TwoSecrets env := {
    handleId := d.handleId
    pair := ⟨ek.val, dk.val, "mlkem768", d.envelopeKeyId.toString⟩
    first := ⟨newEnvelope d context input ⟨d.encryption.nonce.val ++ ciphertext, ct.val, "mlkem768-hybrid"⟩,
      Base64.standard.encode signature, Base64.standard.encode keyPair.publicKey⟩
    second := ⟨newEnvelope d context input ⟨d.encryption.nonce.val ++ ciphertext', ct.val, "mlkem768-hybrid"⟩,
      Base64.standard.encode signature', Base64.standard.encode keyPair.publicKey⟩
    plaintext := input.plaintext
    plaintext' := plaintext'
    envelope_eq := rfl
    publicKey_eq := rfl
    stable := hstable
    signed := fun _ => verifyEnvelope_of_signed rfl rfl hverify
    signed' := fun _ => verifyEnvelope_of_signed rfl rfl hverify'
    opens := ⟨_, _, rfl, rfl, fun _ hpair => decryptPqc_encrypted hlaw hkeygen hencaps hcipher hpair rfl⟩
    opens' := ⟨_, _, rfl, rfl, fun _ hpair => decryptPqc_encrypted hlaw hkeygen hencaps hcipher' hpair rfl⟩ }
  refine ⟨rfl, w, rfl, rfl, rfl, rfl, RecordTwins.Twins.putRecord (RecordTwins.twins_refl ?_)
    (.some (Or.inr ⟨rfl, rfl, rfl⟩))⟩
  rintro _ _ ⟨rfl, rfl⟩
  exact Function.update_self _ _ _

/-- **A secret shows only when its handle is opened.** Two requests to wrap that differ in the secret get the same reply,
and whatever is asked of the broker afterwards, the log and every reply are the same for both secrets, except that a
successful unwrap or combination of shares on the handle gives out the secret that was wrapped. -/
theorem plaintext_confined (hlaw : env.Lawful) {createdAt : DateTime} {d : PersistDraws} {context : BrokerClientContext}
    {request : WrapV2Request} {plaintext' : Bytes}
    (hmetadata : ∀ v, request.metadata = some v → v.NoFraction ∧ ∃ members, v = .object members) {s s₁ s₁' : Broker}
    {outcome outcome' : WrapSecretOutcome}
    (hwrap : wrapSecretV2Impl env createdAt d context request s = (.ok outcome, s₁))
    (hwrap' : wrapSecretV2Impl env createdAt d context { request with plaintext := plaintext' } s = (.ok outcome', s₁')) :
    outcome' = outcome ∧ ∀ later call, d.envelopeKeyId ∉ (later ++ [call]).flatMap Call.uuids →
      (s₁'.after env later).log = (s₁.after env later).log ∧
      Eff.Alike (fun reply reply' => reply' = reply ∨
          call.Discloses d.handleId request.plaintext reply ∧ call.Discloses d.handleId plaintext' reply')
        (call.exec env (s₁.after env later)).1 (call.exec env (s₁'.after env later)).1 := by
  simp only [wrapSecretV2Impl, Eff.bind_eq_ok, Eff.lift_eq_ok, check_eq_ok, Eff.pure_eq_ok, Prod.exists] at hwrap hwrap'
  obtain ⟨expiresAt, ttl, _, ⟨httl, rfl⟩, principal, _, ⟨hprincipal, rfl⟩, stored, t, hpersist, _, _, hlog, rfl,
    rfl⟩ := hwrap
  obtain ⟨_, _, _, ⟨httl', rfl⟩, _, _, ⟨hprincipal', rfl⟩, stored', t', hpersist', _, _, hlog', rfl, rfl⟩ := hwrap'
  obtain ⟨rfl, rfl⟩ := Prod.mk.inj (Except.ok.inj (httl.symm.trans httl'))
  obtain rfl := Except.ok.inj (hprincipal.symm.trans hprincipal')
  have hstable := reloadMetadata_of_noFraction hlaw hmetadata
  obtain ⟨rfl, w, hid, hplaintext, hplaintext', hkey, htwins⟩ := persist_twins hlaw hstable hpersist hpersist'
  refine ⟨rfl, fun later call hfresh => ?_⟩
  have hafter := htwins.recorded rfl hlog hlog'
  have hother : ∀ id ∈ (later ++ [call]).flatMap Call.uuids, w.first.envelope.envelopeKeyId ≠ id.toString := by
    intro id hmem heq
    rw [hkey] at heq
    exact hfresh (Uuid.toString_injective heq ▸ hmem)
  rw [List.flatMap_append] at hother
  have hlater := TwoSecrets.after_twins hafter fun id hmem => hother id (List.mem_append_left _ hmem)
  refine ⟨hlater.log, ?_⟩
  have hreply := (w.exec_coupled call (fun id hmem => hother id (List.mem_append_right _ (by simpa using hmem)))
    _ _ hlater).1
  refine hreply.mono fun reply reply' h => ?_
  rw [TwoSecrets.SameReply, hid, hplaintext, hplaintext'] at h
  exact h

/-- Wrapping succeeds for every secret. -/
theorem plain_wrap_secret (plaintext : Bytes) : ∃ outcome s',
    wrapSecretV2Impl plainEnv ⟨0, 0⟩ (plainDraws (.filled 1) (.filled 2) (.filled 3)) plainContext
      { plainRequest .singleUseUnwrap with plaintext := plaintext } Broker.empty = (.ok outcome, s') := by
  obtain ⟨stored, -, s', hpersist, -⟩ := plain_persist (.filled 1) (.filled 2) (.filled 3) plainContext
    (wrapInput plainEnv ⟨0, 0⟩ { plainRequest .singleUseUnwrap with plaintext := plaintext } none (some "alice"))
    (s := Broker.empty) (Nat.zero_lt_succ 99) rfl rfl
  simp only [wrapSecretV2Impl, Eff.bind_eq_ok, Eff.lift_eq_ok, check_eq_ok, recordTransparency, Eff.modify_eq_ok,
    Eff.pure_eq_ok]
  exact ⟨_, _, _, Broker.empty, ⟨rfl, rfl⟩, some "alice", Broker.empty, ⟨plain_unwrapPrincipal _, rfl⟩, stored, s',
    hpersist, (), _, rfl, rfl, rfl⟩

theorem plaintext_confined_plain : ∃ outcome s₁ s₁',
    wrapSecretV2Impl plainEnv ⟨0, 0⟩ (plainDraws (.filled 1) (.filled 2) (.filled 3)) plainContext
      (plainRequest .singleUseUnwrap) Broker.empty = (.ok outcome, s₁) ∧
    wrapSecretV2Impl plainEnv ⟨0, 0⟩ (plainDraws (.filled 1) (.filled 2) (.filled 3)) plainContext
      { plainRequest .singleUseUnwrap with plaintext := [4] } Broker.empty = (.ok outcome, s₁') ∧
    Eff.Alike (fun reply reply' => reply' = reply ∨
        (Call.unwrap plainUnwrap plainContext (plainPayload outcome)).Discloses (.filled 1) [1, 2, 3] reply ∧
        (Call.unwrap plainUnwrap plainContext (plainPayload outcome)).Discloses (.filled 1) [4] reply')
      ((Call.unwrap plainUnwrap plainContext (plainPayload outcome)).exec plainEnv s₁).1
      ((Call.unwrap plainUnwrap plainContext (plainPayload outcome)).exec plainEnv s₁').1 := by
  obtain ⟨outcome, s₁, hwrap⟩ := plain_wrap_secret [1, 2, 3]
  obtain ⟨outcome', s₁', hwrap'⟩ := plain_wrap_secret [4]
  obtain ⟨rfl, hlater⟩ := plaintext_confined plainEnv_lawful (fun v hv => by cases hv) hwrap hwrap'
  exact ⟨outcome', s₁, s₁', hwrap, hwrap', (hlater [] (.unwrap plainUnwrap plainContext (plainPayload outcome'))
    (List.not_mem_nil)).2⟩

end

end SecretBroker

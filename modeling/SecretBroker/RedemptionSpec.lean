import SecretBroker.Redemption

/-! What a successful redemption has read and checked. -/

open Wire

namespace SecretBroker

variable (env : Env)

/-- The record that a load returns and writes back. -/
def accessed (d : LoadDraws) (stored : StoredEnvelopeRecord) : StoredEnvelopeRecord :=
  { env.serde.reload stored with lastAccessed := some d.accessedAt }

theorem performLoad_eq_ok {d : LoadDraws} {id : Uuid} {loaded : Option StoredEnvelopeRecord} {s s' : Broker} :
    perform d.disk id (SealedStore.load env.serde d.accessedAt) s = (.ok loaded, s') ↔
      d.disk = .ok ∧ loaded = (s.records id).map (accessed env d) ∧ s' = s.putRecord id loaded := by
  rw [perform_eq_ok]
  cases hcell : s.records id with
  | none =>
      simp only [SealedStore.load, Register.Op.run, Except.ok.injEq, Option.map_none, and_congr_right_iff]
      intro _
      constructor
      · rintro ⟨rfl, rfl⟩
        exact ⟨rfl, rfl⟩
      · rintro ⟨rfl, rfl⟩
        exact ⟨rfl, rfl⟩
  | some stored =>
      simp only [SealedStore.load, Register.Op.run, Except.ok.injEq, Option.map_some, and_congr_right_iff, accessed]
      intro _
      constructor
      · rintro ⟨rfl, rfl⟩
        exact ⟨rfl, rfl⟩
      · rintro ⟨rfl, rfl⟩
        exact ⟨rfl, rfl⟩

theorem loadRecord_eq_ok {d : LoadDraws} {id : Uuid} {record : StoredEnvelopeRecord} {s s' : Broker} :
    loadRecord env d id s = (.ok record, s') ↔
      d.disk = .ok ∧ ∃ stored, s.records id = some stored ∧ record = accessed env d stored ∧
        s' = s.putRecord id (some record) := by
  simp only [loadRecord, Eff.bind_eq_ok, Eff.mapError_eq_ok, performLoad_eq_ok, check_eq_ok, Eff.okOr_eq_ok]
  constructor
  · rintro ⟨_, _, ⟨hdisk, hloaded, rfl⟩, rfl, rfl⟩
    obtain ⟨stored, hstored, hrecord⟩ := Option.map_eq_some_iff.mp hloaded.symm
    exact ⟨hdisk, stored, hstored, hrecord.symm, rfl⟩
  · rintro ⟨hdisk, stored, hstored, rfl, rfl⟩
    exact ⟨_, _, ⟨hdisk, by rw [hstored, Option.map_some], rfl⟩, rfl, rfl⟩

/-- All the checks of an unwrap pass exactly when each one does. -/
theorem unwrapChecks_eq_ok {kyberTree : String → Option KyberKeyPair} {d : UnwrapDraws} {context : BrokerClientContext}
    {payload : UnwrapV2Request} {mac : Macaroon String (Block 32)} {record : StoredEnvelopeRecord} {plaintext : Bytes} :
    unwrapChecks env kyberTree d context payload mac record = .ok plaintext ↔
      verifyHandle env d.verifierNow payload mac record = .ok () ∧ record.revoked = false ∧
      record.isExpired d.now = false ∧ validateV2RecordIdentityRequirements record context = .ok () ∧
      checkLease env d.now record = .ok () ∧ checkSigningKey env d.now record = .ok () ∧
      verifyEnvelope env record = .ok () ∧
      checkRedeemToken env d.now context mac.identifier payload.redeemToken record = .ok () ∧
      openEnvelope env kyberTree d.keyLoadFails context record = .ok plaintext := by
  simp only [unwrapChecks, Eff.except_bind_eq_ok, Eff.rejectIf_eq_ok, Bool.not_eq_true,
    Unique.exists_iff, PUnit.default_eq_unit]

/-- What a successful unwrap has done. -/
theorem unwrap_eq_ok {d : UnwrapDraws} {context : BrokerClientContext} {payload : UnwrapV2Request}
    {response : UnwrapResponse} {s s' : Broker} (h : unwrapSecretV2Impl env d context payload s = (.ok response, s')) :
    ∃ mac stored plaintext, parseHandleV2 payload.handle = .ok mac ∧ s.records mac.identifier = some stored ∧
      unwrapChecks env s.kyberTree d context payload mac (accessed env d.load stored) = .ok plaintext ∧
      response = { plaintext := Base64.standard.encode plaintext } := by
  simp only [unwrapSecretV2Impl, Eff.bind_eq_ok, check_eq_ok, loadRecord_eq_ok, Eff.read_eq_ok, Eff.pure_eq_ok] at h
  obtain ⟨mac, _, ⟨hmac, rfl⟩, _, _, ⟨-, stored, hstored, rfl, rfl⟩, _, _, ⟨rfl, rfl⟩, plaintext, _, ⟨hchecks, rfl⟩,
    _, _, -, _, _, -, rfl, -⟩ := h
  exact ⟨mac, stored, plaintext, hmac, hstored, hchecks, rfl⟩

/-- An unwrap whose checks pass succeeds. -/
theorem unwrap_of_checks {d : UnwrapDraws} {context : BrokerClientContext} {payload : UnwrapV2Request}
    {mac : Macaroon String (Block 32)} {stored : StoredEnvelopeRecord} {plaintext : Bytes} {s : Broker}
    (hmac : parseHandleV2 payload.handle = .ok mac) (hload : d.load.disk = .ok)
    (hmark : stored.lifecycle ≠ .renewableLease → d.markDisk = .ok) (hstored : s.records mac.identifier = some stored)
    (hchecks : unwrapChecks env s.kyberTree d context payload mac (accessed env d.load stored) = .ok plaintext) :
    ∃ s', unwrapSecretV2Impl env d context payload s =
      (.ok { plaintext := Base64.standard.encode plaintext }, s') := by
  have hconsume : ∀ t : Broker, t.records mac.identifier = some (accessed env d.load stored) →
      ∃ t', consumeToken env d.markDisk mac.identifier (accessed env d.load stored).lifecycle t = (.ok (), t') := by
    intro t ht
    unfold consumeToken
    split_ifs with hl
    · exact ⟨t, rfl⟩
    · refine ⟨_, Eff.mapError_eq_ok.mpr (perform_eq_ok.mpr ⟨hmark hl, ?_, rfl⟩)⟩
      rw [ht]
      rfl
  obtain ⟨t', ht'⟩ := hconsume (s.putRecord mac.identifier (some (accessed env d.load stored)))
    (Function.update_self _ _ _)
  simp only [unwrapSecretV2Impl, Eff.bind_eq_ok, check_eq_ok, loadRecord_eq_ok, Eff.read_eq_ok, Eff.pure_eq_ok]
  exact ⟨_, mac, _, ⟨hmac, rfl⟩, _, _, ⟨hload, stored, hstored, rfl, rfl⟩, _, _, ⟨rfl, rfl⟩, plaintext, _,
    ⟨hchecks, rfl⟩, (), t', ht', (), _, rfl, rfl, rfl⟩

/-- The record that a successful unwrap leaves: the token of a secret that is not renewable is consumed. -/
def redeemed (d : UnwrapDraws) (stored : StoredEnvelopeRecord) : StoredEnvelopeRecord :=
  if stored.lifecycle = .renewableLease then accessed env d.load stored
  else { env.serde.reload (accessed env d.load stored) with
    redeemUsed := true, redeemNonce := none, redeemBinding := none }

theorem consumeToken_eq_ok {d : UnwrapDraws} {id : Uuid} {stored : StoredEnvelopeRecord} {s s' : Broker} {u : Unit}
    (h : consumeToken env d.markDisk id (accessed env d.load stored).lifecycle
      (s.putRecord id (some (accessed env d.load stored))) = (.ok u, s')) : s' = s.putRecord id
      (some (redeemed env d stored)) := by
  by_cases hl : stored.lifecycle = .renewableLease
  · have haccessed : (accessed env d.load stored).lifecycle = .renewableLease := hl
    rw [consumeToken, if_pos haccessed, Eff.pure_eq_ok] at h
    rw [redeemed, if_pos hl, h.2]
  · have haccessed : (accessed env d.load stored).lifecycle ≠ .renewableLease := hl
    rw [consumeToken, if_neg haccessed, Eff.mapError_eq_ok, perform_eq_ok, Broker.putRecord_records_self,
      Broker.putRecord_putRecord] at h
    rw [redeemed, if_neg hl, h.2.2]
    rfl

/-- What a successful unwrap does to the stores. -/
theorem unwrap_stores {d : UnwrapDraws} {context : BrokerClientContext} {payload : UnwrapV2Request}
    {response : UnwrapResponse} {s s' : Broker} (h : unwrapSecretV2Impl env d context payload s = (.ok response, s'))
    {mac : Macaroon String (Block 32)} (hmac : parseHandleV2 payload.handle = .ok mac) {stored : StoredEnvelopeRecord}
    (hstored : s.records mac.identifier = some stored) :
    s'.records = (s.putRecord mac.identifier (some (redeemed env d stored))).records ∧ s'.kyberTree = s.kyberTree := by
  simp only [unwrapSecretV2Impl, Eff.bind_eq_ok, check_eq_ok, loadRecord_eq_ok, Eff.read_eq_ok, Eff.pure_eq_ok,
    recordTransparency, Eff.modify_eq_ok] at h
  obtain ⟨mac', _, ⟨hmac', rfl⟩, _, _, ⟨-, stored', hstored', rfl, rfl⟩, _, _, ⟨rfl, rfl⟩, plaintext, _, ⟨-, rfl⟩,
    _, s₂, hconsume, _, _, rfl, -, rfl⟩ := h
  rw [hmac] at hmac'
  cases hmac'
  rw [hstored] at hstored'
  cases hstored'
  rw [consumeToken_eq_ok env hconsume]
  split_ifs
  · exact ⟨rfl, rfl⟩
  · exact ⟨rfl, rfl⟩

/-- A successful unwrap of a secret that is not renewable consumes its token. -/
theorem unwrap_consumes {d : UnwrapDraws} {context : BrokerClientContext} {payload : UnwrapV2Request}
    {response : UnwrapResponse} {s s' : Broker} (h : unwrapSecretV2Impl env d context payload s = (.ok response, s'))
    {mac : Macaroon String (Block 32)} (hmac : parseHandleV2 payload.handle = .ok mac) {stored : StoredEnvelopeRecord}
    (hstored : s.records mac.identifier = some stored) (hl : stored.lifecycle ≠ .renewableLease) :
    ∃ r, s'.records mac.identifier = some r ∧ r.redeemUsed = true ∧ r.lifecycle = stored.lifecycle := by
  refine ⟨redeemed env d stored, ?_, ?_, ?_⟩
  · rw [(unwrap_stores env h hmac hstored).1, Broker.putRecord_records_self]
  · rw [redeemed, if_neg hl]
  · rw [redeemed, if_neg hl]
    rfl

/-- A successful combination of shares is a successful unwrap of the record it has checked. -/
theorem combineShares_eq_ok {load : LoadDraws} {d : UnwrapDraws} {context : BrokerClientContext}
    {req : CombineSharesRequest} {response : CombineSharesResponse} {s s' : Broker}
    (h : combineSharesImpl env load d context req s = (.ok response, s')) :
    ∃ id payload result s₁ s₂, parseHandleIdentifier env req.handle = .ok id ∧ payload.handle = req.handle ∧
      s₁ = s.putRecord id ((s.records id).map (accessed env load)) ∧
      unwrapSecretV2Impl env d context payload s₁ = (.ok result, s₂) ∧
      Base64.standard.decode result.plaintext = some response.plaintext ∧ s'.records = s₂.records := by
  simp only [combineSharesImpl, Eff.bind_eq_ok, Eff.lift_eq_ok, Eff.mapError_eq_ok, check_eq_ok, performLoad_eq_ok,
    Eff.pure_eq_ok, Eff.okOr_eq_ok, recordTransparency, Eff.modify_eq_ok] at h
  obtain ⟨_, _, ⟨-, rfl⟩, _, _, ⟨-, rfl⟩, id, _, ⟨hid, rfl⟩, _, _, ⟨-, hloaded, rfl⟩, _, _, ⟨-, rfl⟩, _, _, ⟨-, rfl⟩,
    result, s₂, hunwrap, plaintext, s₃, ⟨hplain, hs₃⟩, _, _, rfl, rfl, rfl⟩ := h
  refine ⟨id, _, result, _, s₂, hid, rfl, by rw [hloaded], hunwrap, hplain, ?_⟩
  rw [hs₃]
  split_ifs
  · rfl
  · rfl

/-- A handle that passes the checks of an unwrap is one that the other handlers take. -/
theorem parseHandleIdentifier_of_verifyHandle {env : Env} {now : DateTime} {payload : UnwrapV2Request}
    {mac : Macaroon String (Block 32)} {r : StoredEnvelopeRecord} (hmac : parseHandleV2 payload.handle = .ok mac)
    (h : verifyHandle env now payload mac r = .ok ()) : parseHandleIdentifier env payload.handle = .ok mac.identifier := by
  simp only [verifyHandle, Eff.except_bind_eq_ok, Eff.except_mapError_eq_ok] at h
  obtain ⟨keys, -, hverify⟩ := h
  refine parseHandleIdentifier_eq_ok.mpr ⟨mac, hmac, ?_, rfl⟩
  exact (Macaroon.verifySignature_eq_ok _).mpr ((Macaroon.verify_eq_ok _).mp hverify).1

end SecretBroker

import SecretBroker.BrokerFrame

/-! The identity checks on a record, in terms of the request that issued it: they accept exactly the
callers that the issuance admits. -/

open Wire

namespace SecretBroker

theorem normalizeOptionalString_eq_some {v t : String} : normalizeOptionalString v = some t ↔ trim v = t ∧ t ≠ "" := by
  unfold normalizeOptionalString
  split_ifs with h
  · simp only [false_iff, not_and, not_not]
    rintro rfl
    exact h
  · simp only [Option.some.injEq, iff_self_and]
    rintro rfl
    exact h

/-- A normalized text is normalized. -/
theorem normalizeOptionalString_idem {v t : String} (h : normalizeOptionalString v = some t) :
    normalizeOptionalString t = some t := by
  obtain ⟨rfl, hne⟩ := normalizeOptionalString_eq_some.mp h
  exact normalizeOptionalString_eq_some.mpr ⟨trim_trim v, hne⟩

theorem normalizedContextPrincipal_idem {c : BrokerClientContext} {p : String}
    (h : normalizedContextPrincipal c = some p) : normalizeOptionalString p = some p := by
  obtain ⟨v, -, hv⟩ := Option.bind_eq_some_iff.mp h
  exact normalizeOptionalString_idem hv

theorem trim_encode (b : Bytes) : trim (Base64.standard.encode b) = Base64.standard.encode b := by
  apply trim_of_trimmed
  apply trimmed_of_all
  exact noWhiteSpace_encode b

/-- A digest that is present passes the filter for blank texts. -/
theorem normalizeOptionalString_encode {b : Bytes} (hb : b ≠ []) :
    normalizeOptionalString (Base64.standard.encode b) = some (Base64.standard.encode b) :=
  normalizeOptionalString_eq_some.mpr ⟨trim_encode b, fun h => hb ((Base64.encode_eq_empty_iff _ b).mp h)⟩

theorem bind_normalize_encode {digest : Option Bytes} (h : ∀ d, digest = some d → d ≠ []) :
    (digest.map Base64.standard.encode).bind normalizeOptionalString = digest.map Base64.standard.encode := by
  cases digest with
  | none => rfl
  | some d =>
      rw [Option.map_some, Option.bind_some]
      exact normalizeOptionalString_encode (h d rfl)

theorem v2UnwrapPrincipal_eq_ok {c : BrokerClientContext} {lifecycle : SecretLifecycle} {requested x : Option String}
    (h : v2UnwrapPrincipal c lifecycle requested = .ok x) :
    c.authenticatedTransport = true ∧ ∃ current p, normalizedContextPrincipal c = some current ∧ x = some p ∧
      normalizeOptionalString p = some p ∧ (lifecycle = .singleUseUnwrap → p = current) ∧
      (lifecycle ≠ .singleUseUnwrap → ∃ cert, c.peerCertSha256 = some cert) := by
  simp only [v2UnwrapPrincipal, Eff.except_bind_eq_ok, Eff.rejectIf_eq_ok, Bool.not_eq_false, Eff.okOr_eq_ok] at h
  obtain ⟨-, htransport, current, hcurrent, h⟩ := h
  refine ⟨htransport, current, ?_⟩
  have hidem := normalizedContextPrincipal_idem hcurrent
  have hchosen : normalizeOptionalString ((requested.bind normalizeOptionalString).getD current) =
      some ((requested.bind normalizeOptionalString).getD current) := by
    cases hrequested : requested.bind normalizeOptionalString with
    | none =>
        rw [Option.getD_none]
        exact hidem
    | some p =>
        rw [Option.getD_some]
        obtain ⟨v, -, hv⟩ := Option.bind_eq_some_iff.mp hrequested
        exact normalizeOptionalString_idem hv
  cases lifecycle with
  | singleUseUnwrap =>
      simp only [Eff.except_bind_eq_ok, Eff.rejectIf_eq_ok, pure, Except.pure, Except.ok.injEq] at h
      obtain ⟨-, -, rfl⟩ := h
      exact ⟨current, hcurrent, rfl, hidem, fun _ => rfl, fun hne => absurd rfl hne⟩
  | renewableLease =>
      simp only [Eff.except_bind_eq_ok, Eff.rejectIf_eq_ok, pure, Except.pure, Except.ok.injEq] at h
      obtain ⟨-, hcert, rfl⟩ := h
      exact ⟨_, hcurrent, rfl, hchosen, fun hne => (by cases hne), fun _ => Option.ne_none_iff_exists'.mp hcert⟩
  | serviceBootstrap =>
      simp only [Eff.except_bind_eq_ok, Eff.rejectIf_eq_ok, pure, Except.pure, Except.ok.injEq] at h
      obtain ⟨-, hcert, rfl⟩ := h
      exact ⟨_, hcurrent, rfl, hchosen, fun hne => (by cases hne), fun _ => Option.ne_none_iff_exists'.mp hcert⟩

/-- The certificate and attestation lineage that a renewable or bootstrap secret asks for. The
certificate of the issuer is asked for only if the caller is the issuer. -/
structure Lineage (i : Issuance) (c : BrokerClientContext) : Prop where
  peerCert : ∃ cert, c.peerCertSha256 = some cert ∧
    (normalizedContextPrincipal c = normalizedContextPrincipal i.context → i.context.peerCertSha256 = some cert)
  attestation : ∀ digest, i.context.attestationDigest = some digest → c.attestationDigest = some digest

/-- The callers to whom a secret may be revealed, by the request that issued it. -/
structure Admitted (i : Issuance) (c : BrokerClientContext) : Prop where
  transport : c.authenticatedTransport = true
  principal : ∃ p, v2UnwrapPrincipal i.context i.lifecycle i.requestedPrincipal = .ok (some p) ∧
    normalizedContextPrincipal c = some p
  exporter : i.lifecycle = .singleUseUnwrap → c.exporter = i.context.exporter
  lineage : i.lifecycle ≠ .singleUseUnwrap → Lineage i c

theorem validateIssuedLineage_eq_ok {i : Issuance} {r : StoredEnvelopeRecord} (h : IssuedBy i r)
    {c : BrokerClientContext} {principal issuer : String} {cert : Bytes} {u : Unit} :
    validateIssuedLineage r c principal issuer cert = .ok u ↔
      (∃ issuedCert, i.context.peerCertSha256 = some issuedCert ∧ (principal = issuer → cert = issuedCert)) ∧
      ∀ digest, i.context.attestationDigest = some digest → c.attestationDigest = some digest := by
  have hinj := Base64.encode_injective Base64.standard_lawful
  simp only [validateIssuedLineage, h.peerCert, h.attestation, bind_normalize_encode i.context.peerCert_ne_nil,
    bind_normalize_encode i.context.attestation_ne_nil, Eff.except_bind_eq_ok, Eff.okOr_eq_ok, Eff.rejectIf_eq_ok,
    Option.map_eq_some_iff, not_and, not_not]
  constructor
  · rintro ⟨_, ⟨issuedCert, hissued, rfl⟩, -, hcert, hdigest⟩
    refine ⟨⟨issuedCert, hissued, fun heq => hinj (hcert heq)⟩, fun digest hd => ?_⟩
    rw [hd] at hdigest
    simp only [Option.map_some, Eff.except_bind_eq_ok, Eff.okOr_eq_ok, Eff.rejectIf_eq_ok, not_not] at hdigest
    obtain ⟨actual, hactual, heq⟩ := hdigest
    rw [hactual, hinj heq]
  · rintro ⟨⟨issuedCert, hissued, hcert⟩, hdigest⟩
    refine ⟨_, ⟨issuedCert, hissued, rfl⟩, (), fun heq => congrArg _ (hcert heq), ?_⟩
    cases hd : i.context.attestationDigest with
    | none => rfl
    | some digest =>
        simp only [Option.map_some, hdigest digest hd, Eff.okOr_some, Eff.ok_bind, Eff.rejectIf_eq_ok, not_not]

/-- The identity checks on a record accept whom its issuance admits, the exporter aside. -/
theorem identity_eq_ok_iff {i : Issuance} {r : StoredEnvelopeRecord} (h : IssuedBy i r) {c : BrokerClientContext}
    {u : Unit} :
    validateV2RecordIdentityRequirements r c = .ok u ↔
      c.authenticatedTransport = true ∧
      (∃ p, v2UnwrapPrincipal i.context i.lifecycle i.requestedPrincipal = .ok (some p) ∧
        normalizedContextPrincipal c = some p) ∧
      (i.lifecycle ≠ .singleUseUnwrap → Lineage i c) := by
  obtain ⟨hissuing, current, p, hcurrent, hp, hnormal, hsingle, hcert⟩ := v2UnwrapPrincipal_eq_ok h.unwrapPrincipalId
  have hissuer : r.issuedByPrincipalId.bind normalizeOptionalString = some current := by
    rw [h.issuer, hcurrent, Option.bind_some]
    exact normalizedContextPrincipal_idem hcurrent
  have hexpected : r.unwrapPrincipalId.bind normalizeOptionalString = some p := by
    rw [hp, Option.bind_some]
    exact hnormal
  have hbound : (∃ q, v2UnwrapPrincipal i.context i.lifecycle i.requestedPrincipal = .ok (some q) ∧
      normalizedContextPrincipal c = some q) ↔ normalizedContextPrincipal c = some p := by
    rw [h.unwrapPrincipalId, hp]
    simp only [Except.ok.injEq, Option.some.injEq, exists_eq_left']
  simp only [validateV2RecordIdentityRequirements, validateV2RecordIdentityRequirementsInner, hexpected, hissuer,
    hbound, h.lifecycle, h.transport, hissuing, Eff.okOr_some, Eff.ok_bind, Eff.except_bind_eq_ok, Eff.rejectIf_eq_ok,
    Eff.okOr_eq_ok, Bool.not_eq_false]
  by_cases hl : i.lifecycle = .singleUseUnwrap
  · simp only [hl, if_true, Eff.rejectIf_eq_ok, not_not, ne_eq, not_true_eq_false, false_implies, and_true]
    constructor
    · rintro ⟨-, htransport, actual, hactual, rfl⟩
      exact ⟨htransport, hactual⟩
    · rintro ⟨htransport, hactual⟩
      exact ⟨(), htransport, p, hactual, rfl⟩
  · obtain ⟨issuedCert, hissuedCert⟩ := hcert hl
    simp only [hl, if_false, Eff.except_bind_eq_ok, Eff.rejectIf_eq_ok, Eff.okOr_eq_ok,
      validateIssuedLineage_eq_ok h, ne_eq, not_false_eq_true, forall_const]
    constructor
    · rintro ⟨-, htransport, actual, hactual, -, -, -, hmatch, cert, hpeer, ⟨_, hissued, hsame⟩, hattestation⟩
      have heq : actual = p := by
        by_contra hne
        exact hmatch ⟨hne, fun hallowed => Bool.false_ne_true hallowed.1⟩
      subst heq
      refine ⟨htransport, hactual, ⟨cert, hpeer, fun hcaller => ?_⟩, hattestation⟩
      rw [hactual, hcurrent, Option.some.injEq] at hcaller
      rw [hissued, hsame hcaller]
    · rintro ⟨htransport, hactual, ⟨cert, hpeer, hsame⟩, hattestation⟩
      refine ⟨(), htransport, p, hactual, (), fun hfalse => Bool.false_ne_true hfalse.symm, (),
        fun hmatch => hmatch.1 rfl, cert, hpeer, ⟨issuedCert, hissuedCert, fun hcaller => ?_⟩, hattestation⟩
      have hown := hsame (by rw [hactual, hcurrent, hcaller])
      rw [hissuedCert, Option.some.injEq] at hown
      exact hown.symm

theorem Admitted.identity {i : Issuance} {c : BrokerClientContext} (h : Admitted i c) {r : StoredEnvelopeRecord}
    (hr : IssuedBy i r) : validateV2RecordIdentityRequirements r c = .ok () :=
  (identity_eq_ok_iff hr).mpr ⟨h.transport, h.principal, h.lineage⟩

/-- Whoever may see a secret may manage it. -/
theorem management_of_identity {r : StoredEnvelopeRecord} {c : BrokerClientContext}
    (h : validateV2RecordIdentityRequirements r c = .ok ()) : validateV2RecordManagementRequirements r c = .ok () := by
  simp only [validateV2RecordIdentityRequirements, validateV2RecordManagementRequirements,
    validateV2RecordIdentityRequirementsInner, Eff.except_bind_eq_ok, Eff.okOr_eq_ok, Eff.rejectIf_eq_ok] at h ⊢
  obtain ⟨expected, hexpected, u, htransport, actual, hactual, h⟩ := h
  refine ⟨expected, hexpected, u, htransport, actual, hactual, ?_⟩
  by_cases hl : r.lifecycle = .singleUseUnwrap
  · rwa [if_pos hl] at h ⊢
  · rw [if_neg hl] at h ⊢
    simp only [Eff.except_bind_eq_ok, Eff.okOr_eq_ok, Eff.rejectIf_eq_ok] at h ⊢
    obtain ⟨_, hissued, issuer, hissuer, _, hmatch, rest⟩ := h
    exact ⟨(), hissued, issuer, hissuer,
      (), fun hne => hmatch ⟨hne.1, fun hallowed => Bool.false_ne_true hallowed.1⟩, rest⟩

/-- The custody checks on a record accept every principal with the lineage of its issuance. -/
theorem custody_eq_ok_iff {i : Issuance} {r : StoredEnvelopeRecord} (h : IssuedBy i r) {c : BrokerClientContext}
    {u : Unit} : validateThresholdCustodyRecordRequirements r c = .ok u ↔
      c.authenticatedTransport = true ∧ (∃ p, normalizedContextPrincipal c = some p) ∧
      (∃ issuedCert, i.context.peerCertSha256 = some issuedCert) ∧ Lineage i c := by
  obtain ⟨hissuing, current, -, hcurrent, -, -, -, -⟩ := v2UnwrapPrincipal_eq_ok h.unwrapPrincipalId
  have hissuer : r.issuedByPrincipalId.bind normalizeOptionalString = some current := by
    rw [h.issuer, hcurrent, Option.bind_some]
    exact normalizedContextPrincipal_idem hcurrent
  simp only [validateThresholdCustodyRecordRequirements, hissuer, h.transport, hissuing, Eff.okOr_some, Eff.ok_bind,
    Eff.except_bind_eq_ok, Eff.rejectIf_eq_ok, Eff.okOr_eq_ok, Bool.not_eq_false, validateIssuedLineage_eq_ok h]
  constructor
  · rintro ⟨-, htransport, principal, hprincipal, cert, hcert, -, -, ⟨issuedCert, hissued, hsame⟩, hattestation⟩
    refine ⟨htransport, ⟨principal, hprincipal⟩, ⟨issuedCert, hissued⟩, ⟨cert, hcert, fun hcaller => ?_⟩, hattestation⟩
    rw [hprincipal, hcurrent, Option.some.injEq] at hcaller
    rw [hissued, hsame hcaller]
  · rintro ⟨htransport, ⟨principal, hprincipal⟩, ⟨issuedCert, hissued⟩, ⟨cert, hcert, hsame⟩, hattestation⟩
    refine ⟨(), htransport, principal, hprincipal, cert, hcert, (), trivial, ⟨issuedCert, hissued, fun hcaller => ?_⟩,
      hattestation⟩
    have hown := hsame (by rw [hprincipal, hcurrent, hcaller])
    rw [hissued, Option.some.injEq] at hown
    exact hown.symm

end SecretBroker

import SecretBroker.ClientPolicy

/-! What the quote says about the compose hash: nothing. The hash is read from the event log, which is another
extension of the certificate, and no step of the verification compares the log with the report. -/

open Wire

namespace SecretBroker.RaTls

variable {Collateral : Type} {env : RaTlsEnv Collateral}

/-- Verification hands the event log on as it is, and takes no other notice of it. -/
theorem verifyWithRaPubkey_log {missingUrl : String} {quote log : Bytes} {pubkey : Bytes} {pccsUrl : Option String}
    {now : Option UInt64} {verified : VerifiedAttestation}
    (h : Attestation.verifyWithRaPubkey env missingUrl ⟨quote, log⟩ pubkey pccsUrl now = .ok verified) :
    verified.rawEventLog = log ∧ ∀ log', Attestation.verifyWithRaPubkey env missingUrl ⟨quote, log'⟩ pubkey pccsUrl now =
      .ok { verified with rawEventLog := log' } := by
  simp only [Attestation.verifyWithRaPubkey, Attestation.detectVendorFromQuote, Eff.except_bind_eq_ok] at h ⊢
  obtain ⟨vendor, hvendor, _, hsupported, data, hdata, _, hbinding, url, hurl, collateral, hcollateral, time, htime,
    report, hreport, hverified⟩ := h
  cases hverified
  exact ⟨rfl, fun log' => ⟨vendor, hvendor, (), hsupported, data, hdata,
    (), hbinding, url, hurl, collateral, hcollateral, time, htime, report, hreport, rfl⟩⟩

/-- Who holds the key of a certificate can have any compose hash read from it, under the same verified report. -/
theorem exists_log_of_composeHash (hlogs : WritesLogs env) {missingUrl : String} {quote log : Bytes} {pubkey : Bytes}
    {pccsUrl : Option String} {now : Option UInt64} {verified : VerifiedAttestation}
    (h : Attestation.verifyWithRaPubkey env missingUrl ⟨quote, log⟩ pubkey pccsUrl now = .ok verified) (payload : Bytes) :
    ∃ log', Attestation.verifyWithRaPubkey env missingUrl ⟨quote, log'⟩ pubkey pccsUrl now = .ok ⟨verified.report, log'⟩ ∧
      clientComposeHash env ⟨verified.report, log'⟩ = .ok (hexEncode payload) := by
  obtain ⟨log', hne, hlog'⟩ := hlogs payload
  refine ⟨log', (verifyWithRaPubkey_log h).2 log', decodeComposeHash_eq_ok.mpr ⟨payload, ?_, rfl⟩⟩
  rw [composePayload, if_neg hne, hlog']
  rfl

/-- A policy that asks for the measurements of one report, and for a compose hash. -/
def exactPolicy (composeHash : String) : Report → MeasurementPolicy
  | .td10 r => ⟨[hexEncode r.mrTd.val], [], [], none, some composeHash⟩
  | .td15 r => ⟨[hexEncode r.base.mrTd.val], [], [], none, some composeHash⟩
  | .sgxEnclave r => ⟨[], [hexEncode r.mrEnclave.val], [hexEncode r.mrSigner.val], none, some composeHash⟩

theorem expectedComposeHash_exactPolicy (composeHash : String) (report : Report) :
    (exactPolicy composeHash report).expectedComposeHash = some composeHash := by
  cases report <;> rfl

theorem enforce_exactPolicy {verified : VerifiedAttestation} {composeHash : String}
    (h : clientComposeHash env verified = .ok composeHash) :
    enforceMeasurementPolicy env (exactPolicy composeHash verified.report) verified = .ok () := by
  refine enforceMeasurementPolicy_eq_ok.mpr ⟨fun expected hexpected => ?_, ?_⟩
  · rw [expectedComposeHash_exactPolicy, Option.some_inj] at hexpected
    rw [h, hexpected]
  · cases verified.report with
    | td10 r => exact List.mem_singleton_self _
    | td15 r => exact List.mem_singleton_self _
    | sgxEnclave r => exact ⟨List.mem_singleton_self _, List.mem_singleton_self _, rfl⟩

/-- The text that is hashed for a report. -/
def Report.digestText : Report → String
  | .td10 r => "tdx" ++ hexEncode r.mrTd.val
  | .td15 r => "tdx" ++ hexEncode r.base.mrTd.val
  | .sgxEnclave r => "sgx" ++ hexEncode r.mrEnclave.val ++ hexEncode r.mrSigner.val ++ toString r.isvSvn.toNat

/-- The text that is hashed for a compose hash. -/
def composeText (payload : Bytes) : String := if payload = [] then "" else "compose" ++ hexEncode payload

theorem composeText_injective : Function.Injective composeText := by
  intro payload payload' h
  unfold composeText at h
  split_ifs at h with hempty hempty' hempty'
  · rw [hempty, hempty']
  · exact absurd (congrArg String.toList h) (by simp)
  · exact absurd (congrArg String.toList h) (by simp)
  · exact hexEncode_injective ((String.append_right_inj _).mp h)

theorem Report.asBytes_digestText (report : Report) : report.digestInput = asBytes report.digestText := by
  cases report with
  | td10 r => rw [Report.digestText, asBytes_append, Report.digestInput]
  | td15 r => rw [Report.digestText, asBytes_append, Report.digestInput]
  | sgxEnclave r => rw [Report.digestText, asBytes_append, asBytes_append, asBytes_append, Report.digestInput]

/-- A log that names no compose hash counts like one that names the empty one. -/
theorem digestInput_eq (verified : VerifiedAttestation) :
    verified.digestInput env =
      asBytes (verified.report.digestText ++ composeText ((composePayload env verified.rawEventLog).getD [])) := by
  rw [VerifiedAttestation.digestInput, asBytes_append, Report.asBytes_digestText, List.append_cancel_left_eq]
  cases hpayload : composePayload env verified.rawEventLog with
  | none =>
      cases hdecode : verified.decodeComposeHash env "event log missing - cannot decode compose hash" with
      | error e => rfl
      | ok composeHash =>
          obtain ⟨payload, hsome, -⟩ := decodeComposeHash_eq_ok.mp hdecode
          rw [hpayload] at hsome
          cases hsome
  | some payload =>
      have hdecode : verified.decodeComposeHash env "event log missing - cannot decode compose hash" =
        .ok (hexEncode payload) :=
        decodeComposeHash_eq_ok.mpr ⟨payload, hpayload, rfl⟩
      rw [hdecode, Option.getD_some, composeText]
      by_cases hempty : payload = []
      · have hblank : hexEncode payload = "" := hexEncode_eq_empty.mpr hempty
        rw [hblank, if_pos hempty]
        rfl
      · have hfilter : ((.ok (hexEncode payload) : Except String String).toOption.filter fun h => h ≠ "") =
            some (hexEncode payload) := by
          rw [Except.toOption, Option.filter_some, if_pos (decide_eq_true (mt hexEncode_eq_empty.mp hempty))]
        rw [hfilter, if_neg hempty, asBytes_append]
        simp only [toAsciiLowercase_hexEncode]

/-- At most one value is seen of a quote, whatever log comes with it. -/
def BoundToQuote {α : Type} (verify : Bytes → Except String VerifiedAttestation) (Sees : VerifiedAttestation → α → Prop) :
    Prop :=
  ∀ log log' v v' a a', verify log = .ok v → verify log' = .ok v' → Sees v a → Sees v' a' → a = a'

/-- The client accepts an attestation under a policy that expects a compose hash. -/
def AcceptedFor (env : RaTlsEnv Collateral) (v : VerifiedAttestation) (expected : String) : Prop :=
  ∃ policy, policy.expectedComposeHash = some expected ∧ enforceMeasurementPolicy env policy v = .ok ()

/-- **The compose hash is never bound to the quote.** For every quote that verifies and every compose hash there is a
log with which the same quote verifies to the same report, and with which the client reads that hash, accepts it under a
policy that expects it, and the broker puts it into its digest. So neither what the client reads, nor what it accepts,
nor what the broker hashes is determined by the quote. -/
theorem composeHash_never_bound (hlogs : WritesLogs env) {missingUrl : String} {quote log pubkey : Bytes}
    {pccsUrl : Option String} {now : Option UInt64} {verified : VerifiedAttestation}
    (h : Attestation.verifyWithRaPubkey env missingUrl ⟨quote, log⟩ pubkey pccsUrl now = .ok verified) :
    (∀ payload, ∃ log',
      Attestation.verifyWithRaPubkey env missingUrl ⟨quote, log'⟩ pubkey pccsUrl now = .ok ⟨verified.report, log'⟩ ∧
      clientComposeHash env ⟨verified.report, log'⟩ = .ok (hexEncode payload) ∧
      AcceptedFor env ⟨verified.report, log'⟩ (hexEncode payload) ∧
      VerifiedAttestation.digestInput env ⟨verified.report, log'⟩ =
        asBytes (verified.report.digestText ++ composeText payload)) ∧
    ¬ BoundToQuote (fun log => Attestation.verifyWithRaPubkey env missingUrl ⟨quote, log⟩ pubkey pccsUrl now)
      (fun v composeHash => clientComposeHash env v = .ok composeHash) ∧
    ¬ BoundToQuote (fun log => Attestation.verifyWithRaPubkey env missingUrl ⟨quote, log⟩ pubkey pccsUrl now)
      (AcceptedFor env) ∧
    ¬ BoundToQuote (fun log => Attestation.verifyWithRaPubkey env missingUrl ⟨quote, log⟩ pubkey pccsUrl now)
      (fun v bytes => v.digestInput env = bytes) := by
  have hchosen : ∀ payload, ∃ log',
      Attestation.verifyWithRaPubkey env missingUrl ⟨quote, log'⟩ pubkey pccsUrl now = .ok ⟨verified.report, log'⟩ ∧
      clientComposeHash env ⟨verified.report, log'⟩ = .ok (hexEncode payload) ∧
      AcceptedFor env ⟨verified.report, log'⟩ (hexEncode payload) ∧
      VerifiedAttestation.digestInput env ⟨verified.report, log'⟩ =
        asBytes (verified.report.digestText ++ composeText payload) := by
    intro payload
    obtain ⟨log', hverify, hread⟩ := exists_log_of_composeHash hlogs h payload
    refine ⟨log', hverify, hread, ⟨_, expectedComposeHash_exactPolicy _ _, enforce_exactPolicy hread⟩, ?_⟩
    obtain ⟨payload', hpayload, hsame⟩ := decodeComposeHash_eq_ok.mp hread
    rw [digestInput_eq, hpayload, hexEncode_injective hsame, Option.getD_some]
  -- two hashes suffice: the empty one and one of a single byte
  obtain ⟨log₀, hverify₀, hread₀, haccepted₀, hdigest₀⟩ := hchosen []
  obtain ⟨log₁, hverify₁, hread₁, haccepted₁, hdigest₁⟩ := hchosen [0]
  have hdiffer : hexEncode [] ≠ hexEncode [0] := fun heq => absurd (hexEncode_injective heq) (by decide)
  refine ⟨hchosen, ?_, ?_, ?_⟩
  · intro hbound
    exact hdiffer (hbound _ _ _ _ _ _ hverify₀ hverify₁ hread₀ hread₁)
  · intro hbound
    exact hdiffer (hbound _ _ _ _ _ _ hverify₀ hverify₁ haccepted₀ haccepted₁)
  · intro hbound
    have hbytes := hbound _ _ _ _ _ _ hverify₀ hverify₁ hdigest₀ hdigest₁
    rw [asBytes_injective.eq_iff, String.append_right_inj] at hbytes
    exact absurd (composeText_injective hbytes) (by decide)

theorem composeHash_never_bound_plain :
    ¬ BoundToQuote
      (fun log => Attestation.verifyWithRaPubkey plainRaTls "" ⟨[4, 0, 0, 0, 0x81, 0, 0, 0], log⟩ [] (some "pccs")
        (some 0)) (AcceptedFor plainRaTls) := by
  have h : Attestation.verifyWithRaPubkey plainRaTls "" ⟨[4, 0, 0, 0, 0x81, 0, 0, 0], [0, 0xaa]⟩ []
    (some "pccs") (some 0) =
      .ok ⟨plainReport, [0, 0xaa]⟩ := by decide +kernel
  exact (composeHash_never_bound writesLogs_plainRaTls h).2.2.1

/-- The same quote in two certificates with different logs: the report is the same, each certificate is accepted for a
compose hash of its own, and the digests are taken of different bytes. -/
theorem composeHash_chosen_by_log : ∃ v v' : VerifiedAttestation,
    Attestation.verifyWithRaPubkey plainRaTls "" ⟨[4, 0, 0, 0, 0x81, 0, 0, 0], [0, 0xaa]⟩ [] (some "pccs") (some 0) =
      .ok v ∧ Attestation.verifyWithRaPubkey plainRaTls "" ⟨[4, 0, 0, 0, 0x81, 0, 0, 0], [0, 0xbb]⟩ [] (some "pccs")
        (some 0) = .ok v' ∧ v.report = v'.report ∧ clientComposeHash plainRaTls v = .ok "aa" ∧
        clientComposeHash plainRaTls v' = .ok "bb" ∧
    verifyPeerCertificate plainRaTls id [0, 0xaa] ⟨"policy", exactPolicy "aa" v.report⟩ ["broker"] "pccs" (some 0) =
      .ok () ∧ verifyPeerCertificate plainRaTls id [0, 0xbb] ⟨"policy", exactPolicy "bb" v.report⟩ ["broker"] "pccs"
        (some 0) = .ok () ∧ v.digestInput plainRaTls ≠ v'.digestInput plainRaTls :=
  ⟨⟨plainReport, [0, 0xaa]⟩, ⟨plainReport, [0, 0xbb]⟩, by decide +kernel⟩

end SecretBroker.RaTls

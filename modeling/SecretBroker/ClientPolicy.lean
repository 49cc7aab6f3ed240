import SecretBroker.Attestation

/-! The measurement policy of the client: how it is read from a JSON document, and what an attestation has to show to
be accepted under it. -/

open Wire

namespace SecretBroker.RaTls

/-- `normalize_measurement`. -/
def normalizeMeasurement (value : String) : String := toAsciiLowercase (trim value)

/-- The sets are lists here: only membership is asked of them. -/
structure MeasurementPolicy where
  allowedMrtd : List String
  allowedMrenclave : List String
  allowedMrsigner : List String
  minIsvsvn : Option UInt16
  expectedComposeHash : Option String
  deriving DecidableEq

structure ClientPolicy where
  policyName : String
  measurement : MeasurementPolicy
  deriving DecidableEq

/-- The text of an error about a field of the policy. -/
def fieldError (key what : String) : String := "Secret Broker policy field " ++ key ++ " must " ++ what

/-- `required_json_string`. -/
def requiredJsonString (value : Value) (key : String) : Except String String := do
  let s ← Eff.okOr ((value.get key).bind Value.asStr) (fieldError key "be a string")
  Eff.rejectIf (trim s = "") (fieldError key "not be empty")
  return trim s

/-- The loop of `required_or_empty_measurement_set`. -/
def insertMeasurements (key : String) : List Value → List String → Except String (List String)
  | [], result => .ok result
  | item :: items, result => do
      let raw ← Eff.okOr item.asStr (fieldError key "contain only strings")
      let normalized := normalizeMeasurement raw
      Eff.rejectIf (normalized = "") (fieldError key "not contain empty values")
      Eff.rejectIf (normalized ∈ result) (fieldError key "not contain duplicate values")
      insertMeasurements key items (normalized :: result)

/-- `required_or_empty_measurement_set`. -/
def requiredOrEmptyMeasurementSet (value : Value) (key : String) : Except String (List String) :=
  match value.get key with
  | none => .ok []
  | some field => do
      let values ← Eff.okOr field.asArray (fieldError key "be an array")
      insertMeasurements key values []

/-- The field `min_isvsvn`. -/
def readMinIsvsvn (value : Value) : Except String (Option UInt16) :=
  match value.get "min_isvsvn" with
  | none => .ok none
  | some .null => .ok none
  | some (.integer n) => do
      let n ← Eff.okOr (Value.asU64 (.integer n)) "min_isvsvn must be an unsigned integer"
      if n.toNat < 65536 then .ok (some n.toUInt16) else .error "min_isvsvn must fit in u16"
  | some (.float _) => .error "min_isvsvn must be an unsigned integer"
  | some _ => .error "min_isvsvn must be an unsigned integer or null"

/-- The field `expected_compose_hash`. -/
def readExpectedComposeHash (value : Value) : Except String (Option String) :=
  match value.get "expected_compose_hash" with
  | none => .ok none
  | some .null => .ok none
  | some (.string raw) =>
      if normalizeMeasurement raw = "" then .error "expected_compose_hash must not be empty"
      else .ok (some (normalizeMeasurement raw))
  | some _ => .error "expected_compose_hash must be a string or null"

/-- `Value::is_object`. -/
def isObject : Value → Bool
  | .object _ => true
  | _ => false

/-- `ClientPolicy::from_json`. -/
def ClientPolicy.fromJson (value : Value) : Except String ClientPolicy := do
  Eff.rejectIf (isObject value = false) "Secret Broker client policy must be a JSON object"
  let policyName ← requiredJsonString value "policy_name"
  let allowedMrtd ← requiredOrEmptyMeasurementSet value "allowed_mrtd"
  let allowedMrenclave ← requiredOrEmptyMeasurementSet value "allowed_mrenclave"
  let allowedMrsigner ← requiredOrEmptyMeasurementSet value "allowed_mrsigner"
  let minIsvsvn ← readMinIsvsvn value
  let expectedComposeHash ← readExpectedComposeHash value
  Eff.rejectIf (allowedMrenclave.isEmpty ≠ allowedMrsigner.isEmpty)
    "SGX policy must provide both allowed_mrenclave and allowed_mrsigner"
  Eff.rejectIf (allowedMrtd.isEmpty ∧ allowedMrenclave.isEmpty ∧ expectedComposeHash.isNone)
    "Secret Broker policy must constrain a TDX measurement, an SGX measurement pair, or a compose hash"
  return ⟨policyName, ⟨allowedMrtd, allowedMrenclave, allowedMrsigner, minIsvsvn, expectedComposeHash⟩⟩

namespace MeasurementPolicy

variable (policy : MeasurementPolicy)

/-- `accepts_tdx_mrtd`. -/
def acceptsTdxMrtd (mrtd : String) : Bool := policy.allowedMrtd.contains (normalizeMeasurement mrtd)

/-- `accepts_sgx`. -/
def acceptsSgx (mrenclave mrsigner : String) (isvsvn : UInt16) : Bool :=
  !policy.allowedMrenclave.isEmpty && !policy.allowedMrsigner.isEmpty &&
    policy.allowedMrenclave.contains (normalizeMeasurement mrenclave) &&
    policy.allowedMrsigner.contains (normalizeMeasurement mrsigner) &&
    (policy.minIsvsvn.map fun minimum => decide (minimum ≤ isvsvn)).getD true

/-- `accepts_compose_hash`. -/
def acceptsComposeHash (value : String) : Bool := policy.expectedComposeHash == some (normalizeMeasurement value)

end MeasurementPolicy

variable {Collateral : Type} (env : RaTlsEnv Collateral)

/-- The compose hash, as the client decodes it. -/
def clientComposeHash (verified : VerifiedAttestation) : Except String String :=
  verified.decodeComposeHash env "event log missing — cannot decode compose hash"

/-- The last part of the decision: the measurements of the report. -/
def MeasurementPolicy.enforceReport (policy : MeasurementPolicy) : Report → Except String Unit
  | .td10 report =>
      Eff.rejectIf (policy.acceptsTdxMrtd (hexEncode report.mrTd.val) = false)
        "Secret Broker TDX MR_TD was rejected by policy"
  | .td15 report =>
      Eff.rejectIf (policy.acceptsTdxMrtd (hexEncode report.base.mrTd.val) = false)
        "Secret Broker TDX MR_TD was rejected by policy"
  | .sgxEnclave report =>
      Eff.rejectIf (policy.acceptsSgx (hexEncode report.mrEnclave.val)
        (hexEncode report.mrSigner.val) report.isvSvn = false)
        "Secret Broker SGX measurements were rejected by policy"

/-- `enforce_measurement_policy`. -/
def enforceMeasurementPolicy (policy : MeasurementPolicy) (verified : VerifiedAttestation) : Except String Unit := do
  if policy.expectedComposeHash.isSome then
    let composeHash ← Eff.okOr (clientComposeHash env verified).toOption
      "Secret Broker RA-TLS attestation is missing a policy-required compose hash"
    Eff.rejectIf (policy.acceptsComposeHash composeHash = false)
      "Secret Broker RA-TLS compose hash was rejected by policy"
  policy.enforceReport verified.report

/-- The subject of a certificate: its first common name, if that is text and not blank. -/
def X509Certificate.subject (cert : X509Certificate) : Option String :=
  ((cert.commonNames.head?.join).map fun name => toAsciiLowercase (trim name)).filter fun name => name ≠ ""

/-- `verify_peer_certificate`; `debug` is the `Debug` form of a text. -/
def verifyPeerCertificate (debug : String → String) (certDer : Bytes) (policy : ClientPolicy)
    (subjectAllowlist : List String) (pccsUrl : String) (now : Option UInt64) : Except String Unit := do
  let cert ← (env.certificateFromDer certDer).mapError
    fun e => "failed to parse Secret Broker server certificate: " ++ e
  let subject ← Eff.okOr cert.subject "Secret Broker server certificate has no usable common name"
  Eff.rejectIf (subject ∉ subjectAllowlist)
    ("Secret Broker server subject " ++ debug subject ++ " is not in the configured allowlist")
  let attestation ← Eff.okOr (← Attestation.fromDer env certDer)
    "Secret Broker server certificate does not contain RA-TLS attestation"
  let vendor ← attestation.detectVendorFromQuote
  Eff.rejectIf (vendor = .unsupportedQuoteFormat)
    "unsupported RA-TLS quote format; this client verifies Intel SGX and TDX DCAP evidence"
  let verified ← (attestation.verifyWithRaPubkey env "PCCS URL is required for RA-TLS verification"
    cert.subjectPublicKey (some pccsUrl) now).mapError
      fun _ => "Secret Broker RA-TLS attestation verification failed"
  enforceMeasurementPolicy env policy.measurement verified

/-! ### What a policy states -/

/-- A measurement is listed in a field of the document, up to case and surrounding white space. -/
def Listed (value : Value) (key measurement : String) : Prop :=
  ∃ items raw, value.get key = some (.array items) ∧ .string raw ∈ items ∧ normalizeMeasurement raw = measurement

/-- What the document states about the measurements of a report. -/
def Measured (value : Value) : Report → Prop
  | .td10 r => Listed value "allowed_mrtd" (hexEncode r.mrTd.val)
  | .td15 r => Listed value "allowed_mrtd" (hexEncode r.base.mrTd.val)
  | .sgxEnclave r => Listed value "allowed_mrenclave" (hexEncode r.mrEnclave.val) ∧
      Listed value "allowed_mrsigner" (hexEncode r.mrSigner.val) ∧
      ∀ n, value.get "min_isvsvn" = some (.integer n) → n ≤ r.isvSvn.toNat

/-- The attestation satisfies every constraint that the document states for its kind. -/
structure Meets (value : Value) (verified : VerifiedAttestation) : Prop where
  composeHash : ∀ raw, value.get "expected_compose_hash" = some (.string raw) →
    clientComposeHash env verified = .ok (normalizeMeasurement raw)
  measured : Measured value verified.report

variable {env}

/-- Hexadecimal text is in normal form. -/
@[simp] theorem normalizeMeasurement_hexEncode (b : Bytes) : normalizeMeasurement (hexEncode b) = hexEncode b := by
  have hspace : ∀ c ∈ (hexEncode b).toList, isWhiteSpace c = false := by
    rw [hexEncode, String.toList_ofList]
    exact Uuid.hexChars_all (by decide) b
  rw [normalizeMeasurement, trim_of_trimmed (trimmed_of_all hspace), toAsciiLowercase_hexEncode]

theorem mem_insertMeasurements {key : String} {items : List Value} {result set : List String}
    (h : insertMeasurements key items result = .ok set) (m : String) :
    m ∈ set ↔ m ∈ result ∨ ∃ raw, .string raw ∈ items ∧ normalizeMeasurement raw = m := by
  induction items generalizing result with
  | nil =>
      cases h
      simp
  | cons item items ih =>
      simp only [insertMeasurements, Eff.except_bind_eq_ok, Eff.okOr_eq_ok, Eff.rejectIf_eq_ok] at h
      obtain ⟨raw, hraw, -, -, -, -, hrest⟩ := h
      obtain rfl : item = .string raw := by
        cases item <;> simp_all [Value.asStr]
      rw [ih hrest, List.mem_cons]
      simp only [List.mem_cons, Value.string.injEq, or_and_right, exists_or, exists_eq_left, eq_comm (a := m), or_assoc,
        or_left_comm]

/-- The set that is read from a field is what the field lists. -/
theorem mem_requiredOrEmptyMeasurementSet {value : Value} {key : String} {set : List String}
    (h : requiredOrEmptyMeasurementSet value key = .ok set) (m : String) : m ∈ set ↔ Listed value key m := by
  unfold requiredOrEmptyMeasurementSet at h
  unfold Listed
  cases hfield : value.get key with
  | none =>
      rw [hfield] at h
      cases h
      simp
  | some field =>
      rw [hfield] at h
      simp only [Eff.except_bind_eq_ok, Eff.okOr_eq_ok] at h
      obtain ⟨items, hitems, hset⟩ := h
      obtain rfl : field = .array items := by
        cases field <;> simp_all [Value.asArray]
      rw [mem_insertMeasurements hset]
      simp

theorem readMinIsvsvn_spec {value : Value} {minimum : Option UInt16} (h : readMinIsvsvn value = .ok minimum)
    (isvsvn : UInt16) : (minimum.map fun minimum => decide (minimum ≤ isvsvn)).getD true = true ↔
      ∀ n, value.get "min_isvsvn" = some (.integer n) → n ≤ isvsvn.toNat := by
  unfold readMinIsvsvn at h
  split at h
  · next hnone =>
      cases h
      simp [hnone]
  · next hnull =>
      cases h
      simp [hnull]
  · next n hn =>
      simp only [Eff.except_bind_eq_ok, Eff.okOr_eq_ok, Value.asU64] at h
      obtain ⟨u, hu, hfits⟩ := h
      split_ifs at hu with hrange
      split_ifs at hfits with hsmall
      cases hfits
      obtain rfl := Option.some_inj.mp hu
      have hu64 : (UInt64.ofNat n.toNat).toNat = n.toNat := UInt64.toNat_ofNat_of_lt' (by rw [UInt64.size]; omega)
      have hu16 : (UInt64.ofNat n.toNat).toUInt16.toNat = n.toNat := by
        rw [UInt64.toNat_toUInt16, hu64, Nat.mod_eq_of_lt (by omega)]
      simp only [Option.map_some, Option.getD_some, decide_eq_true_eq, UInt16.le_iff_toNat_le, hu16, hn, Option.some_inj,
        Value.integer.injEq, forall_eq']
      omega
  · cases h
  · cases h

theorem readExpectedComposeHash_spec {value : Value} {expected : Option String}
    (h : readExpectedComposeHash value = .ok expected) (composeHash : String) :
    expected = some composeHash ↔
      ∃ raw, value.get "expected_compose_hash" = some (.string raw) ∧ normalizeMeasurement raw = composeHash := by
  unfold readExpectedComposeHash at h
  split at h
  · next hnone =>
      cases h
      simp [hnone]
  · next hnull =>
      cases h
      simp [hnull]
  · next raw hraw =>
      split_ifs at h
      cases h
      simp [hraw]
  · cases h

/-- The fields of a policy that has been read. -/
structure Reads (value : Value) (policy : MeasurementPolicy) : Prop where
  mrtd : requiredOrEmptyMeasurementSet value "allowed_mrtd" = .ok policy.allowedMrtd
  mrenclave : requiredOrEmptyMeasurementSet value "allowed_mrenclave" = .ok policy.allowedMrenclave
  mrsigner : requiredOrEmptyMeasurementSet value "allowed_mrsigner" = .ok policy.allowedMrsigner
  minIsvsvn : readMinIsvsvn value = .ok policy.minIsvsvn
  composeHash : readExpectedComposeHash value = .ok policy.expectedComposeHash
  pair : policy.allowedMrenclave = [] ↔ policy.allowedMrsigner = []

theorem ClientPolicy.reads_of_fromJson {value : Value} {policy : ClientPolicy} (h : fromJson value = .ok policy) :
    Reads value policy.measurement := by
  simp only [fromJson, Eff.except_bind_eq_ok, Eff.rejectIf_eq_ok, not_not] at h
  obtain ⟨_, _, name, _, mrtd, hmrtd, mrenclave, hmrenclave, mrsigner, hmrsigner, minimum, hminimum, expected, hexpected,
    _, hpair, _, _, hpolicy⟩ := h
  cases hpolicy
  refine ⟨hmrtd, hmrenclave, hmrsigner, hminimum, hexpected, ?_⟩
  rw [← List.isEmpty_iff, ← List.isEmpty_iff, hpair]

/-- What the decision asks of a report. -/
def MeasurementPolicy.AcceptsReport (policy : MeasurementPolicy) : Report → Prop
  | .td10 r => hexEncode r.mrTd.val ∈ policy.allowedMrtd
  | .td15 r => hexEncode r.base.mrTd.val ∈ policy.allowedMrtd
  | .sgxEnclave r => hexEncode r.mrEnclave.val ∈ policy.allowedMrenclave ∧
      hexEncode r.mrSigner.val ∈ policy.allowedMrsigner ∧
      (policy.minIsvsvn.map fun minimum => decide (minimum ≤ r.isvSvn)).getD true = true

theorem acceptsTdxMrtd_hexEncode {policy : MeasurementPolicy} {b : Bytes} :
    policy.acceptsTdxMrtd (hexEncode b) = true ↔ hexEncode b ∈ policy.allowedMrtd := by
  rw [MeasurementPolicy.acceptsTdxMrtd, normalizeMeasurement_hexEncode, List.contains_iff_mem]

/-- Two of the tests on the sets for SGX are implied by the others. -/
theorem acceptsSgx_hexEncode {policy : MeasurementPolicy} {b c : Bytes} {isvsvn : UInt16} :
    policy.acceptsSgx (hexEncode b) (hexEncode c) isvsvn = true ↔
      hexEncode b ∈ policy.allowedMrenclave ∧ hexEncode c ∈ policy.allowedMrsigner ∧
        (policy.minIsvsvn.map fun minimum => decide (minimum ≤ isvsvn)).getD true = true := by
  simp only [MeasurementPolicy.acceptsSgx, normalizeMeasurement_hexEncode, Bool.and_eq_true, Bool.not_eq_true',
    List.isEmpty_eq_false_iff, List.contains_iff_mem]
  constructor
  · intro ⟨⟨⟨_, henclave⟩, hsigner⟩, hsvn⟩
    exact ⟨henclave, hsigner, hsvn⟩
  · intro ⟨henclave, hsigner, hsvn⟩
    exact ⟨⟨⟨⟨List.ne_nil_of_mem henclave, List.ne_nil_of_mem hsigner⟩, henclave⟩, hsigner⟩, hsvn⟩

theorem enforceReport_eq_ok {policy : MeasurementPolicy} {report : Report} {u : Unit} :
    policy.enforceReport report = .ok u ↔ policy.AcceptsReport report := by
  unfold MeasurementPolicy.enforceReport
  cases report with
  | td10 report => rw [Eff.rejectIf_eq_ok, Bool.not_eq_false, acceptsTdxMrtd_hexEncode, MeasurementPolicy.AcceptsReport]
  | td15 report => rw [Eff.rejectIf_eq_ok, Bool.not_eq_false, acceptsTdxMrtd_hexEncode, MeasurementPolicy.AcceptsReport]
  | sgxEnclave report => rw [Eff.rejectIf_eq_ok, Bool.not_eq_false, acceptsSgx_hexEncode, MeasurementPolicy.AcceptsReport]

/-- A compose hash that is decoded is in normal form. -/
theorem normalizeMeasurement_clientComposeHash {verified : VerifiedAttestation} {composeHash : String}
    (h : clientComposeHash env verified = .ok composeHash) : normalizeMeasurement composeHash = composeHash := by
  obtain ⟨payload, -, rfl⟩ := decodeComposeHash_eq_ok.mp h
  exact normalizeMeasurement_hexEncode payload

theorem enforceMeasurementPolicy_eq_ok {policy : MeasurementPolicy} {verified : VerifiedAttestation} {u : Unit} :
    enforceMeasurementPolicy env policy verified = .ok u ↔
      (∀ expected, policy.expectedComposeHash = some expected → clientComposeHash env verified = .ok expected) ∧
        policy.AcceptsReport verified.report := by
  unfold enforceMeasurementPolicy
  cases hexpected : policy.expectedComposeHash with
  | none =>
      simp only [Option.isSome_none, Bool.false_eq_true, if_false]
      refine enforceReport_eq_ok.trans ?_
      simp
  | some expected =>
      have hcompose : (∃ composeHash, clientComposeHash env verified = .ok composeHash ∧
          policy.acceptsComposeHash composeHash = true) ↔ clientComposeHash env verified = .ok expected := by
        constructor
        · rintro ⟨composeHash, hdecode, haccepts⟩
          rw [MeasurementPolicy.acceptsComposeHash, normalizeMeasurement_clientComposeHash hdecode, hexpected, beq_iff_eq,
            Option.some_inj] at haccepts
          rw [hdecode, haccepts]
        · intro hdecode
          refine ⟨expected, hdecode, ?_⟩
          rw [MeasurementPolicy.acceptsComposeHash, normalizeMeasurement_clientComposeHash hdecode, hexpected,
            beq_self_eq_true]
      simp only [Option.isSome_some, if_true, Eff.except_bind_eq_ok, Eff.okOr_eq_ok, Eff.except_toOption_eq_some,
        Eff.rejectIf_eq_ok, Bool.not_eq_false, enforceReport_eq_ok]
      constructor
      · rintro ⟨composeHash, hdecode, -, haccepts, hreport⟩
        refine ⟨fun e he => ?_, hreport⟩
        cases he
        exact hcompose.mp ⟨composeHash, hdecode, haccepts⟩
      · rintro ⟨hdecode, hreport⟩
        obtain ⟨composeHash, hdecode, haccepts⟩ := hcompose.mpr (hdecode expected rfl)
        exact ⟨composeHash, hdecode, (), haccepts, hreport⟩

/-- The decision under a policy is what its document states. -/
theorem enforce_iff_meets {value : Value} {policy : MeasurementPolicy} (hreads : Reads value policy)
    {verified : VerifiedAttestation} {u : Unit} :
    enforceMeasurementPolicy env policy verified = .ok u ↔ Meets env value verified := by
  have hreport : policy.AcceptsReport verified.report ↔ Measured value verified.report := by
    cases verified.report with
    | td10 r => exact mem_requiredOrEmptyMeasurementSet hreads.mrtd _
    | td15 r => exact mem_requiredOrEmptyMeasurementSet hreads.mrtd _
    | sgxEnclave r =>
        exact and_congr (mem_requiredOrEmptyMeasurementSet hreads.mrenclave _)
          (and_congr (mem_requiredOrEmptyMeasurementSet hreads.mrsigner _) (readMinIsvsvn_spec hreads.minIsvsvn _))
  have hcompose : (∀ expected, policy.expectedComposeHash = some expected →
    clientComposeHash env verified = .ok expected) ↔
      ∀ raw, value.get "expected_compose_hash" = some (.string raw) →
        clientComposeHash env verified = .ok (normalizeMeasurement raw) := by
    simp only [readExpectedComposeHash_spec hreads.composeHash]
    constructor
    · intro h raw hraw
      exact h _ ⟨raw, hraw, rfl⟩
    · rintro h _ ⟨raw, hraw, rfl⟩
      exact h raw hraw
  rw [enforceMeasurementPolicy_eq_ok, hreport, hcompose]
  exact ⟨fun h => ⟨h.1, h.2⟩, fun h => ⟨h.composeHash, h.measured⟩⟩

/-- The measurements that a document lists are those of reports. -/
structure WellFormed (value : Value) : Prop where
  mrtd : ∀ m, Listed value "allowed_mrtd" m → IsHex 48 m
  mrenclave : ∀ m, Listed value "allowed_mrenclave" m → IsHex 32 m
  mrsigner : ∀ m, Listed value "allowed_mrsigner" m → IsHex 32 m

/-- A log can be written with any compose hash. -/
def WritesLogs (env : RaTlsEnv Collateral) : Prop :=
  ∀ payload, ∃ log, log ≠ [] ∧ env.eventLogFromSlice log = some [⟨3, "compose-hash", payload⟩]

theorem exists_log (hlogs : WritesLogs env) {value : Value}
    (hhex : ∀ raw, value.get "expected_compose_hash" = some (.string raw) → ∃ n, IsHex n (normalizeMeasurement raw)) :
    ∃ log, ∀ report raw, value.get "expected_compose_hash" = some (.string raw) →
      clientComposeHash env ⟨report, log⟩ = .ok (normalizeMeasurement raw) := by
  by_cases hgiven : ∃ raw, value.get "expected_compose_hash" = some (.string raw)
  · obtain ⟨raw, hraw⟩ := hgiven
    obtain ⟨n, hn⟩ := hhex raw hraw
    obtain ⟨payload, hpayload⟩ := isHex_iff.mp hn
    obtain ⟨log, hne, hlog⟩ := hlogs payload.val
    refine ⟨log, fun report raw' hraw' => ?_⟩
    rw [hraw, Option.some_inj, Value.string.injEq] at hraw'
    subst hraw'
    refine decodeComposeHash_eq_ok.mpr ⟨payload.val, ?_, hpayload.symm⟩
    rw [composePayload, if_neg hne, hlog]
    rfl
  · exact ⟨[], fun _ raw hraw => absurd ⟨raw, hraw⟩ hgiven⟩

theorem exists_measured {value : Value} {policy : MeasurementPolicy} (hreads : Reads value policy)
    (hwell : WellFormed value) : (∃ report, Measured value report) ↔
      (∃ m, Listed value "allowed_mrtd" m) ∨ ∃ m, Listed value "allowed_mrenclave" m := by
  constructor
  · rintro ⟨report, hmeasured⟩
    cases report with
    | td10 r => exact Or.inl ⟨_, hmeasured⟩
    | td15 r => exact Or.inl ⟨_, hmeasured⟩
    | sgxEnclave r => exact Or.inr ⟨_, hmeasured.1⟩
  · rintro (⟨m, hm⟩ | ⟨m, hm⟩)
    · obtain ⟨b, rfl⟩ := isHex_iff.mp (hwell.mrtd m hm)
      exact ⟨.td10 ⟨b, ⟨List.replicate 64 0, List.length_replicate⟩⟩, hm⟩
    · -- the reader asks for both sets of an SGX policy or for none
      have henclave := (mem_requiredOrEmptyMeasurementSet hreads.mrenclave m).mpr hm
      obtain ⟨signer, hsigner⟩ := List.exists_mem_of_ne_nil _ fun h => List.ne_nil_of_mem henclave (hreads.pair.mpr h)
      have hsigner := (mem_requiredOrEmptyMeasurementSet hreads.mrsigner signer).mp hsigner
      obtain ⟨b, rfl⟩ := isHex_iff.mp (hwell.mrenclave m hm)
      obtain ⟨c, rfl⟩ := isHex_iff.mp (hwell.mrsigner signer hsigner)
      refine ⟨.sgxEnclave ⟨b, c, 65535, ⟨List.replicate 64 0, List.length_replicate⟩⟩, hm, hsigner, ?_⟩
      apply (readMinIsvsvn_spec hreads.minIsvsvn 65535).mp
      cases policy.minIsvsvn with
      | none => rfl
      | some minimum =>
          have hlt := minimum.toNat_lt
          rw [Option.map_some, Option.getD_some, decide_eq_true_eq, UInt16.le_iff_toNat_le]
          exact Nat.le_of_lt_succ hlt

def plainReport : Report :=
  .td10 ⟨⟨List.replicate 48 0, List.length_replicate⟩, ⟨List.replicate 64 0, List.length_replicate⟩⟩

/-- Libraries for which a certificate is its event log: one TDX quote, and logs of one record. -/
def plainRaTls : RaTlsEnv Unit where
  certificateFromDer der := .ok ⟨[(phalaRatlsQuoteOid, [4, 0, 0, 0, 0x81, 0, 0, 0]), (phalaRatlsEventLogOid, der)], [],
    [some "broker"]⟩
  readOctetString b := .ok b
  parseQuote _ := .ok plainReport
  getCollateral _ _ := .ok ()
  verifyQuote _ _ _ := .ok plainReport
  sha256 _ := ⟨List.replicate 32 0, List.length_replicate⟩
  sha512 _ := ⟨List.replicate 64 0, List.length_replicate⟩
  eventLogFromSlice log := some [⟨3, "compose-hash", log.tail⟩]

theorem writesLogs_plainRaTls : WritesLogs plainRaTls := fun payload => ⟨0 :: payload, List.cons_ne_nil _ _, rfl⟩

/-- What a policy that has been read states is enforced, exactly. It can be met exactly if it lists a measurement, and
the compose hash that it expects, if any, is hexadecimal. -/
theorem policy_satisfiable_iff (hlogs : WritesLogs env) {value : Value} {policy : ClientPolicy}
    (hjson : ClientPolicy.fromJson value = .ok policy) (hwell : WellFormed value) :
    ((∃ verified, enforceMeasurementPolicy env policy.measurement verified = .ok ()) ↔
      ((∃ m, Listed value "allowed_mrtd" m) ∨ ∃ m, Listed value "allowed_mrenclave" m) ∧
        ∀ raw, value.get "expected_compose_hash" = some (.string raw) → ∃ n, IsHex n (normalizeMeasurement raw)) ∧
    ∀ verified, enforceMeasurementPolicy env policy.measurement verified = .ok () ↔ Meets env value verified := by
  have hreads := ClientPolicy.reads_of_fromJson hjson
  refine ⟨?_, fun verified => enforce_iff_meets hreads⟩
  simp only [enforce_iff_meets hreads, ← exists_measured hreads hwell]
  constructor
  · intro ⟨verified, hmeets⟩
    refine ⟨⟨verified.report, hmeets.measured⟩, fun raw hraw => ?_⟩
    obtain ⟨payload, -, hpayload⟩ := decodeComposeHash_eq_ok.mp (hmeets.composeHash raw hraw)
    exact ⟨payload.length, isHex_iff.mpr ⟨⟨payload, rfl⟩, hpayload.symm⟩⟩
  · intro ⟨⟨report, hmeasured⟩, hhex⟩
    obtain ⟨log, hlog⟩ := exists_log hlogs hhex
    exact ⟨⟨report, log⟩, ⟨hlog report, hmeasured⟩⟩

/-- A policy for one measurement, written in upper case with a blank, and a compose hash. -/
def tdxPolicy : Value := .object [("policy_name", .string "broker-tdx-v1"),
  ("allowed_mrtd", .array [.string (" " ++ String.ofList (List.replicate 96 'A'))]),
    ("expected_compose_hash", .string "AA")]

theorem wellFormed_tdxPolicy : WellFormed tdxPolicy := by
  have hitems : tdxPolicy.get "allowed_mrtd" =
    some (.array [.string (" " ++ String.ofList (List.replicate 96 'A'))]) := rfl
  refine ⟨?_, ?_, ?_⟩
  · rintro m ⟨items, raw, hget, hraw, rfl⟩
    rw [hitems, Option.some_inj, Value.array.injEq] at hget
    subst hget
    rw [List.mem_singleton, Value.string.injEq] at hraw
    subst hraw
    exact isHex_iff.mpr ⟨⟨List.replicate 48 0xaa, List.length_replicate⟩, by decide +kernel⟩
  · rintro m ⟨items, raw, hget, -⟩
    cases hget
  · rintro m ⟨items, raw, hget, -⟩
    cases hget

theorem tdxPolicy_satisfiable : ∃ policy verified, ClientPolicy.fromJson tdxPolicy = .ok policy ∧
    enforceMeasurementPolicy plainRaTls policy.measurement verified = .ok () := by
  have hjson : ClientPolicy.fromJson tdxPolicy =
      .ok ⟨"broker-tdx-v1", ⟨[String.ofList (List.replicate 96 'a')], [], [], none, some "aa"⟩⟩ := by decide +kernel
  obtain ⟨verified, haccepted⟩ := (policy_satisfiable_iff writesLogs_plainRaTls hjson wellFormed_tdxPolicy).1.mpr
    ⟨Or.inl ⟨_, _, _, rfl, List.mem_singleton_self _, rfl⟩, fun raw hraw => by
      cases hraw
      exact ⟨1, isHex_iff.mpr ⟨⟨[0xaa], rfl⟩, by decide +kernel⟩⟩⟩
  exact ⟨_, verified, hjson, haccepted⟩

/-- A policy that names only a compose hash is read, and nothing is accepted under it. -/
theorem composeOnly_unsatisfiable : ∃ policy,
    ClientPolicy.fromJson (.object [("policy_name", .string "compose-only"), ("expected_compose_hash", .string "aa")]) =
      .ok policy ∧
    ¬ ∃ verified, enforceMeasurementPolicy plainRaTls policy.measurement verified = .ok () := by
  refine ⟨⟨"compose-only", ⟨[], [], [], none, some "aa"⟩⟩, by decide +kernel, ?_⟩
  rintro ⟨⟨report, log⟩, haccepted⟩
  have hreport := (enforceMeasurementPolicy_eq_ok.mp haccepted).2
  cases report with
  | td10 r => exact absurd hreport List.not_mem_nil
  | td15 r => exact absurd hreport List.not_mem_nil
  | sgxEnclave r => exact absurd hreport.1 List.not_mem_nil

end SecretBroker.RaTls

import SecretBroker.LibEffect
import SecretBroker.Values

/-! RA-TLS certificates: the quote and the event log that a certificate carries, what is verified of them, and the
compose hash that is read from the log. Both sides of the connection use this code; the broker also makes a digest
of what it has seen. -/

open Wire

namespace SecretBroker.RaTls

/-- `hex::encode`. -/
def hexEncode (b : Bytes) : String := String.ofList (Uuid.hexChars b)

theorem hexEncode_injective : Function.Injective hexEncode := by
  intro b c h
  exact Uuid.hexChars_injective (String.ofList_inj.mp h)

theorem toAsciiLowercase_hexEncode (b : Bytes) : toAsciiLowercase (hexEncode b) = hexEncode b := by
  have hlower : ∀ c ∈ Uuid.hexChars b, asciiLower c = c := Uuid.hexChars_all (by decide) b
  rw [toAsciiLowercase, hexEncode, String.toList_ofList, List.map_congr_left hlower, List.map_id']

theorem hexEncode_eq_empty {b : Bytes} : hexEncode b = "" ↔ b = [] := by
  rw [show "" = hexEncode [] from rfl, hexEncode_injective.eq_iff]

/-- The hexadecimal form of `n` bytes, in lower case. -/
def IsHex (n : ℕ) (s : String) : Prop := s.length = 2 * n ∧ ∀ c ∈ s.toList, ∃ k < 16, c = Uuid.hexDigit k

theorem exists_hexChars {n : ℕ} {l : List Char} (hlength : l.length = 2 * n)
    (hdigits : ∀ c ∈ l, ∃ k < 16, c = Uuid.hexDigit k) : ∃ b : Block n, Uuid.hexChars b.val = l := by
  induction n generalizing l with
  | zero =>
      obtain rfl := List.eq_nil_of_length_eq_zero hlength
      exact ⟨⟨[], rfl⟩, rfl⟩
  | succ n ih =>
      match l, hlength with
      | high :: low :: l, hlength =>
          obtain ⟨i, hi, rfl⟩ := hdigits _ List.mem_cons_self
          obtain ⟨j, hj, rfl⟩ := hdigits _ (List.mem_cons_of_mem _ List.mem_cons_self)
          have hrest : l.length = 2 * n := by
            simp only [List.length_cons] at hlength
            omega
          obtain ⟨b, hb⟩ := ih hrest fun c hc => hdigits c (List.mem_cons_of_mem _ (List.mem_cons_of_mem _ hc))
          have hbyte : (UInt8.ofNat (16 * i + j)).toNat = 16 * i + j := by
            rw [UInt8.toNat_ofNat', Nat.mod_eq_of_lt (by omega)]
          refine ⟨⟨UInt8.ofNat (16 * i + j) :: b.val, by simp [b.property]⟩, ?_⟩
          rw [Uuid.hexChars, List.flatMap_cons, hbyte, ← Uuid.hexChars, hb, show (16 * i + j) / 16 = i by omega,
            show (16 * i + j) % 16 = j by omega]
          rfl

theorem isHex_iff {n : ℕ} {s : String} : IsHex n s ↔ ∃ b : Block n, hexEncode b.val = s := by
  constructor
  · intro ⟨hlength, hdigits⟩
    obtain ⟨b, hb⟩ := exists_hexChars hlength hdigits
    exact ⟨b, by rw [hexEncode, hb, String.ofList_toList]⟩
  · rintro ⟨b, rfl⟩
    constructor
    · have hlength : ∀ l : Bytes, (Uuid.hexChars l).length = 2 * l.length := by
        intro l
        induction l with
        | nil => rfl
        | cons x l ih =>
            rw [Uuid.hexChars, List.flatMap_cons, List.length_append, ← Uuid.hexChars, ih]
            simp only [List.length_cons, List.length_nil]
            omega
      rw [hexEncode, String.length_ofList, hlength, b.property]
    · rw [hexEncode, String.toList_ofList]
      exact Uuid.hexChars_all (fun k hk => ⟨k, hk, rfl⟩) b.val

inductive TEEVendor where
  | unsupportedQuoteFormat
  | intelTDX
  | intelSGX
  deriving DecidableEq, Repr

structure TDReport10 where
  mrTd : Block 48
  reportData : Block 64
  deriving DecidableEq

structure TDReport15 where
  base : TDReport10
  deriving DecidableEq

structure EnclaveReport where
  mrEnclave : Block 32
  mrSigner : Block 32
  isvSvn : UInt16
  reportData : Block 64
  deriving DecidableEq

/-- `dcap_qvl::quote::Report`. -/
inductive Report where
  | sgxEnclave (report : EnclaveReport)
  | td10 (report : TDReport10)
  | td15 (report : TDReport15)
  deriving DecidableEq

/-- A certificate, as far as it is read here: its extensions by their object identifiers, its public key, and the
common names of its subject, where they are text. -/
structure X509Certificate where
  extensions : List (List ℕ × Bytes)
  subjectPublicKey : Bytes
  commonNames : List (Option String)

/-- A record of the event log. -/
structure TdxEventLog where
  imr : UInt32
  event : String
  eventPayload : Bytes
  deriving DecidableEq

/-- The libraries for certificates, quotes, hashes and JSON. The collateral for a quote comes over the network. -/
structure RaTlsEnv (Collateral : Type) where
  certificateFromDer : Bytes → Except String X509Certificate
  readOctetString : Bytes → Except String Bytes
  parseQuote : Bytes → Except String Report
  getCollateral : String → Bytes → Except String Collateral
  verifyQuote : Bytes → Collateral → UInt64 → Except String Report
  sha256 : Bytes → Block 32
  sha512 : Bytes → Block 64
  eventLogFromSlice : Bytes → Option (List TdxEventLog)

def phalaRatlsQuoteOid : List ℕ := [1, 3, 6, 1, 4, 1, 62397, 1, 1]

def phalaRatlsEventLogOid : List ℕ := [1, 3, 6, 1, 4, 1, 62397, 1, 2]

structure Attestation where
  quote : Bytes
  rawEventLog : Bytes
  deriving DecidableEq

/-- The report has been verified; the event log comes with it as it was in the certificate. -/
structure VerifiedAttestation where
  report : Report
  rawEventLog : Bytes
  deriving DecidableEq

variable {Collateral : Type} (env : RaTlsEnv Collateral)

/-- `get_extension_octets`. An extension that occurs twice is an error. -/
def getExtensionOctets (cert : X509Certificate) (oid : List ℕ) : Except String (Option Bytes) :=
  match cert.extensions.filter fun ext => ext.1 = oid with
  | [] => .ok none
  | [ext] =>
      ((env.readOctetString ext.2).mapError fun e => "RA-TLS extension is not a valid DER OCTET STRING: " ++ e).map some
  | _ => .error "failed to read X.509 extension"

/-- `Attestation::from_der`. A certificate without a quote has no attestation. -/
def Attestation.fromDer (certDer : Bytes) : Except String (Option Attestation) := do
  let cert ← (env.certificateFromDer certDer).mapError fun e => "failed to parse X.509 certificate: " ++ e
  match ← getExtensionOctets env cert phalaRatlsQuoteOid with
  | none => return none
  | some quote =>
      let rawEventLog ← getExtensionOctets env cert phalaRatlsEventLogOid
      return some ⟨quote, rawEventLog.getD []⟩

/-- `Attestation::detect_vendor_from_quote`. -/
def Attestation.detectVendorFromQuote (attestation : Attestation) : Except String TEEVendor :=
  if attestation.quote.length < 8 then
    .error ("quote too short (" ++ toString attestation.quote.length ++ " bytes) to determine vendor")
  else
    .ok <| match ofLE (attestation.quote.take 2), ofLE ((attestation.quote.drop 4).take 4) with
      | 3, 0 => .intelSGX
      | 4, 0x81 => .intelTDX
      | 5, 0x81 => .intelTDX
      | 4, 0 => .intelSGX
      | 5, 0 => .intelSGX
      | _, _ => .unsupportedQuoteFormat

/-- `decode_report_data`. -/
def decodeReportData (quote : Bytes) : Except String (Block 64) := do
  match ← (env.parseQuote quote).mapError fun _ => "failed to decode report_data from quote for pubkey binding check" with
  | .sgxEnclave r => return r.reportData
  | .td10 r => return r.reportData
  | .td15 r => return r.base.reportData

/-- `Attestation::verify_with_ra_pubkey`. The two sides differ in how the URL may be missing and what they say then. -/
def Attestation.verifyWithRaPubkey (missingUrl : String) (attestation : Attestation) (pubkey : Bytes)
    (pccsUrl : Option String) (now : Option UInt64) : Except String VerifiedAttestation := do
  let vendor ← attestation.detectVendorFromQuote
  Eff.rejectIf (vendor = .unsupportedQuoteFormat)
    "unsupported RA-TLS quote format; this build verifies Intel SGX and TDX DCAP evidence"
  let expected := env.sha512 (asBytes "ratls-cert" ++ asBytes ":" ++ pubkey)
  let actual ← decodeReportData env attestation.quote
  Eff.rejectIf (actual ≠ expected)
    "RA-TLS quote report_data does not match peer public key binding (tag \"ratls-cert\")"
  let pccsUrl ← Eff.okOr ((pccsUrl.map trim).filter fun url => url ≠ "") missingUrl
  let collateral ← (env.getCollateral pccsUrl attestation.quote).mapError
    fun _ => "failed to fetch quote collateral from PCCS"
  let now ← Eff.okOr now "system clock is before UNIX epoch"
  let report ← (env.verifyQuote attestation.quote collateral now).mapError
    fun e => "DCAP quote verification failed: " ++ e
  return ⟨report, attestation.rawEventLog⟩

/-- The record of the log that names the compose hash. -/
def TdxEventLog.namesComposeHash (ev : TdxEventLog) : Bool :=
  ev.imr == 3 && (ev.event == "compose-hash" || ev.event == "upgraded-app-id")

/-- `VerifiedAttestation::decode_compose_hash`; the texts for a log that is missing differ in a dash. -/
def VerifiedAttestation.decodeComposeHash (missing : String) (verified : VerifiedAttestation) : Except String String := do
  Eff.rejectIf (verified.rawEventLog = []) missing
  let events ← Eff.okOr (env.eventLogFromSlice verified.rawEventLog) "failed to parse RA-TLS event log JSON"
  let ev ← Eff.okOr (events.find? TdxEventLog.namesComposeHash) "compose-hash event not found in event log"
  return hexEncode ev.eventPayload

/-- The bytes that are hashed for a report. -/
def Report.digestInput : Report → Bytes
  | .td10 r => asBytes "tdx" ++ asBytes (hexEncode r.mrTd.val)
  | .td15 r => asBytes "tdx" ++ asBytes (hexEncode r.base.mrTd.val)
  | .sgxEnclave r => asBytes "sgx" ++ asBytes (hexEncode r.mrEnclave.val) ++ asBytes (hexEncode r.mrSigner.val) ++
      asBytes (toString r.isvSvn.toNat)

/-- The bytes that are hashed for a verified attestation. -/
def VerifiedAttestation.digestInput (verified : VerifiedAttestation) : Bytes :=
  verified.report.digestInput ++
    match (verified.decodeComposeHash env "event log missing - cannot decode compose hash").toOption.filter
      fun h => h ≠ "" with
    | some composeHash => asBytes "compose" ++ asBytes (toAsciiLowercase composeHash)
    | none => []

/-- `attestation_digest_from_cert`. -/
def attestationDigestFromCert (cert : Bytes) (pccsUrl : Option String) (now : Option UInt64) :
    Except String (Option (Block 32)) := do
  match ← (Attestation.fromDer env cert).mapError fun _ => "failed to parse RA-TLS attestation extensions" with
  | none => return none
  | some attestation =>
      let vendor ← attestation.detectVendorFromQuote.mapError
        fun _ => "failed to classify RA-TLS quote vendor while deriving digest"
      Eff.rejectIf (vendor = .unsupportedQuoteFormat)
        "unsupported RA-TLS quote format; this build verifies Intel SGX and TDX DCAP evidence"
      let parsed ← (env.certificateFromDer cert).mapError
        fun e => "failed to parse X.509 certificate for attestation digest: " ++ e
      let verified ← (attestation.verifyWithRaPubkey env "SECRET_BROKER_PCCS_URL must be supplied for RA-TLS verification"
        parsed.subjectPublicKey pccsUrl now).mapError
          fun _ => "RA-TLS attestation verification failed while deriving digest"
      return some (env.sha256 (verified.digestInput env))

/-- The payload of the first record that names a compose hash. -/
def composePayload (rawEventLog : Bytes) : Option Bytes :=
  if rawEventLog = [] then none
  else ((env.eventLogFromSlice rawEventLog).bind fun events => events.find? TdxEventLog.namesComposeHash).map
    TdxEventLog.eventPayload

variable {env}

theorem decodeComposeHash_eq_ok {missing : String} {verified : VerifiedAttestation} {composeHash : String} :
    verified.decodeComposeHash env missing = .ok composeHash ↔
      ∃ payload, composePayload env verified.rawEventLog = some payload ∧ composeHash = hexEncode payload := by
  unfold VerifiedAttestation.decodeComposeHash composePayload
  simp only [Eff.except_bind_eq_ok, Eff.rejectIf_eq_ok, Eff.okOr_eq_ok, pure, Except.pure, Except.ok.injEq]
  by_cases hempty : verified.rawEventLog = []
  · simp [hempty]
  · simp only [hempty, not_false_eq_true, true_and, if_false, Option.map_eq_some_iff, Option.bind_eq_some_iff]
    constructor
    · rintro ⟨_, events, hevents, ev, hfind, rfl⟩
      exact ⟨ev.eventPayload, ⟨ev, ⟨events, hevents, hfind⟩, rfl⟩, rfl⟩
    · rintro ⟨_, ⟨ev, ⟨events, hevents, hfind⟩, rfl⟩, rfl⟩
      exact ⟨(), events, hevents, ev, hfind, rfl⟩

end SecretBroker.RaTls

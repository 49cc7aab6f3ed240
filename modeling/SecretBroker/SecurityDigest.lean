import SecretBroker.SecurityAttestation

/-! What the broker's digest of an attestation stands for. The hashed text has the kind of enclave, its measurements in
hexadecimal, for SGX a version number in decimal, and at the end the compose hash, if there is one. It has no separators,
but each part ends where its characters or its length say so. -/

open Wire

namespace SecretBroker.RaTls

variable {Collateral : Type} {env : RaTlsEnv Collateral}

/-- What a report measures. -/
inductive Measurements where
  | tdx (mrTd : Block 48)
  | sgx (mrEnclave mrSigner : Block 32) (isvSvn : UInt16)
  deriving DecidableEq

def Report.measurements : Report → Measurements
  | .td10 r => .tdx r.mrTd
  | .td15 r => .tdx r.base.mrTd
  | .sgxEnclave r => .sgx r.mrEnclave r.mrSigner r.isvSvn

/-- The hashed text of a measured identity. -/
def Measurements.text : Measurements → String
  | .tdx mrTd => "tdx" ++ hexEncode mrTd.val
  | .sgx mrEnclave mrSigner isvSvn => "sgx" ++ hexEncode mrEnclave.val ++ hexEncode mrSigner.val ++ toString isvSvn.toNat

theorem Report.digestText_eq (report : Report) : report.digestText = report.measurements.text := by
  cases report <;> rfl

/-- Measurements of one size are taken off the front of a text. -/
theorem hexEncode_append_inj {n : ℕ} {a a' : Block n} {s s' : String} (h : hexEncode a.val ++ s = hexEncode a'.val ++ s') :
    a = a' ∧ s = s' := by
  have hlist := congrArg String.toList h
  rw [String.toList_append, String.toList_append] at hlist
  have hlength : (hexEncode a.val).toList.length = (hexEncode a'.val).toList.length := by
    rw [String.length_toList, String.length_toList, (isHex_iff.mpr ⟨a, rfl⟩).1, (isHex_iff.mpr ⟨a', rfl⟩).1]
  obtain ⟨hfirst, hrest⟩ := List.append_inj hlist hlength
  exact ⟨Subtype.ext (hexEncode_injective (String.ext hfirst)), String.ext hrest⟩

/-- A version number ends where the digits do. -/
theorem version_append_inj {n n' : ℕ} {payload payload' : Bytes}
    (h : toString n ++ composeText payload = toString n' ++ composeText payload') :
    n = n' ∧ composeText payload = composeText payload' := by
  have hdigits : ∀ m : ℕ, ∀ c ∈ (toString m).toList, c.isDigit = true := by
    intro m c hc
    have hmem : c ∈ Nat.toDigits 10 m := by simpa using hc
    exact Nat.isDigit_of_mem_toDigits (by decide) (by decide) hmem
  have hletter : ∀ p : Bytes, ∀ c ∈ (composeText p).toList.head?, c.isDigit = false := by
    intro p c hc
    unfold composeText at hc
    split_ifs at hc with hempty
    · cases hc
    · rw [String.toList_append] at hc
      cases hc
      rfl
  have hlist := congrArg String.toList h
  rw [String.toList_append, String.toList_append] at hlist
  obtain ⟨hnumber, hrest⟩ :=
    append_inj_of_class (hdigits n) (hdigits n') (hletter payload) (hletter payload') hlist
  exact ⟨Nat.repr_inj.mp (String.ext hnumber), String.ext hrest⟩

/-- The hashed text determines the measured identity and the compose hash. -/
theorem measurementsText_inj {m m' : Measurements} {payload payload' : Bytes} :
    m.text ++ composeText payload = m'.text ++ composeText payload' ↔ m = m' ∧ payload = payload' := by
  constructor
  · intro h
    cases m with
    | tdx mrTd =>
        cases m' with
        | tdx mrTd' =>
            rw [Measurements.text, Measurements.text, String.append_assoc, String.append_assoc,
              String.append_right_inj] at h
            obtain ⟨rfl, hrest⟩ := hexEncode_append_inj h
            exact ⟨rfl, composeText_injective hrest⟩
        | sgx mrEnclave mrSigner isvSvn =>
            exact absurd (congrArg (fun s => s.toList.head?) h) (by simp [Measurements.text])
    | sgx mrEnclave mrSigner isvSvn =>
        cases m' with
        | tdx mrTd' => exact absurd (congrArg (fun s => s.toList.head?) h) (by simp [Measurements.text])
        | sgx mrEnclave' mrSigner' isvSvn' =>
            simp only [Measurements.text, String.append_assoc, String.append_right_inj] at h
            obtain ⟨henclave, hafter⟩ := hexEncode_append_inj h
            obtain ⟨hsigner, hversion⟩ := hexEncode_append_inj hafter
            obtain ⟨hnumber, hrest⟩ := version_append_inj hversion
            rw [henclave, hsigner, UInt16.toNat_inj.mp hnumber]
            exact ⟨rfl, composeText_injective hrest⟩
  · rintro ⟨rfl, rfl⟩
    rfl

/-- The compose hash that the broker reads from the log, if there is one. -/
def composeHash (env : RaTlsEnv Collateral) (v : VerifiedAttestation) : Option String :=
  (v.decodeComposeHash env "event log missing - cannot decode compose hash").toOption

/-- The same measured identity: equal measurements, and compose hashes that are both absent or empty, or equal. -/
def SameIdentity (env : RaTlsEnv Collateral) (v v' : VerifiedAttestation) : Prop :=
  v.report.measurements = v'.report.measurements ∧
    ((∀ h ∈ composeHash env v, h = "") ∧ (∀ h ∈ composeHash env v', h = "") ∨ composeHash env v = composeHash env v')

theorem composeHash_eq (v : VerifiedAttestation) :
    composeHash env v = (composePayload env v.rawEventLog).map hexEncode := by
  apply Option.ext
  intro h
  rw [composeHash, Eff.except_toOption_eq_some, decodeComposeHash_eq_ok, Option.map_eq_some_iff]
  exact exists_congr fun payload => and_congr_right' eq_comm

/-- Compose hashes agree exactly if the payloads of the logs do, an absent one being empty. -/
theorem composeHash_agrees_iff (v v' : VerifiedAttestation) :
    ((∀ h ∈ composeHash env v, h = "") ∧ (∀ h ∈ composeHash env v', h = "") ∨ composeHash env v = composeHash env v') ↔
      (composePayload env v.rawEventLog).getD [] = (composePayload env v'.rawEventLog).getD [] := by
  rw [composeHash_eq, composeHash_eq]
  cases composePayload env v.rawEventLog with
  | none =>
      cases composePayload env v'.rawEventLog with
      | none => simp
      | some p' => simp [hexEncode_eq_empty, eq_comm (a := ([] : Bytes))]
  | some p =>
      cases composePayload env v'.rawEventLog with
      | none => simp [hexEncode_eq_empty]
      | some p' =>
          simp only [Option.map_some, Option.mem_some_iff, forall_eq', hexEncode_eq_empty, Option.some_inj,
            hexEncode_injective.eq_iff, Option.getD_some]
          constructor
          · rintro (⟨rfl, rfl⟩ | h)
            · rfl
            · exact h
          · exact Or.inr

/-- `v` is what the digest of a certificate is made of. -/
def Digests (env : RaTlsEnv Collateral) (cert : Bytes) (pccsUrl : Option String) (now : Option UInt64)
    (v : VerifiedAttestation) : Prop :=
  ∃ attestation parsed, Attestation.fromDer env cert = .ok (some attestation) ∧ env.certificateFromDer cert = .ok parsed ∧
    attestation.verifyWithRaPubkey env "SECRET_BROKER_PCCS_URL must be supplied for RA-TLS verification"
      parsed.subjectPublicKey pccsUrl now = .ok v

theorem attestationDigest_eq_ok {cert : Bytes} {pccsUrl : Option String} {now : Option UInt64} {digest : Block 32}
    (h : attestationDigestFromCert env cert pccsUrl now = .ok (some digest)) :
    ∃ v, Digests env cert pccsUrl now v ∧ digest = env.sha256 (v.digestInput env) := by
  simp only [attestationDigestFromCert, Eff.except_bind_eq_ok, Eff.except_mapError_eq_ok] at h
  obtain ⟨_ | attestation, hder, h⟩ := h
  · cases h
  · simp only [Eff.except_bind_eq_ok, Eff.except_mapError_eq_ok] at h
    obtain ⟨_, -, _, -, parsed, hparsed, v, hv, h⟩ := h
    cases h
    exact ⟨v, ⟨attestation, parsed, hder, hparsed, hv⟩, rfl⟩

/-- **The digest separates measured identities**: the hashed bytes are equal exactly for the same identity, so two
certificates with one digest have the same identity, or SHA-256 has a collision on what is hashed for them. -/
theorem digest_separates_identities (env : RaTlsEnv Collateral) :
    (∀ v v' : VerifiedAttestation, v.digestInput env = v'.digestInput env ↔ SameIdentity env v v') ∧
    ∀ cert cert' pccsUrl pccsUrl' now now' digest,
      attestationDigestFromCert env cert pccsUrl now = .ok (some digest) →
        attestationDigestFromCert env cert' pccsUrl' now' = .ok (some digest) →
          ∃ v v', Digests env cert pccsUrl now v ∧ Digests env cert' pccsUrl' now' v' ∧
            (SameIdentity env v v' ∨
              v.digestInput env ≠ v'.digestInput env ∧
              env.sha256 (v.digestInput env) = env.sha256 (v'.digestInput env)) := by
  have hinput : ∀ v v' : VerifiedAttestation, v.digestInput env = v'.digestInput env ↔ SameIdentity env v v' := by
    intro v v'
    rw [digestInput_eq, digestInput_eq, asBytes_injective.eq_iff, Report.digestText_eq, Report.digestText_eq,
      measurementsText_inj, SameIdentity, composeHash_agrees_iff]
  refine ⟨hinput, ?_⟩
  intro cert cert' pccsUrl pccsUrl' now now' digest h h'
  obtain ⟨v, hv, hdigest⟩ := attestationDigest_eq_ok h
  obtain ⟨v', hv', hdigest'⟩ := attestationDigest_eq_ok h'
  refine ⟨v, v', hv, hv', ?_⟩
  by_cases hsame : v.digestInput env = v'.digestInput env
  · exact Or.inl ((hinput v v').mp hsame)
  · exact Or.inr ⟨hsame, hdigest.symm.trans hdigest'⟩

end SecretBroker.RaTls

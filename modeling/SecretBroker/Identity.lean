import SecretBroker.Broker

/-! Handles and identities: reading a handle, the keys of a record's third-party caveats, the principal
that a new secret is bound to, and the checks of a caller against the identity a record was issued
under. -/

open Wire

namespace SecretBroker

variable (env : Env)

def handleV2Head : String := "broker:v2:"

/-- The text of a handle. -/
def handleV2 (mac : Macaroon String (Block 32)) : String := handleV2Head ++ mac.serialize

/-- `parse_handle_v2`. -/
def parseHandleV2 (raw : String) : Except ServiceError (Macaroon String (Block 32)) := do
  let b64 ← Eff.okOr (stripHead handleV2Head (trim raw)) .invalidHandle
  (Macaroon.deserialize b64).mapError fun _ => .invalidHandle

theorem noWhiteSpace_encode (b : Bytes) : ∀ c ∈ (Base64.standard.encode b).toList, isWhiteSpace c = false := by
  intro c hc
  rw [Base64.encode, String.toList_ofList] at hc
  exact Base64.encodeChars_all (P := fun c => isWhiteSpace c = false) (by decide) (by decide) _ c hc

theorem trim_handleV2 (mac : Macaroon String (Block 32)) : trim (handleV2 mac) = handleV2 mac := by
  apply trim_of_trimmed
  apply trimmed_of_all
  intro c hc
  rw [handleV2, String.toList_append, List.mem_append] at hc
  rcases hc with hc | hc
  · have hhead : ∀ c ∈ handleV2Head.toList, isWhiteSpace c = false := by
      simp [handleV2Head, isWhiteSpace]
    exact hhead c hc
  · exact noWhiteSpace_encode _ c hc

/-- A handle whose lengths fit is read back. -/
theorem parseHandleV2_handleV2 {mac : Macaroon String (Block 32)} (hmac : mac.Fits) :
    parseHandleV2 (handleV2 mac) = .ok mac := by
  rw [parseHandleV2, trim_handleV2, handleV2, stripHead_append, Eff.okOr_some, Eff.ok_bind,
    Macaroon.deserialize_serialize hmac]
  rfl

/-- A text is read as a macaroon exactly if it is the handle of that macaroon with white space around it. -/
theorem parseHandleV2_eq_ok {raw : String} {mac : Macaroon String (Block 32)} :
    parseHandleV2 raw = .ok mac ↔ trim raw = handleV2 mac ∧ mac.Fits := by
  simp only [parseHandleV2, Eff.except_bind_eq_ok, Eff.okOr_eq_ok, stripHead_eq_some, Eff.except_mapError_eq_ok,
    Macaroon.deserialize_eq_ok]
  constructor
  · rintro ⟨b64, htrim, rfl, hfits⟩
    exact ⟨htrim, hfits⟩
  · rintro ⟨htrim, hfits⟩
    exact ⟨_, htrim, rfl, hfits⟩

theorem parseHandleV2_trim (raw : String) : parseHandleV2 (trim raw) = parseHandleV2 raw := by
  rw [parseHandleV2, parseHandleV2, trim_trim]

theorem serialize_eq_of_handleV2_eq {mac mac' : Macaroon String (Block 32)} (h : handleV2 mac = handleV2 mac') :
    mac.serialize = mac'.serialize := by
  have hstrip := congrArg (stripHead handleV2Head) h
  rwa [handleV2, handleV2, stripHead_append, stripHead_append, Option.some.injEq] at hstrip

/-- Whatever a handle is read as, it has the identifier that it was made with. -/
theorem identifier_of_parse {mac mac' : Macaroon String (Block 32)} (h : parseHandleV2 (handleV2 mac) = .ok mac') :
    mac'.identifier = mac.identifier := by
  obtain ⟨htrim, -⟩ := parseHandleV2_eq_ok.mp h
  rw [trim_handleV2] at htrim
  have hbytes := Base64.encode_injective Base64.standard_lawful (serialize_eq_of_handleV2_eq htrim)
  exact (Macaroon.identifier_eq_of_toBytes_eq hbytes).symm

/-- `BrokerState::macaroon_root_key`. -/
def Env.rootKey (handleId : Uuid) : Block 32 := macaroonRootKey env.mac env.broker.handleHmacKey handleId

/-- `parse_handle_identifier`. -/
def parseHandleIdentifier (raw : String) : Except ServiceError Uuid := do
  let macaroon ← parseHandleV2 raw
  (macaroon.verifySignature env.mac (env.rootKey macaroon.identifier)).mapError fun _ => .invalidHandle
  return macaroon.identifier

theorem parseHandleIdentifier_eq_ok {env : Env} {raw : String} {id : Uuid} :
    parseHandleIdentifier env raw = .ok id ↔ ∃ mac, parseHandleV2 raw = .ok mac ∧
      mac.verifySignature env.mac (env.rootKey mac.identifier) = .ok () ∧ mac.identifier = id := by
  simp only [parseHandleIdentifier, Eff.except_bind_eq_ok, Eff.except_mapError_eq_ok, pure, Except.pure, Except.ok.injEq,
    Unique.exists_iff, PUnit.default_eq_unit]

/-- One entry of `discharge_keys_for_record`. -/
def dischargeKey (entry : ThirdPartyCaveatKey) : Except ServiceError (DischargeKeyRef Bytes) := do
  let decoded ← Eff.okOr (Base64.standard.decode entry.secretB64)
    (.storage ("invalid stored third-party caveat secret: " ++ env.base64Error entry.secretB64))
  let key ← Eff.okOr (sized 32 decoded) (.storage "stored third-party caveat secret must be 32 bytes")
  let condition ← Eff.okOr entry.condition (.storage "stored third-party caveat is missing its predicate")
  return { location := entry.location, keyId := entry.keyId, condition, key := key.val }

def dischargeKeysForRecord (record : StoredEnvelopeRecord) : Except ServiceError (List (DischargeKeyRef Bytes)) :=
  (record.thirdPartyCaveatKeys.getD []).mapM (dischargeKey env)

/-- `v2_unwrap_principal`: whom a new secret is bound to. -/
def v2UnwrapPrincipal (context : BrokerClientContext) (lifecycle : SecretLifecycle)
    (requestedPrincipal : Option String) : Except ServiceError (Option String) := do
  let requested := requestedPrincipal.bind normalizeOptionalString
  Eff.rejectIf (context.authenticatedTransport = false) .unauthenticatedTransport
  let current ← Eff.okOr (normalizedContextPrincipal context) .authenticatedPrincipalRequired
  match lifecycle with
  | .singleUseUnwrap => do
      Eff.rejectIf (requested.any fun r => r ≠ current) .principalMismatch
      return some current
  | .renewableLease | .serviceBootstrap => do
      Eff.rejectIf (context.peerCertSha256 = none)
        (.missingLineage "peer certificate lineage on the authenticated broker transport")
      return some (requested.getD current)

/-- The certificate and attestation lineage, which both validations end with. The certificate is
compared only if the caller is the issuer. -/
def validateIssuedLineage (record : StoredEnvelopeRecord) (context : BrokerClientContext)
    (actualPrincipal issuer : String) (actualPeerCert : Bytes) : Except ServiceError Unit := do
  let expectedPeerCert ← Eff.okOr (record.issuedByPeerCertSha256.bind normalizeOptionalString)
    (.missingLineage "issuing peer certificate lineage")
  Eff.rejectIf (actualPrincipal = issuer ∧ Base64.standard.encode actualPeerCert ≠ expectedPeerCert) .peerCertMismatch
  match record.issuedByAttestationDigest.bind normalizeOptionalString with
  | none => .ok ()
  | some expectedAttestation => do
      let actualAttestation ← Eff.okOr context.attestationDigest
        (.missingLineage "attestation digest lineage on the authenticated broker transport")
      Eff.rejectIf (Base64.standard.encode actualAttestation ≠ expectedAttestation) .attestationMismatch

/-- `validate_v2_record_identity_requirements_inner`. -/
def validateV2RecordIdentityRequirementsInner (record : StoredEnvelopeRecord) (context : BrokerClientContext)
    (allowIssuingPrincipal : Bool) : Except ServiceError Unit := do
  let expectedPrincipal ← Eff.okOr (record.unwrapPrincipalId.bind normalizeOptionalString)
    (.missingLineage "principal binding")
  Eff.rejectIf (context.authenticatedTransport = false) .unauthenticatedTransport
  let actualPrincipal ← Eff.okOr (normalizedContextPrincipal context) .authenticatedPrincipalRequired
  if record.lifecycle = .singleUseUnwrap then
    Eff.rejectIf (actualPrincipal ≠ expectedPrincipal) .principalMismatch
  else
    Eff.rejectIf (record.issuedWithAuthenticatedTransport = false) (.missingLineage "authenticated issuance transport")
    let issuer ← Eff.okOr (record.issuedByPrincipalId.bind normalizeOptionalString)
      (.missingLineage "issuing principal lineage")
    Eff.rejectIf (actualPrincipal ≠ expectedPrincipal ∧ ¬ (allowIssuingPrincipal ∧ actualPrincipal = issuer))
      .principalMismatch
    let actualPeerCert ← Eff.okOr context.peerCertSha256
      (.missingLineage "peer certificate lineage on the authenticated broker transport")
    validateIssuedLineage record context actualPrincipal issuer actualPeerCert

def validateV2RecordIdentityRequirements (record : StoredEnvelopeRecord) (context : BrokerClientContext) :
    Except ServiceError Unit :=
  validateV2RecordIdentityRequirementsInner record context false

def validateV2RecordManagementRequirements (record : StoredEnvelopeRecord) (context : BrokerClientContext) :
    Except ServiceError Unit :=
  validateV2RecordIdentityRequirementsInner record context true

/-- `validate_threshold_custody_record_requirements`. -/
def validateThresholdCustodyRecordRequirements (record : StoredEnvelopeRecord) (context : BrokerClientContext) :
    Except ServiceError Unit := do
  Eff.rejectIf (context.authenticatedTransport = false) .unauthenticatedTransport
  let actualPrincipal ← Eff.okOr (normalizedContextPrincipal context) .authenticatedPrincipalRequired
  let actualPeerCert ← Eff.okOr context.peerCertSha256
    (.missingLineage "peer certificate lineage on the authenticated broker transport")
  Eff.rejectIf (record.issuedWithAuthenticatedTransport = false) (.missingLineage "authenticated issuance transport")
  let issuer ← Eff.okOr (record.issuedByPrincipalId.bind normalizeOptionalString)
    (.missingLineage "issuing principal lineage")
  validateIssuedLineage record context actualPrincipal issuer actualPeerCert

def normalizeSpiffePrincipal (value : String) : Option String :=
  if (stripHead "spiffe://" (trim value)).isSome then some (trim value) else none

/-- `validate_discharge_mint_requirements`. -/
def validateDischargeMintRequirements (context : BrokerClientContext) (location : String) :
    Except ServiceError Unit := do
  Eff.rejectIf (context.authenticatedTransport = false) .unauthenticatedTransport
  let principal ← Eff.okOr (normalizedContextPrincipal context) .authenticatedPrincipalRequired
  Eff.rejectIf (context.peerCertSha256 = none)
    (.missingLineage "peer certificate lineage on the authenticated broker transport")
  Eff.rejectIf (env.broker.requireAttestedDischargeMint ∧ context.attestationDigest = none)
    (.missingLineage "attestation digest lineage on the authenticated broker transport")
  Eff.rejectIf ((normalizeSpiffePrincipal location).any fun p => principal ≠ p) .unauthorizedDischargePrincipal
  Eff.rejectIf (env.broker.allowedDischargePrincipalIds ≠ [] ∧ principal ∉ env.broker.allowedDischargePrincipalIds)
    .unauthorizedDischargePrincipal

end SecretBroker

import SecretBroker.IdentityBinding
import SecretBroker.Management
import SecretBroker.PlainBroker

/-! SPIFFE identities of workloads. The principal of a connection is read from the certificate with the trust domain in
lower case. The names that callers and operators give are only trimmed, or not even that, and compared as they are. -/

open Wire

namespace SecretBroker

/-- `normalize_spiffe_id`. -/
def normalizeSpiffeId (uri : String) : Option String := do
  let rest ← stripHead "spiffe://" uri
  let trustDomain := rest.toList.takeWhile (· ≠ '/')
  let path := rest.toList.dropWhile (· ≠ '/')
  -- no slash at all is the early return of `find`
  if path = [] then none
  else if trustDomain = [] then none
  else some ("spiffe://" ++ toAsciiLowercase (String.ofList trustDomain) ++ String.ofList path)

/-- The names in the subject alternative name of a certificate. -/
inductive GeneralName where
  | uri (uri : String)
  | other

/-- `principal_id_from_peer_cert`, from the names of the certificate: the first URI that is a SPIFFE id. -/
def principalIdFromPeerCert : List GeneralName → Option String
  | [] => none
  | .uri uri :: names =>
      match normalizeSpiffeId uri with
      | some spiffe => some spiffe
      | none => principalIdFromPeerCert names
  | .other :: names => principalIdFromPeerCert names

/-- `BrokerClientContext::from_tls_exporter`, with the digests of the peer's certificate and attestation. -/
def BrokerClientContext.fromTlsExporter (exporter : Bytes) (principalId : Option String) (peerCertSha256 : Block 32)
    (attestationDigest : Option (Block 32)) : BrokerClientContext where
  exporter := exporter
  principalId := principalId.bind normalizeOptionalString
  authenticatedTransport := true
  peerCertSha256 := some peerCertSha256.val
  attestationDigest := attestationDigest.map Subtype.val
  peerCert_ne_nil := by
    rintro d hd rfl
    have hlength := peerCertSha256.property
    rw [Option.some_inj.mp hd] at hlength
    cases hlength
  attestation_ne_nil := by
    rintro d hd rfl
    obtain ⟨digest, -, hnil⟩ := Option.map_eq_some_iff.mp hd
    have hlength := digest.property
    rw [hnil] at hlength
    cases hlength

/-- `env_csv`. -/
def envCsv (value : String) : List String :=
      (value.toList.splitOn ',').filterMap fun entry => normalizeOptionalString (String.ofList entry)

/-- The allowlist that `configure_discharge_policy` sets. -/
def configureDischargePolicy (allowedDischargePrincipalIds : List String) : List String :=
  allowedDischargePrincipalIds.filterMap normalizeOptionalString

/-- The broker with an allowlist for discharge minting from the environment. -/
def Env.withDischargeAllowlist (env : Env) (allowlist : String) : Env :=
  { env with broker := { env.broker with allowedDischargePrincipalIds := configureDischargePolicy (envCsv allowlist) } }

/-- An id by its trust domain and what follows the slash after it. -/
def spiffeUri (trustDomain path : List Char) : String :=
  "spiffe://" ++ String.ofList trustDomain ++ String.ofList ('/' :: path)

theorem toList_spiffeUri (trustDomain path : List Char) :
    (spiffeUri trustDomain path).toList = "spiffe://".toList ++ (trustDomain ++ '/' :: path) := by
  simp only [spiffeUri, String.toList_append, String.toList_ofList, List.append_assoc]

/-- A trust domain is determined by an id and its length. -/
theorem spiffeUri_inj {trustDomain trustDomain' path path' : List Char}
    (hlength : trustDomain.length = trustDomain'.length) (h : spiffeUri trustDomain path = spiffeUri trustDomain' path') :
    trustDomain = trustDomain' := by
  have hlist := congrArg String.toList h
  rw [toList_spiffeUri, toList_spiffeUri, List.append_cancel_left_eq] at hlist
  exact (List.append_inj hlist hlength).1

theorem normalizeSpiffeId_eq_some {u p : String} : normalizeSpiffeId u = some p ↔
    ∃ trustDomain path, trustDomain ≠ [] ∧ '/' ∉ trustDomain ∧ u = spiffeUri trustDomain path ∧
      p = spiffeUri (trustDomain.map asciiLower) path := by
  simp only [normalizeSpiffeId, Option.bind_eq_bind, Option.bind_eq_some_iff, stripHead_eq_some]
  constructor
  · rintro ⟨rest, rfl, h⟩
    split_ifs at h with hpath hdomain
    obtain ⟨c, path, hc⟩ := List.exists_cons_of_ne_nil hpath
    have hslash : c = '/' := by
      have hhead := List.head?_dropWhile_not (fun c : Char => decide (c ≠ '/')) rest.toList
      rw [hc] at hhead
      simpa using hhead
    subst hslash
    refine ⟨rest.toList.takeWhile (· ≠ '/'), path, hdomain, fun hmem => ?_, ?_, ?_⟩
    · simpa using List.mem_takeWhile_imp hmem
    · rw [spiffeUri, String.append_assoc, ← String.ofList_append, ← hc, List.takeWhile_append_dropWhile,
        String.ofList_toList]
    · rw [← Option.some_inj.mp h, spiffeUri, hc, toAsciiLowercase, String.toList_ofList]
  · rintro ⟨trustDomain, path, hne, hslash, rfl, rfl⟩
    have hdomain : ∀ c ∈ trustDomain, decide (c ≠ '/') = true := by
      intro c hc
      rw [decide_eq_true_eq]
      rintro rfl
      exact hslash hc
    have hrest : (String.ofList trustDomain ++ String.ofList ('/' :: path)).toList = trustDomain ++ '/' :: path := by
      rw [String.toList_append, String.toList_ofList, String.toList_ofList]
    refine ⟨String.ofList trustDomain ++ String.ofList ('/' :: path), by rw [spiffeUri, String.append_assoc], ?_⟩
    rw [hrest, List.takeWhile_append_of_pos hdomain, List.dropWhile_append_of_pos hdomain]
    simp [hne, spiffeUri, toAsciiLowercase]

/-- Only letters come from letters. -/
theorem eq_of_asciiLower_eq {c d : Char} (h : asciiLower c = d) (hd : d.toNat < 97) : c = d := by
  by_cases hupper : 65 ≤ c.toNat ∧ c.toNat ≤ 90
  · have hnat := toNat_asciiLower c
    rw [if_pos hupper, h] at hnat
    omega
  · rwa [asciiLower_of_not hupper] at h

/-- Normalizing a second time changes nothing. -/
theorem normalizeSpiffeId_idem {u p : String} (h : normalizeSpiffeId u = some p) : normalizeSpiffeId p = some p := by
  obtain ⟨trustDomain, path, hne, hslash, -, rfl⟩ := normalizeSpiffeId_eq_some.mp h
  refine normalizeSpiffeId_eq_some.mpr ⟨trustDomain.map asciiLower, path, by simpa using hne, ?_, rfl, ?_⟩
  · intro hmem
    obtain ⟨c, hc, hlower⟩ := List.mem_map.mp hmem
    rw [eq_of_asciiLower_eq hlower (by decide)] at hc
    exact hslash hc
  · rw [List.map_map]
    congr 1
    exact List.map_congr_left fun c _ => (asciiLower_asciiLower c).symm

/-- What stands between the scheme and the next slash. -/
def trustDomain (u : String) : List Char := (u.toList.drop "spiffe://".length).takeWhile (· ≠ '/')

theorem trustDomain_spiffeUri {domain : List Char} (hslash : '/' ∉ domain) (path : List Char) :
    trustDomain (spiffeUri domain path) = domain := by
  have hdomain : ∀ c ∈ domain, decide (c ≠ '/') = true := by
    intro c hc
    rw [decide_eq_true_eq]
    rintro rfl
    exact hslash hc
  have hdrop : ("spiffe://".toList ++ (domain ++ '/' :: path)).drop "spiffe://".length = domain ++ '/' :: path :=
    List.drop_left' rfl
  rw [trustDomain, toList_spiffeUri, hdrop, List.takeWhile_append_of_pos hdomain, List.takeWhile_cons_of_neg (by simp),
    List.append_nil]

theorem asciiLower_eq_self_iff {c : Char} : asciiLower c = c ↔ c.isUpper = false := by
  have hupper : c.isUpper = true ↔ 65 ≤ c.toNat ∧ c.toNat ≤ 90 := by
    simp [Char.isUpper, UInt32.le_iff_toNat_le]
  rw [← Bool.not_eq_true, hupper]
  refine ⟨fun heq hcapital => ?_, asciiLower_of_not⟩
  have hnat := toNat_asciiLower c
  rw [heq, if_pos hcapital] at hnat
  omega

/-- Normalizing changes the capital letters of the trust domain and nothing else. -/
theorem normalizeSpiffeId_eq_self_iff {u p : String} (h : normalizeSpiffeId u = some p) :
    p = u ↔ ∀ c ∈ trustDomain u, c.isUpper = false := by
  obtain ⟨domain, path, -, hslash, rfl, rfl⟩ := normalizeSpiffeId_eq_some.mp h
  simp only [trustDomain_spiffeUri hslash, ← asciiLower_eq_self_iff]
  constructor
  · intro heq
    have hmap : domain.map asciiLower = domain.map id := by
      rw [List.map_id]
      exact spiffeUri_inj (List.length_map _) heq
    exact List.map_inj_left.mp hmap
  · intro hlower
    rw [List.map_congr_left hlower, List.map_id']

/-- An id starts with a letter, so that only the end of its path can be trimmed. -/
theorem trim_spiffeUri (trustDomain path : List Char) :
    trim (spiffeUri trustDomain path) = spiffeUri trustDomain (path.rdropWhile isWhiteSpace) := by
  have hfront : (spiffeUri trustDomain path).toList.dropWhile isWhiteSpace = (spiffeUri trustDomain path).toList := by
    rw [toList_spiffeUri]
    rfl
  rw [trim, hfront, toList_spiffeUri, ← List.append_assoc, rdropWhile_append_cons (by decide), List.append_assoc,
    ← toList_spiffeUri, String.ofList_toList]

theorem normalizeOptionalString_spiffeUri (trustDomain path : List Char) :
    normalizeOptionalString (spiffeUri trustDomain path) = some (trim (spiffeUri trustDomain path)) := by
  rw [normalizeOptionalString, if_neg]
  rw [trim_spiffeUri]
  intro hempty
  have hlist := congrArg String.toList hempty
  rw [toList_spiffeUri] at hlist
  cases hlist

/-- A name given in the spelling of the certificate is the principal, up to trimming, exactly if the trust domain has no
capital letter. -/
theorem trim_eq_trim_iff {u p : String} (h : normalizeSpiffeId u = some p) : trim p = trim u ↔ p = u := by
  obtain ⟨trustDomain, path, -, -, rfl, rfl⟩ := normalizeSpiffeId_eq_some.mp h
  constructor
  · intro heq
    rw [trim_spiffeUri, trim_spiffeUri] at heq
    rw [spiffeUri_inj (List.length_map _) heq]
  · intro heq
    rw [heq]

theorem normalizeOptionalString_of_spiffe {u p : String} (h : normalizeSpiffeId u = some p) :
    normalizeOptionalString u = some (trim u) ∧ normalizeOptionalString p = some (trim p) := by
  obtain ⟨trustDomain, path, -, -, rfl, rfl⟩ := normalizeSpiffeId_eq_some.mp h
  exact ⟨normalizeOptionalString_spiffeUri _ _, normalizeOptionalString_spiffeUri _ _⟩

/-! ### The five comparisons -/

/-- The first SPIFFE id among the names of a certificate. -/
def FirstSpiffe (names : List GeneralName) (u : String) : Prop :=
  ∃ before after, names = before ++ .uri u :: after ∧ ∀ v, .uri v ∈ before → normalizeSpiffeId v = none

theorem principalIdFromPeerCert_of_first {names : List GeneralName} {u p : String} (hfirst : FirstSpiffe names u)
    (h : normalizeSpiffeId u = some p) : principalIdFromPeerCert names = some p := by
  obtain ⟨before, after, rfl, hbefore⟩ := hfirst
  induction before with
  | nil => rw [List.nil_append, principalIdFromPeerCert, h]
  | cons name before ih =>
      have hrest := ih fun v hv => hbefore v (List.mem_cons_of_mem _ hv)
      cases name with
      | uri v => rw [List.cons_append, principalIdFromPeerCert, hbefore v List.mem_cons_self, hrest]
      | other => rw [List.cons_append, principalIdFromPeerCert, hrest]

section

variable {u p : String} {context : BrokerClientContext}

/-- A context whose principal comes from a certificate for `u`. -/
structure PeerOf (u : String) (context : BrokerClientContext) : Prop where
  certificate : ∃ exporter names peerCertSha256 attestationDigest, FirstSpiffe names u ∧
    context = .fromTlsExporter exporter (principalIdFromPeerCert names) peerCertSha256 attestationDigest

theorem PeerOf.principal (h : PeerOf u context) (hid : normalizeSpiffeId u = some p) :
    normalizedContextPrincipal context = some (trim p) := by
  obtain ⟨exporter, names, cert, digest, hfirst, rfl⟩ := h.certificate
  have hp := (normalizeOptionalString_of_spiffe hid).2
  rw [normalizedContextPrincipal, BrokerClientContext.fromTlsExporter, principalIdFromPeerCert_of_first hfirst hid,
    Option.bind_some, hp, Option.bind_some, normalizeOptionalString_idem hp]

theorem PeerOf.authenticated (h : PeerOf u context) : context.authenticatedTransport = true := by
  obtain ⟨exporter, names, cert, digest, -, rfl⟩ := h.certificate
  rfl

theorem PeerOf.peerCert (h : PeerOf u context) : ∃ cert, context.peerCertSha256 = some cert := by
  obtain ⟨exporter, names, cert, digest, -, rfl⟩ := h.certificate
  exact ⟨cert.val, rfl⟩

/-- A record of a secret for other workloads that was issued for `u`. -/
structure IssuedFor (u : String) (record : StoredEnvelopeRecord) : Prop where
  lifecycle : record.lifecycle ≠ .singleUseUnwrap
  principal : ∃ issuer, v2UnwrapPrincipal issuer record.lifecycle (some u) = .ok record.unwrapPrincipalId
  transport : record.issuedWithAuthenticatedTransport = true
  issuer : ∃ issuer, record.issuedByPrincipalId.bind normalizeOptionalString = some issuer

theorem IssuedFor.unwrapPrincipalId {record : StoredEnvelopeRecord} (h : IssuedFor u record)
    (hid : normalizeSpiffeId u = some p) : record.unwrapPrincipalId = some (trim u) := by
  obtain ⟨issuer, hprincipal⟩ := h.principal
  have hu := (normalizeOptionalString_of_spiffe hid).1
  cases hlifecycle : record.lifecycle with
  | singleUseUnwrap => exact absurd hlifecycle h.lifecycle
  | renewableLease =>
      simp only [v2UnwrapPrincipal, hlifecycle, Eff.except_bind_eq_ok, Option.bind_some, hu] at hprincipal
      obtain ⟨-, -, current, -, -, -, hresult⟩ := hprincipal
      exact (Except.ok.inj hresult).symm
  | serviceBootstrap =>
      simp only [v2UnwrapPrincipal, hlifecycle, Eff.except_bind_eq_ok, Option.bind_some, hu] at hprincipal
      obtain ⟨-, -, current, -, -, -, hresult⟩ := hprincipal
      exact (Except.ok.inj hresult).symm

/-- The lineage checks have errors of their own. -/
theorem validateIssuedLineage_ne_mismatch (record : StoredEnvelopeRecord) (context : BrokerClientContext)
    (actual issuer : String) (cert : Bytes) :
    validateIssuedLineage record context actual issuer cert ≠ .error .principalMismatch := by
  unfold validateIssuedLineage Eff.rejectIf
  cases record.issuedByPeerCertSha256.bind normalizeOptionalString with
  | none => simp [Eff.okOr, bind, Except.bind]
  | some expected =>
      simp only [Eff.okOr_some, Eff.ok_bind]
      split_ifs
      · simp [bind, Except.bind]
      · cases record.issuedByAttestationDigest.bind normalizeOptionalString with
        | none => simp [bind, Except.bind]
        | some digest =>
            cases context.attestationDigest with
            | none => simp [Eff.okOr, bind, Except.bind]
            | some actual =>
                simp only [Eff.okOr_some, Eff.ok_bind]
                split_ifs <;> simp

/-- The holder of a certificate for `u` may unwrap what was issued for `u`, as far as the names go. -/
theorem unwrap_names_match_iff (hid : normalizeSpiffeId u = some p) (hpeer : PeerOf u context)
    {record : StoredEnvelopeRecord} (hrecord : IssuedFor u record) :
    validateV2RecordIdentityRequirements record context ≠ .error .principalMismatch ↔ p = u := by
  obtain ⟨issuer, hissuer⟩ := hrecord.issuer
  obtain ⟨cert, hcert⟩ := hpeer.peerCert
  have hu := (normalizeOptionalString_of_spiffe hid).1
  have hexpected : record.unwrapPrincipalId.bind normalizeOptionalString = some (trim u) := by
    rw [hrecord.unwrapPrincipalId hid, Option.bind_some, normalizeOptionalString_idem hu]
  have heval : validateV2RecordIdentityRequirements record context = (do
      Eff.rejectIf (trim p ≠ trim u) .principalMismatch
      validateIssuedLineage record context (trim p) issuer cert) := by
    rw [validateV2RecordIdentityRequirements, validateV2RecordIdentityRequirementsInner, hexpected, hpeer.principal hid,
      hpeer.authenticated]
    simp only [Eff.okOr_some, Eff.ok_bind]
    rw [if_neg hrecord.lifecycle, hrecord.transport, hissuer, hcert]
    simp [Eff.rejectIf]
  rw [heval, ← trim_eq_trim_iff hid]
  by_cases heq : trim p = trim u
  · rw [Eff.rejectIf, if_neg (not_not.mpr heq), Eff.ok_bind]
    exact iff_of_true (validateIssuedLineage_ne_mismatch record context (trim p) issuer cert) heq
  · rw [Eff.rejectIf, if_pos heq]
    exact iff_of_false (fun hne => hne rfl) heq

theorem trim_eq_iff (hid : normalizeSpiffeId u = some p) : trim p = u ↔ p = u ∧ trim u = u := by
  constructor
  · intro heq
    have htrim : trim p = trim u := by rw [← heq, trim_trim]
    exact ⟨(trim_eq_trim_iff hid).mp htrim, htrim.symm.trans heq⟩
  · rintro ⟨rfl, htrim⟩
    exact htrim

/-- It may claim a share that is held for the custodian `u`. -/
theorem custodian_matches_iff (hid : normalizeSpiffeId u = some p) (hpeer : PeerOf u context) {handle : String}
    (hhandle : handle ≠ "") (operation : String) :
    checkCustodian context handle u operation = .ok () ↔ p = u ∧ trim u = u := by
  have hne : u ≠ "" := by
    rintro rfl
    cases hid
  rw [checkCustodian, hpeer.principal hid, ← trim_eq_iff hid]
  simp [Eff.rejectIf, hhandle, hne]

/-- What admits it to minting discharges, next to its attestation: the location and the allowlist. -/
theorem dischargeMint_eq_ok (hid : normalizeSpiffeId u = some p) (hpeer : PeerOf u context) {env : Env}
    (hattested : env.broker.requireAttestedDischargeMint = true → context.attestationDigest ≠ none)
    (allowlist location : String) :
    validateDischargeMintRequirements (env.withDischargeAllowlist allowlist) context location = .ok () ↔
      (∀ q, normalizeSpiffePrincipal location = some q → trim p = q) ∧
        (configureDischargePolicy (envCsv allowlist) = [] ∨ trim p ∈ configureDischargePolicy (envCsv allowlist)) := by
  obtain ⟨cert, hcert⟩ := hpeer.peerCert
  have hdigest : ¬ (env.broker.requireAttestedDischargeMint = true ∧ context.attestationDigest = none) :=
    fun h => hattested h.1 h.2
  rw [validateDischargeMintRequirements, hpeer.principal hid, hpeer.authenticated, hcert]
  simp only [Eff.except_bind_eq_ok, Eff.rejectIf_eq_ok, Eff.okOr_some, Except.ok.injEq, exists_eq_left', exists_const]
  simp only [Env.withDischargeAllowlist, hdigest, not_false_eq_true, true_and, Bool.true_eq_false, reduceCtorEq,
    not_and_or, not_not]
  apply and_congr_left
  intro _
  cases normalizeSpiffePrincipal location with
  | none => simp
  | some q => simp

theorem normalizeSpiffePrincipal_of_spiffe (hid : normalizeSpiffeId u = some p) :
    normalizeSpiffePrincipal u = some (trim u) := by
  obtain ⟨trustDomain, path, -, -, rfl, -⟩ := normalizeSpiffeId_eq_some.mp hid
  have hstrip : (stripHead "spiffe://" (trim (spiffeUri trustDomain path))).isSome := by
    rw [trim_spiffeUri, spiffeUri, String.append_assoc, stripHead_append]
    rfl
  rw [normalizeSpiffePrincipal, if_pos hstrip]

/-- It may mint discharges for the location `u` of a caveat. -/
theorem location_matches_iff (hid : normalizeSpiffeId u = some p) (hpeer : PeerOf u context) {env : Env}
    (hattested : env.broker.requireAttestedDischargeMint = true → context.attestationDigest ≠ none) :
    validateDischargeMintRequirements (env.withDischargeAllowlist "") context u = .ok () ↔ p = u := by
  have hopen : configureDischargePolicy (envCsv "") = [] := by decide +kernel
  rw [dischargeMint_eq_ok hid hpeer hattested, normalizeSpiffePrincipal_of_spiffe hid, ← trim_eq_trim_iff hid]
  simp [hopen]

theorem mem_allowlist {value x : String} : x ∈ configureDischargePolicy (envCsv value) ↔
    ∃ entry ∈ value.toList.splitOn ',', normalizeOptionalString (String.ofList entry) = some x := by
  simp only [configureDischargePolicy, envCsv, List.mem_filterMap]
  constructor
  · rintro ⟨y, ⟨entry, hentry, hy⟩, hx⟩
    rw [normalizeOptionalString_idem hy] at hx
    exact ⟨entry, hentry, hy.trans hx⟩
  · intro ⟨entry, hentry, hx⟩
    exact ⟨x, ⟨entry, hentry, hx⟩, normalizeOptionalString_idem hx⟩

theorem comma_mem_iff (hid : normalizeSpiffeId u = some p) : ',' ∈ p.toList ↔ ',' ∈ u.toList := by
  obtain ⟨trustDomain, path, -, -, rfl, rfl⟩ := normalizeSpiffeId_eq_some.mp hid
  have hdomain : ',' ∈ trustDomain.map asciiLower ↔ ',' ∈ trustDomain := by
    rw [List.mem_map]
    constructor
    · intro ⟨c, hc, hlower⟩
      rwa [eq_of_asciiLower_eq hlower (by decide)] at hc
    · intro hmem
      exact ⟨',', hmem, by decide⟩
  rw [toList_spiffeUri, toList_spiffeUri, List.mem_append, List.mem_append, List.mem_append, List.mem_append, hdomain]

/-- It is in the allowlist that names `u` alone, where the list is split at commas. -/
theorem allowlist_matches_iff (hid : normalizeSpiffeId u = some p) :
    trim p ∈ configureDischargePolicy (envCsv u) ↔ p = u ∧ ',' ∉ u.toList := by
  rw [mem_allowlist]
  constructor
  · intro ⟨entry, hentry, hnormal⟩
    have htrim : trim (String.ofList entry) = trim p := (normalizeOptionalString_eq_some.mp hnormal).1
    have hcomma : ',' ∉ u.toList := by
      rw [← comma_mem_iff hid, ← mem_trim (by decide), ← htrim, mem_trim (by decide), String.toList_ofList]
      exact notMem_of_mem_splitOn hentry
    rw [List.splitOn_eq_singleton hcomma, List.mem_singleton] at hentry
    rw [hentry, String.ofList_toList] at htrim
    exact ⟨(trim_eq_trim_iff hid).mp htrim.symm, hcomma⟩
  · rintro ⟨rfl, hcomma⟩
    refine ⟨p.toList, ?_, ?_⟩
    · rw [List.splitOn_eq_singleton hcomma]
      exact List.mem_singleton_self _
    · rw [String.ofList_toList]
      exact (normalizeOptionalString_of_spiffe hid).2

/-- The allowlist that names `u` is not empty, so that it admits no one by default. -/
theorem allowlist_ne_nil (hid : normalizeSpiffeId u = some p) : configureDischargePolicy (envCsv u) ≠ [] := by
  obtain ⟨trustDomain, path, -, -, rfl, -⟩ := normalizeSpiffeId_eq_some.mp hid
  obtain ⟨first, rest, hsplit⟩ := List.exists_cons_of_ne_nil
    (List.splitOn_ne_nil ',' ("piffe://".toList ++ (trustDomain ++ '/' :: path)))
  have hentry : 's' :: first ∈ (spiffeUri trustDomain path).toList.splitOn ',' := by
    have hcons : (spiffeUri trustDomain path).toList = 's' :: ("piffe://".toList ++ (trustDomain ++ '/' :: path)) :=
      toList_spiffeUri trustDomain path
    rw [hcons, List.splitOn, List.splitOnP_cons_eq_if_modifyHead, if_neg (by decide), ← List.splitOn, hsplit]
    exact List.mem_cons_self
  have hnormal : normalizeOptionalString (String.ofList ('s' :: first)) = some (trim (String.ofList ('s' :: first))) := by
    refine normalizeOptionalString_eq_some.mpr ⟨rfl, fun hempty => ?_⟩
    have hs := isWhiteSpace_of_trim_eq_empty hempty 's'
    rw [String.toList_ofList] at hs
    exact absurd (hs List.mem_cons_self) (by decide)
  exact List.ne_nil_of_mem (mem_allowlist.mpr ⟨_, hentry, hnormal⟩)

/-- An entry among others is read, if no entry has a comma. -/
theorem trim_mem_allowlist_intercalate (hid : normalizeSpiffeId u = some p) {entries : List String} (hu : u ∈ entries)
    (hcomma : ∀ entry ∈ entries, ',' ∉ entry.toList) :
    trim u ∈ configureDischargePolicy (envCsv (",".intercalate entries)) := by
  rw [mem_allowlist]
  refine ⟨u.toList, ?_, ?_⟩
  · have hpieces : ∀ piece ∈ entries.map String.toList, ',' ∉ piece := by
      intro piece hpiece
      obtain ⟨entry, hentry, rfl⟩ := List.mem_map.mp hpiece
      exact hcomma entry hentry
    have hne : entries.map String.toList ≠ [] := List.ne_nil_of_mem (List.mem_map_of_mem hu)
    have hlist : (",".intercalate entries).toList = [','].intercalate (entries.map String.toList) :=
      String.toList_intercalate
    rw [hlist, List.splitOn_intercalate ',' hpieces hne]
    exact List.mem_map_of_mem hu
  · rw [String.ofList_toList]
    exact (normalizeOptionalString_of_spiffe hid).1

end

/-- The peer with a certificate for one id. -/
def workload (u : String) : BrokerClientContext := .fromTlsExporter [] (principalIdFromPeerCert [.uri u]) (blank 32) none

theorem peerOf_workload (u : String) : PeerOf u (workload u) :=
  ⟨[], [.uri u], blank 32, none, ⟨[], [], rfl, fun _ h => absurd h List.not_mem_nil⟩, rfl⟩

/-- A lease that was minted for one id. -/
def leaseFor (u : String) : StoredEnvelopeRecord :=
  { plainRecord with lifecycle := .renewableLease, unwrapPrincipalId := some (trim u) }

theorem issuedFor_leaseFor {u p : String} (hid : normalizeSpiffeId u = some p) : IssuedFor u (leaseFor u) where
  lifecycle h := by cases h
  principal := by
    refine ⟨workload "spiffe://td/issuer", ?_⟩
    have hu := (normalizeOptionalString_of_spiffe hid).1
    simp only [leaseFor, v2UnwrapPrincipal, Option.bind_some, hu]
    rfl
  transport := rfl
  issuer := by
    have halice : normalizeOptionalString "alice" = some "alice" := by decide +kernel
    exact ⟨"alice", halice⟩

/-- Naming a workload by the id in its certificate admits it, to a secret, to a share it is the custodian of and to minting
discharges, exactly if the id has the spelling that the broker gives it: no capital letter in the trust domain, no white
space at the end of a custodian's id, no comma in the allowlist's. -/
theorem naming_admits_iff {u p : String} (hid : normalizeSpiffeId u = some p) :
    normalizeSpiffeId p = some p ∧ (p = u ↔ ∀ c ∈ trustDomain u, c.isUpper = false) ∧ ∀ context, PeerOf u context →
      (∀ record, IssuedFor u record →
        (validateV2RecordIdentityRequirements record context ≠ .error .principalMismatch ↔ p = u)) ∧
      (∀ handle operation, handle ≠ "" → (checkCustodian context handle u operation = .ok () ↔ p = u ∧ trim u = u)) ∧
      ∀ env : Env, (env.broker.requireAttestedDischargeMint = true → context.attestationDigest ≠ none) →
        (validateDischargeMintRequirements (env.withDischargeAllowlist "") context u = .ok () ↔ p = u) ∧
        ∀ location, normalizeSpiffePrincipal location = none →
          (validateDischargeMintRequirements (env.withDischargeAllowlist u) context location = .ok () ↔
            p = u ∧ ',' ∉ u.toList) ∧
          ∀ entries, u ∈ entries → (∀ entry ∈ entries, ',' ∉ entry.toList) → p = u →
            validateDischargeMintRequirements (env.withDischargeAllowlist (",".intercalate entries)) context location =
              .ok () := by
  refine ⟨normalizeSpiffeId_idem hid, normalizeSpiffeId_eq_self_iff hid, fun context hpeer => ⟨fun record hrecord => ?_,
    fun handle operation hhandle => ?_, fun env hattested =>
      ⟨?_, fun location hlocation => ⟨?_, fun entries hu hcomma hp => ?_⟩⟩⟩⟩
  · exact unwrap_names_match_iff hid hpeer hrecord
  · exact custodian_matches_iff hid hpeer hhandle operation
  · exact location_matches_iff hid hpeer hattested
  · rw [dischargeMint_eq_ok hid hpeer hattested, hlocation, ← allowlist_matches_iff hid]
    simp [allowlist_ne_nil hid]
  · have hmem := trim_mem_allowlist_intercalate hid hu hcomma
    rw [dischargeMint_eq_ok hid hpeer hattested, hlocation, hp]
    exact ⟨fun q hq => absurd hq (Option.some_ne_none q).symm, Or.inr hmem⟩

theorem naming_admits_small :
    PeerOf "spiffe://td/app" (workload "spiffe://td/app") ∧
      validateV2RecordIdentityRequirements (leaseFor "spiffe://td/app") (workload "spiffe://td/app") ≠
        .error .principalMismatch ∧
      checkCustodian (workload "spiffe://td/app") "handle" "spiffe://td/app" "claim_share" = .ok () ∧
      validateDischargeMintRequirements (plainEnv.withDischargeAllowlist "") (workload "spiffe://td/app")
        "spiffe://td/app" = .ok () ∧
      validateDischargeMintRequirements (plainEnv.withDischargeAllowlist (",".intercalate ["other", "spiffe://td/app"]))
        (workload "spiffe://td/app") "https://auth" = .ok () := by
  have hid : normalizeSpiffeId "spiffe://td/app" = some "spiffe://td/app" := by decide +kernel
  have htrim : trim "spiffe://td/app" = "spiffe://td/app" := by decide +kernel
  have hlocation : normalizeSpiffePrincipal "https://auth" = none := by decide +kernel
  have hopen : plainEnv.broker.requireAttestedDischargeMint = false := rfl
  obtain ⟨hunwrap, hcustodian, hdischarge⟩ := (naming_admits_iff hid).2.2 _ (peerOf_workload _)
  obtain ⟨hat, hlist⟩ := hdischarge plainEnv fun hattested => by
    rw [hopen] at hattested
    cases hattested
  refine ⟨peerOf_workload _, ?_, ?_, hat.mpr rfl, ?_⟩
  · exact (hunwrap _ (issuedFor_leaseFor hid)).mpr rfl
  · exact (hcustodian _ _ (by decide)).mpr ⟨rfl, htrim⟩
  · exact (hlist _ hlocation).2 _ (by decide) (by decide +kernel) rfl

/-- A workload with capital letters in its trust domain is refused under its own name, everywhere; one with a blank at the
end of its id is refused the share that is held for it. -/
theorem capital_trust_domain_refused :
    normalizeSpiffeId "spiffe://TD/app" = some "spiffe://td/app" ∧
      PeerOf "spiffe://TD/app" (workload "spiffe://TD/app") ∧ IssuedFor "spiffe://TD/app" (leaseFor "spiffe://TD/app") ∧
      validateV2RecordIdentityRequirements (leaseFor "spiffe://TD/app") (workload "spiffe://TD/app") =
        .error .principalMismatch ∧
      checkCustodian (workload "spiffe://TD/app") "handle" "spiffe://TD/app" "claim_share" =
        .error "custodian_id 'spiffe://TD/app' does not match authenticated principal 'spiffe://td/app'" ∧
      validateDischargeMintRequirements (plainEnv.withDischargeAllowlist "") (workload "spiffe://TD/app")
        "spiffe://TD/app" = .error .unauthorizedDischargePrincipal ∧
      validateDischargeMintRequirements (plainEnv.withDischargeAllowlist "spiffe://TD/app") (workload "spiffe://TD/app")
        "https://auth" = .error .unauthorizedDischargePrincipal ∧
      normalizeSpiffeId "spiffe://td/app " = some "spiffe://td/app " ∧
      checkCustodian (workload "spiffe://td/app ") "handle" "spiffe://td/app " "claim_share" =
        .error "custodian_id 'spiffe://td/app ' does not match authenticated principal 'spiffe://td/app'" := by
  have hid : normalizeSpiffeId "spiffe://TD/app" = some "spiffe://td/app" := by decide +kernel
  refine ⟨hid, peerOf_workload _, issuedFor_leaseFor hid, ?_, ?_, ?_, ?_, ?_, ?_⟩
  all_goals decide +kernel

end SecretBroker

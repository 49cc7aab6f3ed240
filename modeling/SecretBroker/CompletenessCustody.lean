import SecretBroker.Completeness
import SecretBroker.Custody

/-! A secret in custody can be recovered if enough custodians can claim their shares. Whoever claims gets a share of
the redeem token, shares that combining accepts reconstruct the token, and a list of custodians allows it exactly if it
has enough different names that a caller can have. -/

open Wire

namespace SecretBroker

/-- A caller who claims the share of a custodian, and what the claim draws. -/
structure Claimant where
  load : LoadDraws
  claimDisk : Disk
  context : BrokerClientContext
  custodianId : String

/-- The shares that some callers get who claim one after the other. -/
def claimShares (env : Env) (handle : String) : List Claimant → Eff Broker Failure (List Threshold.Share)
  | [] => pure []
  | claimant :: rest => do
      let result ← claimShareImpl env claimant.load claimant.claimDisk claimant.context ⟨handle, claimant.custodianId⟩
      let shares ← claimShares env handle rest
      return ⟨result.x, result.y⟩ :: shares

/-- The caller is the principal with the name of the custodian, on an authenticated connection, and the disk works. -/
structure Claimant.Authenticated (claimant : Claimant) : Prop where
  loads : claimant.load.disk = .ok
  claims : claimant.claimDisk = .ok
  transport : claimant.context.authenticatedTransport = true
  principal : claimant.context.principalId = some claimant.custodianId

/-- The caller shows a certificate, and what the issuer has attested if it has attested anything. The issuer itself
shows the certificate that it has issued the handle with. -/
structure Claimant.Shows (issuer : BrokerClientContext) (claimant : Claimant) : Prop where
  peerCert : ∃ cert, claimant.context.peerCertSha256 = some cert ∧
    (normalizedContextPrincipal claimant.context = normalizedContextPrincipal issuer →
      ∀ issued, issuer.peerCertSha256 = some issued → issued = cert)
  attestation : ∀ digest, issuer.attestationDigest = some digest → claimant.context.attestationDigest = some digest

instance (issuer : BrokerClientContext) (claimant : Claimant) : Decidable (claimant.Shows issuer) :=
  decidable_of_iff (claimant.context.peerCertSha256.isSome = true ∧
      (normalizedContextPrincipal claimant.context = normalizedContextPrincipal issuer →
        ∀ issued ∈ issuer.peerCertSha256, claimant.context.peerCertSha256 = some issued) ∧
      ∀ digest ∈ issuer.attestationDigest, claimant.context.attestationDigest = some digest) <| by
    constructor
    · rintro ⟨hcert, hsame, hattestation⟩
      obtain ⟨cert, hcert⟩ := Option.isSome_iff_exists.mp hcert
      refine ⟨⟨cert, hcert, fun hcaller issued hissued => ?_⟩, hattestation⟩
      have hshown := hsame hcaller issued hissued
      rw [hcert, Option.some_inj] at hshown
      exact hshown.symm
    · rintro ⟨⟨cert, hcert, hsame⟩, hattestation⟩
      refine ⟨Option.isSome_iff_exists.mpr ⟨cert, hcert⟩, fun hcaller issued hissued => ?_, hattestation⟩
      rw [hcert, hsame hcaller issued hissued]

/-- An authenticated caller whose certificate and attestation are those that are asked for. -/
structure Claimant.Genuine (i : Issuance) (claimant : Claimant) : Prop extends
    claimant.Authenticated, claimant.Shows i.context

/-- A name that a caller can have: callers are compared without surrounding white space. -/
def CleanName (id : String) : Prop := id ≠ "" ∧ trim id = id

instance : DecidablePred CleanName := fun id => inferInstanceAs (Decidable (id ≠ "" ∧ trim id = id))

theorem cleanName_of_all {id : String} (hne : id ≠ "") (h : ∀ c ∈ id.toList, isWhiteSpace c = false) : CleanName id :=
  ⟨hne, trim_of_trimmed (trimmed_of_all h)⟩

theorem normalizeOptionalString_of_clean {id : String} (h : CleanName id) : normalizeOptionalString id = some id :=
  normalizeOptionalString_eq_some.mpr ⟨h.2, h.1⟩

/-- An authenticated caller passes as the custodian exactly if the name is clean. -/
theorem Claimant.Authenticated.checkCustodian_eq_ok_iff {claimant : Claimant} (h : claimant.Authenticated)
    {handle : String} (hhandle : handle ≠ "") (operation : String) :
    checkCustodian claimant.context handle claimant.custodianId operation = .ok () ↔ CleanName claimant.custodianId := by
  simp only [checkCustodian, normalizedContextPrincipal, h.principal, Option.bind_some, Eff.except_bind_eq_ok,
    Eff.rejectIf_eq_ok, Eff.okOr_eq_ok, normalizeOptionalString_eq_some, not_not]
  constructor
  · rintro ⟨-, -, -, hne, _, ⟨htrim, -⟩, rfl⟩
    exact ⟨hne, htrim⟩
  · rintro ⟨hne, htrim⟩
    exact ⟨(), hhandle, (), hne, _, ⟨htrim, hne⟩, rfl⟩

/-- The custody check accepts an authenticated caller exactly if the issuer had a certificate and the caller shows what
is asked for. -/
theorem Claimant.Authenticated.custody_eq_ok_iff {i : Issuance} {claimant : Claimant} (h : claimant.Authenticated)
    (hclean : CleanName claimant.custodianId) {r : StoredEnvelopeRecord} (hissued : IssuedBy i r) :
    validateThresholdCustodyRecordRequirements r claimant.context = .ok () ↔
      i.context.peerCertSha256.isSome = true ∧ claimant.Shows i.context := by
  rw [SecretBroker.custody_eq_ok_iff hissued, Option.isSome_iff_exists]
  constructor
  · rintro ⟨-, -, hcert, ⟨cert, hpeer, hsame⟩, hattestation⟩
    refine ⟨hcert, ⟨cert, hpeer, fun hcaller issued hissuer => ?_⟩, hattestation⟩
    rw [hsame hcaller] at hissuer
    exact (Option.some.inj hissuer).symm
  · rintro ⟨⟨issued, hcert⟩, ⟨cert, hpeer, hsame⟩, hattestation⟩
    refine ⟨h.transport, ⟨claimant.custodianId, ?_⟩, ⟨issued, hcert⟩, ⟨cert, hpeer, fun hcaller => ?_⟩, hattestation⟩
    · rw [normalizedContextPrincipal, h.principal, Option.bind_some]
      exact normalizeOptionalString_of_clean hclean
    · rw [hcert, hsame hcaller issued hcert]

theorem claimShares_cons_eq_ok {env : Env} {handle : String} {claimant : Claimant} {rest : List Claimant}
    {shares : List Threshold.Share} {s s' : Broker} :
    claimShares env handle (claimant :: rest) s = (.ok shares, s') ↔
      ∃ result s₁ others, claimShareImpl env claimant.load claimant.claimDisk claimant.context
          ⟨handle, claimant.custodianId⟩ s = (.ok result, s₁) ∧
        claimShares env handle rest s₁ = (.ok others, s') ∧ shares = ⟨result.x, result.y⟩ :: others := by
  simp only [claimShares, Eff.bind_eq_ok, Eff.pure_eq_ok]
  constructor
  · rintro ⟨result, s₁, hclaim, others, _, hrest, rfl, rfl⟩
    exact ⟨result, s₁, others, hclaim, hrest, rfl⟩
  · rintro ⟨result, s₁, others, hclaim, hrest, rfl⟩
    exact ⟨result, s₁, hclaim, others, s', hrest, rfl, rfl⟩

theorem ne_empty_of_parse {env : Env} {handle : String} {id : Uuid} (h : parseHandleIdentifier env handle = .ok id) :
    handle ≠ "" := by
  rintro rfl
  obtain ⟨mac, hmac, -⟩ := parseHandleIdentifier_eq_ok.mp h
  cases hmac

section

variable {env : Env} {c : Custody} {i : Issuance} {handle : String} {r : StoredEnvelopeRecord} {s : Broker}

/-- A genuine caller with a clean name gets the share of the custodian. -/
theorem Claimant.Genuine.claim_ok {claimant : Claimant} (h : claimant.Genuine i) (hclean : CleanName claimant.custodianId)
    (hlisted : claimant.custodianId ∈ c.custodianIds) (hcert : i.context.peerCertSha256.isSome = true)
    (hhandle : parseHandleIdentifier env handle = .ok i.handleId) (hne : handle ≠ "")
    (hr : s.records i.handleId = some r) (hholds : c.Holds r) (hissued : IssuedBy i r) :
    ∃ result s' r', claimShareImpl env claimant.load claimant.claimDisk claimant.context ⟨handle, claimant.custodianId⟩ s =
        (.ok result, s') ∧
      s'.records i.handleId = some r' ∧ RecordSteps env.serde r r' ∧
      c.share claimant.custodianId = some ⟨result.x, result.y⟩ ∧ Custody.Claimed r' claimant.custodianId := by
  have hload : RecordSteps env.serde r (accessed env claimant.load r) := .single (.load r claimant.load.accessedAt)
  have hholds' : c.Holds (env.serde.reload (accessed env claimant.load r)) :=
    ⟨hholds.threshold, hholds.commitments, hholds.held, hholds.assignments⟩
  have hissued' : IssuedBy i (accessed env claimant.load r) := hissued.advances hload.evolves.toAdvances
  obtain ⟨share, hshare⟩ := Custody.exists_share_iff.mpr hlisted
  obtain ⟨⟨r', result⟩, hclaim⟩ := hholds'.exists_claim hshare
  obtain ⟨share', hshare', hx, hy, hclaimed⟩ := hholds'.claim_eq_ok hclaim
  have hcaller := (h.checkCustodian_eq_ok_iff hne "claim_share").mpr hclean
  have hvalid := (h.custody_eq_ok_iff hclean hissued').mpr ⟨hcert, h.toShows⟩
  have hshares : c.share claimant.custodianId = some ⟨result.x, result.y⟩ := by rw [hshare', hx, hy]
  have hstep : RecordStep env.serde (accessed env claimant.load r) r' := .claim hclaim
  refine ⟨result, _, r', claimShare_eq_ok.mpr ⟨hcaller, h.loads, h.claims, i.handleId, r, r', hhandle, hr, hvalid, hclaim,
    rfl⟩, ?_, hload.tail hstep, hshares, hclaimed⟩
  rw [Broker.recorded_records, Broker.putRecord_records_self]

/-- Genuine callers with clean names get their shares one after the other. -/
theorem claimShares_ok {claimants : List Claimant} (hgenuine : ∀ claimant ∈ claimants, claimant.Genuine i)
    (hclean : ∀ claimant ∈ claimants, CleanName claimant.custodianId)
    (hlisted : ∀ claimant ∈ claimants, claimant.custodianId ∈ c.custodianIds)
    (hcert : i.context.peerCertSha256.isSome = true) (hhandle : parseHandleIdentifier env handle = .ok i.handleId)
    (hne : handle ≠ "") (hr : s.records i.handleId = some r) (hholds : c.Holds r) (hissued : IssuedBy i r) :
    ∃ shares s' r', claimShares env handle claimants s = (.ok shares, s') ∧ s'.records i.handleId = some r' ∧
      RecordSteps env.serde r r' ∧
      List.Forall₂ (fun claimant share => c.share claimant.custodianId = some share ∧
        Custody.Claimed r' claimant.custodianId) claimants shares := by
  induction claimants generalizing s r with
  | nil => exact ⟨[], s, r, rfl, hr, .refl, .nil⟩
  | cons claimant rest ih =>
      rw [List.forall_mem_cons] at hgenuine hclean hlisted
      obtain ⟨result, s₁, r₁, hclaim, hr₁, hsteps, hshare, hclaimed⟩ :=
        hgenuine.1.claim_ok hclean.1 hlisted.1 hcert hhandle hne hr hholds hissued
      obtain ⟨shares, s', r', hrest, hr', hsteps', hall⟩ := ih hgenuine.2 hclean.2 hlisted.2 hr₁ (hholds.steps hsteps)
        (hissued.advances hsteps.evolves.toAdvances)
      refine ⟨_, s', r', claimShares_cons_eq_ok.mpr ⟨result, s₁, shares, hclaim, hrest, rfl⟩, hr',
        hsteps.trans hsteps', ?_⟩
      -- later claims do not take the mark away
      exact .cons ⟨hshare, hclaimed.steps hsteps'⟩ hall

/-- If all claims succeed, then all names are clean and all callers show what is asked for. -/
theorem claimShares_shown {claimants : List Claimant} {shares : List Threshold.Share} {s' : Broker}
    (hauthenticated : ∀ claimant ∈ claimants, claimant.Authenticated)
    (hhandle : ∀ id, parseHandleIdentifier env handle = .ok id → id = i.handleId)
    (hr : s.records i.handleId = some r) (hissued : IssuedBy i r)
    (h : claimShares env handle claimants s = (.ok shares, s')) :
    ∀ claimant ∈ claimants, CleanName claimant.custodianId ∧ claimant.Shows i.context ∧
      i.context.peerCertSha256.isSome = true ∧ parseHandleIdentifier env handle = .ok i.handleId := by
  induction claimants generalizing s r shares with
  | nil => exact List.forall_mem_nil _
  | cons claimant rest ih =>
      rw [List.forall_mem_cons] at hauthenticated
      obtain ⟨result, s₁, others, hclaim, hrest, -⟩ := claimShares_cons_eq_ok.mp h
      obtain ⟨hcaller, -, -, id, r₁, r', hparse, hr₁, hvalid, hclaimed, rfl⟩ := claimShare_eq_ok.mp hclaim
      obtain rfl := hhandle id hparse
      rw [hr] at hr₁
      cases hr₁
      have hload : RecordSteps env.serde r (accessed env claimant.load r) := .single (.load r claimant.load.accessedAt)
      have hsteps : RecordSteps env.serde r r' := hload.tail (.claim hclaimed)
      have hclean := (hauthenticated.1.checkCustodian_eq_ok_iff (ne_empty_of_parse hparse) _).mp hcaller
      obtain ⟨hcert, hshows⟩ := (hauthenticated.1.custody_eq_ok_iff hclean
        (hissued.advances hload.evolves.toAdvances)).mp hvalid
      refine List.forall_mem_cons.mpr ⟨⟨hclean, hshows, hcert, hparse⟩, ih hauthenticated.2 ?_
        (hissued.advances hsteps.evolves.toAdvances) hrest⟩
      rw [Broker.recorded_records, Broker.putRecord_records_self]

end

/-- Enough custodians can be found such that, if their callers claim one after the other, combining accepts the shares
they get. -/
def Recoverable (env : Env) (handleId : Uuid) (threshold : ℕ) (custodianIds : List String) (callers : String → Claimant)
    (handle : String) (s : Broker) : Prop :=
  ∃ ids : List String, ids.Nodup ∧ (∀ id ∈ ids, id ∈ custodianIds) ∧ threshold ≤ ids.length ∧
    ∃ shares s' r, claimShares env handle (ids.map callers) s = (.ok shares, s') ∧ s'.records handleId = some r ∧
      ∀ load tenantId provider, ∃ validated, validateCombineSharesCustody env (accessed env load r)
        ⟨handle, shares, tenantId, provider, ids⟩ = .ok validated

/-- Each custodian of a list has an authenticated caller. -/
def AuthenticatedCallers (custodianIds : List String) (callers : String → Claimant) : Prop :=
  ∀ id ∈ custodianIds, (callers id).custodianId = id ∧ (callers id).Authenticated

/-- The different names in a list of custodians that a caller can have and whose callers show what is asked for. -/
def admittedCustodians (issuer : BrokerClientContext) (callers : String → Claimant) (custodianIds : List String) :
    Finset String :=
  custodianIds.toFinset.filter fun id => CleanName id ∧ (callers id).Shows issuer

theorem mem_admittedCustodians {issuer : BrokerClientContext} {callers : String → Claimant} {custodianIds : List String}
    {id : String} :
    id ∈ admittedCustodians issuer callers custodianIds ↔
      id ∈ custodianIds ∧ CleanName id ∧ (callers id).Shows issuer := by
  rw [admittedCustodians, Finset.mem_filter, List.mem_toFinset]

/-- The handle that is made of the request's caveats is read back. -/
def MintV2Request.HandleReads (env : Env) (d : MintDraws) (request : MintV2Request) : Prop :=
  ∀ expiresAt ttl, enforceTtl env request.ttlSeconds d.createdAt = .ok (expiresAt, ttl) →
    parseHandleIdentifier env (env.mintHandle d.persist.handleId (mintCaveats request expiresAt)) = .ok d.persist.handleId

/-- A genuine caller for a name. -/
def Claimant.named (i : Issuance) (id : String) : Claimant where
  load := ⟨.ok, ⟨0, 0⟩, ⟨0, 0⟩⟩
  claimDisk := .ok
  context := {
    exporter := []
    principalId := some id
    authenticatedTransport := true
    peerCertSha256 := some (i.context.peerCertSha256.getD [0])
    attestationDigest := i.context.attestationDigest
    peerCert_ne_nil := by
      rintro digest hdigest
      cases hdigest
      cases hcert : i.context.peerCertSha256 with
      | none => simp
      | some cert => exact i.context.peerCert_ne_nil cert hcert
    attestation_ne_nil := i.context.attestation_ne_nil }
  custodianId := id

theorem Claimant.named_genuine (i : Issuance) (id : String) : (Claimant.named i id).Genuine i where
  loads := rfl
  claims := rfl
  transport := rfl
  principal := rfl
  peerCert := by
    refine ⟨_, rfl, fun _ issued hissued => ?_⟩
    rw [hissued, Option.getD_some]
  attestation _ h := h

/-- Some shares in the order of their custodians. -/
theorem forall_mem_zip_of_forall₂ {α β : Type} {P : α → β → Prop} {l : List α} {l' : List β} (h : List.Forall₂ P l l') :
    ∀ p ∈ l.zip l', P p.1 p.2 := by
  induction h with
  | nil => exact List.forall_mem_nil _
  | cons hp _ ih => exact List.forall_mem_cons.mpr ⟨hp, ih⟩

section

variable {env : Env} {d : MintDraws} {context : BrokerClientContext} {request : MintV2Request}
  {response : MintV2Response} {s s₁ : Broker}

/-- Enough callers with clean names who show what is asked for recover the secret. -/
theorem recoverable_of_admitted {c : Custody} {i : Issuance} {handle : String} {r : StoredEnvelopeRecord}
    {callers : String → Claimant} (hcallers : AuthenticatedCallers c.custodianIds callers)
    (hcert : i.context.peerCertSha256.isSome = true) (hhandle : parseHandleIdentifier env handle = .ok i.handleId)
    (hr : s.records i.handleId = some r) (hholds : c.Holds r) (hissued : IssuedBy i r)
    (henough : c.threshold.toNat ≤ (admittedCustodians i.context callers c.custodianIds).card) :
    Recoverable env i.handleId c.threshold.toNat c.custodianIds callers handle s := by
  obtain ⟨ids, hnodup, hmem, hlength⟩ : ∃ ids : List String, ids.Nodup ∧
      (∀ id ∈ ids, id ∈ c.custodianIds ∧ CleanName id ∧ (callers id).Shows i.context) ∧ c.threshold.toNat ≤ ids.length :=
    ⟨_, Finset.nodup_toList _, fun id hid => mem_admittedCustodians.mp (Finset.mem_toList.mp hid), by
      rwa [Finset.length_toList]⟩
  have hnames : (ids.map callers).map Claimant.custodianId = ids := by
    rw [List.map_map]
    exact (List.map_congr_left fun id hid => (hcallers id (hmem id hid).1).1).trans (List.map_id ids)
  have hall : ∀ claimant ∈ ids.map callers, claimant.Genuine i ∧ CleanName claimant.custodianId ∧
      claimant.custodianId ∈ c.custodianIds := by
    intro claimant hclaimant
    obtain ⟨id, hid, rfl⟩ := List.mem_map.mp hclaimant
    obtain ⟨hlisted, hclean, hshows⟩ := hmem id hid
    obtain ⟨hname, hauthenticated⟩ := hcallers id hlisted
    rw [hname]
    exact ⟨⟨hauthenticated, hshows⟩, hclean, hlisted⟩
  obtain ⟨shares, s', r', hclaims, hr', hsteps, hshares⟩ := claimShares_ok (fun claimant h => (hall claimant h).1)
    (fun claimant h => (hall claimant h).2.1) (fun claimant h => (hall claimant h).2.2) hcert hhandle
    (ne_empty_of_parse hhandle) hr hholds hissued
  refine ⟨ids, hnodup, fun id hid => (hmem id hid).1, hlength, shares, s', r', hclaims, hr',
    fun load tenantId provider => ⟨shares, ?_⟩⟩
  have hload : RecordSteps env.serde r' (accessed env load r') := .single (.load r' load.accessedAt)
  have hcount : ids.length = shares.length := by rw [← hshares.length_eq, List.length_map]
  rw [((hholds.steps hsteps).steps hload).validate_eq_ok]
  refine ⟨rfl, hcount, hnodup, fun id hid => ?_, hcount ▸ hlength, ?_⟩
  · obtain ⟨hne, htrim⟩ := (hmem id hid).2.1
    rwa [htrim]
  · have hnamed : List.Forall₂ (fun id share => c.share id = some share ∧ Custody.Claimed r' id) ids shares := by
      rw [← hnames]
      exact List.forall₂_map_left_iff.mpr hshares
    intro p hp
    obtain ⟨hshare, hclaimed⟩ := forall_mem_zip_of_forall₂ hnamed p hp
    exact ⟨hshare, hclaimed.steps hload⟩

/-- If a secret can be recovered, then enough of its custodians have clean names and callers who show what is asked
for. -/
theorem admitted_of_recoverable {i : Issuance} {threshold : ℕ} (hpos : 0 < threshold) {custodianIds : List String}
    {callers : String → Claimant} (hcallers : AuthenticatedCallers custodianIds callers) {handle : String}
    (hhandle : ∀ id, parseHandleIdentifier env handle = .ok id → id = i.handleId)
    {r : StoredEnvelopeRecord} (hr : s.records i.handleId = some r) (hissued : IssuedBy i r)
    (h : Recoverable env i.handleId threshold custodianIds callers handle s) :
    i.context.peerCertSha256.isSome = true ∧ parseHandleIdentifier env handle = .ok i.handleId ∧
      threshold ≤ (admittedCustodians i.context callers custodianIds).card := by
  obtain ⟨ids, hnodup, hlisted, henough, shares, s', r', hclaims, -, -⟩ := h
  have hauthenticated : ∀ claimant ∈ ids.map callers, claimant.Authenticated := by
    intro claimant hclaimant
    obtain ⟨id, hid, rfl⟩ := List.mem_map.mp hclaimant
    exact (hcallers id (hlisted id hid)).2
  have hshown := claimShares_shown hauthenticated hhandle hr hissued hclaims
  have hadmitted : ∀ id ∈ ids, id ∈ admittedCustodians i.context callers custodianIds := by
    intro id hid
    obtain ⟨hclean, hshows, -, -⟩ := hshown (callers id) (List.mem_map_of_mem hid)
    rw [(hcallers id (hlisted id hid)).1] at hclean
    exact mem_admittedCustodians.mpr ⟨hlisted id hid, hclean, hshows⟩
  have hcount : threshold ≤ (admittedCustodians i.context callers custodianIds).card :=
    calc threshold ≤ ids.length := henough
      _ = ids.toFinset.card := (List.toFinset_card_of_nodup hnodup).symm
      _ ≤ _ := Finset.card_le_card fun id hid => hadmitted id (List.mem_toFinset.mp hid)
  obtain ⟨id, hid⟩ := List.exists_mem_of_length_pos (hpos.trans_le henough)
  obtain ⟨-, -, hcert, hparse⟩ := hshown (callers id) (List.mem_map_of_mem hid)
  exact ⟨hcert, hparse, hcount⟩

end

/-! ### A mint for two custodians -/

/-- The broker of `plainEnv` with another serialization. -/
def plainWith (serde : Serde) : Env := { plainEnv with serde := serde }

/-- Draws for a minted key, with a polynomial that is constant. -/
def plainMintDraws : MintDraws where
  createdAt := ⟨0, 0⟩
  keyBytes := blank 32
  persist := plainDraws (.filled 1) (.filled 2) (.filled 3)
  coefficients _ := 0
  thresholdDisk := .ok
  assignmentsDisk := .ok

/-- A key whose token two custodians hold, who are both needed. -/
def plainMintRequest (custodianIds : List String) : MintV2Request where
  ttlSeconds := none
  label := none
  tenantId := none
  provider := none
  threshold := some 2
  numShares := some 2
  lifecycle := .serviceBootstrap
  initialLeaseSeconds := none
  custodianIds := custodianIds
  unwrapPrincipalId := none

/-- Sealing signs the envelope with a blank tag, however it is serialized. -/
theorem persist_plainWith (serde : Serde) (d : PersistDraws) (context : BrokerClientContext)
    (input : PersistSecretV2Input) :
    persistSecretV2WithLifecycle (plainWith serde) d context input =
      persistSecretV2WithLifecycle plainEnv d context input := rfl

/-- The token of a secret that was just sealed can be split. -/
theorem splitRedeemToken_of_le (env : Env) (coefficients : ℕ → Scalar) (token : Block 32) {threshold numShares : UInt8}
    (hone : 1 ≤ threshold) (hle : threshold ≤ numShares) : ∃ split, splitRedeemToken env coefficients
      (Base64.standard.encode token.val) threshold numShares = .ok split := by
  have hsplit := Threshold.split_eq env.curve token hone hle fun i => coefficients i
  simp only [splitRedeemToken, Base64.decode_encode Base64.standard_lawful, Eff.okOr_some, Eff.ok_bind, sized_val, hsplit]
  exact ⟨_, rfl⟩

/-- A mint puts the shares of a sealed token into custody. -/
theorem mintRedeemMaterial_ok {env : Env} {d : MintDraws} {custodianIds : List String} {threshold numShares : UInt8}
    (hmany : threshold > 1) (hle : threshold ≤ numShares) (hcustodians : custodianIds ≠ [])
    (hthreshold : d.thresholdDisk = .ok) (hassignments : d.assignmentsDisk = .ok) {outcome : StoredSecretOutcome}
    {token : Block 32} (htoken : outcome.redeemToken = Base64.standard.encode token.val) {s : Broker}
    {r : StoredEnvelopeRecord} (hr : s.records outcome.handleId = some r) :
    ∃ s', mintRedeemMaterial env d custodianIds threshold numShares outcome s = (.ok "", s') := by
  have hone : 1 ≤ threshold := by
    rw [UInt8.le_iff_toNat_le]
    exact (UInt8.lt_iff_toNat_lt.mp hmany).le
  obtain ⟨split, hsplit⟩ := splitRedeemToken_of_le env d.coefficients token hone hle
  simp only [mintRedeemMaterial, if_pos hmany, if_pos hcustodians, htoken, hsplit, Eff.bind_eq_ok, Eff.lift_eq_ok,
    Eff.mapError_eq_ok, perform_eq_ok, Eff.pure_eq_ok]
  refine ⟨_, split, s, ⟨rfl, rfl⟩, (), _, ⟨hthreshold, ?_, rfl⟩, (), _, ⟨hassignments, ?_, rfl⟩, trivial, rfl⟩
  · rw [hr]
    rfl
  · rw [hr, Broker.putRecord_records_self]
    rfl

theorem plain_mint (serde : Serde) {custodianIds : List String} (htwo : custodianIds.length = 2) :
    ∃ response s₁, mintAeadKeyV2Impl (plainWith serde) plainMintDraws plainContext
      (plainMintRequest custodianIds) Broker.empty = (.ok response, s₁) := by
  have hcustodians : custodianIds ≠ [] := by
    rintro rfl
    cases htwo
  have hlimit : customerKeyCount Broker.empty.keyMetadata "customer" < 100 := by decide
  obtain ⟨outcome, r, s₁, hpersist, hrecords, -⟩ := plain_persist (.filled 1) (.filled 2) (.filled 3) plainContext
    (mintInput plainEnv plainMintDraws (plainMintRequest custodianIds) none none (some "alice")) hlimit rfl rfl
  obtain ⟨_, _, _, _, _, _, _, _, -, -, -, -, houtcome⟩ := persist_eq_ok plainEnv hpersist
  have hr : s₁.records outcome.handleId = some r := by
    rw [hrecords, houtcome]
    exact Function.update_self _ _ _
  have htoken : outcome.redeemToken = Base64.standard.encode (plainEnv.redeemToken (.filled 1)
      (redeemBindingBytes plainEnv .serviceBootstrap plainContext) (blank 16).val).val := by
    rw [houtcome]
    rfl
  have hmaterial : ∃ s₂, mintRedeemMaterial (plainWith serde) plainMintDraws custodianIds 2 2 outcome s₁ = (.ok "", s₂) :=
    mintRedeemMaterial_ok (by decide) (by decide) hcustodians rfl rfl htoken hr
  obtain ⟨s₂, hmaterial⟩ := hmaterial
  rw [← persist_plainWith serde] at hpersist
  have hcount : ¬ ((2 : UInt8) > 1 ∧ custodianIds ≠ [] ∧ custodianIds.length ≠ (2 : UInt8).toNat) := by
    rintro ⟨-, -, hne⟩
    exact hne htwo
  simp only [mintAeadKeyV2Impl, Eff.bind_eq_ok, Eff.lift_eq_ok, check_eq_ok, recordTransparency, Eff.modify_eq_ok,
    Eff.pure_eq_ok]
  exact ⟨_, _, (none, none), Broker.empty, ⟨rfl, rfl⟩, (), Broker.empty, ⟨rfl, rfl⟩, some "alice", Broker.empty,
    ⟨plain_unwrapPrincipal .serviceBootstrap, rfl⟩, outcome, s₁, hpersist,
      (), s₁, ⟨Eff.rejectIf_eq_ok.mpr hcount, rfl⟩, "", s₂,
    hmaterial, (), _, rfl, rfl, rfl⟩

theorem ofBE_blank (n : ℕ) : ofBE (blank n).val = 0 := by
  rw [ofBE, blank, List.reverse_replicate]
  induction n with
  | zero => rfl
  | succ n ih =>
      rw [List.replicate_succ, ofLE, ih]
      rfl

theorem plain_shareAt (x : UInt8) :
    Threshold.shareAt [Threshold.secretScalarFromBytes (blank 32), 0] x = ⟨x, (blank 32).val⟩ := by
  have hsecret : Threshold.secretScalarFromBytes (blank 32) = 0 := by
    rw [Threshold.secretScalarFromBytes, Scalar.reduceBytes, ofBE_blank, Nat.cast_zero]
  have hvalue : Threshold.evalPoly [0, 0] (Threshold.scalarFromX x) = 0 := by
    simp [Threshold.evalPoly]
  rw [Threshold.shareAt, hsecret, hvalue]
  rfl

theorem plain_clean : ∀ id ∈ ["alice", "bob"], CleanName id := by
  intro id hid
  rw [List.mem_cons, List.mem_singleton] at hid
  rcases hid with rfl | rfl
  · exact cleanName_of_all (by decide) (by simp [isWhiteSpace])
  · exact cleanName_of_all (by decide) (by simp [isWhiteSpace])

/-- The shares of a token of zeros. -/
def plainShares : List Threshold.Share := [⟨1, (blank 32).val⟩, ⟨2, (blank 32).val⟩]

/-- The mint succeeds for any two custodians, and its handle is read back. -/
theorem plain_custody (serde : Serde) {custodianIds : List String} (htwo : custodianIds.length = 2) :
    ∃ response s₁ c r, mintAeadKeyV2Impl (plainWith serde) plainMintDraws plainContext (plainMintRequest custodianIds)
        Broker.empty = (.ok response, s₁) ∧
      MintedFor (plainWith serde) plainMintDraws plainContext (plainMintRequest custodianIds) c r ∧
      s₁.records (.filled 1) = some r ∧ c.split.shares = plainShares ∧
      parseHandleIdentifier (plainWith serde) response.handle = .ok (.filled 1) := by
  obtain ⟨response, s₁, hmint⟩ := plain_mint serde htwo
  have hcustodians : (plainMintRequest custodianIds).custodianIds ≠ [] := by
    rintro hnil
    rw [show custodianIds = [] from hnil] at htwo
    cases htwo
  have hmany : (plainMintRequest custodianIds).threshold.getD 1 > 1 := show (2 : UInt8) > 1 by decide
  obtain ⟨c, r, hminted, hr, -⟩ := mint_custody hmint hmany hcustodians
  obtain ⟨expiresAt, ttl, _, httl, -, hresponse⟩ := mint_response hmint
  cases httl
  refine ⟨response, s₁, c, r, hmint, hminted, hr, ?_, ?_⟩
  · have hsplit := hminted.split
    rw [hminted.threshold] at hsplit
    have hresult := (Threshold.split_eq Curve.additive (blank 32) (show (1 : UInt8) ≤ 2 by decide)
      (show (2 : UInt8) ≤ 2 by decide) fun _ => 0).symm.trans hsplit
    rw [← Except.ok.inj hresult]
    exact congrArg₂ (fun share share' => [share, share']) (plain_shareAt 1) (plain_shareAt 2)
  · rw [hresponse]
    have htexts : ["action = unwrap", "max_uses = 1"].length < 65536 ∧
        ∀ c ∈ ["action = unwrap", "max_uses = 1"], (asBytes c).length < 65536 := by decide
    refine parseHandleIdentifier_eq_ok.mpr ⟨_, parseHandleV2_handleV2 htexts, ?_, rfl⟩
    exact (Macaroon.verifySignature_eq_ok _).mpr rfl

section

variable {env : Env} {d : MintDraws} {context : BrokerClientContext} {request : MintV2Request}
  {response : MintV2Response} {s s₁ : Broker}

/-- **A secret in custody can be recovered** exactly if its issuer had a certificate, its handle can be read back, and
among its custodians are as many different clean names as shares are needed, whose callers show a certificate (the
issuer the one it has minted with) and the attestation digest of the issuer, if it had one. This holds whoever the
authenticated callers with the names of the custodians are. -/
theorem custody_recoverable_iff (hmint : mintAeadKeyV2Impl env d context request s = (.ok response, s₁))
    (hthreshold : request.threshold.getD 1 > 1) (hcustodians : request.custodianIds ≠ []) {callers : String → Claimant}
    (hcallers : AuthenticatedCallers request.custodianIds callers) :
    Recoverable env d.persist.handleId (request.threshold.getD 1).toNat request.custodianIds callers response.handle s₁ ↔
      context.peerCertSha256.isSome = true ∧ request.HandleReads env d ∧
        (request.threshold.getD 1).toNat ≤ (admittedCustodians context callers request.custodianIds).card := by
  obtain ⟨c, r, hminted, hr, -⟩ := mint_custody hmint hthreshold hcustodians
  obtain ⟨expiresAt, ttl, _, httl, -, hresponse⟩ := mint_response hmint
  have hhandle : response.handle = env.mintHandle d.persist.handleId (mintCaveats request expiresAt) := by rw [hresponse]
  have hreads : request.HandleReads env d ↔ parseHandleIdentifier env response.handle = .ok d.persist.handleId := by
    rw [hhandle]
    constructor
    · intro h
      exact h expiresAt ttl httl
    · intro h expiresAt' ttl' httl'
      rw [httl] at httl'
      cases httl'
      exact h
  have hpos : 0 < (request.threshold.getD 1).toNat := (Nat.zero_le _).trans_lt (UInt8.lt_iff_toNat_lt.mp hthreshold)
  rw [hreads]
  constructor
  · refine admitted_of_recoverable hpos hcallers (fun id hid => ?_) hr hminted.issuedBy
    obtain ⟨mac, hmac, -, rfl⟩ := parseHandleIdentifier_eq_ok.mp hid
    rw [hhandle] at hmac
    exact identifier_of_parse hmac
  · rintro ⟨hcert, hparse, henough⟩
    rw [← hminted.threshold, ← hminted.custodianIds] at henough ⊢
    exact recoverable_of_admitted (hminted.custodianIds ▸ hcallers) hcert hparse hr hminted.holds hminted.issuedBy henough

end

/-- The callers with the certificate and the attestation of the issuer. -/
theorem named_authenticated (i : Issuance) (custodianIds : List String) :
    AuthenticatedCallers custodianIds (Claimant.named i) :=
  fun id _ => ⟨rfl, (Claimant.named_genuine i id).toAuthenticated⟩

/-- Two custodians with clean names recover the secret. -/
theorem custody_recoverable_iff_two : ∃ response s₁,
    mintAeadKeyV2Impl (plainWith plainSerde) plainMintDraws plainContext (plainMintRequest ["alice", "bob"]) Broker.empty =
      (.ok response, s₁) ∧
    Recoverable (plainWith plainSerde) (.filled 1) 2 ["alice", "bob"]
      (Claimant.named ⟨.filled 1, plainContext, .serviceBootstrap, none⟩) response.handle s₁ := by
  obtain ⟨response, s₁, _, _, hmint, -, -, -, hparse⟩ := plain_custody plainSerde (rfl : ["alice", "bob"].length = 2)
  refine ⟨response, s₁, hmint, (custody_recoverable_iff hmint (by decide) (by decide) (named_authenticated _ _)).mpr
    ⟨rfl, ?_, ?_⟩⟩
  · obtain ⟨_, _, _, httl, -, hresponse⟩ := mint_response hmint
    rw [hresponse] at hparse
    intro expiresAt ttl httl'
    rw [httl] at httl'
    cases httl'
    exact hparse
  · have hall : ["alice", "bob"].toFinset ⊆ admittedCustodians plainContext
        (Claimant.named ⟨.filled 1, plainContext, .serviceBootstrap, none⟩) ["alice", "bob"] := by
      intro id hid
      have hlisted := List.mem_toFinset.mp hid
      exact mem_admittedCustodians.mpr ⟨hlisted, plain_clean id hlisted,
        (Claimant.named_genuine ⟨.filled 1, plainContext, .serviceBootstrap, none⟩ id).toShows⟩
    exact Finset.card_le_card hall

/-- A custodian who is listed twice leaves one claimable share of the two that are needed, whoever calls. -/
theorem custody_unrecoverable_repeated : ∃ response s₁,
    mintAeadKeyV2Impl (plainWith plainSerde) plainMintDraws plainContext
      (plainMintRequest ["alice", "alice"]) Broker.empty = (.ok response, s₁) ∧
    ∀ callers, AuthenticatedCallers ["alice", "alice"] callers →
      ¬ Recoverable (plainWith plainSerde) (.filled 1) 2 ["alice", "alice"] callers response.handle s₁ := by
  obtain ⟨response, s₁, c, r, hmint, hminted, hr, -, hparse⟩ :=
    plain_custody plainSerde (rfl : ["alice", "alice"].length = 2)
  refine ⟨response, s₁, hmint, fun callers hcallers hrecoverable => ?_⟩
  have hname : ∀ id, parseHandleIdentifier (plainWith plainSerde) response.handle = .ok id → id = .filled 1 := by
    intro id hid
    rw [hparse] at hid
    cases hid
    rfl
  obtain ⟨-, -, hcount⟩ := admitted_of_recoverable (by decide) hcallers hname hr hminted.issuedBy hrecoverable
  have hone : (admittedCustodians plainContext callers ["alice", "alice"]).card ≤ ({"alice"} : Finset String).card := by
    refine Finset.card_le_card fun id hid => ?_
    simpa using (mem_admittedCustodians.mp hid).1
  exact absurd (hcount.trans hone) (by decide)

/-- The claim as a request of a run. -/
def Claimant.call (handle : String) (claimant : Claimant) : Call :=
  .claimShare claimant.load claimant.claimDisk claimant.context ⟨handle, claimant.custodianId⟩

theorem after_claims {env : Env} {handle : String} {claimants : List Claimant} {shares : List Threshold.Share}
    {s s' : Broker} (h : claimShares env handle claimants s = (.ok shares, s')) :
    s.after env (claimants.map (Claimant.call handle)) = s' := by
  induction claimants generalizing s shares with
  | nil =>
      cases h
      rfl
  | cons claimant rest ih =>
      obtain ⟨result, s₁, others, hclaim, hrest, -⟩ := claimShares_cons_eq_ok.mp h
      have hexec : ((claimant.call handle).exec env s).2 = s₁ := by
        rw [Claimant.call, Call.exec, Eff.bind_of_ok hclaim]
        rfl
      rw [List.map_cons, Broker.after_cons, hexec]
      exact ih hrest

/-- A serialization that reads back the shares of `plainShares`. -/
def shareSerde : Serde := { plainSerde with sharesFromStr := fun _ => some plainShares }

/-- The two callers of the plain mint. -/
def plainClaimants : List Claimant :=
  ["alice", "bob"].map (Claimant.named ⟨.filled 1, plainContext, .serviceBootstrap, none⟩)

/-- **Shares that combining accepts recover the token**: they are enough different shares, each of them the share that
is held for another custodian who has claimed it. They reconstruct the redeem token of the record in its canonical form,
so the unwrap that they are presented to finds no fault with them. -/
theorem combined_shares_recover {env : Env} {d : MintDraws} {context : BrokerClientContext} {request : MintV2Request}
    {response : MintV2Response} {s s₁ : Broker} (hmint : mintAeadKeyV2Impl env d context request s = (.ok response, s₁))
    (hthreshold : request.threshold.getD 1 > 1) (hcustodians : request.custodianIds ≠ []) {later : List Call}
    (hlater : d.persist.handleId ∉ later.flatMap Call.uuids) {r : StoredEnvelopeRecord}
    (hr : (s₁.after env later).records d.persist.handleId = some r) {load : LoadDraws} {req : CombineSharesRequest}
    {shares : List Threshold.Share} (haccepted : validateCombineSharesCustody env (accessed env load r) req = .ok shares)
    (hserde : env.serde.sharesFromStr (env.serde.sharesToString shares) = some shares) :
    shares.Nodup ∧ (request.threshold.getD 1).toNat ≤ shares.length ∧
      (req.custodianIds.Nodup ∧ List.Forall₂ (Custody.ClaimedShare r) req.custodianIds shares) ∧
      (∃ k stored commitments, r.threshold = some k ∧ r.thresholdCommitments = some stored ∧
        (stored.mapM fun c => Eff.okOr (Base64.standard.decode c) ServiceError.redeemTokenInvalid) = .ok commitments ∧
        Threshold.reconstruct env.curve shares k commitments = .ok (Threshold.canonicalSecretBytes (env.redeemToken
          d.persist.handleId (redeemBindingBytes env request.lifecycle context) d.persist.redeemNonce.val))) ∧
      ∀ again : LoadDraws, compareRedeemToken env (accessed env again (accessed env load r)) (env.redeemToken
        d.persist.handleId (redeemBindingBytes env request.lifecycle context) d.persist.redeemNonce.val)
        (env.serde.sharesToString shares) = .ok () := by
  obtain ⟨c, r₁, hminted, hr₁, -⟩ := mint_custody hmint hthreshold hcustodians
  obtain ⟨r₁', hr₁', hsteps⟩ := (after_steps env later s₁).follows hlater r hr
  rw [hr₁] at hr₁'
  cases hr₁'
  have hholds := hminted.holds.steps hsteps
  have hload : ∀ (l : LoadDraws) (r' : StoredEnvelopeRecord), RecordSteps env.serde r' (accessed env l r') := fun l r' =>
    .single (.load r' l.accessedAt)
  obtain ⟨rfl, hlength, hnodup, -, henough, hall⟩ := (hholds.steps (hload load r)).validate_eq_ok.mp haccepted
  rw [hminted.threshold] at henough
  have hshare : ∀ p ∈ req.custodianIds.zip req.shares, c.share p.1 = some p.2 ∧ Custody.Claimed r p.1 := hall
  have hdistinct : req.shares.Nodup :=
    List.Nodup.of_map _ (Custody.nodup_indices hlength hnodup fun p hp => (hshare p hp).1)
  have hmem : ∀ share ∈ req.shares, share ∈ c.split.shares := by
    intro share hmem
    rw [← List.map_snd_zip hlength.ge] at hmem
    obtain ⟨p, hp, rfl⟩ := List.mem_map.mp hmem
    exact Custody.share_mem_shares (hshare p hp).1
  have hreconstruct := Threshold.reconstruct_split env.curve hminted.enough.1 hminted.enough.2 hminted.split hmem hdistinct
    (by rw [hminted.threshold]; exact henough)
  refine ⟨hdistinct, henough, ⟨hnodup, ?_⟩, ⟨c.threshold, _, c.split.commitments, hholds.threshold, hholds.commitments,
    decode_encodedCommitments c.split _, hreconstruct⟩, fun again => ?_⟩
  · rw [List.forall₂_iff_zip]
    exact ⟨hlength, fun hp => hholds.claimedShare (hshare _ hp).1 (hshare _ hp).2⟩
  · have hagain := (hholds.steps (hload load r)).steps (hload again _)
    exact compareRedeemToken_of_reconstruct (hminted.threshold ▸ hthreshold) hagain.threshold hagain.commitments hserde
      hreconstruct

theorem combined_shares_recover_two : ∃ response s₁ r,
    mintAeadKeyV2Impl (plainWith shareSerde) plainMintDraws plainContext (plainMintRequest ["alice", "bob"]) Broker.empty =
      (.ok response, s₁) ∧
    (s₁.after (plainWith shareSerde) (plainClaimants.map (Claimant.call response.handle))).records (.filled 1) = some r ∧
    validateCombineSharesCustody (plainWith shareSerde) (accessed (plainWith shareSerde) ⟨.ok, ⟨60, 0⟩, ⟨60, 0⟩⟩ r)
      ⟨response.handle, plainShares, none, none, ["alice", "bob"]⟩ = .ok plainShares ∧
    List.Forall₂ (Custody.ClaimedShare r) ["alice", "bob"] plainShares := by
  obtain ⟨response, s₁, c, r₁, hmint, hminted, hr₁, hshares, hparse⟩ :=
    plain_custody shareSerde (rfl : ["alice", "bob"].length = 2)
  have hnames : ∀ claimant ∈ plainClaimants, claimant.custodianId ∈ ["alice", "bob"] := by
    intro claimant hclaimant
    obtain ⟨id, hid, rfl⟩ := List.mem_map.mp hclaimant
    exact hid
  have hgenuine : ∀ claimant ∈ plainClaimants, claimant.Genuine ⟨.filled 1, plainContext, .serviceBootstrap, none⟩ := by
    intro claimant hclaimant
    obtain ⟨id, -, rfl⟩ := List.mem_map.mp hclaimant
    exact Claimant.named_genuine _ id
  obtain ⟨shares, s', r, hclaims, hr, hsteps, hall⟩ := claimShares_ok hgenuine
    (fun claimant h => plain_clean _ (hnames claimant h))
      (fun claimant h => by rw [hminted.custodianIds]; exact hnames claimant h)
    rfl hparse (ne_empty_of_parse hparse) hr₁ hminted.holds hminted.issuedBy
  have hnamed : List.Forall₂ (fun id share => c.share id = some share ∧ Custody.Claimed r id) ["alice", "bob"] shares :=
    List.forall₂_map_left_iff.mp hall
  have hread : shares = plainShares := by
    have halice : c.share "alice" = some ⟨1, (blank 32).val⟩ := by
      rw [Custody.share, hminted.custodianIds, hshares]
      rfl
    have hbob : c.share "bob" = some ⟨2, (blank 32).val⟩ := by
      rw [Custody.share, hminted.custodianIds, hshares]
      rfl
    cases hnamed with
    | cons ha hrest =>
        cases hrest with
        | cons hb hnil =>
            cases hnil
            rw [halice, Option.some.injEq] at ha
            rw [hbob, Option.some.injEq] at hb
            rw [← ha.1, ← hb.1]
            rfl
  subst hread
  have hload : RecordSteps (plainWith shareSerde).serde r (accessed (plainWith shareSerde) ⟨.ok, ⟨60, 0⟩, ⟨60, 0⟩⟩ r) :=
    .single (.load r ⟨60, 0⟩)
  have haccepted : validateCombineSharesCustody (plainWith shareSerde)
    (accessed (plainWith shareSerde) ⟨.ok, ⟨60, 0⟩, ⟨60, 0⟩⟩ r)
      ⟨response.handle, plainShares, none, none, ["alice", "bob"]⟩ = .ok plainShares := by
    refine ((hminted.holds.steps hsteps).steps hload).validate_eq_ok.mpr ⟨rfl, rfl, ?_, fun id hid => ?_, ?_, ?_⟩
    · show ["alice", "bob"].Nodup
      decide
    · obtain ⟨hne, htrim⟩ := plain_clean id hid
      rwa [htrim]
    · rw [hminted.threshold]
      exact le_rfl
    · exact forall_mem_zip_of_forall₂ hnamed
  rw [← after_claims hclaims] at hr
  have hfresh : plainMintDraws.persist.handleId ∉
    (plainClaimants.map (Claimant.call response.handle)).flatMap Call.uuids := by
    simp [plainClaimants, Claimant.call, Call.uuids]
  exact ⟨response, s₁, r, hmint, hr, haccepted,
    (combined_shares_recover hmint (by decide) (by decide) hfresh hr haccepted rfl).2.2.1.2⟩

end SecretBroker

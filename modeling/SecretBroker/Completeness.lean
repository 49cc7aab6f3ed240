import SecretBroker.IdentityBinding
import SecretBroker.PlainBroker
import SecretBroker.Run
import SecretBroker.SealedSecret

/-! The whole pipeline from wrapping to unwrapping: after any requests in between, a caller whom the
issuance admits gets the wrapped secret back, as long as the record is neither consumed nor revoked nor
past a deadline. -/

open Wire

namespace SecretBroker

variable {env : Env}

theorem forall_fieldCaveat {P : Caveat → Prop} {caveat : String → Caveat} {field : Option String}
    (h : ∀ v, field = some v → P (caveat (trim v))) : ∀ c ∈ fieldCaveat caveat field, P c := by
  intro c hc
  obtain ⟨t, ht, rfl⟩ := Option.map_eq_some_iff.mp (Option.mem_toList.mp hc)
  obtain ⟨v, hv, hnormal⟩ := Option.bind_eq_some_iff.mp ht
  obtain ⟨rfl, -⟩ := normalizeOptionalString_eq_some.mp hnormal
  exact h v hv

/-- What holds of every caveat of a wrapped secret, kind by kind. -/
theorem forall_wrapCaveats {P : Caveat → Prop} {request : WrapV2Request} {expiresAt : Option DateTime}
    (htenant : ∀ v, request.tenantId = some v → P (.tenantId (trim v)))
    (hprovider : ∀ v, request.provider = some v → P (.provider (trim v)))
    (hcircuit : ∀ v, request.circuitId = some v → P (.circuitId (trim v)))
    (hnode : ∀ v, request.nodeId = some v → P (.nodeId (trim v)))
    (hexpires : ∀ t, expiresAt = some t → P (.expires t)) (haction : P (.action "unwrap")) (huses : P .maxUses) :
    ∀ c ∈ wrapCaveats request expiresAt, P c := by
  intro c hc
  simp only [wrapCaveats, List.mem_append, List.mem_cons, List.not_mem_nil, or_false] at hc
  rcases hc with ((((hc | hc) | hc) | hc) | hc) | rfl | rfl
  · exact forall_fieldCaveat htenant c hc
  · exact forall_fieldCaveat hprovider c hc
  · exact forall_fieldCaveat hcircuit c hc
  · exact forall_fieldCaveat hnode c hc
  · obtain ⟨t, ht, rfl⟩ := Option.map_eq_some_iff.mp (Option.mem_toList.mp hc)
    exact hexpires t ht
  · exact haction
  · exact huses

/-- The fields of a request that become caveats are short. -/
structure WrapV2Request.Short (request : WrapV2Request) : Prop where
  tenantId : ∀ v, request.tenantId = some v → (asBytes v).length < 60000
  provider : ∀ v, request.provider = some v → (asBytes v).length < 60000
  circuitId : ∀ v, request.circuitId = some v → (asBytes v).length < 60000
  nodeId : ∀ v, request.nodeId = some v → (asBytes v).length < 60000

/-- A request that presents what wrapping returned, with the fields it was given. -/
structure Presents (payload : UnwrapV2Request) (request : WrapV2Request) (outcome : WrapSecretOutcome) : Prop where
  handle : payload.handle = outcome.handle
  redeemToken : payload.redeemToken = outcome.redeemToken
  tenantId : payload.tenantId = request.tenantId.map trim
  provider : payload.provider = request.provider.map trim
  circuitId : payload.circuitId = request.circuitId.map trim
  nodeId : payload.nodeId = request.nodeId.map trim

theorem length_wrapCaveats_le (request : WrapV2Request) (expiresAt : Option DateTime) :
    (wrapCaveats request expiresAt).length ≤ 7 := by
  have hfield : ∀ (caveat : String → Caveat) (field : Option String), (fieldCaveat caveat field).length ≤ 1 := by
    intro caveat field
    unfold fieldCaveat
    cases (field.bind normalizeOptionalString).map caveat <;> simp
  have htenant := hfield .tenantId request.tenantId
  have hprovider := hfield .provider request.provider
  have hcircuit := hfield .circuitId request.circuitId
  have hnode := hfield .nodeId request.nodeId
  have hexpires : (expiresAt.map Caveat.expires).toList.length ≤ 1 := by cases expiresAt <;> simp
  simp only [wrapCaveats, List.length_append, List.length_cons, List.length_nil]
  omega

/-- A caveat over a short field has a length that fits its two bytes. -/
theorem length_labelled_lt {key value : String} (hkey : (asBytes key).length ≤ 10)
    (hvalue : (asBytes value).length < 60000) : (asBytes (Caveat.labelled key value)).length < 65536 := by
  rw [Caveat.length_asBytes_labelled]
  omega

theorem length_encode_wrapCaveats (hchrono : env.chrono.Lawful) {request : WrapV2Request} (hshort : request.Short)
    {expiresAt : Option DateTime} (hexpires : ∀ t, expiresAt = some t → t.Rfc3339) :
    ∀ c ∈ wrapCaveats request expiresAt, (asBytes (c.encode env.chrono)).length < 65536 := by
  have htrim : ∀ v, (asBytes v).length < 60000 → (asBytes (trim v)).length < 60000 := fun v hv =>
    (length_asBytes_trim_le v).trans_lt hv
  apply forall_wrapCaveats
  · exact fun v hv => length_labelled_lt (by decide) (htrim v (hshort.tenantId v hv))
  · exact fun v hv => length_labelled_lt (by decide) (htrim v (hshort.provider v hv))
  · exact fun v hv => length_labelled_lt (by decide) (htrim v (hshort.circuitId v hv))
  · exact fun v hv => length_labelled_lt (by decide) (htrim v (hshort.nodeId v hv))
  · exact fun t ht => length_labelled_lt (by decide) ((hchrono.length_toRfc3339 (hexpires t ht)).trans_lt (by decide))
  · exact length_labelled_lt (by decide) (by decide)
  · exact length_labelled_lt (by decide) (by decide)

/-- The handle of a wrapped secret reads back. -/
theorem parse_wrapHandle (hchrono : env.chrono.Lawful) {request : WrapV2Request} (hshort : request.Short)
    {expiresAt : Option DateTime} (hexpires : ∀ t, expiresAt = some t → t.Rfc3339) (id : Uuid) :
    parseHandleV2 (env.mintHandle id (wrapCaveats request expiresAt)) =
      .ok (Macaroon.mint env.mac (env.rootKey id) id (wrapCaveats request expiresAt)) := by
  apply parseHandleV2_handleV2
  constructor
  · rw [Macaroon.mint, List.length_map]
    exact (length_wrapCaveats_le request expiresAt).trans_lt (by decide)
  · intro text htext
    obtain ⟨c, hc, rfl⟩ := List.mem_map.mp htext
    exact length_encode_wrapCaveats hchrono hshort hexpires c hc

theorem checkField_self (name v : String) : CaveatVerifier.checkField name v (some v) = .ok () := if_pos rfl

theorem checkField_map_trim (name : String) {field presented : Option String} (h : presented = field.map trim)
    {v : String} (hv : field = some v) : CaveatVerifier.checkField name (trim v) presented = .ok () := by
  rw [h, hv]
  exact checkField_self name (trim v)

/-- The handle of a wrapped secret verifies for whoever presents it with its fields. -/
theorem verify_wrapHandle (hchrono : env.chrono.Lawful) {payload : UnwrapV2Request} {request : WrapV2Request}
    {outcome : WrapSecretOutcome} (hpresents : Presents payload request outcome) {expiresAt : Option DateTime}
    (hexpires : ∀ t, expiresAt = some t → t.Rfc3339) {now : DateTime} (hnow : ∀ t, expiresAt = some t → now ≤ t)
    (keys : List (DischargeKeyRef Bytes)) (rootKey : Block 32) (id : Uuid) :
    (Macaroon.mint env.mac rootKey id (wrapCaveats request expiresAt)).verify env.mac rootKey
      (unwrapVerifier now payload keys) = .ok () := by
  apply Macaroon.verify_mint
  · intro c hc
    apply Caveat.parse_encode
    revert c
    exact forall_wrapCaveats (fun _ _ => trivial) (fun _ _ => trivial) (fun _ _ => trivial) (fun _ _ => trivial)
      (fun t ht => hchrono.parse_toRfc3339 (hexpires t ht)) trivial trivial
  · apply forall_wrapCaveats
    · exact fun v hv _ => checkField_map_trim _ hpresents.tenantId hv
    · exact fun v hv _ => checkField_map_trim _ hpresents.provider hv
    · exact fun v hv _ => checkField_map_trim _ hpresents.circuitId hv
    · exact fun v hv _ => checkField_map_trim _ hpresents.nodeId hv
    · exact fun t ht _ => if_neg (not_lt.mpr (hnow t ht))
    · exact fun _ => checkField_self "action" "unwrap"
    · exact fun _ => rfl

/-- No deadline that the record carries has passed. The lease counts for a renewable secret. -/
structure InTime (r : StoredEnvelopeRecord) (now : DateTime) : Prop where
  expiresAt : ∀ t, r.expiresAt = some t → now ≤ t
  lease : r.lifecycle = .renewableLease → ∀ t, r.leaseExpiresAt = some t → now ≤ t
  redeem : ∀ t, r.redeemExpiresAt = some t → now ≤ t
  signingKey : ∀ t, r.signingKeyExpiresAt = some t → now ≤ t

/-- An expiry that a request was granted is at most the longest lifetime later. -/
theorem enforceTtl_eq_ok {ttlSeconds ttl : Option UInt64} {createdAt : DateTime} {expiresAt : Option DateTime}
    (h : enforceTtl env ttlSeconds createdAt = .ok (expiresAt, ttl)) (hcreated : createdAt.nanos < 1000000000)
    {t : DateTime} (ht : expiresAt = some t) :
    t.secs ≤ createdAt.secs + env.broker.maxHandleTtl ∧ t.nanos = createdAt.nanos := by
  cases ttlSeconds with
  | none =>
      cases h
      cases ht
  | some secs =>
      simp only [enforceTtl, Eff.except_bind_eq_ok, Eff.rejectIf_eq_ok, Eff.okOr_eq_ok, pure, Except.pure,
        Except.ok.injEq, Prod.mk.injEq] at h
      obtain ⟨-, -, -, hmax, x, hx, rfl, -⟩ := h
      cases ht
      unfold DateTime.addSeconds at hx
      split_ifs at hx
      cases hx
      rw [DateTime.later_of_lt hcreated]
      refine ⟨?_, rfl⟩
      simp only
      omega

/-- While it has not passed, the expiry of a wrapped secret is a time that RFC 3339 can write. -/
theorem rfc3339_expiresAt {ttlSeconds ttl : Option UInt64} {createdAt now : DateTime} {expiresAt : Option DateTime}
    (h : enforceTtl env ttlSeconds createdAt = .ok (expiresAt, ttl)) (hmax : env.broker.maxHandleTtl ≤ 24 * 365 * 3600)
    (hcreated : createdAt.OnClock) (hclock : now.OnClock) {t : DateTime} (ht : expiresAt = some t) (hnow : now ≤ t) :
    t.Rfc3339 := by
  obtain ⟨hsecs, hnanos⟩ := enforceTtl_eq_ok h hcreated.2.2 ht
  have hlower : now.secs ≤ t.secs := by
    by_contra hlt
    exact not_lt.mpr hnow (DateTime.lt_iff.mpr (Or.inl (not_le.mp hlt)))
  obtain ⟨hcreated₀, hcreated₁, hcreated₂⟩ := hcreated
  refine ⟨hclock.1.trans hlower, ?_, ?_⟩
  · omega
  · omega

/-- An unwrap of a handle that was issued by `i`, with record `r` at that time, by an admitted caller who
presents what wrapping returned. No disk access fails. -/
structure AuthorisedUnwrap (i : Issuance) (request : WrapV2Request) (outcome : WrapSecretOutcome)
    (r : StoredEnvelopeRecord) (u : UnwrapDraws) (c : BrokerClientContext) (payload : UnwrapV2Request) : Prop where
  presents : Presents payload request outcome
  admitted : Admitted i c
  unused : r.redeemUsed = false
  notRevoked : r.revoked = false
  clock : u.verifierNow.OnClock
  verifierInTime : InTime r u.verifierNow
  inTime : InTime r u.now
  loads : u.load.disk = .ok
  keyLoads : u.keyLoadFails = false
  marks : u.markDisk = .ok

theorem accessed_evolves (env : Env) (d : LoadDraws) (r : StoredEnvelopeRecord) :
    Evolves env.serde r (accessed env d r) :=
  ⟨⟨rfl, ⟨1, rfl⟩, id, id, fun _ => ⟨rfl, rfl⟩⟩, rfl, rfl, fun _ hk => Or.inl hk⟩

/-- The record `r` of `s'` under the handle that was drawn is a later state of the one in `s`, and so is its key. -/
structure StoredSince (serde : Serde) (d : PersistDraws) (s s' : Broker) (r : StoredEnvelopeRecord) : Prop where
  stored : s'.records d.handleId = some r
  evolves : ∃ r₁, s.records d.handleId = some r₁ ∧ Evolves serde r₁ r
  key : s'.kyberTree d.envelopeKeyId.toString = s.kyberTree d.envelopeKeyId.toString

section

variable {createdAt : DateTime} {d : PersistDraws} {context : BrokerClientContext} {request : WrapV2Request}

/-- Whatever is requested after a wrap, the record that it left only takes steps. -/
theorem wrapped_steps {before later : List Call} {outcome : WrapSecretOutcome} {s₁ : Broker}
    (hwrap : wrapSecretV2Impl env createdAt d context request (Broker.empty.after env before) = (.ok outcome, s₁))
    (hfresh : FreshUuids (before ++ .wrap createdAt d context request :: later)) {r : StoredEnvelopeRecord}
    (hr : (Broker.empty.after env (before ++ .wrap createdAt d context request :: later)).records d.handleId = some r) :
    (∃ r₁, s₁.records d.handleId = some r₁ ∧ RecordSteps env.serde r₁ r) ∧
      (Broker.empty.after env (before ++ .wrap createdAt d context request :: later)).kyberTree d.envelopeKeyId.toString =
        s₁.kyberTree d.envelopeKeyId.toString := by
  have hafter : Broker.empty.after env (before ++ [.wrap createdAt d context request]) = s₁ := by
    rw [Broker.after_append, Broker.after_cons, Broker.after_nil, Call.exec, Eff.bind_of_ok hwrap]
    rfl
  have hsplit : before ++ .wrap createdAt d context request :: later =
      (before ++ [.wrap createdAt d context request]) ++ later := by simp
  have hdrawn : ∀ id ∈ d.uuids, id ∈ (before ++ [Call.wrap createdAt d context request]).flatMap Call.uuids := by
    intro id hid
    simp only [List.flatMap_append, List.mem_append, List.flatMap_cons, List.flatMap_nil, List.append_nil, Call.uuids]
    exact Or.inr hid
  rw [hsplit] at hfresh hr ⊢
  have hsteps := after_recordSteps env Broker.empty hfresh (hdrawn d.handleId (by simp [PersistDraws.uuids])) r hr
  have hkey := after_kyberTree env Broker.empty hfresh (hdrawn d.envelopeKeyId (by simp [PersistDraws.uuids]))
  rw [hafter] at hsteps hkey
  exact ⟨hsteps, hkey⟩

theorem wrapped_storedSince {before later : List Call} {outcome : WrapSecretOutcome} {s₁ : Broker}
    (hwrap : wrapSecretV2Impl env createdAt d context request (Broker.empty.after env before) = (.ok outcome, s₁))
    (hfresh : FreshUuids (before ++ .wrap createdAt d context request :: later)) {r : StoredEnvelopeRecord}
    (hr : (Broker.empty.after env (before ++ .wrap createdAt d context request :: later)).records d.handleId = some r) :
    StoredSince env.serde d s₁ (Broker.empty.after env (before ++ .wrap createdAt d context request :: later)) r := by
  obtain ⟨⟨r₁, hr₁, hsteps⟩, hkey⟩ := wrapped_steps hwrap hfresh hr
  exact ⟨hr, ⟨r₁, hr₁, hsteps.evolves⟩, hkey⟩

/-- The record of a wrapped secret carries the identity of this wrap, since no other request draws the same
handle. -/
theorem wrapped_issuedBy {before later : List Call}
    (hfresh : FreshUuids (before ++ .wrap createdAt d context request :: later)) {r : StoredEnvelopeRecord}
    (hr : (Broker.empty.after env (before ++ .wrap createdAt d context request :: later)).records d.handleId = some r) :
    IssuedBy ⟨d.handleId, context, request.lifecycle, request.unwrapPrincipalId⟩ r := by
  obtain ⟨call, hcall, i, hi, hid, hissued⟩ := stored_issued env _ hr
  obtain rfl := hfresh.issuance_unique hcall (List.mem_append_right _ List.mem_cons_self) hi rfl hid
  cases hi
  exact hissued

variable {outcome : WrapSecretOutcome} {s s₁ s₂ : Broker} {r : StoredEnvelopeRecord}

/-- The record of a wrapped secret is redeemable for as long as it is not consumed, and it stays signed if its metadata
are of a kind that reads back. -/
theorem wrapped_redeemable (hlaw : env.Lawful)
    (hwrap : wrapSecretV2Impl env createdAt d context request s = (.ok outcome, s₁))
    (hsince : StoredSince env.serde d s₁ s₂ r) (hunused : r.redeemUsed = false) (load : LoadDraws) :
    ∃ expiresAt ttl unwrapPrincipalId, enforceTtl env request.ttlSeconds createdAt = .ok (expiresAt, ttl) ∧
      outcome.handle = env.mintHandle d.handleId (wrapCaveats request expiresAt) ∧
      outcome.redeemToken = Base64.standard.encode
        (env.redeemToken d.handleId (redeemBindingBytes env request.lifecycle context) d.redeemNonce.val).val ∧
      Redeemable env d context (wrapInput env createdAt request expiresAt unwrapPrincipalId) s₂.kyberTree
        (accessed env load r) ∧
      ((∀ v, request.metadata = some v → v.NoFraction ∧ ∃ members, v = .object members) →
        verifyEnvelope env (accessed env load r) = .ok ()) := by
  obtain ⟨expiresAt, ttl, unwrapPrincipalId, stored, s', httl, hpersist, hrecords, htree, hhandle, htoken⟩ :=
    wrap_eq_ok env hwrap
  obtain ⟨r₀, hr₀, hmeta, hsealed⟩ := persist_sealed hlaw hpersist
  -- the record has only evolved since it was sealed, and its key is still there
  obtain ⟨r₁, hr₁, hevolves⟩ := hsince.evolves
  rw [hrecords, hr₀] at hr₁
  cases hr₁
  have hkey := hsince.key
  rw [htree] at hkey
  obtain ⟨hredeemable, hsigned⟩ := hsealed _ hkey
  have hlater := trans_of (Evolves env.serde) hevolves (accessed_evolves env load r)
  refine ⟨expiresAt, ttl, unwrapPrincipalId, httl, hhandle, htoken, hredeemable.evolves hlater hunused,
    fun hmetadata => ?_⟩
  apply verifyEnvelope_evolves hsigned hlater
  rw [hmeta]
  exact reloadMetadata_of_noFraction hlaw hmetadata

/-- The handle that was returned still reads back, and it verifies for whoever presents it with its fields
before it expires. -/
theorem wrapped_verifies (hlaw : env.Lawful) (hchrono : env.chrono.Lawful)
    (hmax : env.broker.maxHandleTtl ≤ 24 * 365 * 3600)
    (hwrap : wrapSecretV2Impl env createdAt d context request s = (.ok outcome, s₁))
    (hsince : StoredSince env.serde d s₁ s₂ r) (hcreated : createdAt.OnClock) (hshort : request.Short)
    (hunused : r.redeemUsed = false) {payload : UnwrapV2Request} (hpresents : Presents payload request outcome)
    {now : DateTime} (hclock : now.OnClock) (hnow : ∀ t, r.expiresAt = some t → now ≤ t) :
    ∃ mac, parseHandleV2 payload.handle = .ok mac ∧ mac.identifier = d.handleId ∧
      ∀ load, verifyHandle env now payload mac (accessed env load r) = .ok () := by
  obtain ⟨expiresAt, ttl, _, httl, hhandle, -, hredeemable, -⟩ :=
    wrapped_redeemable hlaw hwrap hsince hunused ⟨.ok, now, now⟩
  have hexpires : r.expiresAt = expiresAt := hredeemable.expiresAt
  have hverifier : ∀ t, expiresAt = some t → now ≤ t := fun t ht => hnow t (hexpires.trans ht)
  have hrfc : ∀ t, expiresAt = some t → t.Rfc3339 := fun t ht =>
    rfc3339_expiresAt httl hmax hcreated hclock ht (hverifier t ht)
  have hmac := parse_wrapHandle hchrono hshort hrfc d.handleId
  rw [← hhandle, ← hpresents.handle] at hmac
  refine ⟨_, hmac, rfl, fun load => ?_⟩
  obtain ⟨keys, hkeys⟩ := hredeemable.dischargeKeys_ok
  have hsame : dischargeKeysForRecord env (accessed env load r) = .ok keys := hkeys
  rw [verifyHandle, hsame, Eff.ok_bind, Eff.except_mapError_eq_ok]
  exact verify_wrapHandle hchrono hpresents hrfc hverifier keys _ _

/-- Whatever has been requested since the wrap, all checks of an authorised unwrap pass. -/
theorem authorised_checks_ok (hlaw : env.Lawful) (hchrono : env.chrono.Lawful)
    (hmax : env.broker.maxHandleTtl ≤ 24 * 365 * 3600)
    (hwrap : wrapSecretV2Impl env createdAt d context request s = (.ok outcome, s₁))
    (hsince : StoredSince env.serde d s₁ s₂ r) (hcreated : createdAt.OnClock) (hshort : request.Short)
    (hmetadata : ∀ v, request.metadata = some v → v.NoFraction ∧ ∃ members, v = .object members)
    (hissued : IssuedBy ⟨d.handleId, context, request.lifecycle, request.unwrapPrincipalId⟩ r)
    {u : UnwrapDraws} {c : BrokerClientContext} {payload : UnwrapV2Request}
    (hauth : AuthorisedUnwrap ⟨d.handleId, context, request.lifecycle, request.unwrapPrincipalId⟩ request outcome r u c
      payload) :
    ∃ mac, parseHandleV2 payload.handle = .ok mac ∧ mac.identifier = d.handleId ∧
      unwrapChecks env s₂.kyberTree u c payload mac (accessed env u.load r) = .ok request.plaintext := by
  obtain ⟨expiresAt, ttl, unwrapPrincipalId, -, -, htoken, hredeemable, hsigned⟩ :=
    wrapped_redeemable hlaw hwrap hsince hauth.unused u.load
  obtain ⟨mac, hmac, hid, hverifies⟩ := wrapped_verifies hlaw hchrono hmax hwrap hsince hcreated hshort hauth.unused
    hauth.presents hauth.clock hauth.verifierInTime.expiresAt
  have hissued' := hissued.advances (accessed_evolves env u.load r).toAdvances
  refine ⟨mac, hmac, hid, (unwrapChecks_eq_ok env).mpr
    ⟨hverifies u.load, hauth.notRevoked, ?_, ?_, ?_, ?_, hsigned hmetadata, ?_, ?_⟩⟩
  · rw [← Bool.not_eq_true, StoredEnvelopeRecord.not_isExpired_iff]
    exact hauth.inTime.expiresAt
  · exact hauth.admitted.identity hissued'
  · exact checkLease_eq_ok.mpr hauth.inTime.lease
  · exact checkSigningKey_eq_ok.mpr hauth.inTime.signingKey
  · rw [hid, hauth.presents.redeemToken, htoken]
    exact (hredeemable.checkRedeemToken_eq_ok hauth.admitted.exporter hauth.unused).mpr hauth.inTime.redeem
  · rw [hauth.keyLoads]
    exact hredeemable.opens c hauth.admitted.exporter

/-- **An authorised unwrap returns the wrapped secret**: `before` and `later` are any requests before the
wrap and between it and the unwrap. The longest lifetime of a handle is the one that the service is started
with. -/
theorem unwrap_returns_wrapped (hlaw : env.Lawful) (hchrono : env.chrono.Lawful)
    (hmax : env.broker.maxHandleTtl ≤ 24 * 365 * 3600) (before later : List Call) {outcome : WrapSecretOutcome}
    {s₁ : Broker}
    (hwrap : wrapSecretV2Impl env createdAt d context request (Broker.empty.after env before) = (.ok outcome, s₁))
    (hfresh : FreshUuids (before ++ .wrap createdAt d context request :: later)) (hcreated : createdAt.OnClock)
    (hshort : request.Short)
    (hmetadata : ∀ v, request.metadata = some v → v.NoFraction ∧ ∃ members, v = .object members)
    {r : StoredEnvelopeRecord}
    (hr : (Broker.empty.after env (before ++ .wrap createdAt d context request :: later)).records d.handleId = some r)
    {u : UnwrapDraws} {c : BrokerClientContext} {payload : UnwrapV2Request}
    (hauth : AuthorisedUnwrap ⟨d.handleId, context, request.lifecycle, request.unwrapPrincipalId⟩ request outcome r u c
      payload) :
    ∃ s', unwrapSecretV2Impl env u c payload
        (Broker.empty.after env (before ++ .wrap createdAt d context request :: later)) =
      (.ok { plaintext := Base64.standard.encode request.plaintext }, s') := by
  obtain ⟨mac, hmac, hid, hchecks⟩ :=
    authorised_checks_ok hlaw hchrono hmax hwrap (wrapped_storedSince hwrap hfresh hr) hcreated hshort hmetadata
      (wrapped_issuedBy hfresh hr) hauth
  rw [← hid] at hr
  exact unwrap_of_checks env hmac hauth.loads (fun _ => hauth.marks) hr hchecks

end

/-- An unwrap within the hour, on a disk that works. -/
def plainUnwrap : UnwrapDraws := ⟨⟨.ok, ⟨60, 0⟩, ⟨60, 0⟩⟩, ⟨60, 0⟩, ⟨60, 0⟩, false, .ok⟩

/-- What the caller of `plainRequest` presents. -/
def plainPayload (outcome : WrapSecretOutcome) : UnwrapV2Request :=
  ⟨outcome.handle, outcome.redeemToken, some (trim "acme"), none, none, none, []⟩

theorem plain_admitted (handleId : Uuid) (lifecycle : SecretLifecycle) :
    Admitted ⟨handleId, plainContext, lifecycle, none⟩ plainContext where
  transport := rfl
  principal := ⟨"alice", plain_unwrapPrincipal lifecycle, plain_principal⟩
  exporter _ := rfl
  lineage _ := ⟨⟨[2], rfl, fun _ => rfl⟩, fun _ h => h⟩

theorem plainRequest_short (lifecycle : SecretLifecycle) : (plainRequest lifecycle).Short where
  tenantId v hv := by cases hv; decide
  provider v hv := by cases hv
  circuitId v hv := by cases hv
  nodeId v hv := by cases hv

/-- The caller of `plainRequest` is authorised for an hour. -/
theorem plain_authorised (handleId : Uuid) (lifecycle : SecretLifecycle) (outcome : WrapSecretOutcome)
    {r : StoredEnvelopeRecord} (hunused : r.redeemUsed = false) (hrevoked : r.revoked = false)
    (hexpires : r.expiresAt = none) (hlease : r.leaseExpiresAt = none) (hredeem : r.redeemExpiresAt = some ⟨3600, 0⟩)
    (hsigning : r.signingKeyExpiresAt = none) :
    AuthorisedUnwrap ⟨handleId, plainContext, lifecycle, none⟩ (plainRequest lifecycle) outcome r plainUnwrap
      plainContext (plainPayload outcome) := by
  have hintime : InTime r ⟨60, 0⟩ := by
    refine ⟨fun t ht => ?_, fun _ t ht => ?_, fun t ht => ?_, fun t ht => ?_⟩
    · rw [hexpires] at ht
      cases ht
    · rw [hlease] at ht
      cases ht
    · rw [hredeem] at ht
      cases ht
      decide
    · rw [hsigning] at ht
      cases ht
  exact ⟨⟨rfl, rfl, rfl, rfl, rfl, rfl⟩, plain_admitted handleId lifecycle, hunused, hrevoked,
    ⟨by decide, by decide, by decide⟩, hintime, hintime, rfl, rfl, rfl⟩

theorem unwrap_returns_wrapped_plain : ∃ outcome s₁ s',
    wrapSecretV2Impl plainEnv ⟨0, 0⟩ (plainDraws (.filled 1) (.filled 2) (.filled 3)) plainContext
      (plainRequest .singleUseUnwrap) Broker.empty = (.ok outcome, s₁) ∧
    unwrapSecretV2Impl plainEnv plainUnwrap plainContext (plainPayload outcome) s₁ =
      (.ok { plaintext := Base64.standard.encode [1, 2, 3] }, s') := by
  obtain ⟨outcome, r, s₁, hwrap, hrecords, hunused, hrevoked, -, hexpires, hlease, hredeem, hsigning⟩ :=
    plain_wrap (.filled 1) (.filled 2) (.filled 3) .singleUseUnwrap (s := Broker.empty) (by decide)
  have hafter : Broker.empty.after plainEnv ([] ++ [.wrap ⟨0, 0⟩ (plainDraws (.filled 1) (.filled 2) (.filled 3))
      plainContext (plainRequest .singleUseUnwrap)]) = s₁ := by
    rw [List.nil_append, Broker.after_cons, Broker.after_nil, Call.exec, Eff.bind_of_ok hwrap]
    rfl
  obtain ⟨s', hunwrap⟩ := unwrap_returns_wrapped plainEnv_lawful Chrono.packed_lawful (by decide) [] [] hwrap (by decide)
    ⟨by decide, by decide, by decide⟩ (plainRequest_short _) (fun v hv => by cases hv) (r := r)
    (by rw [hafter, hrecords]; exact Function.update_self _ _ _)
    (plain_authorised _ _ outcome hunused hrevoked hexpires hlease hredeem hsigning)
  rw [hafter] at hunwrap
  exact ⟨outcome, s₁, s', hwrap, hunwrap⟩

/-- The request that wraps the secret of `plainRequest`. -/
def plainWrap (lifecycle : SecretLifecycle) : Call :=
  .wrap ⟨0, 0⟩ (plainDraws (.filled 1) (.filled 2) (.filled 3)) plainContext (plainRequest lifecycle)

/-- The UUIDs of a wrap differ, and unwrapping draws none. -/
theorem plain_fresh (lifecycle : SecretLifecycle) {later : List Call} (hlater : later.flatMap Call.uuids = []) :
    FreshUuids (plainWrap lifecycle :: later) := by
  rw [FreshUuids, List.flatMap_cons, hlater, List.append_nil]
  change (plainDraws (.filled 1) (.filled 2) (.filled 3)).uuids.Nodup
  decide

/-- The record that the wrap leaves. -/
theorem plain_wrapped (lifecycle : SecretLifecycle) : ∃ outcome r,
    wrapSecretV2Impl plainEnv ⟨0, 0⟩ (plainDraws (.filled 1) (.filled 2) (.filled 3)) plainContext
      (plainRequest lifecycle) Broker.empty = (.ok outcome, Broker.empty.after plainEnv [plainWrap lifecycle]) ∧
    (Broker.empty.after plainEnv [plainWrap lifecycle]).records (.filled 1) = some r ∧ r.redeemUsed = false ∧
    r.revoked = false ∧ r.lifecycle = lifecycle ∧ r.expiresAt = none ∧ r.leaseExpiresAt = none ∧
    r.redeemExpiresAt = some ⟨3600, 0⟩ ∧ r.signingKeyExpiresAt = none := by
  obtain ⟨outcome, r, s₁, hwrap, hrecords, hrecord⟩ :=
    plain_wrap (.filled 1) (.filled 2) (.filled 3) lifecycle (s := Broker.empty) (by decide)
  have hafter : Broker.empty.after plainEnv [plainWrap lifecycle] = s₁ := by
    rw [Broker.after_cons, Broker.after_nil, plainWrap, Call.exec, Eff.bind_of_ok hwrap]
    rfl
  refine ⟨outcome, r, by rw [hafter, hwrap], ?_, hrecord⟩
  rw [hafter, hrecords]
  exact Function.update_self _ _ _

/-- The other handlers accept the handle of the wrap and its caller. -/
theorem plain_identified {lifecycle : SecretLifecycle} {later : List Call} (hlater : later.flatMap Call.uuids = [])
    {outcome : WrapSecretOutcome} {s₁ : Broker}
    (hwrap : wrapSecretV2Impl plainEnv ⟨0, 0⟩ (plainDraws (.filled 1) (.filled 2) (.filled 3)) plainContext
      (plainRequest lifecycle) Broker.empty = (.ok outcome, s₁)) {r : StoredEnvelopeRecord}
    (hr : (Broker.empty.after plainEnv (plainWrap lifecycle :: later)).records (.filled 1) = some r)
    (hunused : r.redeemUsed = false) (hexpires : r.expiresAt = none) :
    parseHandleIdentifier plainEnv outcome.handle = .ok (.filled 1) ∧
      validateV2RecordIdentityRequirements r plainContext = .ok () := by
  have hfresh : FreshUuids ([] ++ plainWrap lifecycle :: later) := plain_fresh lifecycle hlater
  have hclock : (⟨60, 0⟩ : DateTime).OnClock := ⟨by decide, by decide, by decide⟩
  obtain ⟨mac, hmac, hid, hverifies⟩ := wrapped_verifies plainEnv_lawful Chrono.packed_lawful (by decide) hwrap
    (wrapped_storedSince hwrap hfresh hr) ⟨by decide, by decide, by decide⟩ (plainRequest_short _) hunused
    (⟨rfl, rfl, rfl, rfl, rfl, rfl⟩ : Presents (plainPayload outcome) _ outcome) hclock (by simp [hexpires])
  constructor
  · have hparsed := parseHandleIdentifier_of_verifyHandle hmac (hverifies ⟨.ok, ⟨60, 0⟩, ⟨60, 0⟩⟩)
    rwa [hid] at hparsed
  · exact (plain_admitted (.filled 1) lifecycle).identity (wrapped_issuedBy hfresh hr)

/-- After the wrap, an unwrap within the hour passes all checks. -/
theorem plain_checks (lifecycle : SecretLifecycle) : ∃ outcome r mac,
    wrapSecretV2Impl plainEnv ⟨0, 0⟩ (plainDraws (.filled 1) (.filled 2) (.filled 3)) plainContext
      (plainRequest lifecycle) Broker.empty = (.ok outcome, Broker.empty.after plainEnv [plainWrap lifecycle]) ∧
    (Broker.empty.after plainEnv [plainWrap lifecycle]).records (.filled 1) = some r ∧ r.redeemUsed = false ∧
    r.lifecycle = lifecycle ∧ parseHandleV2 outcome.handle = .ok mac ∧ mac.identifier = .filled 1 ∧
    unwrapChecks plainEnv (Broker.empty.after plainEnv [plainWrap lifecycle]).kyberTree plainUnwrap plainContext
      (plainPayload outcome) mac (accessed plainEnv plainUnwrap.load r) = .ok [1, 2, 3] := by
  obtain ⟨outcome, r, hwrap, hr, hunused, hrevoked, hlifecycle, hexpires, hlease, hredeem, hsigning⟩ :=
    plain_wrapped lifecycle
  have hfresh : FreshUuids ([] ++ [plainWrap lifecycle]) := plain_fresh lifecycle rfl
  obtain ⟨mac, hmac, hid, hchecks⟩ := authorised_checks_ok plainEnv_lawful Chrono.packed_lawful (by decide) hwrap
    (wrapped_storedSince hwrap hfresh hr) ⟨by decide, by decide, by decide⟩ (plainRequest_short _)
    (fun v hv => by cases hv) (wrapped_issuedBy hfresh hr)
    (plain_authorised _ _ outcome hunused hrevoked hexpires hlease hredeem hsigning)
  exact ⟨outcome, r, mac, hwrap, hr, hunused, hlifecycle, hmac, hid, hchecks⟩

/-- So the unwrap succeeds. -/
theorem plain_unwrap (lifecycle : SecretLifecycle) : ∃ outcome r mac s,
    (Broker.empty.after plainEnv [plainWrap lifecycle]).records mac.identifier = some r ∧ r.lifecycle = lifecycle ∧
    parseHandleV2 (plainPayload outcome).handle = .ok mac ∧ mac.identifier = .filled 1 ∧
    unwrapSecretV2Impl plainEnv plainUnwrap plainContext (plainPayload outcome)
      (Broker.empty.after plainEnv [plainWrap lifecycle]) =
        (.ok { plaintext := Base64.standard.encode [1, 2, 3] }, s) := by
  obtain ⟨outcome, r, mac, -, hr, -, hlifecycle, hmac, hid, hchecks⟩ := plain_checks lifecycle
  have hhandle : parseHandleV2 (plainPayload outcome).handle = .ok mac := hmac
  rw [← hid] at hr
  obtain ⟨s, hunwrap⟩ := unwrap_of_checks plainEnv hhandle rfl (fun _ => rfl) hr hchecks
  exact ⟨outcome, r, mac, s, hr, hlifecycle, hhandle, hid, hunwrap⟩

end SecretBroker

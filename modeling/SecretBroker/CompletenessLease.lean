import SecretBroker.Completeness

/-! Renewable secrets. Their token is not consumed, so an active lease serves one unwrap after the other.
The token itself has a deadline that is fixed when the secret is sealed: no renewal moves it. -/

open Wire Register

namespace SecretBroker

variable {env : Env}

/-- The token of a renewable secret is only lost when the secret is revoked. -/
def TokenKept (r : StoredEnvelopeRecord) : Prop :=
  r.lifecycle = .renewableLease → r.redeemUsed = true → r.revoked = true

theorem RecordStep.tokenKept {serde : Serde} {r r' : StoredEnvelopeRecord} (h : RecordStep serde r r')
    (hkept : TokenKept r) : TokenKept r' := by
  cases h with
  | load | renewLease | appendCaveatKey => exact hkept
  | markRedeemUsed hl => exact fun hl' => absurd hl' hl
  | revoke => exact fun _ _ => rfl
  | claim hclaim =>
      obtain ⟨assignments, rfl⟩ := SealedStore.claim_changes hclaim
      exact hkept

theorem RecordSteps.tokenKept {serde : Serde} {r r' : StoredEnvelopeRecord} (h : RecordSteps serde r r')
    (hkept : TokenKept r) : TokenKept r' := by
  induction h with
  | refl => exact hkept
  | tail _ hstep ih => exact hstep.tokenKept ih

section

variable {createdAt : DateTime} {d : PersistDraws} {context : BrokerClientContext} {request : WrapV2Request}

/-- So a renewable secret that is not revoked can be redeemed. -/
theorem wrapped_unused {before later : List Call} {outcome : WrapSecretOutcome} {s₁ : Broker}
    (hwrap : wrapSecretV2Impl env createdAt d context request (Broker.empty.after env before) = (.ok outcome, s₁))
    (hfresh : FreshUuids (before ++ .wrap createdAt d context request :: later))
    (hlifecycle : request.lifecycle = .renewableLease) {r : StoredEnvelopeRecord}
    (hr : (Broker.empty.after env (before ++ .wrap createdAt d context request :: later)).records d.handleId = some r)
    (hrevoked : r.revoked = false) : r.redeemUsed = false := by
  obtain ⟨⟨r₁, hr₁, hsteps⟩, -⟩ := wrapped_steps hwrap hfresh hr
  obtain ⟨_, _, _, _, _, -, hpersist, hrecords, -⟩ := wrap_eq_ok env hwrap
  obtain ⟨_, _, _, _, _, _, _, _, -, -, -, rfl, -⟩ := persist_eq_ok env hpersist
  rw [hrecords, Broker.putRecord_records_self] at hr₁
  cases hr₁
  have hlease : r.lifecycle = .renewableLease := (wrapped_issuedBy hfresh hr).lifecycle.trans hlifecycle
  by_contra hused
  have hkept := hsteps.tokenKept (fun _ h => by cases h) hlease (eq_true_of_ne_false hused)
  rw [hrevoked] at hkept
  cases hkept

/-- An unwrap of an active lease: by the principal that the secret is bound to, with the token that was
issued, with a handle whose caveats are satisfied. No deadline has passed but perhaps that of the token, and
no disk access fails. -/
structure LeaseUnwrap (env : Env) (i : Issuance) (outcome : WrapSecretOutcome) (r : StoredEnvelopeRecord)
    (u : UnwrapDraws) (c : BrokerClientContext) (payload : UnwrapV2Request) : Prop where
  handle : ∃ mac, parseHandleV2 payload.handle = .ok mac ∧ mac.identifier = i.handleId ∧
    verifyHandle env u.verifierNow payload mac (accessed env u.load r) = .ok ()
  redeemToken : payload.redeemToken = outcome.redeemToken
  admitted : Admitted i c
  notRevoked : r.revoked = false
  expiresAt : ∀ t, r.expiresAt = some t → u.now ≤ t
  lease : ∀ t, r.leaseExpiresAt = some t → u.now ≤ t
  signingKey : ∀ t, r.signingKeyExpiresAt = some t → u.now ≤ t
  loads : u.load.disk = .ok
  keyLoads : u.keyLoadFails = false

/-- **An active lease unwraps exactly until its token's deadline**, provided that the envelope that was
signed is the one that is read back. `later` are any requests between the wrap and the unwrap: renewals,
attenuations, other unwraps. -/
theorem active_lease_unwraps_iff (hlaw : env.Lawful) (before later : List Call) {outcome : WrapSecretOutcome}
    {s₁ : Broker}
    (hwrap : wrapSecretV2Impl env createdAt d context request (Broker.empty.after env before) = (.ok outcome, s₁))
    (hfresh : FreshUuids (before ++ .wrap createdAt d context request :: later))
    (hlifecycle : request.lifecycle = .renewableLease) {r : StoredEnvelopeRecord}
    (hr : (Broker.empty.after env (before ++ .wrap createdAt d context request :: later)).records d.handleId = some r)
    {u : UnwrapDraws} {c : BrokerClientContext} {payload : UnwrapV2Request}
    (h : LeaseUnwrap env ⟨d.handleId, context, request.lifecycle, request.unwrapPrincipalId⟩ outcome r u c payload) :
    (∃ s', unwrapSecretV2Impl env u c payload
        (Broker.empty.after env (before ++ .wrap createdAt d context request :: later)) =
      (.ok { plaintext := Base64.standard.encode request.plaintext }, s')) ↔
    (∀ t, r.redeemExpiresAt = some t → u.now ≤ t) ∧ verifyEnvelope env (accessed env u.load r) = .ok () := by
  have hunused := wrapped_unused hwrap hfresh hlifecycle hr h.notRevoked
  obtain ⟨expiresAt, ttl, unwrapPrincipalId, -, -, htoken, hredeemable, -⟩ :=
    wrapped_redeemable hlaw hwrap (wrapped_storedSince hwrap hfresh hr) hunused u.load
  obtain ⟨mac, hmac, hid, hcaveats⟩ := h.handle
  have hpass : checkRedeemToken env u.now c mac.identifier payload.redeemToken (accessed env u.load r) = .ok () ↔
      ∀ t, r.redeemExpiresAt = some t → u.now ≤ t := by
    rw [hid, h.redeemToken, htoken]
    exact hredeemable.checkRedeemToken_eq_ok h.admitted.exporter hunused
  have hstored : (Broker.empty.after env (before ++ .wrap createdAt d context request :: later)).records mac.identifier =
      some r := by
    rw [hid]
    exact hr
  constructor
  · rintro ⟨s', hunwrap⟩
    obtain ⟨mac', stored, plaintext, hmac', hstored', hchecks, -⟩ := unwrap_eq_ok env hunwrap
    rw [hmac] at hmac'
    cases hmac'
    rw [hstored] at hstored'
    cases hstored'
    obtain ⟨-, -, -, -, -, -, hsigned, hredeem, -⟩ := (unwrapChecks_eq_ok env).mp hchecks
    exact ⟨hpass.mp hredeem, hsigned⟩
  · rintro ⟨hdeadline, hsigned⟩
    have hissued := (wrapped_issuedBy hfresh hr).advances (accessed_evolves env u.load r).toAdvances
    have hlease : r.lifecycle = .renewableLease := (wrapped_issuedBy hfresh hr).lifecycle.trans hlifecycle
    have hopen := hredeemable.opens c h.admitted.exporter
    rw [← h.keyLoads] at hopen
    refine unwrap_of_checks env hmac h.loads (absurd hlease) hstored ((unwrapChecks_eq_ok env).mpr
      ⟨hcaveats, h.notRevoked, ?_, ?_, ?_, ?_, hsigned, hpass.mpr hdeadline, hopen⟩)
    · rw [← Bool.not_eq_true, StoredEnvelopeRecord.not_isExpired_iff]
      exact h.expiresAt
    · exact h.admitted.identity hissued
    · exact checkLease_eq_ok.mpr fun _ => h.lease
    · exact checkSigningKey_eq_ok.mpr h.signingKey

end

/-- An unwrap at some time, on a disk that works. -/
def plainUnwrapAt (t : DateTime) : UnwrapDraws := ⟨⟨.ok, t, t⟩, t, t, false, .ok⟩

/-- The renewable secret of `plainRequest` has an active lease as long as its record says so. -/
theorem plain_leaseUnwrap {later : List Call} (hlater : later.flatMap Call.uuids = []) {outcome : WrapSecretOutcome}
    {s₁ : Broker} (hwrap : wrapSecretV2Impl plainEnv ⟨0, 0⟩ (plainDraws (.filled 1) (.filled 2) (.filled 3)) plainContext
      (plainRequest .renewableLease) Broker.empty = (.ok outcome, s₁)) {r : StoredEnvelopeRecord}
    (hr : (Broker.empty.after plainEnv (plainWrap .renewableLease :: later)).records (.filled 1) = some r)
    (hrevoked : r.revoked = false) (hexpires : r.expiresAt = none) (hsigning : r.signingKeyExpiresAt = none)
    {t : DateTime} (hclock : t.OnClock) (hlease : ∀ lease, r.leaseExpiresAt = some lease → t ≤ lease) :
    LeaseUnwrap plainEnv ⟨.filled 1, plainContext, .renewableLease, none⟩ outcome r (plainUnwrapAt t) plainContext
      (plainPayload outcome) := by
  have hfresh : FreshUuids ([] ++ plainWrap .renewableLease :: later) := plain_fresh .renewableLease hlater
  have hunused := wrapped_unused hwrap hfresh rfl hr hrevoked
  have hnever : ∀ x, r.expiresAt = some x → t ≤ x := by simp [hexpires]
  obtain ⟨mac, hmac, hid, hverifies⟩ := wrapped_verifies plainEnv_lawful Chrono.packed_lawful (by decide) hwrap
    (wrapped_storedSince hwrap hfresh hr) ⟨by decide, by decide, by decide⟩ (plainRequest_short _) hunused
    (⟨rfl, rfl, rfl, rfl, rfl, rfl⟩ : Presents (plainPayload outcome) _ outcome) hclock hnever
  exact {
    handle := ⟨mac, hmac, hid, hverifies _⟩
    redeemToken := rfl
    admitted := plain_admitted (.filled 1) .renewableLease
    notRevoked := hrevoked
    expiresAt := hnever
    lease := hlease
    signingKey := by simp [hsigning]
    loads := rfl
    keyLoads := rfl }

/-- Its envelope stays signed. -/
theorem plain_signed {later : List Call} (hlater : later.flatMap Call.uuids = []) {outcome : WrapSecretOutcome}
    {s₁ : Broker} (hwrap : wrapSecretV2Impl plainEnv ⟨0, 0⟩ (plainDraws (.filled 1) (.filled 2) (.filled 3)) plainContext
      (plainRequest .renewableLease) Broker.empty = (.ok outcome, s₁)) {r : StoredEnvelopeRecord}
    (hr : (Broker.empty.after plainEnv (plainWrap .renewableLease :: later)).records (.filled 1) = some r)
    (hrevoked : r.revoked = false) (load : LoadDraws) : verifyEnvelope plainEnv (accessed plainEnv load r) = .ok () := by
  have hfresh : FreshUuids ([] ++ plainWrap .renewableLease :: later) := plain_fresh .renewableLease hlater
  have hunused := wrapped_unused hwrap hfresh rfl hr hrevoked
  obtain ⟨_, _, _, -, -, -, -, hsigned⟩ :=
    wrapped_redeemable plainEnv_lawful hwrap (wrapped_storedSince hwrap hfresh hr) hunused load
  exact hsigned fun v hv => by cases hv

theorem active_lease_unwraps_iff_plain : ∃ outcome s',
    wrapSecretV2Impl plainEnv ⟨0, 0⟩ (plainDraws (.filled 1) (.filled 2) (.filled 3)) plainContext
      (plainRequest .renewableLease) Broker.empty =
        (.ok outcome, Broker.empty.after plainEnv [plainWrap .renewableLease]) ∧
    unwrapSecretV2Impl plainEnv (plainUnwrapAt ⟨60, 0⟩) plainContext (plainPayload outcome)
      (Broker.empty.after plainEnv [plainWrap .renewableLease]) =
        (.ok { plaintext := Base64.standard.encode [1, 2, 3] }, s') := by
  obtain ⟨outcome, r, hwrap, hr, -, hrevoked, -, hexpires, hlease, hredeem, hsigning⟩ := plain_wrapped .renewableLease
  have hfresh : FreshUuids ([] ++ [plainWrap .renewableLease]) := plain_fresh .renewableLease rfl
  have hactive := plain_leaseUnwrap rfl hwrap hr hrevoked hexpires hsigning (t := ⟨60, 0⟩)
    ⟨by decide, by decide, by decide⟩ (by simp [hlease])
  have hsigned := plain_signed rfl hwrap hr hrevoked (plainUnwrapAt ⟨60, 0⟩).load
  have hdeadline : ∀ t, r.redeemExpiresAt = some t → (⟨60, 0⟩ : DateTime) ≤ t := by
    intro t ht
    rw [hredeem] at ht
    cases ht
    decide
  obtain ⟨s', hunwrap⟩ := (active_lease_unwraps_iff plainEnv_lawful [] [] hwrap hfresh rfl hr hactive).mpr
    ⟨hdeadline, hsigned⟩
  exact ⟨outcome, s', hwrap, hunwrap⟩

/-- The record that a renewal reads and writes back. -/
def renewed (env : Env) (d : RenewDraws) (newLease : DateTime) (r : StoredEnvelopeRecord) : StoredEnvelopeRecord :=
  { env.serde.reload (accessed env d.load r) with
    leaseExpiresAt := some (cappedLease r.expiresAt newLease)
    leaseRenewalCount := SealedStore.saturatingSucc r.leaseRenewalCount
    lastAccessed := some d.storeNow }

/-- A renewal by the bound principal moves the end of the lease, but not past the hard expiry, and nothing
else that an unwrap looks at. -/
theorem renewLease_of_checks (d : RenewDraws) {c : BrokerClientContext} (payload : RenewLeaseRequest) {id : Uuid}
    {r : StoredEnvelopeRecord} {newLease : DateTime} {s : Broker}
    (hid : parseHandleIdentifier env payload.handle = .ok id) (hr : s.records id = some r)
    (hduration : ¬ (payload.leaseDurationSeconds = 0 ∨ payload.leaseDurationSeconds > 86400 * 30))
    (hrevoked : r.revoked = false) (hlifecycle : r.lifecycle = .renewableLease) (hexpires : r.isExpired d.now = false)
    (hidentity : validateV2RecordIdentityRequirements r c = .ok ())
    (hlease : d.now.addSeconds (asI64 payload.leaseDurationSeconds) = some newLease) (hload : d.load.disk = .ok)
    (hrenew : d.renewDisk = .ok) :
    ∃ response s', renewLeaseImpl env d c payload s = (.ok response, s') ∧
      response.leaseExpiresAt = cappedLease r.expiresAt newLease ∧ s'.records id = some (renewed env d newLease r) := by
  have hnotRevoked : ¬ (accessed env d.load r).revoked = true := by
    change ¬ r.revoked = true
    rw [hrevoked]
    decide
  have hrenewable : ¬ (accessed env d.load r).lifecycle ≠ .renewableLease := not_not.mpr hlifecycle
  have hlive : ¬ (accessed env d.load r).isExpired d.now = true := by
    change ¬ r.isExpired d.now = true
    rw [hexpires]
    decide
  have hloaded : loadRecord env d.load id s =
      (.ok (accessed env d.load r), s.putRecord id (some (accessed env d.load r))) :=
    (loadRecord_eq_ok env).mpr ⟨hload, r, hr, rfl, rfl⟩
  have hstored : perform d.renewDisk id (SealedStore.renewLease env.serde (cappedLease r.expiresAt newLease) d.storeNow)
      (s.putRecord id (some (accessed env d.load r))) = (.ok (renewed env d newLease r),
        (s.putRecord id (some (accessed env d.load r))).putRecord id (some (renewed env d newLease r))) := by
    refine perform_eq_ok.mpr ⟨hrenew, ?_, ?_⟩
    · rw [Broker.putRecord_records_self]
      rfl
    · rw [Broker.putRecord_records_self]
      rfl
  simp only [renewLeaseImpl, Eff.bind_eq_ok, check_eq_ok, checkTime_eq_ok, Eff.mapError_eq_ok, Eff.rejectIf_eq_ok,
    recordTransparency, Eff.modify_eq_ok, Eff.pure_eq_ok]
  refine ⟨_, _, ⟨(), s, ⟨hduration, rfl⟩, id, s, ⟨hid, rfl⟩, _, _, hloaded, (), _, ⟨hnotRevoked, rfl⟩, (), _,
    ⟨hrenewable, rfl⟩, (), _, ⟨hlive, rfl⟩, (), _, ⟨hidentity, rfl⟩, newLease, _, ⟨hlease, rfl⟩, _, _, hstored,
      (), _, rfl, rfl,
    rfl⟩, rfl, ?_⟩
  split_ifs
  · exact Broker.putRecord_records_self _ _ _
  · exact Broker.putRecord_records_self _ _ _

/-- A successful unwrap is in time for the token's deadline. -/
theorem LeaseUnwrap.redeem_inTime {i : Issuance} {outcome : WrapSecretOutcome} {r : StoredEnvelopeRecord} {u : UnwrapDraws}
    {c : BrokerClientContext} {payload : UnwrapV2Request} (h : LeaseUnwrap env i outcome r u c payload) {s s' : Broker}
    (hr : s.records i.handleId = some r) {response : UnwrapResponse}
    (hunwrap : unwrapSecretV2Impl env u c payload s = (.ok response, s')) :
    ∀ t, r.redeemExpiresAt = some t → u.now ≤ t := by
  obtain ⟨mac, hmac, hid, -⟩ := h.handle
  obtain ⟨mac', stored, plaintext, hmac', hstored, hchecks, -⟩ := unwrap_eq_ok env hunwrap
  rw [hmac] at hmac'
  cases hmac'
  rw [hid, hr] at hstored
  cases hstored
  obtain ⟨-, -, -, -, -, -, -, htoken, -⟩ := (unwrapChecks_eq_ok env).mp hchecks
  simp only [checkRedeemToken, Eff.except_bind_eq_ok, Eff.rejectIf_eq_ok, Eff.okOr_eq_ok, gt_iff_lt, not_lt] at htoken
  obtain ⟨_, -, _, -, -, -, deadline, hdeadline, -, hnow, -⟩ := htoken
  intro t ht
  have hsame : (accessed env u.load r).redeemExpiresAt = some t := ht
  rw [hsame] at hdeadline
  cases hdeadline
  exact hnow

/-- The renewal of a plain lease after a minute, for a day. -/
def plainRenew (outcome : WrapSecretOutcome) : Call :=
  .renewLease ⟨⟨.ok, ⟨60, 0⟩, ⟨60, 0⟩⟩, ⟨60, 0⟩, ⟨60, 0⟩, .ok⟩ plainContext ⟨outcome.handle, 86400⟩

/-- The record of a plain lease once it was renewed. -/
theorem plain_renewed : ∃ outcome r,
    wrapSecretV2Impl plainEnv ⟨0, 0⟩ (plainDraws (.filled 1) (.filled 2) (.filled 3)) plainContext
      (plainRequest .renewableLease) Broker.empty =
        (.ok outcome, Broker.empty.after plainEnv [plainWrap .renewableLease]) ∧
    (Broker.empty.after plainEnv [plainWrap .renewableLease, plainRenew outcome]).records (.filled 1) = some r ∧
    r.revoked = false ∧ r.expiresAt = none ∧ r.leaseExpiresAt = some ⟨86460, 0⟩ ∧
    r.redeemExpiresAt = some ⟨3600, 0⟩ ∧ r.signingKeyExpiresAt = none := by
  obtain ⟨outcome, r, hwrap, hr, hunused, hrevoked, hlifecycle, hexpires, -, hredeem, hsigning⟩ :=
    plain_wrapped .renewableLease
  obtain ⟨hhandle, hidentity⟩ := plain_identified rfl hwrap hr hunused hexpires
  have hduration : ¬ ((86400 : UInt64) = 0 ∨ (86400 : UInt64) > 86400 * 30) := by decide
  have hnewLease : (⟨60, 0⟩ : DateTime).addSeconds (asI64 86400) = some ⟨86460, 0⟩ := by decide
  obtain ⟨response, s₂, hrenew, -, hr₂⟩ := renewLease_of_checks
    ⟨⟨.ok, ⟨60, 0⟩, ⟨60, 0⟩⟩, ⟨60, 0⟩, ⟨60, 0⟩, .ok⟩ ⟨outcome.handle, 86400⟩ hhandle hr
    hduration hrevoked hlifecycle (by simp [StoredEnvelopeRecord.isExpired, hexpires]) hidentity hnewLease rfl rfl
  have hafter : Broker.empty.after plainEnv [plainWrap .renewableLease, plainRenew outcome] = s₂ := by
    rw [Broker.after_cons, Broker.after_cons, Broker.after_nil, plainRenew, Call.exec]
    exact congrArg Prod.snd (Eff.bind_of_ok hrenew)
  rw [← hafter] at hr₂
  refine ⟨outcome, _, hwrap, hr₂, hrevoked, hexpires, ?_, hredeem, hsigning⟩
  simp only [renewed, hexpires, cappedLease]

/-- Two hours after the wrap the token is dead, although the lease was renewed for a day. -/
theorem lease_outlives_token : ∃ outcome r,
    wrapSecretV2Impl plainEnv ⟨0, 0⟩ (plainDraws (.filled 1) (.filled 2) (.filled 3)) plainContext
      (plainRequest .renewableLease) Broker.empty =
        (.ok outcome, Broker.empty.after plainEnv [plainWrap .renewableLease]) ∧
    (Broker.empty.after plainEnv [plainWrap .renewableLease, plainRenew outcome]).records (.filled 1) = some r ∧
    r.leaseExpiresAt = some ⟨86460, 0⟩ ∧
    LeaseUnwrap plainEnv ⟨.filled 1, plainContext, .renewableLease, none⟩ outcome r (plainUnwrapAt ⟨7200, 0⟩) plainContext
      (plainPayload outcome) ∧
    verifyEnvelope plainEnv (accessed plainEnv (plainUnwrapAt ⟨7200, 0⟩).load r) = .ok () ∧
    ∀ response s', unwrapSecretV2Impl plainEnv (plainUnwrapAt ⟨7200, 0⟩) plainContext (plainPayload outcome)
      (Broker.empty.after plainEnv [plainWrap .renewableLease, plainRenew outcome]) ≠ (.ok response, s') := by
  obtain ⟨outcome, r, hwrap, hr, hrevoked, hexpires, hlease, hredeem, hsigning⟩ := plain_renewed
  have hactive := plain_leaseUnwrap rfl hwrap hr hrevoked hexpires hsigning (t := ⟨7200, 0⟩)
    ⟨by decide, by decide, by decide⟩ (fun lease hl => by rw [hlease] at hl; cases hl; decide)
  have hsigned := plain_signed rfl hwrap hr hrevoked (plainUnwrapAt ⟨7200, 0⟩).load
  have hlate : ∀ s : Broker, s.records (.filled 1) = some r → ∀ response s',
      unwrapSecretV2Impl plainEnv (plainUnwrapAt ⟨7200, 0⟩) plainContext (plainPayload outcome) s ≠
        (.ok response, s') := by
    intro s hs response s' hunwrap
    exact absurd (hactive.redeem_inTime hs hunwrap ⟨3600, 0⟩ hredeem) (by decide)
  exact ⟨outcome, r, hwrap, hr, hlease, hactive, hsigned, hlate _ hr⟩

end SecretBroker

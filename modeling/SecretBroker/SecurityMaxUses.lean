import SecretBroker.SecurityRedemption
import SecretBroker.SecurityAttenuation

/-! The caveat `max_uses = 1`. No handler counts the uses of a handle: the count that an unwrap presents is always one, and
what makes a secret single-use is that its token is consumed. The token of a renewable secret is not, so the caveat
restricts only handles of the other secrets. -/

open Wire

namespace SecretBroker

/-- The third-party caveat that a request asks for, under the key id that is drawn for it. -/
def thirdPartyCaveats (d : AttenuateDraws) (payload : AttenuateV2Request) : List Caveat :=
  payload.thirdParty.toList.map fun tp => .thirdParty (trim tp.location) d.keyId.toString

theorem thirdPartyCaveat_eq_ok {env : Env} {d : AttenuateDraws} {handleId : Uuid} {payload : AttenuateV2Request}
    {caveats : List Caveat} {s s' : Broker} (h : thirdPartyCaveat env d handleId payload.thirdParty s = (.ok caveats, s'))
    : caveats = thirdPartyCaveats d payload := by
  unfold thirdPartyCaveats
  cases hthird : payload.thirdParty with
  | none =>
      rw [hthird] at h
      exact (Eff.pure_eq_ok.mp h).1
  | some tp =>
      rw [hthird] at h
      simp only [thirdPartyCaveat, addThirdParty, Eff.bind_eq_ok, check_eq_ok, Eff.okOr_eq_ok, Eff.pure_eq_ok,
        normalizeOptionalString_eq_some] at h
      obtain ⟨_, _, ⟨location, _, ⟨⟨rfl, -⟩, -⟩, _, _, -, _, _, -, rfl, -⟩, rfl, -⟩ := h
      rfl

/-- What a successful attenuation returns: the handle of the same record with the caveats of the request added. -/
theorem attenuate_eq_ok {env : Env} {d : AttenuateDraws} {context : BrokerClientContext} {payload : AttenuateV2Request}
    {response : AttenuateV2Response} {s s' : Broker}
    (h : attenuateHandleV2Impl env d context payload s = (.ok response, s')) :
    ∃ mac stored firstParty, parseHandleV2 payload.handle = .ok mac ∧ s.records mac.identifier = some stored ∧
      firstPartyCaveats payload = .ok firstParty ∧
      response.handle = handleV2 (mac.attenuate env.mac (firstParty ++ thirdPartyCaveats d payload)) := by
  simp only [attenuateHandleV2Impl, Eff.bind_eq_ok, check_eq_ok, loadRecord_eq_ok, Eff.pure_eq_ok] at h
  obtain ⟨mac, _, ⟨hmac, rfl⟩, _, _, ⟨-, rfl⟩, _, _, ⟨-, stored, hstored, rfl, rfl⟩, _, _, ⟨-, rfl⟩, firstParty, _,
    ⟨hfirst, rfl⟩, thirdParty, s₁, hthird, _, _, ⟨-, -⟩, _, _, -, hresponse, -⟩ := h
  refine ⟨mac, stored, firstParty, hmac, hstored, hfirst, ?_⟩
  rw [hresponse, Macaroon.attenuate, thirdPartyCaveat_eq_ok hthird]

/-- An attenuation without a third party, by whoever may see the secret, succeeds and leaves the record as it is. -/
theorem attenuate_of_checks {env : Env} {d : AttenuateDraws} {context : BrokerClientContext} {payload : AttenuateV2Request}
    {mac : Macaroon String (Block 32)} {stored : StoredEnvelopeRecord} {firstParty : List Caveat} {s : Broker}
    (hmac : parseHandleV2 payload.handle = .ok mac)
    (hsigned : mac.verifySignature env.mac (env.rootKey mac.identifier) = .ok ()) (hload : d.load.disk = .ok)
    (hstored : s.records mac.identifier = some stored)
    (hidentity : validateV2RecordIdentityRequirements (accessed env d.load stored) context = .ok ())
    (hfirst : firstPartyCaveats payload = .ok firstParty) (hne : firstParty ≠ []) (hthird : payload.thirdParty = none) :
    ∃ s', attenuateHandleV2Impl env d context payload s = (.ok ⟨handleV2 (mac.attenuate env.mac firstParty), none⟩, s') ∧
      s'.records = (s.putRecord mac.identifier (some (accessed env d.load stored))).records := by
  refine ⟨(recordTransparency env { transparencyEvent env .attenuate "attenuated" payload.handle none
    (some (accessed env d.load stored).envelope.customerId) context d.load.loggedAt (attenuateMeta d context payload) with
      parentHandleFingerprint := some (handleFingerprint env payload.handle) }
    (s.putRecord mac.identifier (some (accessed env d.load stored)))).2, ?_, ?_⟩
  · simp only [attenuateHandleV2Impl, Eff.bind_eq_ok, check_eq_ok, loadRecord_eq_ok, Eff.pure_eq_ok,
      Eff.rejectIf_eq_ok, Eff.except_mapError_eq_ok, hthird]
    refine ⟨mac, s, ⟨hmac, rfl⟩, (), s, ⟨hsigned, rfl⟩, _, _, ⟨hload, stored, hstored, rfl, rfl⟩, (), _, ⟨hidentity, rfl⟩,
      firstParty, _, ⟨hfirst, rfl⟩, [], _, rfl, (), _, ⟨?_, rfl⟩, (), _, rfl, ?_, rfl⟩
    · rwa [List.append_nil]
    · rw [List.append_nil, Macaroon.attenuate, Option.map_none]
  · rw [recordTransparency, Eff.modify_apply]
    split_ifs
    · rfl
    · rfl

/-- A handler of the run has added `max_uses = 1` to a handle of the record `r` and returned `handle`. -/
def SingleUse (env : Env) (calls : List Call) (handle : String) (r : StoredEnvelopeRecord) : Prop :=
  ∃ (before later : List Call) (d : AttenuateDraws) (context : BrokerClientContext) (payload : AttenuateV2Request)
    (response : AttenuateV2Response) (s' : Broker) (mac : Macaroon String (Block 32)),
    calls = before ++ .attenuate d context payload :: later ∧
    payload.maxUses = some brokerMaxUses ∧
    attenuateHandleV2Impl env d context payload (Broker.empty.after env before) = (.ok response, s') ∧
      response.handle = handle ∧
    parseHandleV2 payload.handle = .ok mac ∧ (Broker.empty.after env before).records mac.identifier = some r

/-- A request to reveal a secret that presents exactly this handle. -/
def Call.Presents (handle : String) : Call → Prop
  | .unwrap _ _ payload => payload.handle = handle
  | .combineShares _ _ _ req => req.handle = handle
  | _ => False

/-- Two requests of the run that present the handle return the plaintext. -/
def UsedTwice (env : Env) (calls : List Call) (handle : String) : Prop :=
  ∃ (before between after : List Call) (first second : Call) (reply reply' : Reply) (s' s'' : Broker),
    calls = before ++ first :: (between ++ second :: after) ∧
    first.Presents handle ∧ first.exec env (Broker.empty.after env before) = (.ok reply, s') ∧
    second.Presents handle ∧ second.exec env (Broker.empty.after env (before ++ first :: between)) = (.ok reply', s'')

/-- The record that an unwrap leaves is terminal unless the secret is renewable. -/
theorem redeemed_terminal (env : Env) (d : UnwrapDraws) {r : StoredEnvelopeRecord} (hl : r.lifecycle ≠ .renewableLease) :
    (redeemed env d r).Terminal := by
  rw [redeemed, if_neg hl]
  exact Or.inr ⟨rfl, hl⟩

/-- A use of a handle that succeeds has found the record of its macaroon, and consumes the token unless the secret is
renewable. -/
theorem Call.Presents.consumes {env : Env} {call : Call} {handle : String} (hcall : call.Presents handle) {reply : Reply}
    {s s' : Broker} (h : call.exec env s = (.ok reply, s')) :
    ∃ mac r r', parseHandleV2 handle = .ok mac ∧ s.records mac.identifier = some r ∧ ¬ r.Terminal ∧
      s'.records mac.identifier = some r' ∧ (r.lifecycle ≠ .renewableLease → r'.Terminal) := by
  cases call with
  | unwrap d context payload =>
      obtain rfl : payload.handle = handle := hcall
      obtain ⟨response, s₁, hunwrap, hreply⟩ := Eff.bind_eq_ok.mp h
      obtain ⟨-, rfl⟩ := Eff.pure_eq_ok.mp hreply
      obtain ⟨mac, stored, plaintext, hmac, hstored, hchecks, -⟩ := unwrap_eq_ok env hunwrap
      refine ⟨mac, stored, redeemed env d stored, hmac, hstored, fun hterminal => ?_, ?_, redeemed_terminal env d⟩
      · exact not_terminal_of_checks hchecks (hterminal.advances (accessed_evolves env d.load stored).toAdvances)
      · rw [(unwrap_stores env hunwrap hmac hstored).1, Broker.putRecord_records_self]
  | combineShares load d context req =>
      obtain rfl : req.handle = handle := hcall
      obtain ⟨response, s₁, hcombine, hreply⟩ := Eff.bind_eq_ok.mp h
      obtain ⟨-, rfl⟩ := Eff.pure_eq_ok.mp hreply
      obtain ⟨id, payload, result, s₂, s₃, hid, hhandle, rfl, hunwrap, -, hrecords⟩ := combineShares_eq_ok env hcombine
      obtain ⟨mac, stored, plaintext, hmac, hstored, hchecks, -⟩ := unwrap_eq_ok env hunwrap
      obtain ⟨mac', hmac', -, rfl⟩ := parseHandleIdentifier_eq_ok.mp hid
      have hleft := (unwrap_stores env hunwrap hmac hstored).1
      rw [hhandle, hmac'] at hmac
      obtain rfl := Except.ok.inj hmac
      -- the custody check has loaded the record once before
      rw [Broker.putRecord_records_self] at hstored
      obtain ⟨r, hr, rfl⟩ := Option.map_eq_some_iff.mp hstored
      have hload := accessed_evolves env load r
      refine ⟨mac', r, redeemed env d (accessed env load r), hmac', hr, fun hterminal => ?_, ?_, fun hl => ?_⟩
      · have hterminal' := hterminal.advances hload.toAdvances
        exact not_terminal_of_checks hchecks (hterminal'.advances (accessed_evolves env d.load _).toAdvances)
      · rw [hrecords, hleft, Broker.putRecord_records_self]
      · have hl' : (accessed env load r).lifecycle ≠ .renewableLease := hl
        exact redeemed_terminal env d hl'
  | _ => exact hcall.elim

/-- An unwrap whose checks pass with a handle still does so when `max_uses = 1` is added to the handle. -/
theorem unwrapChecks_maxUses {env : Env} {kyberTree : String → Option KyberKeyPair} {u : UnwrapDraws}
    {c : BrokerClientContext} {payload : UnwrapV2Request} {mac : Macaroon String (Block 32)} {r : StoredEnvelopeRecord}
    {plaintext : Bytes} (h : unwrapChecks env kyberTree u c payload mac r = .ok plaintext) (handle : String) :
    unwrapChecks env kyberTree u c { payload with handle := handle }
      (mac.attenuate env.mac [.maxUses]) r = .ok plaintext := by
  obtain ⟨hverify, hrest⟩ := (unwrapChecks_eq_ok env).mp h
  refine (unwrapChecks_eq_ok env).mpr ⟨?_, hrest⟩
  simp only [verifyHandle, Eff.except_bind_eq_ok, Eff.except_mapError_eq_ok] at hverify ⊢
  obtain ⟨keys, hkeys, hverify⟩ := hverify
  refine ⟨keys, hkeys, Macaroon.verify_attenuate hverify fun before added after hsplit => ?_⟩
  have hadded : added ∈ [Caveat.maxUses] := hsplit ▸ List.mem_append_right _ List.mem_cons_self
  obtain rfl := List.mem_singleton.mp hadded
  exact ⟨Caveat.parse_encode env.chrono (show Caveat.maxUses.Readable env.chrono from trivial), rfl⟩

/-- The macaroon of the wrapped secret. -/
def plainMac (lifecycle : SecretLifecycle) : Macaroon String (Block 32) :=
  Macaroon.mint plainEnv.mac (plainEnv.rootKey (.filled 1)) (.filled 1) (wrapCaveats (plainRequest lifecycle) none)

/-- Its handle after `max_uses = 1` was added once more. -/
def plainSingleUse (lifecycle : SecretLifecycle) :
    String := handleV2 ((plainMac lifecycle).attenuate plainEnv.mac [.maxUses])

/-- The request that adds it. -/
def plainAttenuate (lifecycle : SecretLifecycle) : Call :=
  .attenuate ⟨⟨.ok, ⟨0, 0⟩, ⟨0, 0⟩⟩, .filled 4, blank 32, ⟨0, 0⟩, .ok⟩ plainContext
    ⟨handleV2 (plainMac lifecycle), none, none, none, none, none, some 1, none⟩

/-- A use of that handle. -/
def plainUse (lifecycle : SecretLifecycle) (outcome : WrapSecretOutcome) : Call :=
  .unwrap plainUnwrap plainContext { plainPayload outcome with handle := plainSingleUse lifecycle }

/-- The record as the wrap leaves it, up to the time of its last access. -/
structure PlainLive (lifecycle : SecretLifecycle) (r : StoredEnvelopeRecord) : Prop where
  unused : r.redeemUsed = false
  notRevoked : r.revoked = false
  lifecycle : r.lifecycle = lifecycle
  expiresAt : r.expiresAt = none
  lease : r.leaseExpiresAt = none
  redeem : r.redeemExpiresAt = some ⟨3600, 0⟩
  signingKey : r.signingKeyExpiresAt = none

theorem PlainLive.accessed {lifecycle : SecretLifecycle} {r : StoredEnvelopeRecord} (h : PlainLive lifecycle r)
    (load : LoadDraws) : PlainLive lifecycle (accessed plainEnv load r) :=
  ⟨h.unused, h.notRevoked, h.lifecycle, h.expiresAt, h.lease, h.redeem, h.signingKey⟩

theorem plainMac_fits (lifecycle : SecretLifecycle) : (plainMac lifecycle).Fits ∧
    ((plainMac lifecycle).attenuate plainEnv.mac [.maxUses]).Fits := by
  have htexts : ∀ texts ∈ [["tenant_id = acme", "action = unwrap", "max_uses = 1"],
      ["tenant_id = acme", "action = unwrap", "max_uses = 1", "max_uses = 1"]],
      texts.length < 65536 ∧ ∀ c ∈ texts, (asBytes c).length < 65536 := by decide
  exact ⟨htexts _ List.mem_cons_self, htexts _ (List.mem_cons_of_mem _ List.mem_cons_self)⟩

theorem plain_handle {lifecycle : SecretLifecycle} {outcome : WrapSecretOutcome} {s₁ : Broker}
    (hwrap : wrapSecretV2Impl plainEnv ⟨0, 0⟩ (plainDraws (.filled 1) (.filled 2) (.filled 3)) plainContext
      (plainRequest lifecycle) Broker.empty = (.ok outcome, s₁)) : outcome.handle = handleV2 (plainMac lifecycle) := by
  obtain ⟨expiresAt, ttl, _, _, _, httl, -, -, -, hhandle, -⟩ := wrap_eq_ok plainEnv hwrap
  cases httl
  exact hhandle

theorem plain_live (lifecycle : SecretLifecycle) : ∃ outcome r,
    wrapSecretV2Impl plainEnv ⟨0, 0⟩ (plainDraws (.filled 1) (.filled 2) (.filled 3)) plainContext (plainRequest lifecycle)
      Broker.empty = (.ok outcome, Broker.empty.after plainEnv [plainWrap lifecycle]) ∧
    (Broker.empty.after plainEnv [plainWrap lifecycle]).records (.filled 1) = some r ∧ PlainLive lifecycle r := by
  obtain ⟨outcome, r, hwrap, hr, hunused, hrevoked, hlifecycle, hexpires, hlease, hredeem, hsigning⟩ :=
    plain_wrapped lifecycle
  exact ⟨outcome, r, hwrap, hr, hunused, hrevoked, hlifecycle, hexpires, hlease, hredeem, hsigning⟩

/-- As long as the record is as it was, an unwrap passes all checks. -/
theorem plainLive_checks {lifecycle : SecretLifecycle} {later : List Call}
    (hfresh : FreshUuids ([] ++ plainWrap lifecycle :: later)) {outcome : WrapSecretOutcome} {s₁ : Broker}
    (hwrap : wrapSecretV2Impl plainEnv ⟨0, 0⟩ (plainDraws (.filled 1) (.filled 2) (.filled 3)) plainContext
      (plainRequest lifecycle) Broker.empty = (.ok outcome, s₁)) {r : StoredEnvelopeRecord}
    (hr : (Broker.empty.after plainEnv (plainWrap lifecycle :: later)).records (.filled 1) = some r)
    (hlive : PlainLive lifecycle r) : parseHandleV2 (plainPayload outcome).handle = .ok (plainMac lifecycle) ∧
      unwrapChecks plainEnv (Broker.empty.after plainEnv (plainWrap lifecycle :: later)).kyberTree plainUnwrap plainContext
        (plainPayload outcome) (plainMac lifecycle) (accessed plainEnv plainUnwrap.load r) = .ok [1, 2, 3] := by
  obtain ⟨mac, hmac, -, hchecks⟩ := authorised_checks_ok plainEnv_lawful Chrono.packed_lawful (by decide) hwrap
    (wrapped_storedSince hwrap hfresh hr) ⟨by decide, by decide, by decide⟩ (plainRequest_short _)
    (fun v hv => by cases hv) (wrapped_issuedBy hfresh hr)
    (plain_authorised _ _ outcome hlive.unused hlive.notRevoked hlive.expiresAt hlive.lease hlive.redeem hlive.signingKey)
  have hparsed : parseHandleV2 (plainPayload outcome).handle = .ok (plainMac lifecycle) := by
    rw [show (plainPayload outcome).handle = handleV2 (plainMac lifecycle) from plain_handle hwrap,
      parseHandleV2_handleV2 (plainMac_fits lifecycle).1]
  rw [hparsed] at hmac
  cases hmac
  exact ⟨hparsed, hchecks⟩

/-- An unwrap of a renewable secret that passes all checks leaves the record as it was. -/
theorem PlainLive.unwrap {r : StoredEnvelopeRecord} (hlive : PlainLive .renewableLease r) {s : Broker}
    (hr : s.records (.filled 1) = some r) {payload : UnwrapV2Request} {mac : Macaroon String (Block 32)}
    (hparsed : parseHandleV2 payload.handle = .ok mac) (hid : mac.identifier = .filled 1)
    (hchecks : unwrapChecks plainEnv s.kyberTree plainUnwrap plainContext payload mac
      (SecretBroker.accessed plainEnv plainUnwrap.load r) = .ok [1, 2, 3]) :
    ∃ s' r', unwrapSecretV2Impl plainEnv plainUnwrap plainContext payload s =
        (.ok { plaintext := Base64.standard.encode [1, 2, 3] }, s') ∧
      s'.records (.filled 1) = some r' ∧ PlainLive .renewableLease r' := by
  rw [← hid] at hr
  obtain ⟨s', hunwrap⟩ := unwrap_of_checks plainEnv hparsed rfl (fun _ => rfl) hr hchecks
  refine ⟨s', SecretBroker.accessed plainEnv plainUnwrap.load r, hunwrap, ?_, hlive.accessed _⟩
  rw [← hid, (unwrap_stores plainEnv hunwrap hparsed hr).1, Broker.putRecord_records_self, redeemed,
    if_pos hlive.lifecycle]

/-- So a use of the handle of a renewable secret succeeds, and the record stays as it was. -/
theorem plainUse_ok {later : List Call} (hfresh : FreshUuids ([] ++ plainWrap .renewableLease :: later))
    {outcome : WrapSecretOutcome} {s₁ : Broker}
    (hwrap : wrapSecretV2Impl plainEnv ⟨0, 0⟩ (plainDraws (.filled 1) (.filled 2) (.filled 3)) plainContext
      (plainRequest .renewableLease) Broker.empty = (.ok outcome, s₁)) {r : StoredEnvelopeRecord}
    (hr : (Broker.empty.after plainEnv (plainWrap .renewableLease :: later)).records (.filled 1) = some r)
    (hlive : PlainLive .renewableLease r) :
    ∃ reply s' r', (plainUse .renewableLease outcome).exec plainEnv
      (Broker.empty.after plainEnv (plainWrap .renewableLease :: later)) = (.ok reply, s') ∧
      s'.records (.filled 1) = some r' ∧ PlainLive .renewableLease r' := by
  have hparsed : parseHandleV2 (plainSingleUse .renewableLease) =
    .ok ((plainMac .renewableLease).attenuate plainEnv.mac [.maxUses]) :=
    parseHandleV2_handleV2 (plainMac_fits .renewableLease).2
  have hid : ((plainMac .renewableLease).attenuate plainEnv.mac [.maxUses]).identifier = .filled 1 := rfl
  have hchecks := unwrapChecks_maxUses (plainLive_checks hfresh hwrap hr hlive).2 (plainSingleUse .renewableLease)
  obtain ⟨s', r', hunwrap, hr', hlive'⟩ := hlive.unwrap hr (by exact hparsed) hid hchecks
  exact ⟨_, s', r', Call.exec_unwrap hunwrap, hr', hlive'⟩

/-- The wrap and the attenuation succeed, and the record is as the wrap left it. -/
theorem plain_attenuated (lifecycle : SecretLifecycle) : ∃ outcome r r',
    wrapSecretV2Impl plainEnv ⟨0, 0⟩ (plainDraws (.filled 1) (.filled 2) (.filled 3)) plainContext (plainRequest lifecycle)
      Broker.empty = (.ok outcome, Broker.empty.after plainEnv [plainWrap lifecycle]) ∧
    (Broker.empty.after plainEnv [plainWrap lifecycle]).records (.filled 1) = some r ∧ r.lifecycle = lifecycle ∧
    (plainAttenuate lifecycle).exec plainEnv (Broker.empty.after plainEnv [plainWrap lifecycle]) =
      (.ok (.attenuated ⟨plainSingleUse lifecycle, none⟩),
        Broker.empty.after plainEnv [plainWrap lifecycle, plainAttenuate lifecycle]) ∧
    (Broker.empty.after plainEnv [plainWrap lifecycle, plainAttenuate lifecycle]).records (.filled 1) = some r' ∧
    PlainLive lifecycle r' := by
  obtain ⟨outcome, r, hwrap, hr, hlive⟩ := plain_live lifecycle
  have hfresh : FreshUuids ([] ++ [plainWrap lifecycle]) := plain_fresh lifecycle rfl
  have hissued : IssuedBy ⟨.filled 1, plainContext, lifecycle, none⟩ r := wrapped_issuedBy hfresh hr
  have hidentity : validateV2RecordIdentityRequirements
    (accessed plainEnv ⟨.ok, ⟨0, 0⟩, ⟨0, 0⟩⟩ r) plainContext = .ok () :=
    (plain_admitted (.filled 1) lifecycle).identity
      (hissued.advances (accessed_evolves plainEnv ⟨.ok, ⟨0, 0⟩, ⟨0, 0⟩⟩ r).toAdvances)
  have hattenuate : ∃ s₂, attenuateHandleV2Impl plainEnv ⟨⟨.ok, ⟨0, 0⟩, ⟨0, 0⟩⟩, .filled 4, blank 32, ⟨0, 0⟩, .ok⟩
    plainContext
      ⟨handleV2 (plainMac lifecycle), none, none, none, none, none, some 1, none⟩
      (Broker.empty.after plainEnv [plainWrap lifecycle]) = (.ok ⟨plainSingleUse lifecycle, none⟩, s₂) ∧
      s₂.records = ((Broker.empty.after plainEnv [plainWrap lifecycle]).putRecord (.filled 1)
        (some (accessed plainEnv ⟨.ok, ⟨0, 0⟩, ⟨0, 0⟩⟩ r))).records :=
    attenuate_of_checks (parseHandleV2_handleV2 (plainMac_fits lifecycle).1)
      ((Macaroon.verifySignature_eq_ok _).mpr rfl) rfl hr
      hidentity rfl (by decide) rfl
  obtain ⟨s₂, hattenuate, hrecords⟩ := hattenuate
  have hexec : (plainAttenuate lifecycle).exec plainEnv (Broker.empty.after plainEnv [plainWrap lifecycle]) =
      (.ok (.attenuated ⟨plainSingleUse lifecycle, none⟩), s₂) := by
    rw [plainAttenuate, Call.exec, Eff.bind_of_ok hattenuate]
    rfl
  have hafter : Broker.empty.after plainEnv ([plainWrap lifecycle] ++ [plainAttenuate lifecycle]) = s₂ := by
    rw [Broker.after_append, Broker.after_cons, Broker.after_nil, hexec]
  refine ⟨outcome, r, accessed plainEnv ⟨.ok, ⟨0, 0⟩, ⟨0, 0⟩⟩ r, hwrap, hr, hlive.lifecycle, ?_, ?_, hlive.accessed _⟩
  · rw [hexec, ← hafter]
    rfl
  · rw [← List.singleton_append, hafter, hrecords, Broker.putRecord_records_self]

/-- The secret is wrapped, its handle is attenuated, and the new handle is used twice. -/
def plainUses (lifecycle : SecretLifecycle) (outcome : WrapSecretOutcome) : List Call :=
  [plainWrap lifecycle, plainAttenuate lifecycle] ++ plainUse lifecycle outcome :: ([] ++ plainUse lifecycle outcome :: [])

theorem plainUses_fresh (lifecycle : SecretLifecycle) (outcome : WrapSecretOutcome) :
    FreshUuids (plainUses lifecycle outcome) := by
  change ((plainDraws (.filled 1) (.filled 2) (.filled 3)).uuids ++ [Uuid.filled 4]).Nodup
  decide

/-- The handle that is used is single-use. -/
theorem plain_singleUse {lifecycle : SecretLifecycle} (outcome : WrapSecretOutcome) {r : StoredEnvelopeRecord}
    (hr : (Broker.empty.after plainEnv [plainWrap lifecycle]).records (.filled 1) = some r)
    (hattenuate : (plainAttenuate lifecycle).exec plainEnv (Broker.empty.after plainEnv [plainWrap lifecycle]) =
      (.ok (.attenuated ⟨plainSingleUse lifecycle, none⟩),
        Broker.empty.after plainEnv [plainWrap lifecycle, plainAttenuate lifecycle])) :
    SingleUse plainEnv (plainUses lifecycle outcome) (plainSingleUse lifecycle) r := by
  obtain ⟨response, s₂, hok, hreply⟩ := Eff.bind_eq_ok.mp hattenuate
  obtain ⟨hresponse, -⟩ := Eff.pure_eq_ok.mp hreply
  refine ⟨[plainWrap lifecycle], [plainUse lifecycle outcome, plainUse lifecycle outcome], _, _, _, response, s₂,
    plainMac lifecycle, rfl, rfl, hok, ?_, parseHandleV2_handleV2 (plainMac_fits lifecycle).1, hr⟩
  rw [← Reply.attenuated.inj hresponse]

/-- **The caveat `max_uses = 1` is enforced** on every handle of a secret that is not a renewable lease: in a whole run, at
most one use of the handle returns the plaintext. -/
theorem max_uses_enforced (env : Env) {calls : List Call} (hfresh : FreshUuids calls) {handle : String}
    {r : StoredEnvelopeRecord} (hsingle : SingleUse env calls handle r) (hlifecycle : r.lifecycle ≠ .renewableLease) :
    ¬ UsedTwice env calls handle := by
  rintro ⟨before, between, after, first, second, reply, reply', s', s'', rfl, hfirst, hexec, hsecond, hexec'⟩
  obtain ⟨mac₁, r₁, r₁', hmac₁, hr₁, -, hr₁', hconsumed⟩ := hfirst.consumes hexec
  obtain ⟨mac₂, r₂, r₂', hmac₂, hr₂, hlive, -, -⟩ := hsecond.consumes hexec'
  rw [hmac₁] at hmac₂
  cases hmac₂
  obtain ⟨issued, rest, d, context, payload, response, _, mac, hcalls, -, hattenuate, rfl, hmac, hr⟩ := hsingle
  have hid : mac₁.identifier = mac.identifier := by
    obtain ⟨mac', _, firstParty, hmac', -, -, hhandle⟩ := attenuate_eq_ok hattenuate
    rw [hmac] at hmac'
    cases hmac'
    rw [hhandle] at hmac₁
    rw [identifier_of_parse hmac₁, Macaroon.attenuate_identifier]
  -- both records carry the lifecycle of the one request that issued the handle
  have hsame : r₁.lifecycle = r.lifecycle := by
    obtain ⟨creating, hcreating, i, hi, hcreated, hissued⟩ := stored_issued env before hr₁
    obtain ⟨creating', hcreating', i', hi', hcreated', hissued'⟩ := stored_issued env issued hr
    have hmem' : creating' ∈ before ++ first :: (between ++ second :: after) := by
      rw [hcalls]
      exact List.mem_append_left _ hcreating'
    obtain rfl := hfresh.issuance_unique (List.mem_append_left _ hcreating) hmem' hi hi'
      (hcreated.trans (hid.trans hcreated'.symm))
    rw [hi] at hi'
    cases hi'
    rw [hissued.lifecycle, hissued'.lifecycle]
  have hterminal := hconsumed (hsame ▸ hlifecycle)
  have hnotdrawn : mac₁.identifier ∉ between.flatMap Call.uuids := by
    have hdrawn : mac₁.identifier ∈ (before ++ [first]).flatMap Call.uuids := by
      rw [List.flatMap_append]
      exact List.mem_append_left _ (stored_drawn env before hr₁)
    rw [List.append_cons] at hfresh
    have hlater := hfresh.not_drawn_later hdrawn
    rw [List.flatMap_append, List.mem_append, not_or] at hlater
    exact hlater.1
  -- the record that the first use has consumed is the one that the second finds
  have hbetween : (Broker.after env s' between).records mac₁.identifier = some r₂ := by
    rw [Broker.after_append, Broker.after_cons, hexec] at hr₂
    exact hr₂
  obtain ⟨r₀, hr₀, hsteps⟩ := (after_steps env between s').follows hnotdrawn r₂ hbetween
  rw [hr₁'] at hr₀
  cases hr₀
  exact hlive (hterminal.advances hsteps.evolves.toAdvances)

/-- A secret that is not renewable: the two uses do not both succeed. -/
theorem max_uses_enforced_plain : ∃ outcome r,
    SingleUse plainEnv (plainUses .serviceBootstrap outcome) (plainSingleUse .serviceBootstrap) r ∧
    ¬ UsedTwice plainEnv (plainUses .serviceBootstrap outcome) (plainSingleUse .serviceBootstrap) := by
  obtain ⟨outcome, r, r', -, hr, hlifecycle, hattenuate, -, -⟩ := plain_attenuated .serviceBootstrap
  have hsingle := plain_singleUse outcome hr hattenuate
  refine ⟨outcome, r, hsingle, max_uses_enforced plainEnv (plainUses_fresh _ outcome) hsingle ?_⟩
  rw [hlifecycle]
  decide

/-- A renewable secret: both uses succeed. -/
theorem max_uses_twice : ∃ outcome r,
    SingleUse plainEnv (plainUses .renewableLease outcome) (plainSingleUse .renewableLease) r ∧
    UsedTwice plainEnv (plainUses .renewableLease outcome) (plainSingleUse .renewableLease) := by
  obtain ⟨outcome, r, r', hwrap, hr, -, hattenuate, hr', hlive⟩ := plain_attenuated .renewableLease
  refine ⟨outcome, r, plain_singleUse outcome hr hattenuate, ?_⟩
  have hfresh : FreshUuids ([] ++ plainWrap .renewableLease :: [plainAttenuate .renewableLease]) := by
    change ((plainDraws (.filled 1) (.filled 2) (.filled 3)).uuids ++ [Uuid.filled 4]).Nodup
    decide
  obtain ⟨reply, s', r₁, hfirst, hr₁, hlive₁⟩ := plainUse_ok hfresh hwrap hr' hlive
  have hfresh' : FreshUuids ([] ++ plainWrap .renewableLease :: ([plainAttenuate .renewableLease] ++
      [plainUse .renewableLease outcome])) := by
    change ((plainDraws (.filled 1) (.filled 2) (.filled 3)).uuids ++ [Uuid.filled 4]).Nodup
    decide
  have hafter : Broker.empty.after plainEnv (plainWrap .renewableLease :: ([plainAttenuate .renewableLease] ++
      [plainUse .renewableLease outcome])) = s' := by
    rw [← List.cons_append, Broker.after_append, Broker.after_cons, Broker.after_nil, hfirst]
  have hr₂ : (Broker.empty.after plainEnv (plainWrap .renewableLease :: ([plainAttenuate .renewableLease] ++
      [plainUse .renewableLease outcome]))).records (.filled 1) = some r₁ := by rw [hafter, hr₁]
  obtain ⟨reply', s'', -, hsecond, -, -⟩ := plainUse_ok hfresh' hwrap hr₂ hlive₁
  have hpresents : (plainUse .renewableLease outcome).Presents (plainSingleUse .renewableLease) :=
    Eq.refl (plainSingleUse _)
  exact ⟨[plainWrap .renewableLease, plainAttenuate .renewableLease], [], [], plainUse .renewableLease outcome,
    plainUse .renewableLease outcome, reply, reply', s', s'', rfl, hpresents, hfirst, hpresents, hsecond⟩

end SecretBroker

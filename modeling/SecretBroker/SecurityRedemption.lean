import SecretBroker.Completeness

/-! What any run of requests guarantees about redemption. A record that has been revoked, consumed or
deleted never yields its plaintext again, and a plaintext goes only to a caller whom the request that
created the handle admits. -/

open Wire Register

namespace SecretBroker

/-- A request of `c` to reveal the secret of a macaroon with identifier `id`. -/
def Call.Redeems (id : Uuid) (c : BrokerClientContext) : Call → Prop
  | .unwrap _ context payload => context = c ∧ ∃ mac, parseHandleV2 payload.handle = .ok mac ∧ mac.identifier = id
  | .combineShares _ _ context req => context = c ∧ ∃ mac, parseHandleV2 req.handle = .ok mac ∧ mac.identifier = id
  | _ => False

/-- A redemption that succeeds has found a record, and the checks have passed on a later state of it. -/
theorem Call.Redeems.exec_eq_ok {env : Env} {id : Uuid} {c : BrokerClientContext} {call : Call}
    (hcall : call.Redeems id c) {reply : Reply} {s s' : Broker} (h : call.exec env s = (.ok reply, s')) :
    ∃ r r', s.records id = some r ∧ Evolves env.serde r r' ∧ ∃ kyberTree u payload mac plaintext,
      unwrapChecks env kyberTree u c payload mac r' = .ok plaintext := by
  cases call with
  | unwrap d context payload =>
      obtain ⟨rfl, mac, hmac, rfl⟩ := hcall
      obtain ⟨response, s₁, hunwrap, -⟩ := Eff.bind_eq_ok.mp h
      obtain ⟨mac', stored, plaintext, hmac', hstored, hchecks, -⟩ := unwrap_eq_ok env hunwrap
      rw [hmac] at hmac'
      cases hmac'
      exact ⟨stored, _, hstored, accessed_evolves env d.load stored, _, _, _, _, _, hchecks⟩
  | combineShares load d context req =>
      obtain ⟨rfl, mac, hmac, rfl⟩ := hcall
      obtain ⟨response, s₁, hcombine, -⟩ := Eff.bind_eq_ok.mp h
      obtain ⟨id', payload, result, s₂, s₃, hid', hhandle, rfl, hunwrap, -⟩ := combineShares_eq_ok env hcombine
      obtain ⟨mac', stored, plaintext, hmac', hstored, hchecks, -⟩ := unwrap_eq_ok env hunwrap
      obtain ⟨mac'', hmac'', -, rfl⟩ := parseHandleIdentifier_eq_ok.mp hid'
      rw [hhandle, hmac] at hmac'
      cases hmac'
      rw [hmac] at hmac''
      cases hmac''
      -- the custody check has loaded the record once before
      rw [Broker.putRecord_records_self] at hstored
      obtain ⟨r, hr, rfl⟩ := Option.map_eq_some_iff.mp hstored
      exact ⟨r, _, hr, trans_of (Evolves env.serde) (accessed_evolves env load r) (accessed_evolves env d.load _),
        _, _, _, _, _, hchecks⟩
  | _ => exact hcall.elim

/-- A record that must not be redeemed any more. -/
def StoredEnvelopeRecord.Terminal (r : StoredEnvelopeRecord) : Prop :=
  r.revoked = true ∨ r.redeemUsed = true ∧ r.lifecycle ≠ .renewableLease

/-- No operation of the store leads out of a terminal state. -/
theorem StoredEnvelopeRecord.Terminal.advances {serde : Serde} {r r' : StoredEnvelopeRecord} (h : r.Terminal)
    (hadv : Advances serde r r') : r'.Terminal := by
  have hlifecycle : r'.lifecycle = r.lifecycle := congrArg (·.lifecycle) hadv.issued
  rcases h with hrevoked | ⟨hused, hl⟩
  · exact Or.inl (hadv.revoked hrevoked)
  · exact Or.inr ⟨hadv.redeemUsed hused, hlifecycle ▸ hl⟩

theorem checkRedeemToken_unused {env : Env} {now : DateTime} {c : BrokerClientContext} {id : Uuid} {token : String}
    {r : StoredEnvelopeRecord} (h : checkRedeemToken env now c id token r = .ok ()) :
    ¬ (r.lifecycle ≠ .renewableLease ∧ r.redeemUsed = true) := by
  simp only [checkRedeemToken, Eff.except_bind_eq_ok, Eff.rejectIf_eq_ok] at h
  obtain ⟨-, -, -, -, -, hunused, -⟩ := h
  exact hunused

/-- The checks of an unwrap reject a terminal record. -/
theorem not_terminal_of_checks {env : Env} {kyberTree : String → Option KyberKeyPair} {u : UnwrapDraws}
    {c : BrokerClientContext} {payload : UnwrapV2Request} {mac : Macaroon String (Block 32)} {r : StoredEnvelopeRecord}
    {plaintext : Bytes} (h : unwrapChecks env kyberTree u c payload mac r = .ok plaintext) : ¬ r.Terminal := by
  obtain ⟨-, hrevoked, -, -, -, -, -, htoken, -⟩ := (unwrapChecks_eq_ok env).mp h
  rintro (hr | ⟨hused, hl⟩)
  · rw [hrevoked] at hr
    cases hr
  · exact checkRedeemToken_unused htoken ⟨hl, hused⟩

/-- **Terminal states are absorbing and yield no plaintext**: once a handle that has existed is revoked,
consumed or deleted, it stays so for the rest of the run, and no later request gets its secret. -/
theorem terminal_absorbing (env : Env) (before later : List Call) (hfresh : FreshUuids (before ++ later)) (id : Uuid)
    (hexisted : ∃ earlier, earlier <+: before ∧ (Broker.empty.after env earlier).records id ≠ none)
    (hterminal : OnRecord StoredEnvelopeRecord.Terminal ((Broker.empty.after env before).records id)) :
    OnRecord StoredEnvelopeRecord.Terminal ((Broker.empty.after env (before ++ later)).records id) ∧
    ((Broker.empty.after env before).records id = none →
      (Broker.empty.after env (before ++ later)).records id = none) ∧
    ∀ (call : Call) (c : BrokerClientContext), call.Redeems id c → ∀ reply s',
      call.exec env (Broker.empty.after env (before ++ later)) ≠ (.ok reply, s') := by
  obtain ⟨earlier, ⟨rest, rfl⟩, hsome⟩ := hexisted
  obtain ⟨r₀, hr₀⟩ := Option.ne_none_iff_exists'.mp hsome
  have hdrawn : id ∈ (earlier ++ rest).flatMap Call.uuids := by
    rw [List.flatMap_append]
    exact List.mem_append_left _ (stored_drawn env earlier hr₀)
  have hfollows := after_evolves env Broker.empty hfresh hdrawn
  have hafter : OnRecord StoredEnvelopeRecord.Terminal
      ((Broker.empty.after env (earlier ++ rest ++ later)).records id) :=
    hterminal.follows (fun r r' hev hr => hr.advances hev.toAdvances) hfollows
  refine ⟨hafter, fun hnone => ?_, fun call c hcall reply s' hok => ?_⟩
  · by_contra hne
    obtain ⟨r', hr'⟩ := Option.ne_none_iff_exists'.mp hne
    obtain ⟨r, hr, -⟩ := hfollows r' hr'
    rw [hnone] at hr
    cases hr
  · obtain ⟨r, r', hr, hev, _, _, _, _, _, hchecks⟩ := hcall.exec_eq_ok hok
    exact not_terminal_of_checks hchecks ((hafter r hr).advances hev.toAdvances)

/-- The single-use secret of `plainRequest` is unwrapped once and not again. -/
theorem terminal_absorbing_consumed : ∃ outcome response s,
    (Call.unwrap plainUnwrap plainContext (plainPayload outcome)).exec plainEnv
      (Broker.empty.after plainEnv [plainWrap .singleUseUnwrap]) = (.ok response, s) ∧
    ∀ reply s', (Call.unwrap plainUnwrap plainContext (plainPayload outcome)).exec plainEnv s ≠ (.ok reply, s') := by
  obtain ⟨outcome, r, mac, s, hr, hlifecycle, hmac, hid, hunwrap⟩ := plain_unwrap .singleUseUnwrap
  have hexec := Call.exec_unwrap hunwrap
  have hafter : Broker.empty.after plainEnv [plainWrap .singleUseUnwrap,
      .unwrap plainUnwrap plainContext (plainPayload outcome)] = s := congrArg Prod.snd hexec
  have hterminal : OnRecord StoredEnvelopeRecord.Terminal (s.records mac.identifier) := by
    obtain ⟨r', hr', hused, hl'⟩ := unwrap_consumes plainEnv hunwrap hmac hr (by rw [hlifecycle]; decide)
    intro r'' hr''
    rw [hr'] at hr''
    cases hr''
    exact Or.inr ⟨hused, by rw [hl', hlifecycle]; decide⟩
  rw [← hafter] at hterminal
  have hredeems : (Call.unwrap plainUnwrap plainContext (plainPayload outcome)).Redeems mac.identifier plainContext :=
    ⟨rfl, mac, hmac, rfl⟩
  have habsorbing := (terminal_absorbing plainEnv [plainWrap .singleUseUnwrap,
    .unwrap plainUnwrap plainContext (plainPayload outcome)] [] (plain_fresh _ rfl) mac.identifier
    ⟨[plainWrap .singleUseUnwrap], ⟨_, rfl⟩, by rw [hr]; simp⟩ hterminal).2.2 _ plainContext hredeems
  rw [List.append_nil, hafter] at habsorbing
  exact ⟨outcome, _, s, hexec, habsorbing⟩

/-- A single-use secret opens only under the exporter it was sealed to. -/
theorem openEnvelope_exporter {env : Env} {i : Issuance} {r : StoredEnvelopeRecord} (hissued : IssuedBy i r)
    (hl : i.lifecycle = .singleUseUnwrap) {kyberTree : String → Option KyberKeyPair} {keyLoadFails : Bool}
    {c : BrokerClientContext} {plaintext : Bytes} (h : openEnvelope env kyberTree keyLoadFails c r = .ok plaintext) :
    c.exporter = i.context.exporter := by
  have hbinding : r.exporterBindingBytes = .ok (some i.context.exporter) := by
    simp only [StoredEnvelopeRecord.exporterBindingBytes, hissued.exporterBinding, newExporterBinding, hl,
      decodeStored_encode]
    rfl
  simp only [openEnvelope, hbinding, Eff.ok_bind, Eff.except_bind_eq_ok, Eff.rejectIf_eq_ok, Option.any_some,
    decide_eq_true_eq, not_not] at h
  obtain ⟨-, hsame, -⟩ := h
  exact hsame.symm

/-- Whoever passes the checks on a record is admitted by the request that issued it. -/
theorem admitted_of_checks {env : Env} {i : Issuance} {r : StoredEnvelopeRecord} (hissued : IssuedBy i r)
    {kyberTree : String → Option KyberKeyPair} {u : UnwrapDraws} {c : BrokerClientContext} {payload : UnwrapV2Request}
    {mac : Macaroon String (Block 32)} {plaintext : Bytes}
    (h : unwrapChecks env kyberTree u c payload mac r = .ok plaintext) : Admitted i c := by
  obtain ⟨-, -, -, hidentity, -, -, -, -, hopen⟩ := (unwrapChecks_eq_ok env).mp h
  obtain ⟨htransport, hprincipal, hlineage⟩ := (identity_eq_ok_iff hissued).mp hidentity
  exact ⟨htransport, hprincipal, fun hl => openEnvelope_exporter hissued hl hopen, hlineage⟩

/-- **A plaintext goes only to the identity fixed at issuance**: the handle was created by exactly one
request of the run, that request admits the caller, and every record that the handle has had on the way
carries the values which that request bound it to. -/
theorem redemption_bound (env : Env) (calls : List Call) (hfresh : FreshUuids calls) {call : Call} {id : Uuid}
    {c : BrokerClientContext} (hcall : call.Redeems id c) {reply : Reply} {s' : Broker}
    (hok : call.exec env (Broker.empty.after env calls) = (.ok reply, s')) :
    ∃ creating ∈ calls, ∃ i, creating.issuance = some i ∧ i.handleId = id ∧
      (∀ other ∈ calls, ∀ i', other.issuance = some i' → i'.handleId = id → other = creating) ∧
      Admitted i c ∧
      (∃ p, normalizedContextPrincipal c = some p ∧ p ≠ "" ∧
        (i.lifecycle = .singleUseUnwrap → normalizedContextPrincipal i.context = some p)) ∧
      ∀ earlier, earlier <+: calls → OnRecord (IssuedBy i) ((Broker.empty.after env earlier).records id) := by
  obtain ⟨r, r', hr, hev, _, _, _, _, _, hchecks⟩ := hcall.exec_eq_ok hok
  obtain ⟨creating, hcreating, i, hi, hid, hissued⟩ := stored_issued env calls hr
  have hadmitted := admitted_of_checks (hissued.advances hev.toAdvances) hchecks
  refine ⟨creating, hcreating, i, hi, hid, fun other hother i' hi' hid' => ?_, hadmitted, ?_, ?_⟩
  · exact hfresh.issuance_unique hother hcreating hi' hi (hid'.trans hid.symm)
  · obtain ⟨p, hbound, hp⟩ := hadmitted.principal
    obtain ⟨-, current, q, hcurrent, hq, hnormal, hsingle, -⟩ := v2UnwrapPrincipal_eq_ok hbound
    cases hq
    refine ⟨p, hp, (normalizeOptionalString_eq_some.mp hnormal).2, fun hl => ?_⟩
    rw [hcurrent, hsingle hl]
  · rintro earlier ⟨rest, rfl⟩ r₀ hr₀
    obtain ⟨call₀, hcall₀, i₀, hi₀, hid₀, hissued₀⟩ := stored_issued env earlier hr₀
    obtain rfl := hfresh.issuance_unique (List.mem_append_left _ hcall₀) hcreating hi₀ hi (hid₀.trans hid.symm)
    rw [hi] at hi₀
    cases hi₀
    exact hissued₀

theorem redemption_bound_plain : ∃ outcome response s,
    (Call.unwrap plainUnwrap plainContext (plainPayload outcome)).exec plainEnv
      (Broker.empty.after plainEnv [plainWrap .serviceBootstrap]) = (.ok response, s) ∧
    ∃ creating ∈ [plainWrap .serviceBootstrap], ∃ i, creating.issuance = some i ∧ i.handleId = .filled 1 ∧
      Admitted i plainContext := by
  obtain ⟨outcome, r, mac, s, hr, -, hmac, hid, hunwrap⟩ := plain_unwrap .serviceBootstrap
  have hexec := Call.exec_unwrap hunwrap
  have hredeems : (Call.unwrap plainUnwrap plainContext (plainPayload outcome)).Redeems (.filled 1) plainContext :=
    ⟨rfl, mac, hmac, hid⟩
  obtain ⟨creating, hcreating, i, hi, hid', -, hadmitted, -⟩ :=
    redemption_bound plainEnv [plainWrap .serviceBootstrap] (plain_fresh _ rfl) hredeems hexec
  exact ⟨outcome, _, s, hexec, creating, hcreating, i, hi, hid', hadmitted⟩

end SecretBroker

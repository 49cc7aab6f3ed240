import SecretBroker.LibInterleave
import SecretBroker.SecurityRedemption

/-! Concurrent requests to unwrap one handle. A request loads the record in one step of the store, checks
and decrypts locally, and consumes the token in another step of the store. Two requests that both load
before either consumes both succeed; at most one succeeds if no request loads a record that it can redeem
while another one is about to redeem it. -/

open Wire Register

namespace SecretBroker

/-- A request to unwrap a macaroon with identifier `id`. -/
structure RedeemTask (id : Uuid) where
  d : UnwrapDraws
  context : BrokerClientContext
  payload : UnwrapV2Request
  mac : Macaroon String (Block 32)
  parses : parseHandleV2 payload.handle = .ok mac
  identifier : mac.identifier = id

/-- How far a request has come. -/
inductive RedeemPhase where
  | start
  | loaded (record : StoredEnvelopeRecord)
  | verified (record : StoredEnvelopeRecord) (plaintext : Bytes)
  | returned (result : Except Failure UnwrapResponse)

def RedeemPhase.Succeeded (p : RedeemPhase) : Prop := ∃ response, p = .returned (.ok response)

namespace RedeemTask

variable (env : Env) {id : Uuid} (t : RedeemTask id)

/-- The local checks and the decryption. -/
def checks (kyberTree : String → Option KyberKeyPair) (record : StoredEnvelopeRecord) : Except ServiceError Bytes :=
  unwrapChecks env kyberTree t.d t.context t.payload t.mac record

/-- The handler from the consumption of the token on. -/
def finish (record : StoredEnvelopeRecord) (plaintext : Bytes) : Eff Broker Failure UnwrapResponse := do
  consumeToken env t.d.markDisk t.mac.identifier record.lifecycle
  recordTransparency env (transparencyEvent env .unwrap "unwrapped" t.payload.handle
    (some record.envelope.envelopeKeyId) (some record.envelope.customerId) t.context t.d.load.loggedAt
    (unwrapMeta t.context record))
  return { plaintext := Base64.standard.encode plaintext }

/-- The next step of the request. -/
def act : RedeemPhase → Broker → RedeemPhase × Broker
  | .start, s =>
      match loadRecord env t.d.load t.mac.identifier s with
      | (.ok record, s') => (.loaded record, s')
      | (.error e, s') => (.returned (.error e), s')
  | .loaded record, s =>
      match t.checks env s.kyberTree record with
      | .ok plaintext => (.verified record plaintext, s)
      | .error e => (.returned (.error (.service e)), s)
  | .verified record plaintext, s =>
      (.returned (t.finish env record plaintext s).1, (t.finish env record plaintext s).2)
  | .returned result, s => (.returned result, s)

theorem act_ne_start (p : RedeemPhase) (s : Broker) : (t.act env p s).1 ≠ .start := by
  cases p with
  | start =>
      rcases hload : loadRecord env t.d.load t.mac.identifier s with ⟨_ | record, s'⟩
      · simp [act, hload]
      · simp [act, hload]
  | loaded record =>
      cases hchecks : t.checks env s.kyberTree record with
      | error e => simp [act, hchecks]
      | ok plaintext => simp [act, hchecks]
  | verified record plaintext => simp [act]
  | returned result => simp [act]

/-- Three steps in a row are the handler. -/
theorem act_act_act (s : Broker) :
    let c₁ := t.act env .start s
    let c₂ := t.act env c₁.1 c₁.2
    t.act env c₂.1 c₂.2 = (.returned (unwrapSecretV2Impl env t.d t.context t.payload s).1,
      (unwrapSecretV2Impl env t.d t.context t.payload s).2) := by
  have hparse : check (parseHandleV2 t.payload.handle) s = (.ok t.mac, s) := check_eq_ok.mpr ⟨t.parses, rfl⟩
  rw [unwrapSecretV2Impl, Eff.bind_of_ok hparse]
  rcases hload : loadRecord env t.d.load t.mac.identifier s with ⟨_ | record, s₁⟩
  · rw [Eff.bind_of_error hload]
    simp only [act, hload]
  · rw [Eff.bind_of_ok hload, Eff.bind_of_ok (Eff.read_apply s₁)]
    cases hchecks : t.checks env s₁.kyberTree record with
    | error e =>
        have herror : check (unwrapChecks env s₁.kyberTree t.d t.context t.payload t.mac record) s₁ =
            (.error (.service e), s₁) := by
          rw [check, Eff.lift_apply]
          exact congrArg (fun x : Except ServiceError Bytes => (x.mapError Failure.service, s₁)) hchecks
        rw [Eff.bind_of_error herror]
        simp only [act, hload, hchecks]
    | ok plaintext =>
        have hok : check (unwrapChecks env s₁.kyberTree t.d t.context t.payload t.mac record) s₁ = (.ok plaintext, s₁) :=
          check_eq_ok.mpr ⟨hchecks, rfl⟩
        rw [Eff.bind_of_ok hok]
        simp only [act, hload, hchecks]
        rfl

/-- A step is framed like a request that draws no UUIDs. -/
theorem act_framed (p : RedeemPhase) (s : Broker) :
    Framed env.serde [] (fun _ _ => True) s (t.act env p s).2 := by
  cases p with
  | start =>
      have hsteps : BrokerSteps env (.drawing []) s (loadRecord env t.d.load t.mac.identifier s).2 :=
        (loadRecord_accesses env t.d.load t.mac.identifier s).steps
      have hframed : Framed env.serde [] (fun _ _ => True) s (loadRecord env t.d.load t.mac.identifier s).2 :=
        framed_of_steps (fun _ _ _ _ _ => trivial) (fun _ _ _ _ _ => trivial) hsteps
      rcases hload : loadRecord env t.d.load t.mac.identifier s with ⟨_ | record, s'⟩
      · rw [hload] at hframed
        simpa only [act, hload] using hframed
      · rw [hload] at hframed
        simpa only [act, hload] using hframed
  | loaded record =>
      cases hchecks : t.checks env s.kyberTree record with
      | error e => simpa only [act, hchecks] using refl_of (Framed env.serde [] fun _ _ => True) s
      | ok plaintext => simpa only [act, hchecks] using refl_of (Framed env.serde [] fun _ _ => True) s
  | verified record plaintext =>
      have hconsume : Eff.Keeps (Framed env.serde [] fun _ _ => True)
          (consumeToken env t.d.markDisk t.mac.identifier record.lifecycle) := consumeToken_framed env _ _ _
      have hrecord : ∀ event, Eff.Keeps (Framed env.serde [] fun _ _ => True) (recordTransparency env event) := by
        intro event s'
        have hsteps : BrokerSteps env (.drawing []) s' (recordTransparency env event s').2 :=
          recordTransparency_steps env event s'
        exact framed_of_steps (fun _ _ _ _ _ => trivial) (fun _ _ _ _ _ => trivial) hsteps
      exact Eff.keeps_bind hconsume (fun _ => Eff.keeps_bind (hrecord _) fun _ => Eff.keeps_pure _) s
  | returned result => exact refl_of (Framed env.serde [] fun _ _ => True) s

theorem act_kyberTree (p : RedeemPhase) (s : Broker) : (t.act env p s).2.kyberTree = s.kyberTree := by
  funext keyId
  exact (t.act_framed env p s).kyberTree keyId fun _ h => by cases h

/-- The request holds a record on which its checks pass. -/
def Redeeming (kyberTree : String → Option KyberKeyPair) : RedeemPhase → Prop
  | .loaded record => ∃ plaintext, t.checks env kyberTree record = .ok plaintext
  | .verified _ _ => True
  | _ => False

/-- The request is about to redeem the handle or has done so. -/
def Engaged (kyberTree : String → Option KyberKeyPair) (p : RedeemPhase) : Prop :=
  t.Redeeming env kyberTree p ∨ p.Succeeded

/-- A request that comes to hold a record it can redeem has found it not terminal. -/
theorem act_start_engaged {s : Broker} (h : t.Engaged env s.kyberTree (t.act env .start s).1) :
    t.Redeeming env s.kyberTree (t.act env .start s).1 ∧ ∃ r, s.records id = some r ∧ ¬ r.Terminal := by
  rcases hload : loadRecord env t.d.load t.mac.identifier s with ⟨e | record, s'⟩
  · simp only [act, hload] at h
    rcases h with h | ⟨response, h⟩
    · exact h.elim
    · cases h
  · simp only [act, hload] at h ⊢
    rcases h with h | ⟨response, h⟩
    · refine ⟨h, ?_⟩
      obtain ⟨plaintext, hchecks⟩ := h
      obtain ⟨-, stored, hstored, rfl, -⟩ := (loadRecord_eq_ok env).mp hload
      rw [t.identifier] at hstored
      refine ⟨stored, hstored, fun hterminal => ?_⟩
      exact not_terminal_of_checks hchecks (hterminal.advances (accessed_evolves env t.d.load stored).toAdvances)
    · cases h

/-- Later steps engage no request that was not engaged. -/
theorem act_engaged {p : RedeemPhase} (hp : p ≠ .start) {s : Broker}
    (h : t.Engaged env s.kyberTree (t.act env p s).1) : t.Engaged env s.kyberTree p := by
  cases p with
  | start => exact absurd rfl hp
  | loaded record =>
      cases hchecks : t.checks env s.kyberTree record with
      | error e =>
          simp only [act, hchecks] at h
          rcases h with h | ⟨response, h⟩
          · exact h.elim
          · cases h
      | ok plaintext => exact Or.inl ⟨plaintext, hchecks⟩
  | verified record plaintext => exact Or.inl trivial
  | returned result => exact h

/-- What a successful consumption leaves behind is terminal. -/
theorem act_succeeded {p : RedeemPhase} (hp : ¬ p.Succeeded) {s : Broker} (h : (t.act env p s).1.Succeeded)
    (hlifecycle : OnRecord (fun r => r.lifecycle ≠ .renewableLease) (s.records id))
    (hloaded : ∀ record plaintext, p = .verified record plaintext → record.lifecycle ≠ .renewableLease) :
    OnRecord StoredEnvelopeRecord.Terminal ((t.act env p s).2.records id) := by
  obtain ⟨response, h⟩ := h
  cases p with
  | start =>
      rcases hload : loadRecord env t.d.load t.mac.identifier s with ⟨e | record, s'⟩
      · simp only [act, hload] at h
        cases h
      · simp only [act, hload] at h
        cases h
  | loaded record =>
      cases hchecks : t.checks env s.kyberTree record with
      | error e =>
          simp only [act, hchecks] at h
          cases h
      | ok plaintext =>
          simp only [act, hchecks] at h
          cases h
  | verified record plaintext =>
      simp only [act, RedeemPhase.returned.injEq] at h
      rcases hfinish : t.finish env record plaintext s with ⟨result, s'⟩
      rw [hfinish] at h
      obtain rfl : result = .ok response := h
      simp only [act, hfinish]
      simp only [finish, Eff.bind_eq_ok, recordTransparency, Eff.modify_eq_ok, Eff.pure_eq_ok, consumeToken,
        if_neg (hloaded record plaintext rfl), Eff.mapError_eq_ok, perform_eq_ok, t.identifier] at hfinish
      obtain ⟨_, _, ⟨-, hmarked, rfl⟩, _, _, rfl, -, rfl⟩ := hfinish
      -- the record that was marked is the one in the store, of the same lifecycle
      have hcell : OnRecord StoredEnvelopeRecord.Terminal
          ((SealedStore.markRedeemUsed env.serde).run (s.records id)).1 := by
        cases hr : s.records id with
        | none =>
            rw [hr] at hmarked
            cases hmarked
        | some r =>
            intro r' hr'
            cases hr'
            exact Or.inr ⟨rfl, hlifecycle r hr⟩
      split_ifs
      · simpa only [Broker.putRecord, Function.update_self] using hcell
      · simpa only [Broker.putRecord, Function.update_self] using hcell
  | returned result => exact absurd ⟨response, h⟩ hp

end RedeemTask

/-- The record that a request holds between its two steps of the store. -/
def RedeemPhase.held : RedeemPhase → Option StoredEnvelopeRecord
  | .loaded record | .verified record _ => some record
  | _ => none

theorem RedeemTask.act_held (env : Env) {id : Uuid} (t : RedeemTask id) {p : RedeemPhase} {s : Broker}
    {record : StoredEnvelopeRecord} (h : (t.act env p s).1.held = some record) :
    p.held = some record ∨ ∃ r, s.records id = some r ∧ record.lifecycle = r.lifecycle := by
  cases p with
  | start =>
      rcases hload : loadRecord env t.d.load t.mac.identifier s with ⟨e | loaded, s'⟩
      · simp only [act, hload] at h
        cases h
      · simp only [act, hload] at h
        cases h
        obtain ⟨-, stored, hstored, rfl, -⟩ := (loadRecord_eq_ok env).mp hload
        rw [t.identifier] at hstored
        exact Or.inr ⟨stored, hstored, rfl⟩
  | loaded loaded =>
      cases hchecks : t.checks env s.kyberTree loaded with
      | error e =>
          simp only [act, hchecks] at h
          cases h
      | ok plaintext =>
          simp only [act, hchecks] at h
          exact Or.inl h
  | verified loaded plaintext => cases h
  | returned result => cases h

/-! ### Runs -/

section

variable {ι : Type} [DecidableEq ι] (env : Env) {id : Uuid} (tasks : ι → RedeemTask id)

/-- The requests as threads on the broker. -/
def redeemAct (i : ι) : RedeemPhase → Broker → RedeemPhase × Broker := (tasks i).act env

/-- No request has started. -/
def redeemStart (s : Broker) : Interleave.Config ι Broker RedeemPhase := ⟨s, fun _ => .start⟩

/-- A request that loads a record it can redeem does so while no request is about to redeem one. -/
def Exclusive (c : Interleave.Config ι Broker RedeemPhase) (i : ι) : Prop :=
  c.phase i = .start → (tasks i).Redeeming env c.shared.kyberTree ((tasks i).act env .start c.shared).1 →
    ∀ j, ¬ (tasks j).Redeeming env c.shared.kyberTree (c.phase j)

/-- At most one request is about to redeem the handle or has done so, and once one has, the record is
terminal. -/
structure RedeemedOnce (c : Interleave.Config ι Broker RedeemPhase) : Prop where
  engaged : ∀ i j, (tasks i).Engaged env c.shared.kyberTree (c.phase i) →
    (tasks j).Engaged env c.shared.kyberTree (c.phase j) → i = j
  consumed : ∀ i, (c.phase i).Succeeded → OnRecord StoredEnvelopeRecord.Terminal (c.shared.records id)
  lifecycle : OnRecord (fun r => r.lifecycle ≠ .renewableLease) (c.shared.records id)
  held : ∀ i record, (c.phase i).held = some record → record.lifecycle ≠ .renewableLease

variable {env tasks}

/-- An exclusive step keeps this. -/
theorem RedeemedOnce.step {c : Interleave.Config ι Broker RedeemPhase} {i : ι} (h : RedeemedOnce env tasks c)
    (hexclusive : Exclusive env tasks c i) : RedeemedOnce env tasks (c.step (redeemAct env tasks) i) := by
  have hfollows := ((tasks i).act_framed env (c.phase i) c.shared).records id List.not_mem_nil
  have htree : (c.step (redeemAct env tasks) i).shared.kyberTree = c.shared.kyberTree :=
    (tasks i).act_kyberTree env (c.phase i) c.shared
  have hself : (c.step (redeemAct env tasks) i).phase i = ((tasks i).act env (c.phase i) c.shared).1 :=
    Function.update_self _ _ _
  have hother : ∀ j, j ≠ i → (c.step (redeemAct env tasks) i).phase j = c.phase j := fun j hj =>
    Function.update_of_ne hj _ _
  -- whoever is engaged after the step was so before it, or has just loaded the record
  have hnew : (tasks i).Engaged env c.shared.kyberTree ((tasks i).act env (c.phase i) c.shared).1 →
      ∀ j, j ≠ i → ¬ (tasks j).Engaged env c.shared.kyberTree (c.phase j) := by
    intro hi j hj hengaged
    by_cases hstart : c.phase i = .start
    · rw [hstart] at hi
      obtain ⟨hredeeming, r, hr, hlive⟩ := (tasks i).act_start_engaged env hi
      rcases hengaged with hengaged | hsucceeded
      · exact hexclusive hstart hredeeming j hengaged
      · exact hlive (h.consumed j hsucceeded r hr)
    · exact hj (h.engaged j i hengaged ((tasks i).act_engaged env hstart hi))
  refine ⟨fun j k hj hk => ?_, fun j hj => ?_, ?_, fun j record hj => ?_⟩
  · rw [htree] at hj hk
    by_cases hji : j = i
    · subst hji
      rw [hself] at hj
      by_contra hne
      rw [hother k (Ne.symm hne)] at hk
      exact hnew hj k (Ne.symm hne) hk
    · rw [hother j hji] at hj
      by_cases hki : k = i
      · subst hki
        rw [hself] at hk
        exact absurd hj (hnew hk j hji)
      · rw [hother k hki] at hk
        exact h.engaged j k hj hk
  · have hkept : ∀ k, (c.phase k).Succeeded →
        OnRecord StoredEnvelopeRecord.Terminal ((c.step (redeemAct env tasks) i).shared.records id) := fun k hk =>
      (h.consumed k hk).follows (fun r r' hev hr => hr.advances hev.toAdvances) hfollows
    by_cases hji : j = i
    · subst hji
      by_cases hbefore : (c.phase j).Succeeded
      · exact hkept j hbefore
      · rw [hself] at hj
        refine (tasks j).act_succeeded env hbefore hj h.lifecycle fun record plaintext hverified => ?_
        exact h.held j record (by rw [hverified]; rfl)
    · rw [hother j hji] at hj
      exact hkept j hj
  · refine h.lifecycle.follows (fun r r' hev hr => ?_) hfollows
    have hsame : r'.lifecycle = r.lifecycle := congrArg (·.lifecycle) hev.issued
    rwa [hsame]
  · by_cases hji : j = i
    · subst hji
      rw [hself] at hj
      rcases (tasks j).act_held env hj with hheld | ⟨r, hr, hl⟩
      · exact h.held j record hheld
      · rw [hl]
        exact h.lifecycle r hr
    · rw [hother j hji] at hj
      exact h.held j record hj

/-- A request that runs without another in between is the handler. -/
theorem run_alone (c : Interleave.Config ι Broker RedeemPhase) {i : ι} (hphase : c.phase i = .start) :
    c.run (redeemAct env tasks) [i, i, i] =
      ⟨(unwrapSecretV2Impl env (tasks i).d (tasks i).context (tasks i).payload c.shared).2, Function.update c.phase i
        (.returned (unwrapSecretV2Impl env (tasks i).d (tasks i).context (tasks i).payload c.shared).1)⟩ := by
  have hact := (tasks i).act_act_act env c.shared
  simp only [Interleave.Config.run_cons, Interleave.Config.run_nil, Interleave.Config.step, redeemAct, hphase,
    Function.update_self, Function.update_idem]
  rw [hact]

/-- It is exclusive if no other request has loaded the record and not yet returned. -/
theorem exclusive_alone {c : Interleave.Config ι Broker RedeemPhase} (i : ι)
    (hidle : ∀ j, ¬ (tasks j).Redeeming env c.shared.kyberTree (c.phase j)) :
    c.RunMeets (redeemAct env tasks) (Exclusive env tasks) [i, i, i] := by
  have hmoved : ∀ c' : Interleave.Config ι Broker RedeemPhase,
      (c'.step (redeemAct env tasks) i).phase i ≠ .start := by
    intro c'
    have hself : (c'.step (redeemAct env tasks) i).phase i = _ := Function.update_self _ _ _
    rw [hself]
    exact (tasks i).act_ne_start env _ _
  exact ⟨fun _ _ => hidle, fun h => absurd h (hmoved _), fun h => absurd h (hmoved _), trivial⟩

/-- **At most one redemption**: of any concurrent requests for a handle that is not renewable, at most one
returns the plaintext, in every state that is reached by steps which respect exclusion. -/
theorem at_most_once_of_exclusive (env : Env) (tasks : ι → RedeemTask id) (s : Broker)
    (hlifecycle : OnRecord (fun r => r.lifecycle ≠ .renewableLease) (s.records id)) (schedule : List ι)
    (hexclusive : (redeemStart s).RunMeets (redeemAct env tasks) (Exclusive env tasks) schedule) :
    ∀ earlier, earlier <+: schedule → ∀ i j,
      (((redeemStart s).run (redeemAct env tasks) earlier).phase i).Succeeded →
      (((redeemStart s).run (redeemAct env tasks) earlier).phase j).Succeeded → i = j := by
  rintro earlier ⟨later, rfl⟩ i j hi hj
  have hstart : RedeemedOnce env tasks (redeemStart s) := by
    refine ⟨fun i j hi _ => ?_, fun i hi => ?_, hlifecycle, fun i record hi => by cases hi⟩
    · rcases hi with hi | ⟨response, hi⟩
      · exact hi.elim
      · cases hi
    · obtain ⟨response, hi⟩ := hi
      cases hi
  have honce := hexclusive.of_append.invariant (fun c i => RedeemedOnce.step) hstart
  exact honce.engaged i j (Or.inr hi) (Or.inr hj)

/-- Two requests that run one after the other. -/
theorem at_most_once_of_exclusive_in_turn : ∃ (tasks : Fin 2 → RedeemTask (.filled 1)) (s : Broker),
    OnRecord (fun r => r.lifecycle ≠ .renewableLease) (s.records (.filled 1)) ∧
    (redeemStart s).RunMeets (redeemAct plainEnv tasks) (Exclusive plainEnv tasks) [0, 0, 0, 1, 1, 1] ∧
    (((redeemStart s).run (redeemAct plainEnv tasks) [0, 0, 0, 1, 1, 1]).phase 0).Succeeded ∧
    ¬ (((redeemStart s).run (redeemAct plainEnv tasks) [0, 0, 0, 1, 1, 1]).phase 1).Succeeded := by
  obtain ⟨outcome, r, mac, s', hr, hlifecycle, hmac, hid, hunwrap⟩ := plain_unwrap .singleUseUnwrap
  set s := Broker.empty.after plainEnv [plainWrap .singleUseUnwrap] with hs
  set tasks : Fin 2 → RedeemTask (.filled 1) := fun _ => ⟨plainUnwrap, plainContext, plainPayload outcome, mac, hmac, hid⟩
    with htasks
  have hsingle : OnRecord (fun r => r.lifecycle ≠ .renewableLease) (s.records (.filled 1)) := by
    intro stored hstored
    rw [← hid, hr] at hstored
    cases hstored
    rw [hlifecycle]
    decide
  have hfirst : (redeemStart s).run (redeemAct plainEnv tasks) [0, 0, 0] = ⟨s', Function.update (fun _ => .start) 0
      (.returned (.ok { plaintext := Base64.standard.encode [1, 2, 3] }))⟩ := by
    rw [run_alone _ rfl]
    simp only [htasks, redeemStart, hunwrap]
  have hexclusive : (redeemStart s).RunMeets (redeemAct plainEnv tasks) (Exclusive plainEnv tasks)
      ([0, 0, 0] ++ [1, 1, 1]) := by
    have hidle : ∀ j, ¬ (tasks j).Redeeming plainEnv (redeemStart (ι := Fin 2) s).shared.kyberTree .start := fun j h => h
    refine (exclusive_alone 0 hidle).append (exclusive_alone 1 fun j h => ?_)
    rw [hfirst] at h
    fin_cases j
    · exact h
    · exact h
  have hsucceeded : (((redeemStart s).run (redeemAct plainEnv tasks) ([0, 0, 0] ++ [1, 1, 1])).phase 0).Succeeded := by
    rw [Interleave.Config.run_append, hfirst, run_alone _ rfl]
    exact ⟨_, rfl⟩
  refine ⟨tasks, s, hsingle, hexclusive, hsucceeded, fun hsecond => ?_⟩
  have hsame : (0 : Fin 2) = 1 := at_most_once_of_exclusive plainEnv tasks s hsingle [0, 0, 0, 1, 1, 1] hexclusive
    [0, 0, 0, 1, 1, 1] (List.prefix_refl _) 0 1 hsucceeded hsecond
  exact absurd hsame (by decide)

theorem step_load {c : Interleave.Config ι Broker RedeemPhase} {i : ι} (hphase : c.phase i = .start)
    (hdisk : (tasks i).d.load.disk = .ok) {r : StoredEnvelopeRecord} (hr : c.shared.records id = some r) :
    c.step (redeemAct env tasks) i = ⟨c.shared.putRecord id (some (accessed env (tasks i).d.load r)),
      Function.update c.phase i (.loaded (accessed env (tasks i).d.load r))⟩ := by
  have hload : loadRecord env (tasks i).d.load (tasks i).mac.identifier c.shared =
      (.ok (accessed env (tasks i).d.load r), c.shared.putRecord id (some (accessed env (tasks i).d.load r))) := by
    rw [(tasks i).identifier]
    exact (loadRecord_eq_ok env).mpr ⟨hdisk, r, hr, rfl, rfl⟩
  apply Interleave.Config.step_eq
  rw [redeemAct, hphase, RedeemTask.act, hload]

theorem step_check {c : Interleave.Config ι Broker RedeemPhase} {i : ι} {record : StoredEnvelopeRecord}
    (hphase : c.phase i = .loaded record) {plaintext : Bytes}
    (hchecks : (tasks i).checks env c.shared.kyberTree record = .ok plaintext) :
    c.step (redeemAct env tasks) i = ⟨c.shared, Function.update c.phase i (.verified record plaintext)⟩ := by
  apply Interleave.Config.step_eq
  rw [redeemAct, hphase, RedeemTask.act, hchecks]

/-- The token is consumed whether or not it already is. -/
theorem step_mark {c : Interleave.Config ι Broker RedeemPhase} {i : ι} {record : StoredEnvelopeRecord}
    {plaintext : Bytes} (hphase : c.phase i = .verified record plaintext) (hdisk : (tasks i).d.markDisk = .ok)
    {r : StoredEnvelopeRecord} (hr : c.shared.records id = some r) :
    ∃ s' r', c.step (redeemAct env tasks) i = ⟨s', Function.update c.phase i
        (.returned (.ok { plaintext := Base64.standard.encode plaintext }))⟩ ∧ s'.records id = some r' := by
  have hconsume : ∃ t r', consumeToken env (tasks i).d.markDisk (tasks i).mac.identifier record.lifecycle c.shared =
      (.ok (), t) ∧ t.records id = some r' := by
    rw [(tasks i).identifier]
    unfold consumeToken
    split_ifs
    · exact ⟨_, r, rfl, hr⟩
    · have hrun : ∃ r', (SealedStore.markRedeemUsed env.serde).run (c.shared.records id) = (some r', .ok ()) := by
        rw [hr]
        exact ⟨_, rfl⟩
      obtain ⟨r', hrun⟩ := hrun
      refine ⟨_, r', Eff.mapError_eq_ok.mpr (perform_eq_ok.mpr ⟨hdisk, congrArg Prod.snd hrun, rfl⟩), ?_⟩
      rw [Broker.putRecord_records_self, hrun]
  obtain ⟨t, r', ht, hr'⟩ := hconsume
  have hfinish : ∃ s', (tasks i).finish env record plaintext c.shared =
      (.ok { plaintext := Base64.standard.encode plaintext }, s') ∧ s'.records = t.records := by
    rw [RedeemTask.finish, Eff.bind_of_ok ht]
    refine ⟨_, rfl, ?_⟩
    split_ifs
    · rfl
    · rfl
  obtain ⟨s', hs', hrecords⟩ := hfinish
  refine ⟨s', r', ?_, by rw [hrecords, hr']⟩
  apply Interleave.Config.step_eq
  rw [redeemAct, hphase, RedeemTask.act, hs']

end

/-- Two requests that both load before either consumes the token both get the plaintext. -/
theorem overlapping_both_succeed (env : Env) {id : Uuid} (tasks : Fin 2 → RedeemTask id) (s : Broker)
    {r : StoredEnvelopeRecord} (hr : s.records id = some r) (hload : ∀ i, (tasks i).d.load.disk = .ok)
    (hmark : ∀ i, (tasks i).d.markDisk = .ok) {p₀ p₁ : Bytes}
    (h₀ : (tasks 0).checks env s.kyberTree (accessed env (tasks 0).d.load r) = .ok p₀)
    (h₁ : (tasks 1).checks env s.kyberTree (accessed env (tasks 1).d.load (accessed env (tasks 0).d.load r)) = .ok p₁) :
    ((redeemStart s).run (redeemAct env tasks) [0, 1, 0, 1, 0, 1]).phase 0 =
        .returned (.ok { plaintext := Base64.standard.encode p₀ }) ∧
      ((redeemStart s).run (redeemAct env tasks) [0, 1, 0, 1, 0, 1]).phase 1 =
        .returned (.ok { plaintext := Base64.standard.encode p₁ }) := by
  -- The shared state and the phases after each of the six steps, in the order of the schedule.
  set a₀ := accessed env (tasks 0).d.load r with ha₀
  set a₁ := accessed env (tasks 1).d.load a₀ with ha₁
  set t₁ := s.putRecord id (some a₀) with ht₁
  set t₂ := t₁.putRecord id (some a₁) with ht₂
  set q₁ := Function.update (redeemStart (ι := Fin 2) s).phase 0 (.loaded a₀) with hq₁
  set q₂ := Function.update q₁ 1 (.loaded a₁) with hq₂
  set q₃ := Function.update q₂ 0 (.verified a₀ p₀) with hq₃
  set q₄ := Function.update q₃ 1 (.verified a₁ p₁) with hq₄
  have hload₀ : (redeemStart s).step (redeemAct env tasks) 0 = ⟨t₁, q₁⟩ := step_load rfl (hload 0) hr
  have hload₁ : Interleave.Config.step (redeemAct env tasks) ⟨t₁, q₁⟩ 1 = ⟨t₂, q₂⟩ :=
    step_load rfl (hload 1) (Broker.putRecord_records_self _ _ _)
  have hcheck₀ : Interleave.Config.step (redeemAct env tasks) ⟨t₂, q₂⟩ 0 = ⟨t₂, q₃⟩ := step_check rfl h₀
  have hcheck₁ : Interleave.Config.step (redeemAct env tasks) ⟨t₂, q₃⟩ 1 = ⟨t₂, q₄⟩ := step_check rfl h₁
  obtain ⟨t₅, r₅, hmark₀, hr₅⟩ : ∃ t₅ r₅, Interleave.Config.step (redeemAct env tasks) ⟨t₂, q₄⟩ 0 =
      ⟨t₅, Function.update q₄ 0 (.returned (.ok { plaintext := Base64.standard.encode p₀ }))⟩ ∧
        t₅.records id = some r₅ :=
    step_mark rfl (hmark 0) (Broker.putRecord_records_self _ _ _)
  obtain ⟨t₆, r₆, hmark₁, -⟩ : ∃ t₆ r₆, Interleave.Config.step (redeemAct env tasks)
      ⟨t₅, Function.update q₄ 0 (.returned (.ok { plaintext := Base64.standard.encode p₀ }))⟩ 1 = ⟨t₆, Function.update
        (Function.update q₄ 0 (.returned (.ok { plaintext := Base64.standard.encode p₀ }))) 1
        (.returned (.ok { plaintext := Base64.standard.encode p₁ }))⟩ ∧ t₆.records id = some r₆ :=
    step_mark rfl (hmark 1) hr₅
  simp only [Interleave.Config.run_cons, Interleave.Config.run_nil, hload₀, hload₁, hcheck₀, hcheck₁, hmark₀, hmark₁]
  exact ⟨rfl, rfl⟩

/-- A single-use handle redeemed by two requests at once. -/
theorem redeemed_twice : ∃ (tasks : Fin 2 → RedeemTask (.filled 1)) (s : Broker) (r : StoredEnvelopeRecord),
    s.records (.filled 1) = some r ∧ r.lifecycle = .singleUseUnwrap ∧
    ∀ i, ((redeemStart s).run (redeemAct plainEnv tasks) [0, 1, 0, 1, 0, 1]).phase i =
      .returned (.ok { plaintext := Base64.standard.encode [1, 2, 3] }) := by
  obtain ⟨outcome, r, mac, -, hr, -, hlifecycle, hmac, hid, hchecks⟩ := plain_checks .singleUseUnwrap
  have hhandle : parseHandleV2 (plainPayload outcome).handle = .ok mac := hmac
  -- the second load reads what the first wrote, which it does not change
  have hagain : accessed plainEnv plainUnwrap.load (accessed plainEnv plainUnwrap.load r) =
      accessed plainEnv plainUnwrap.load r := by
    have hmetadata : plainSerde.reloadMetadata (plainSerde.reloadMetadata r.envelope.metadata) =
        plainSerde.reloadMetadata r.envelope.metadata := by
      rcases r.envelope.metadata with _ | (_ | _) <;> rfl
    unfold accessed Serde.reload
    simp only [plainEnv, hmetadata]
  refine ⟨fun _ => ⟨plainUnwrap, plainContext, plainPayload outcome, mac, hhandle, hid⟩, _, r, hr, hlifecycle, ?_⟩
  have hboth := overlapping_both_succeed plainEnv
    (fun _ => ⟨plainUnwrap, plainContext, plainPayload outcome, mac, hhandle, hid⟩) _ hr (fun _ => rfl) (fun _ => rfl)
    hchecks (by rw [hagain]; exact hchecks)
  intro i
  fin_cases i
  · exact hboth.1
  · exact hboth.2

end SecretBroker

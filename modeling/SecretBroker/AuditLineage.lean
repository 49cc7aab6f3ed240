import SecretBroker.AtomicIssuance
import SecretBroker.CanonicalWire
import SecretBroker.SecurityMaxUses

/-! The lineage of handles in the transparency log. Every request that issues a handle records an event, which is to name
the new handle and the one it was made from, so that every handle can be followed back to the secret that was wrapped.
Wrapping, minting and rotating do; the event of an attenuation names the old handle in both places, and the new one
nowhere. -/

open Wire Register

namespace SecretBroker

/-- The log is as it was. -/
def SameLog (s s' : Broker) : Prop := s'.log = s.log

instance : IsPreorder Broker SameLog where
  refl _ := rfl
  trans _ _ _ h h' := h'.trans h

/-- Events are only added to the log. -/
def LogGrows (s s' : Broker) : Prop := s.log <+: s'.log

instance : IsPreorder Broker LogGrows where
  refl _ := List.prefix_rfl
  trans _ _ _ h h' := h.trans h'

section

variable {env : Env}

theorem recorded_log (htransparency : env.broker.transparency = true) (event : TransparencyEvent) (s : Broker) :
    (s.recorded env event).log = s.log ++ [event] := by
  rw [Broker.recorded, recordTransparency, Eff.modify_apply, if_pos htransparency]

theorem KeyChange.sameLog {scope : Scope} {s s' : Broker} (h : KeyChange scope s s') : SameLog s s' := by
  cases h <;> rfl

theorem KeyChanges.sameLog {scope : Scope} {s s' : Broker} (h : KeyChanges scope s s') : SameLog s s' := by
  induction h with
  | refl => rfl
  | tail _ hstep ih => exact trans_of SameLog ih hstep.sameLog

theorem StoreSteps.sameLog {scope : Scope} {s s' : Broker} (h : StoreSteps env scope s s') : SameLog s s' := by
  induction h with
  | refl => rfl
  | tail _ hstep ih =>
      refine trans_of SameLog ih ?_
      cases hstep with
      | key h => exact h.sameLog
      | _ => rfl

theorem BrokerSteps.logGrows {scope : Scope} {s s' : Broker} (h : BrokerSteps env scope s s') : LogGrows s s' := by
  induction h with
  | refl => exact refl_of LogGrows s
  | tail _ hstep ih =>
      refine trans_of LogGrows ih ?_
      cases hstep with
      | store h =>
          have hsame := StoreSteps.sameLog (.single h)
          rw [LogGrows, hsame]
      | record event => exact List.prefix_append _ _

theorem persist_sameLog {d : PersistDraws} {context : BrokerClientContext} {input : PersistSecretV2Input} {s s' : Broker}
    {result : Except Failure StoredSecretOutcome} (h : persistSecretV2WithLifecycle env d context input s = (result, s')) :
    SameLog s s' := by
  have hacts : Eff.Acts d.insertDisk.Atomic (KeyChanges (sealScope d input)) SameLog
      (persistSecretV2WithLifecycle env d context input) s :=
    persist_acts env (List.Subset.refl d.uuids) List.mem_cons_self KeyChanges.sameLog (fun _ _ _ _ _ _ _ => rfl) s
  have hsteps := hacts.steps
  rwa [h] at hsteps

/-- What the walks through the handlers say of the log. -/
theorem sameLog_of_stored {scope : Scope} {α : Type} {m : Eff Broker Failure α} {s s' : Broker} {result : Except Failure α}
    (hm : StoreSteps env scope s (m s).2) (h : m s = (result, s')) : SameLog s s' := by
  rw [h] at hm
  exact hm.sameLog

variable {s s' : Broker}

theorem loadRecord_sameLog {d : LoadDraws} {id : Uuid} {result : Except Failure StoredEnvelopeRecord}
    (h : loadRecord env d id s = (result, s')) : SameLog s s' := by
  have hsteps : StoreSteps env (.drawing []) s _ := (loadRecord_accesses env d id s).stored
  exact sameLog_of_stored hsteps h

theorem mintRedeemMaterial_sameLog {d : MintDraws} {custodianIds : List String} {threshold numShares : UInt8}
    {outcome : StoredSecretOutcome} {result : Except Failure String}
    (h : mintRedeemMaterial env d custodianIds threshold numShares outcome s = (result, s')) : SameLog s s' := by
  have hsteps : StoreSteps env (.drawing [outcome.handleId]) s _ :=
    mintRedeemMaterial_steps env d custodianIds threshold numShares List.mem_cons_self s
  exact sameLog_of_stored hsteps h

theorem rotateRedeemMaterial_sameLog {d : RotateDraws} {threshold numShares : UInt8} {outcome : StoredSecretOutcome}
    {result : Except Failure (String × List Threshold.Share)}
    (h : rotateRedeemMaterial env d threshold numShares outcome s = (result, s')) : SameLog s s' := by
  have hsteps : StoreSteps env (.drawing [outcome.handleId]) s _ :=
    (rotateRedeemMaterial_acts env d threshold numShares List.mem_cons_self s).steps
  exact sameLog_of_stored hsteps h

theorem revokeOld_sameLog {d : RotateDraws} {payload : RotateSecretRequest} {oldId : Uuid} {result : Except Failure Bool}
    (h : revokeOld env d payload oldId s = (result, s')) : SameLog s s' :=
  sameLog_of_stored (revokeOld_acts oldId s).steps h

theorem thirdPartyCaveat_sameLog {d : AttenuateDraws} {id : Uuid} {tp : Option ThirdPartyCaveatRequest}
    {result : Except Failure (List Caveat)} (h : thirdPartyCaveat env d id tp s = (result, s')) : SameLog s s' := by
  have hsteps : StoreSteps env (.drawing []) s _ := (thirdPartyCaveat_acts env d id tp s).steps
  exact sameLog_of_stored hsteps h

theorem after_grows (calls : List Call) (s : Broker) : LogGrows s (s.after env calls) := by
  induction calls generalizing s with
  | nil => exact refl_of LogGrows s
  | cons call calls ih => exact trans_of LogGrows (call.exec_steps env s).logGrows (ih _)

/-- The handle that a request makes its new one from. -/
def Call.parentHandle : Call → Option String
  | .attenuate _ _ payload => some payload.handle
  | .rotate _ _ payload => some payload.oldHandle
  | _ => none

/-- The event names the new handle and the one it was made from, or is that of a secret that was wrapped. -/
structure Announces (env : Env) (event : TransparencyEvent) (handle : String) (parent : Option String) : Prop where
  named : event.handleFingerprint = some (handleFingerprint env handle)
  lineage : ∀ p, parent = some p → event.parentHandleFingerprint = some (handleFingerprint env p)
  wrapped : parent = none → event.event = .wrap

section

variable (htransparency : env.broker.transparency = true)

include htransparency

theorem wrap_announces {createdAt : DateTime} {d : PersistDraws} {context : BrokerClientContext} {request : WrapV2Request}
    {outcome : WrapSecretOutcome} (h : wrapSecretV2Impl env createdAt d context request s = (.ok outcome, s')) :
    ∃ event, s'.log = s.log ++ [event] ∧ Announces env event outcome.handle none := by
  simp only [wrapSecretV2Impl, Eff.bind_eq_ok, Eff.lift_eq_ok, check_eq_ok, recordTransparency_eq_ok, Eff.pure_eq_ok] at h
  obtain ⟨times, _, ⟨-, rfl⟩, principal, _, ⟨-, rfl⟩, stored, s₁, hpersist, _, _, hlog, rfl, rfl⟩ := h
  rw [hlog, recorded_log htransparency, persist_sameLog hpersist]
  refine ⟨_, rfl, rfl, fun p hp => ?_, fun _ => rfl⟩
  cases hp

theorem mint_announces {d : MintDraws} {context : BrokerClientContext} {request : MintV2Request}
    {response : MintV2Response} (h : mintAeadKeyV2Impl env d context request s = (.ok response, s')) :
    ∃ event, s'.log = s.log ++ [event] ∧ Announces env event response.handle none := by
  simp only [mintAeadKeyV2Impl, Eff.bind_eq_ok, Eff.lift_eq_ok, check_eq_ok, recordTransparency_eq_ok, Eff.pure_eq_ok] at h
  obtain ⟨times, _, ⟨-, rfl⟩, _, _, ⟨-, rfl⟩, principal, _, ⟨-, rfl⟩, outcome, s₁, hpersist, _, _, ⟨-, rfl⟩, token, s₂,
    hmaterial, _, _, hlog, rfl, rfl⟩ := h
  rw [hlog, recorded_log htransparency, mintRedeemMaterial_sameLog hmaterial, persist_sameLog hpersist]
  refine ⟨_, rfl, rfl, fun p hp => ?_, fun _ => rfl⟩
  cases hp

theorem rotate_announces {d : RotateDraws} {context : BrokerClientContext} {payload : RotateSecretRequest}
    {response : RotateSecretResponse} (h : rotateSecretImpl env d context payload s = (.ok response, s')) :
    ∃ event, s'.log = s.log ++ [event] ∧ Announces env event response.newHandle (some payload.oldHandle) := by
  simp only [rotateSecretImpl, Eff.bind_eq_ok, Eff.lift_eq_ok, check_eq_ok, recordTransparency_eq_ok, Eff.pure_eq_ok] at h
  obtain ⟨oldId, _, ⟨-, rfl⟩, _, s₁, hload, _, _, ⟨-, rfl⟩, times, _, ⟨-, rfl⟩, _, _, ⟨-, rfl⟩, principal, _, ⟨-, rfl⟩,
    outcome, s₂, hpersist, material, s₃, hmaterial, revoked, s₄, hrevoke, _, _, hlog, rfl, rfl⟩ := h
  rw [hlog, recorded_log htransparency, revokeOld_sameLog hrevoke, rotateRedeemMaterial_sameLog hmaterial,
    persist_sameLog hpersist, loadRecord_sameLog hload]
  refine ⟨_, rfl, rfl, fun p hp => ?_, fun hp => ?_⟩
  · cases hp
    rfl
  · cases hp

/-- The event of an attenuation names the old handle twice. -/
theorem attenuate_announces {d : AttenuateDraws} {context : BrokerClientContext} {payload : AttenuateV2Request}
    {response : AttenuateV2Response} (h : attenuateHandleV2Impl env d context payload s = (.ok response, s')) :
    ∃ event, s'.log = s.log ++ [event] ∧ Announces env event payload.handle (some payload.handle) := by
  simp only [attenuateHandleV2Impl, Eff.bind_eq_ok, check_eq_ok, recordTransparency_eq_ok, Eff.pure_eq_ok] at h
  obtain ⟨mac, _, ⟨-, rfl⟩, _, _, ⟨-, rfl⟩, record, s₁, hload, _, _, ⟨-, rfl⟩, firstParty, _, ⟨-, rfl⟩, thirdParty, s₂,
    hthird, _, _, ⟨-, rfl⟩, _, _, hlog, -, rfl⟩ := h
  rw [hlog, recorded_log htransparency, thirdPartyCaveat_sameLog hthird, loadRecord_sameLog hload]
  refine ⟨_, rfl, rfl, fun p hp => ?_, fun hp => ?_⟩
  · cases hp
    rfl
  · cases hp

/-- The event of any request that issues a handle, apart from attenuations. -/
theorem exec_announces {call : Call} (hcall : ∀ d context payload, call ≠ .attenuate d context payload) {reply : Reply}
    {handle : String} (h : call.exec env s = (.ok reply, s')) (hhandle : reply.newHandle = some handle) :
    ∃ event, s'.log = s.log ++ [event] ∧ Announces env event handle call.parentHandle := by
  cases call <;> simp only [Call.exec, Eff.bind_eq_ok, Eff.pure_eq_ok] at h <;> obtain ⟨_, _, h, rfl, rfl⟩ := h <;>
    cases hhandle
  case wrap => exact wrap_announces htransparency h
  case mint => exact mint_announces htransparency h
  case attenuate => exact absurd rfl (hcall _ _ _)
  case rotate => exact rotate_announces htransparency h

end

end

/-- The request after these others succeeds and returns a handle. -/
def Issues (env : Env) (before : List Call) (call : Call) (handle : String) : Prop :=
  ∃ reply s', call.exec env (Broker.empty.after env before) = (.ok reply, s') ∧ reply.newHandle = some handle

/-- Some request of the run returns the handle. -/
def Returned (env : Env) (calls : List Call) (handle : String) : Prop :=
  ∃ before call later, calls = before ++ call :: later ∧ Issues env before call handle

/-- Following the fingerprints of parents in a log leads to the event of a secret that was wrapped. -/
inductive LeadsToWrap (log : List TransparencyEvent) : String → Prop
  | wrapped {event : TransparencyEvent} {fingerprint : String} (hevent : event ∈ log) (hkind : event.event = .wrap)
      (hnamed : event.handleFingerprint = some fingerprint) : LeadsToWrap log fingerprint
  | parent {event : TransparencyEvent} {fingerprint parent : String} (hevent : event ∈ log)
      (hnamed : event.handleFingerprint = some fingerprint) (hparent : event.parentHandleFingerprint = some parent)
      (hleads : LeadsToWrap log parent) : LeadsToWrap log fingerprint

/-- Every handle that a run returns is in the log, together with the one it was made from. -/
def HandlesLogged (env : Env) (calls : List Call) : Prop :=
  ∀ before call later handle, calls = before ++ call :: later → Issues env before call handle →
    ∃ event ∈ (Broker.empty.after env calls).log, event.handleFingerprint = some (handleFingerprint env handle) ∧
      ∀ p, call.parentHandle = some p → event.parentHandleFingerprint = some (handleFingerprint env p)

/-- Every handle that a run returns can be followed back to a secret that was wrapped. -/
def HandlesTraced (env : Env) (calls : List Call) : Prop :=
  ∀ handle, Returned env calls handle → LeadsToWrap (Broker.empty.after env calls).log (handleFingerprint env handle)

/-- Only handles are rotated that the run has returned before, up to white space around them. -/
def RotatesReturned (env : Env) (calls : List Call) : Prop :=
  ∀ before d context payload later, calls = before ++ .rotate d context payload :: later →
    ∃ handle, Returned env before handle ∧ trim payload.oldHandle = trim handle

/-- The request after these others unwraps a secret by the handle. -/
def Unwraps (env : Env) (before : List Call) (call : Call) (handle : String) : Prop :=
  ∃ d context payload reply s', call = .unwrap d context payload ∧ payload.handle = handle ∧
    call.exec env (Broker.empty.after env before) = (.ok reply, s')

/-- Every handle by which a secret is unwrapped can be followed back to a secret that was wrapped. -/
def UnwrapsTraced (env : Env) (calls : List Call) : Prop :=
  ∀ before call later handle, calls = before ++ call :: later → Unwraps env before call handle →
    LeadsToWrap (Broker.empty.after env calls).log (handleFingerprint env handle)

/-- Secrets are unwrapped only by handles that the run has returned before, up to white space around them. -/
def UnwrapsReturned (env : Env) (calls : List Call) : Prop :=
  ∀ before call later handle, calls = before ++ call :: later → Unwraps env before call handle →
    ∃ issued, Returned env before issued ∧ trim handle = trim issued

section

variable {env : Env} (htransparency : env.broker.transparency = true) {calls : List Call}
  (hcalls : ∀ call ∈ calls, ∀ d context payload, call ≠ .attenuate d context payload)

include htransparency hcalls

/-- The event of a handle stays in the log. -/
theorem issues_announced {before later : List Call} {call : Call} {handle : String}
    (hsplit : calls = before ++ call :: later) (hissues : Issues env before call handle) :
    ∃ event ∈ (Broker.empty.after env calls).log, Announces env event handle call.parentHandle := by
  obtain ⟨reply, s', hexec, hhandle⟩ := hissues
  have hcall := hcalls call (hsplit ▸ List.mem_append_right before List.mem_cons_self)
  obtain ⟨event, hlog, hannounces⟩ := exec_announces htransparency hcall hexec hhandle
  have hgrows : LogGrows s' (Broker.empty.after env calls) := by
    rw [hsplit, Broker.after_append, Broker.after_cons, hexec]
    exact after_grows later s'
  refine ⟨event, hgrows.mem ?_, hannounces⟩
  rw [hlog]
  exact List.mem_append_right _ List.mem_cons_self

/-- By induction on the number of requests before: the handle that a rotation is made from was returned earlier. -/
theorem issues_traced (hrotates : RotatesReturned env calls) {before later : List Call} {call : Call} {handle : String}
    (hsplit : calls = before ++ call :: later) (hissues : Issues env before call handle) :
    LeadsToWrap (Broker.empty.after env calls).log (handleFingerprint env handle) := by
  induction hn : before.length using Nat.strong_induction_on generalizing before call later handle with
  | _ n ih =>
      obtain ⟨event, hevent, hannounces⟩ := issues_announced htransparency hcalls hsplit hissues
      cases hparent : call.parentHandle with
      | none => exact .wrapped hevent (hannounces.wrapped hparent) hannounces.named
      | some p =>
          refine .parent hevent hannounces.named (hannounces.lineage p hparent) ?_
          cases call with
          | attenuate d context payload =>
              exact absurd rfl (hcalls _ (hsplit ▸ List.mem_append_right before List.mem_cons_self) d context payload)
          | rotate d context payload =>
              cases hparent
              obtain ⟨old, ⟨earlier, call, between, hbefore, hold⟩, htrim⟩ :=
                hrotates before d context payload later hsplit
              have hfingerprint : handleFingerprint env payload.oldHandle = handleFingerprint env old := by
                rw [handleFingerprint, handleFingerprint, htrim]
              have hlength : earlier.length < n := by
                rw [← hn, hbefore, List.length_append, List.length_cons]
                omega
              have hsplit' : calls = earlier ++ call :: (between ++ .rotate d context payload :: later) := by
                rw [hsplit, hbefore, List.append_assoc, List.cons_append]
              rw [hfingerprint]
              exact ih earlier.length hlength hsplit' hold rfl
          | _ => cases hparent

/-- **The lineage of handles is complete without attenuations.** With the log enabled, every handle that a run of the other
requests returns is in the log together with the one it was made from. It leads back to a secret that was wrapped if only
such handles are rotated, and so does every handle by which a secret is unwrapped, if that is one of them too. -/
theorem lineage_complete :
    HandlesLogged env calls ∧
      (RotatesReturned env calls → HandlesTraced env calls ∧ (UnwrapsReturned env calls → UnwrapsTraced env calls)) := by
  constructor
  · intro before call later handle hsplit hissues
    obtain ⟨event, hevent, hannounces⟩ := issues_announced htransparency hcalls hsplit hissues
    exact ⟨event, hevent, hannounces.named, hannounces.lineage⟩
  · intro hrotates
    constructor
    · rintro handle ⟨before, call, later, hsplit, hissues⟩
      exact issues_traced htransparency hcalls hrotates hsplit hissues
    · intro hreturned before call later handle hsplit hunwraps
      obtain ⟨issued, ⟨earlier, issuer, between, hbefore, hissues⟩, htrim⟩ :=
        hreturned before call later handle hsplit hunwraps
      have hfingerprint : handleFingerprint env handle = handleFingerprint env issued := by
        rw [handleFingerprint, handleFingerprint, htrim]
      have hsplit' : calls = earlier ++ issuer :: (between ++ call :: later) := by
        rw [hsplit, hbefore, List.append_assoc, List.cons_append]
      rw [hfingerprint]
      exact issues_traced htransparency hcalls hrotates hsplit' hissues

end

/-- The wrapped secret is unwrapped, and then its handle is rotated. -/
def plainRotated (outcome : WrapSecretOutcome) : List Call :=
  [plainWrap .renewableLease, .unwrap plainUnwrap plainContext (plainPayload outcome),
    .rotate plainRotateDraws plainContext (plainRotateRequest outcome.handle)]

theorem lineage_complete_rotated : ∃ outcome,
    Unwraps plainEnv [plainWrap .renewableLease] (.unwrap plainUnwrap plainContext (plainPayload outcome)) outcome.handle ∧
    HandlesTraced plainEnv (plainRotated outcome) ∧
    LeadsToWrap (Broker.empty.after plainEnv (plainRotated outcome)).log (handleFingerprint plainEnv outcome.handle) := by
  obtain ⟨outcome, r, mac, hwrap, hr, -, -, hmac, hid, hchecks⟩ := plain_checks .renewableLease
  have hhandle : parseHandleV2 (plainPayload outcome).handle = .ok mac := hmac
  rw [← hid] at hr
  obtain ⟨s', hunwrap⟩ := unwrap_of_checks plainEnv hhandle rfl (fun _ => rfl) hr hchecks
  have hunwraps : Unwraps plainEnv [plainWrap .renewableLease] (.unwrap plainUnwrap plainContext (plainPayload outcome))
      outcome.handle := ⟨_, _, _, _, s', rfl, rfl, Call.exec_unwrap hunwrap⟩
  -- only the handle of the wrap is presented
  have hreturned : ∀ later, Returned plainEnv (plainWrap .renewableLease :: later) outcome.handle := fun later =>
    ⟨[], _, later, rfl, .wrapped outcome, Broker.empty.after plainEnv [plainWrap .renewableLease],
      Eff.bind_of_ok hwrap, rfl⟩
  have hcalls : ∀ call ∈ plainRotated outcome, ∀ d context payload, call ≠ .attenuate d context payload := by
    intro call hcall d context payload
    simp only [plainRotated, List.mem_cons, List.not_mem_nil, or_false] at hcall
    rcases hcall with rfl | rfl | rfl
    · exact nofun
    · exact nofun
    · exact nofun
  have hrotates : RotatesReturned plainEnv (plainRotated outcome) := by
    intro before d context payload later hsplit
    cases before with
    | nil => cases hsplit
    | cons first before =>
        obtain ⟨rfl, hrest⟩ := List.cons.inj hsplit
        have hmem : Call.rotate d context payload ∈ [.unwrap plainUnwrap plainContext (plainPayload outcome),
            .rotate plainRotateDraws plainContext (plainRotateRequest outcome.handle)] := by
          rw [hrest]
          exact List.mem_append_right before List.mem_cons_self
        simp only [List.mem_cons, List.not_mem_nil, or_false, reduceCtorEq, false_or, Call.rotate.injEq] at hmem
        exact ⟨outcome.handle, hreturned before, by rw [hmem.2.2]; rfl⟩
  have hunwrapped : UnwrapsReturned plainEnv (plainRotated outcome) := by
    rintro before call later handle hsplit ⟨d, context, payload, reply, t, rfl, rfl, -⟩
    cases before with
    | nil => cases hsplit
    | cons first before =>
        obtain ⟨rfl, hrest⟩ := List.cons.inj hsplit
        have hmem : Call.unwrap d context payload ∈ [.unwrap plainUnwrap plainContext (plainPayload outcome),
            .rotate plainRotateDraws plainContext (plainRotateRequest outcome.handle)] := by
          rw [hrest]
          exact List.mem_append_right before List.mem_cons_self
        simp only [List.mem_cons, List.not_mem_nil, or_false, reduceCtorEq, Call.unwrap.injEq] at hmem
        exact ⟨outcome.handle, hreturned before, by rw [hmem.2.2]; rfl⟩
  obtain ⟨htraced, hunwrapsTraced⟩ := (lineage_complete rfl hcalls).2 hrotates
  exact ⟨outcome, hunwraps, htraced, hunwrapsTraced hunwrapped [plainWrap .renewableLease] _ _ _ rfl hunwraps⟩

/-- A hash that tells the handle of the wrapped secret from everything else. -/
def markingHash (b : Bytes) : Block 32 :=
  if b = asBytes (handleV2 (plainMac .renewableLease)) then filledBlock 32 1 else blank 32

def auditEnv : Env := { plainEnv with sha256 := markingHash }

theorem audit_fingerprints :
    handleFingerprint auditEnv (handleV2 (plainMac .renewableLease)) ≠
      handleFingerprint auditEnv (plainSingleUse .renewableLease) := by
  have hne : handleV2 (plainMac .renewableLease) ≠ plainSingleUse .renewableLease := by
    intro heq
    have hparse := parseHandleV2_handleV2 (plainMac_fits .renewableLease).1
    rw [heq, plainSingleUse, parseHandleV2_handleV2 (plainMac_fits .renewableLease).2] at hparse
    have hcaveats := congrArg (fun mac => mac.caveats.length) (Except.ok.inj hparse)
    revert hcaveats
    decide
  have hbytes : asBytes (plainSingleUse .renewableLease) ≠ asBytes (handleV2 (plainMac .renewableLease)) := by
    intro heq
    have htext := fromUtf8_asBytes (plainSingleUse .renewableLease)
    rw [heq, fromUtf8_asBytes] at htext
    exact hne (Option.some.inj htext)
  have hmarked : markingHash (asBytes (handleV2 (plainMac .renewableLease))) = filledBlock 32 1 := by
    rw [markingHash, if_pos rfl]
  have hother : markingHash (asBytes (plainSingleUse .renewableLease)) = blank 32 := by rw [markingHash, if_neg hbytes]
  have hhash : auditEnv.sha256 = markingHash := rfl
  have htrim : trim (plainSingleUse .renewableLease) = plainSingleUse .renewableLease := trim_handleV2 _
  rw [handleFingerprint, handleFingerprint, trim_handleV2, htrim, hhash, hmarked, hother]
  decide

/-- The wrap and the attenuation of `plain_attenuated` with this hash. -/
theorem audit_attenuated : ∃ outcome s₁ s₂,
    wrapSecretV2Impl auditEnv ⟨0, 0⟩ (plainDraws (.filled 1) (.filled 2) (.filled 3)) plainContext
      (plainRequest .renewableLease) Broker.empty = (.ok outcome, s₁) ∧
    outcome.handle = handleV2 (plainMac .renewableLease) ∧
    attenuateHandleV2Impl auditEnv ⟨⟨.ok, ⟨0, 0⟩, ⟨0, 0⟩⟩, .filled 4, blank 32, ⟨0, 0⟩, .ok⟩ plainContext
      ⟨handleV2 (plainMac .renewableLease), none, none, none, none, none, some 1, none⟩ s₁ =
        (.ok ⟨plainSingleUse .renewableLease, none⟩, s₂) := by
  have hok : (wrapSecretV2Impl auditEnv ⟨0, 0⟩ (plainDraws (.filled 1) (.filled 2) (.filled 3)) plainContext
      (plainRequest .renewableLease) Broker.empty).1.isOk = true := by decide +kernel
  rcases hwrap : wrapSecretV2Impl auditEnv ⟨0, 0⟩ (plainDraws (.filled 1) (.filled 2) (.filled 3)) plainContext
      (plainRequest .renewableLease) Broker.empty with ⟨e | outcome, s₁⟩
  · rw [hwrap] at hok
    cases hok
  have hafter : Broker.empty.after auditEnv [plainWrap .renewableLease] = s₁ :=
    congrArg Prod.snd (Eff.bind_of_ok hwrap)
  obtain ⟨expiresAt, ttl, principal, stored, s₀, httl, hpersist, hrecords, -, hhandle, -⟩ := wrap_eq_ok auditEnv hwrap
  cases httl
  obtain ⟨r, -, hstored, -⟩ := persist_stored hpersist
  have hr : s₁.records (.filled 1) = some r := by
    rw [hrecords, hstored]
    exact Function.update_self _ _ _
  have hfresh : FreshUuids ([] ++ [plainWrap .renewableLease]) := plain_fresh .renewableLease rfl
  have hissued : IssuedBy ⟨.filled 1, plainContext, .renewableLease, none⟩ r := wrapped_issuedBy hfresh (hafter ▸ hr)
  have hidentity : validateV2RecordIdentityRequirements
    (accessed auditEnv ⟨.ok, ⟨0, 0⟩, ⟨0, 0⟩⟩ r) plainContext = .ok () :=
    (plain_admitted (.filled 1) .renewableLease).identity
      (hissued.advances (accessed_evolves auditEnv ⟨.ok, ⟨0, 0⟩, ⟨0, 0⟩⟩ r).toAdvances)
  obtain ⟨s₂, hattenuate, -⟩ : ∃ s₂,
    attenuateHandleV2Impl auditEnv ⟨⟨.ok, ⟨0, 0⟩, ⟨0, 0⟩⟩, .filled 4, blank 32, ⟨0, 0⟩, .ok⟩ plainContext
      ⟨handleV2 (plainMac .renewableLease), none, none, none, none, none, some 1, none⟩ s₁ =
        (.ok ⟨plainSingleUse .renewableLease, none⟩, s₂) ∧ _ :=
    attenuate_of_checks (parseHandleV2_handleV2 (plainMac_fits .renewableLease).1)
      ((Macaroon.verifySignature_eq_ok _).mpr rfl) rfl hr
      hidentity rfl (by decide) rfl
  exact ⟨outcome, s₁, s₂, rfl, hhandle, hattenuate⟩

/-- The event of an attenuation does not name the handle that it returns, and no other event does. -/
theorem attenuated_handle_unlogged : ∃ handle,
    Issues auditEnv [plainWrap .renewableLease] (plainAttenuate .renewableLease) handle ∧
    ∀ event ∈ (Broker.empty.after auditEnv [plainWrap .renewableLease, plainAttenuate .renewableLease]).log,
      event.handleFingerprint ≠ some (handleFingerprint auditEnv handle) := by
  obtain ⟨outcome, s₁, s₂, hwrap, hhandle, hattenuate⟩ := audit_attenuated
  have hfirst : (plainWrap .renewableLease).exec auditEnv Broker.empty = (.ok (.wrapped outcome), s₁) :=
    Eff.bind_of_ok hwrap
  have hsecond : (plainAttenuate .renewableLease).exec auditEnv s₁ =
      (.ok (.attenuated ⟨plainSingleUse .renewableLease, none⟩), s₂) := Eff.bind_of_ok hattenuate
  have hafter : Broker.empty.after auditEnv [plainWrap .renewableLease] = s₁ := by
    rw [Broker.after_cons, hfirst, Broker.after_nil]
  refine ⟨plainSingleUse .renewableLease, ⟨_, s₂, hafter ▸ hsecond, rfl⟩, ?_⟩
  obtain ⟨wrapped, hlog₁, hwrapped⟩ := wrap_announces rfl hwrap
  obtain ⟨attenuated, hlog₂, hattenuated⟩ := attenuate_announces rfl hattenuate
  rw [Broker.after_cons, hfirst, Broker.after_cons, hsecond, Broker.after_nil, hlog₂, hlog₁]
  intro event hevent
  rcases List.mem_append.mp hevent with hevent | hevent
  · rw [List.mem_singleton.mp hevent, hwrapped.named, hhandle]
    exact fun heq => audit_fingerprints (Option.some.inj heq)
  · rw [List.mem_singleton.mp hevent, hattenuated.named]
    exact fun heq => audit_fingerprints (Option.some.inj heq)

end SecretBroker

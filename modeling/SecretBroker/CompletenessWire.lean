import SecretBroker.Completeness
import SecretBroker.Server

/-! Redeem tokens on the wire. A token leaves the server in the response of one of three calls, and comes back to
it in a request to unwrap. It arrives as it was made exactly if the call that issued it sends raw bytes. -/

open Wire

namespace SecretBroker

/-- A call that issues a handle with a redeem token. -/
inductive IssuingCall where
  | wrapSecretV2 (now createdAt : DateTime) (d : PersistDraws) (req : Proto.WrapSecretV2Request)
  | mintAeadKeyV2 (d : MintDraws) (req : Proto.MintAeadKeyV2Request)
  | rotateSecret (d : RotateDraws) (req : Proto.RotateSecretRequest)

namespace IssuingCall

def IsRotation : IssuingCall → Prop
  | .rotateSecret _ _ => True
  | _ => False

/-- How many shares of the token are asked for: one stands for the token itself. -/
def effectiveThreshold : IssuingCall → UInt8
  | .wrapSecretV2 .. => 1
  | .mintAeadKeyV2 _ req => if req.threshold = 0 then 1 else req.threshold.toUInt8
  | .rotateSecret _ req => max ((rotateRequest req).threshold.getD 1) 1

/-- What sealing the new secret draws. -/
def persist : IssuingCall → PersistDraws
  | .wrapSecretV2 _ _ d _ => d
  | .mintAeadKeyV2 d _ => d.persist
  | .rotateSecret d _ => d.persist

def lifecycle : IssuingCall → SecretLifecycle
  | .wrapSecretV2 _ _ _ req => .fromProto req.lifecycle
  | .mintAeadKeyV2 _ req => .fromProto req.lifecycle
  | .rotateSecret _ req => .fromProto req.lifecycle

variable (env : ServerEnv)

/-- The handle and the redeem token of the response. -/
def exec (context : Option BrokerClientContext) : IssuingCall → Eff Broker RpcError (String × Bytes)
  | .wrapSecretV2 now createdAt d req => do
      let response ← SecretBroker.wrapSecretV2 env now createdAt d context req
      return (response.handle, response.redeemToken)
  | .mintAeadKeyV2 d req => do
      let response ← SecretBroker.mintAeadKeyV2 env d context req
      return (response.handle, response.redeemToken)
  | .rotateSecret d req => do
      let response ← SecretBroker.rotateSecret env d context req
      return (response.newHandle, response.redeemToken)

/-- The token that `compute_redeem_token` produces for the new record. -/
def redeemToken (context : BrokerClientContext) (call : IssuingCall) : Block 32 :=
  env.toEnv.redeemToken call.persist.handleId (redeemBindingBytes env.toEnv call.lifecycle context)
    call.persist.redeemNonce.val

end IssuingCall

variable {env : ServerEnv}

theorem decodeOutcome_eq_ok {what text : String} {bytes : Bytes} :
    decodeOutcome env what text = .ok bytes ↔ Base64.standard.decode text = some bytes := Eff.okOr_eq_ok

/-- A successful call has a context. -/
theorem brokerContext_eq_ok {context : Option BrokerClientContext} {c : BrokerClientContext} :
    brokerContext context = .ok c ↔ context = some c := Eff.okOr_eq_ok

theorem wrapSecretV2_redeemToken {now createdAt : DateTime} {d : PersistDraws} {context : BrokerClientContext}
    {req : Proto.WrapSecretV2Request} {response : Proto.WrapSecretResponse} {s s' : Broker}
    (h : wrapSecretV2 env now createdAt d (some context) req s = (.ok response, s')) :
    response.redeemToken =
      (env.toEnv.redeemToken d.handleId (redeemBindingBytes env.toEnv (.fromProto req.lifecycle) context)
        d.redeemNonce.val).val := by
  simp only [wrapSecretV2, Eff.bind_eq_ok, Eff.lift_eq_ok, Eff.mapError_eq_ok, decodeOutcome_eq_ok, brokerContext_eq_ok,
    Eff.pure_eq_ok, Option.some.injEq] at h
  obtain ⟨_, _, ⟨rfl, rfl⟩, outcome, _, hwrap, token, _, ⟨hdecode, rfl⟩, rfl, -⟩ := h
  obtain ⟨_, _, _, _, _, -, -, -, -, -, htoken⟩ := wrap_eq_ok env.toEnv hwrap
  rw [htoken, Base64.decode_encode Base64.standard_lawful] at hdecode
  exact (Option.some.inj hdecode).symm

theorem mintAeadKeyV2_redeemToken {d : MintDraws} {context : BrokerClientContext} {req : Proto.MintAeadKeyV2Request}
    {response : Proto.MintAeadKeyV2Response} {s s' : Broker}
    (h : mintAeadKeyV2 env d (some context) req s = (.ok response, s'))
    (hthreshold : (if req.threshold = 0 then 1 else req.threshold.toUInt8) = 1) :
    response.redeemToken =
      (env.toEnv.redeemToken d.persist.handleId (redeemBindingBytes env.toEnv (.fromProto req.lifecycle) context)
        d.persist.redeemNonce.val).val := by
  simp only [mintAeadKeyV2, Eff.bind_eq_ok, Eff.lift_eq_ok, Eff.mapError_eq_ok, brokerContext_eq_ok,
    Eff.pure_eq_ok, Option.some.injEq, Prod.exists] at h
  obtain ⟨_, _, ⟨rfl, rfl⟩, threshold, _, ⟨hbyte, rfl⟩, numShares, _, ⟨-, rfl⟩, result, _, hmint, key, _, ⟨-, rfl⟩,
    token, shares, _, ⟨hmaterial, rfl⟩, rfl, -⟩ := h
  have hone : threshold.getD 1 = 1 := by
    rw [byteOrNone] at hbyte
    split_ifs at hbyte hthreshold
    · cases hbyte
      rfl
    · cases hbyte
      exact hthreshold
  obtain ⟨_, _, _, outcome, s₁, _, -, -, -, hpersist, -, hredeem, -⟩ := mint_eq_ok env.toEnv hmint
  obtain ⟨_, _, _, _, _, _, _, _, -, -, -, -, rfl⟩ := persist_eq_ok env.toEnv hpersist
  -- with a threshold of one the handler returns the token, and the server decodes it
  have htoken : result.redeemToken = Base64.standard.encode
      (env.toEnv.redeemToken d.persist.handleId (redeemBindingBytes env.toEnv (.fromProto req.lifecycle) context)
        d.persist.redeemNonce.val).val := by
    have hmode : (mintRequest req threshold numShares).threshold.getD 1 = 1 := hone
    rw [hmode, mintRedeemMaterial, if_neg (by decide), Eff.pure_eq_ok] at hredeem
    exact hredeem.1
  rw [hone, mintedMaterial, if_neg (by decide), Eff.except_bind_eq_ok] at hmaterial
  obtain ⟨bytes, hdecode, hpair⟩ := hmaterial
  cases hpair
  rw [decodeOutcome_eq_ok, htoken, Base64.decode_encode Base64.standard_lawful] at hdecode
  exact (Option.some.inj hdecode).symm

/-- A rotation sends the base64 text of the token. -/
theorem rotateSecret_redeemToken {d : RotateDraws} {context : BrokerClientContext} {req : Proto.RotateSecretRequest}
    {response : Proto.RotateSecretResponse} {s s' : Broker}
    (h : rotateSecret env d (some context) req s = (.ok response, s'))
    (hthreshold : max ((rotateRequest req).threshold.getD 1) 1 = 1) :
    response.redeemToken = asBytes (Base64.standard.encode
      (env.toEnv.redeemToken d.persist.handleId (redeemBindingBytes env.toEnv (.fromProto req.lifecycle) context)
        d.persist.redeemNonce.val).val) := by
  simp only [rotateSecret, Eff.bind_eq_ok, Eff.lift_eq_ok, Eff.mapError_eq_ok, brokerContext_eq_ok,
    Eff.pure_eq_ok, Option.some.injEq] at h
  obtain ⟨_, _, ⟨rfl, rfl⟩, result, _, hrotate, rfl, -⟩ := h
  obtain ⟨_, _, _, outcome, _, _, _, -, hpersist, hmaterial, -⟩ := rotate_eq_ok env.toEnv hrotate
  obtain ⟨_, _, _, _, _, _, _, _, -, -, -, -, rfl⟩ := persist_eq_ok env.toEnv hpersist
  rw [hthreshold, rotateRedeemMaterial, if_neg (by decide), Eff.pure_eq_ok, Prod.mk.injEq] at hmaterial
  rw [hmaterial.1.1]
  rfl

/-- A token that is sent back alone reaches the handler as a text for the same bytes. -/
theorem presentedToken_decodes {req : Proto.UnwrapSecretV2Request} (hshares : req.redeemShares = [])
    (htoken : req.redeemToken ≠ []) (token : Bytes) :
    (∃ text, presentedToken env req = .ok text ∧ Base64.standard.decode text = some token) ↔ req.redeemToken = token := by
  have hpresented : presentedToken env req = .ok (Base64.standard.encode req.redeemToken) := by
    rw [presentedToken, if_neg (not_not.mpr hshares), if_pos htoken]
  rw [hpresented]
  constructor
  · rintro ⟨text, htext, hdecode⟩
    cases htext
    rw [Base64.decode_encode Base64.standard_lawful] at hdecode
    exact Option.some.inj hdecode
  · intro heq
    exact ⟨_, rfl, heq ▸ Base64.decode_encode Base64.standard_lawful _⟩

theorem block_ne_nil {n : ℕ} (hn : 0 < n) (b : Block n) : b.val ≠ [] := by
  intro h
  have := b.property
  rw [h, List.length_nil] at this
  omega

/-- The text of a token that is sent as bytes arrives as something else. -/
theorem altered_token {req : Proto.UnwrapSecretV2Request} (hshares : req.redeemShares = []) {token : Bytes}
    (hne : token ≠ []) (hsent : req.redeemToken = asBytes (Base64.standard.encode token)) :
    ¬ ∃ text, presentedToken env req = .ok text ∧ Base64.standard.decode text = some token := by
  have hlonger := length_lt_asBytes_encode hne
  rw [← hsent] at hlonger
  have hfilled : req.redeemToken ≠ [] := by
    intro hempty
    rw [hempty] at hlonger
    exact absurd hlonger (Nat.not_lt_zero _)
  rw [presentedToken_decodes hshares hfilled]
  intro heq
  rw [heq] at hlonger
  exact lt_irrefl _ hlonger

def plainServer : ServerEnv where
  toEnv := plainEnv
  xChaCha20Poly1305 := { encrypt _ _ plaintext := .ok plaintext, decrypt _ _ ciphertext := .ok ciphertext }
  maxDataSizeMb := 100
  debugError message := message
  sharesError _ := ""

/-- The message for `plainRequest`. -/
def plainMessage : Proto.WrapSecretV2Request :=
  ⟨[1, 2, 3], "", none, 0, 0, "", "acme", "", "", "", "", 0⟩

/-- A request to unwrap with a token alone. -/
def plainUnwrapMessage (handle : String) (token : Bytes) : Proto.UnwrapSecretV2Request :=
  ⟨handle, token, [], "acme", "", "", "", []⟩

theorem plain_wrapRequest : wrapRequest plainMessage = plainRequest .singleUseUnwrap := by
  have hempty : emptyToNone "" = none := by decide
  have htenant : emptyToNone "acme" = some "acme" := by decide
  simp only [wrapRequest, plainMessage, hempty, htenant]
  rfl

/-- The call that wraps the secret of `plainRequest`. -/
def plainIssue : IssuingCall :=
  .wrapSecretV2 ⟨0, 0⟩ ⟨0, 0⟩ (plainDraws (.filled 1) (.filled 2) (.filled 3)) plainMessage

theorem plain_issued : ∃ handle token s',
    plainIssue.exec plainServer (some plainContext) Broker.empty = (.ok (handle, token), s') := by
  obtain ⟨outcome, r, s', hwrap, -⟩ :=
    plain_wrap (.filled 1) (.filled 2) (.filled 3) .singleUseUnwrap (s := Broker.empty) (by decide)
  obtain ⟨_, _, _, _, _, -, -, -, -, -, htoken⟩ := wrap_eq_ok plainEnv hwrap
  have hdecode := congrArg Base64.standard.decode htoken
  rw [Base64.decode_encode Base64.standard_lawful] at hdecode
  simp only [plainIssue, IssuingCall.exec, wrapSecretV2, Eff.bind_eq_ok, Eff.lift_eq_ok, Eff.mapError_eq_ok,
    brokerContext_eq_ok, decodeOutcome_eq_ok, Eff.pure_eq_ok, plain_wrapRequest]
  exact ⟨_, _, s', _, s', ⟨plainContext, Broker.empty, ⟨rfl, rfl⟩, outcome, s', hwrap, _, s', ⟨hdecode, rfl⟩, rfl, rfl⟩,
    rfl, rfl⟩

/-- **Tokens on the wire**: the bytes of a token that a call delivers, sent back unchanged, reach the handler as a
text for the token of the new record exactly if the call was not a rotation. -/
theorem delivered_token_iff {call : IssuingCall} {context : BrokerClientContext} {handle : String} {token : Bytes}
    {s s' : Broker} (hcall : call.exec env (some context) s = (.ok (handle, token), s'))
    (hthreshold : call.effectiveThreshold = 1) {req : Proto.UnwrapSecretV2Request} (hshares : req.redeemShares = [])
    (htoken : req.redeemToken = token) :
    (∃ text, presentedToken env req = .ok text ∧
      Base64.standard.decode text = some (call.redeemToken env context).val) ↔ ¬ call.IsRotation := by
  have hne : ∀ call : IssuingCall, (call.redeemToken env context).val ≠ [] := fun call => block_ne_nil (by decide) _
  cases call with
  | wrapSecretV2 now createdAt d wrap =>
      simp only [IssuingCall.exec, Eff.bind_eq_ok, Eff.pure_eq_ok, Prod.mk.injEq] at hcall
      obtain ⟨response, _, hwrap, ⟨-, rfl⟩, -⟩ := hcall
      have hsent := wrapSecretV2_redeemToken hwrap
      rw [presentedToken_decodes hshares (by rw [htoken, hsent]; exact hne (.wrapSecretV2 now createdAt d wrap))]
      exact iff_of_true (htoken.trans hsent) id
  | mintAeadKeyV2 d mint =>
      simp only [IssuingCall.exec, Eff.bind_eq_ok, Eff.pure_eq_ok, Prod.mk.injEq] at hcall
      obtain ⟨response, _, hmint, ⟨-, rfl⟩, -⟩ := hcall
      have hsent := mintAeadKeyV2_redeemToken hmint hthreshold
      rw [presentedToken_decodes hshares (by rw [htoken, hsent]; exact hne (.mintAeadKeyV2 d mint))]
      exact iff_of_true (htoken.trans hsent) id
  | rotateSecret d rotate =>
      simp only [IssuingCall.exec, Eff.bind_eq_ok, Eff.pure_eq_ok, Prod.mk.injEq] at hcall
      obtain ⟨response, _, hrotate, ⟨-, rfl⟩, -⟩ := hcall
      have hsent := rotateSecret_redeemToken hrotate hthreshold
      exact iff_of_false (altered_token hshares (hne (.rotateSecret d rotate)) (htoken.trans hsent)) (not_not.mpr trivial)

theorem delivered_token_iff_plain : ∃ handle token s',
    plainIssue.exec plainServer (some plainContext) Broker.empty = (.ok (handle, token), s') ∧
    ∃ text, presentedToken plainServer (plainUnwrapMessage handle token) = .ok text ∧
      Base64.standard.decode text = some (plainIssue.redeemToken plainServer plainContext).val := by
  obtain ⟨handle, token, s', hcall⟩ := plain_issued
  have hshares : (plainUnwrapMessage handle token).redeemShares = [] := rfl
  exact ⟨handle, token, s', hcall, (delivered_token_iff hcall rfl hshares rfl).mpr id⟩

def plainRotateDraws : RotateDraws where
  load := ⟨.ok, ⟨60, 0⟩, ⟨60, 0⟩⟩
  createdAt := ⟨60, 0⟩
  persist := plainDraws (.filled 4) (.filled 5) (.filled 6)
  coefficients _ := 0
  thresholdDisk := .ok
  revokeNow := ⟨60, 0⟩
  revokeDisk := .ok

/-- The caller of `plainRequest` replaces its secret. -/
def plainRotation (handle : String) : IssuingCall :=
  .rotateSecret plainRotateDraws ⟨handle, [4, 5, 6], "", none, 0, 0, "", 0, 0⟩

/-- The rotation of `plainRotation` as the handler gets it. -/
def plainRotateRequest (handle : String) : RotateSecretRequest :=
  rotateRequest ⟨handle, [4, 5, 6], "", none, 0, 0, "", 0, 0⟩

/-- The caller may replace the secret that it has wrapped, and the new one is sealed. -/
theorem plain_rotation_sealed : ∃ outcome r stored r' s₂,
    wrapSecretV2Impl plainEnv ⟨0, 0⟩ (plainDraws (.filled 1) (.filled 2) (.filled 3)) plainContext
      (plainRequest .singleUseUnwrap) Broker.empty =
        (.ok outcome, Broker.empty.after plainEnv [plainWrap .singleUseUnwrap]) ∧
    parseHandleIdentifier plainEnv outcome.handle = .ok (.filled 1) ∧
    (Broker.empty.after plainEnv [plainWrap .singleUseUnwrap]).records (.filled 1) = some r ∧
    validateV2RecordManagementRequirements (accessed plainEnv plainRotateDraws.load r) plainContext = .ok () ∧
    persistSecretV2WithLifecycle plainEnv plainRotateDraws.persist plainContext
      (rotateInput plainEnv plainRotateDraws (plainRotateRequest outcome.handle) none (some "alice"))
      ((Broker.empty.after plainEnv [plainWrap .singleUseUnwrap]).putRecord (.filled 1)
        (some (accessed plainEnv plainRotateDraws.load r))) = (.ok stored, s₂) ∧
    s₂.records = Function.update ((Broker.empty.after plainEnv [plainWrap .singleUseUnwrap]).putRecord (.filled 1)
      (some (accessed plainEnv plainRotateDraws.load r))).records (.filled 4) (some r') := by
  obtain ⟨outcome, r, hwrap, hr, hunused, -, -, hexpires, -⟩ := plain_wrapped .singleUseUnwrap
  obtain ⟨hhandle, hidentity⟩ := plain_identified rfl hwrap hr hunused hexpires
  have hlimit : customerKeyCount (Broker.empty.after plainEnv [plainWrap .singleUseUnwrap]).keyMetadata
    "customer" < 100 := by
    decide +kernel
  obtain ⟨stored, r', s₂, hpersist, hrecords, -⟩ := plain_persist (.filled 4) (.filled 5) (.filled 6) plainContext
    (rotateInput plainEnv plainRotateDraws (plainRotateRequest outcome.handle) none (some "alice"))
    (s := (Broker.empty.after plainEnv [plainWrap .singleUseUnwrap]).putRecord (.filled 1)
      (some (accessed plainEnv plainRotateDraws.load r))) hlimit rfl rfl
  exact ⟨outcome, r, stored, r', s₂, hwrap, hhandle, hr, management_of_identity hidentity, hpersist, hrecords⟩

theorem plain_rotated : ∃ outcome handle token s',
    wrapSecretV2Impl plainEnv ⟨0, 0⟩ (plainDraws (.filled 1) (.filled 2) (.filled 3)) plainContext
      (plainRequest .singleUseUnwrap) Broker.empty =
        (.ok outcome, Broker.empty.after plainEnv [plainWrap .singleUseUnwrap]) ∧
    (plainRotation outcome.handle).exec plainServer (some plainContext)
      (Broker.empty.after plainEnv [plainWrap .singleUseUnwrap]) = (.ok (handle, token), s') := by
  obtain ⟨outcome, r, stored, r', s₂, hwrap, hhandle, hr, hmanaged, hpersist, hrecords⟩ := plain_rotation_sealed
  refine ⟨outcome, ?_⟩
  -- from here on only the record matters
  generalize Broker.empty.after plainEnv [plainWrap .singleUseUnwrap] = s at hwrap hr hpersist hrecords
  obtain ⟨loaded, hloaded⟩ : ∃ loaded, loaded = accessed plainEnv plainRotateDraws.load r := ⟨_, rfl⟩
  rw [← hloaded] at hmanaged hpersist hrecords
  have hload : loadRecord plainEnv plainRotateDraws.load (.filled 1) s =
      (.ok loaded, s.putRecord (.filled 1) (some loaded)) :=
    (loadRecord_eq_ok plainEnv).mpr ⟨rfl, r, hr, hloaded, rfl⟩
  have hold : s₂.records (.filled 1) = some loaded := by
    rw [hrecords, Function.update_of_ne (by decide)]
    exact Broker.putRecord_records_self _ _ _
  have hrevoke : perform .ok (.filled 1)
    (SealedStore.revoke plainEnv.serde (some "rotated to replacement capability") ⟨60, 0⟩) s₂ =
      (.ok true, s₂.putRecord (.filled 1) _) := perform_eq_ok.mpr ⟨rfl, by rw [hold]; rfl, rfl⟩
  have hmaterial : rotateRedeemMaterial plainEnv plainRotateDraws 1 1 stored s₂ = (.ok (stored.redeemToken, []), s₂) := rfl
  have hcount : ¬ (1 : UInt8) > 1 := by decide
  have hrotate : ∃ response s', rotateSecretImpl plainEnv plainRotateDraws plainContext
      (plainRotateRequest outcome.handle) s = (.ok response, s') := by
    simp only [rotateSecretImpl, Eff.bind_eq_ok, Eff.lift_eq_ok, check_eq_ok, Eff.mapError_eq_ok, Eff.rejectIf_eq_ok,
      recordTransparency, Eff.modify_eq_ok, Eff.pure_eq_ok, Prod.exists]
    exact ⟨_, _, .filled 1, s, ⟨hhandle, rfl⟩, loaded, _, hload, (), _, ⟨hmanaged, rfl⟩, none, none, _, ⟨rfl, rfl⟩, (), _,
      ⟨hcount, rfl⟩, some "alice", _, ⟨plain_unwrapPrincipal .singleUseUnwrap, rfl⟩, stored, s₂, hpersist, _, _, s₂,
      hmaterial, true, _, hrevoke, (), _, rfl, rfl, rfl⟩
  obtain ⟨response, s', hrotate⟩ := hrotate
  refine ⟨response.newHandle, asBytes response.redeemToken, s', hwrap, ?_⟩
  simp only [plainRotation, IssuingCall.exec, rotateSecret, Eff.bind_eq_ok, Eff.lift_eq_ok, Eff.mapError_eq_ok,
    brokerContext_eq_ok, Eff.pure_eq_ok]
  exact ⟨_, s', ⟨plainContext, s, ⟨rfl, rfl⟩, response, s', hrotate, rfl, rfl⟩, rfl, rfl⟩

/-- The token of the replacement, sent back as it was delivered, is not the token of the new record. -/
theorem rotated_token_altered : ∃ outcome handle token s',
    wrapSecretV2Impl plainEnv ⟨0, 0⟩ (plainDraws (.filled 1) (.filled 2) (.filled 3)) plainContext
      (plainRequest .singleUseUnwrap) Broker.empty =
        (.ok outcome, Broker.empty.after plainEnv [plainWrap .singleUseUnwrap]) ∧
    (plainRotation outcome.handle).effectiveThreshold = 1 ∧
    (plainRotation outcome.handle).exec plainServer (some plainContext)
      (Broker.empty.after plainEnv [plainWrap .singleUseUnwrap]) = (.ok (handle, token), s') ∧
    ¬ ∃ text, presentedToken plainServer (plainUnwrapMessage handle token) = .ok text ∧
      Base64.standard.decode text = some ((plainRotation outcome.handle).redeemToken plainServer plainContext).val := by
  obtain ⟨outcome, handle, token, s', hwrap, hcall⟩ := plain_rotated
  refine ⟨outcome, handle, token, s', hwrap, rfl, hcall, ?_⟩
  simp only [plainRotation, IssuingCall.exec, Eff.bind_eq_ok, Eff.pure_eq_ok, Prod.mk.injEq] at hcall
  obtain ⟨response, _, hrotate, ⟨-, rfl⟩, -⟩ := hcall
  exact altered_token rfl (block_ne_nil (by decide) _) (rotateSecret_redeemToken hrotate rfl)

end SecretBroker

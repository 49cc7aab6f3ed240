import SecretBroker.CompletenessClient
import SecretBroker.SecurityMaxUses

/-! The redeem cache over whole runs of a client, with any server at the other side. Each call comes down to a list of
accesses to the cache, and what holds after any calls is read off these lists: entries can be sent, and an entry comes only
from material that a call remembers. An unwrap takes its entry out and never puts it back, and a deletion takes out
the entry under the handle as it was spelled. -/

open Wire

namespace SecretBroker

namespace Client

/-- A call of the library, with what the other side makes of its requests. -/
inductive ClientCall where
  | wrapBytesV2 (describe : Remote Proto.DescribeChannelResponse)
      (serve : Proto.WrapSecretV2Request → Remote Proto.WrapSecretResponse) (clock : String → DateTime) (plaintext : Bytes)
      (params : WrapV2Params)
  | mintAeadKeyV2 (describe : Remote Proto.DescribeChannelResponse)
      (serve : Proto.MintAeadKeyV2Request → Remote Proto.MintAeadKeyV2Response) (params : MintAeadKeyV2Params)
  | preloadRedeemToken (clock : String → DateTime) (handle token : String) (expiresAt : Option DateTime)
  | preloadRedeemShares (clock : String → DateTime) (handle : String) (shares : List ThresholdShareMaterial)
      (expiresAt : Option DateTime)
  | unwrapSecretV2 (serve : Proto.UnwrapSecretV2Request → Remote Proto.UnwrapSecretResponse) (clock : UnwrapClock)
      (params : UnwrapSecretV2Params)
  | deleteSecret (serve : String → Remote Unit) (handle : String)
  | revokeSecret (serve : Proto.RevokeSecretRequest → Remote Proto.RevokeSecretResponse) (handle : String)
      (reason : Option String)
  | rotateSecret (serve : Proto.RotateSecretRequest → Remote Proto.RotateSecretResponse) (oldHandle : String)
      (newPlaintext : Bytes) (params : RotateParams)

/-- The accesses of `remember_redeem_token`. -/
def keptToken (handle token : String) (expiresAt : Option DateTime) : List CacheOp :=
  if (Base64.standard.decode (trim token)).isSome then [.insert (trim handle) ⟨.token (trim token), expiresAt⟩] else []

/-- The accesses of `remember_redeem_shares`. -/
def keptShares (handle : String) (shares : List ThresholdShareMaterial) (expiresAt : Option DateTime) : List CacheOp :=
  if (validateThresholdShares shares).toBool then [.insert (trim handle) ⟨.shares shares, expiresAt⟩] else []

def WrapResponse.kept (response : WrapResponse) : List CacheOp :=
  keptToken response.handle response.redeemToken response.redeemTokenExpiresAt

def MintAeadKeyV2Lease.kept (lease : MintAeadKeyV2Lease) : List CacheOp :=
  if lease.threshold > 1 then keptShares lease.handle lease.redeemShares lease.redeemTokenExpiresAt
  else keptToken lease.handle (lease.redeemToken.getD "") lease.redeemTokenExpiresAt

def rotatedKept (response : Proto.RotateSecretResponse) (expiresAt : Option DateTime) : List CacheOp :=
  if rotatedToken response ≠ "" then keptToken (trim response.newHandle) (rotatedToken response) expiresAt else []

/-- What is done with the value of a result, if there is one. -/
def onOk {α : Type} (result : Except String α) (kept : α → List CacheOp) : List CacheOp :=
  result.toOption.toList.flatMap kept

@[simp] theorem onOk_ok {α : Type} (a : α) (kept : α → List CacheOp) :
    onOk (.ok a) kept = kept a := List.flatMap_singleton ..

@[simp] theorem onOk_error {α : Type} (e : String) (kept : α → List CacheOp) : onOk (.error e) kept = [] := rfl

/-- The accesses of `rotate_secret` once it has an answer: none if the expiry of the token cannot be read. -/
def rotatedAccesses (oldHandle : String) (response : Proto.RotateSecretResponse) : List CacheOp :=
  onOk (optionalTimestamp response.redeemTokenExpiresAt) fun expiresAt =>
    rotatedKept response expiresAt ++ [.remove (trim oldHandle)]

section

variable (lib : ClientEnv) (json : ClientJson) (adapter : Adapter)

/-- A call of the library, for its success and its effect. -/
def ClientCall.exec : ClientCall → Eff Deployment String Unit
  | .wrapBytesV2 describe serve clock plaintext params => do
      let _ ← Client.wrapBytesV2 json adapter describe serve clock plaintext params
      return ()
  | .mintAeadKeyV2 describe serve params => do
      let _ ← mintAeadKeyV2Over adapter describe serve params
      return ()
  | .preloadRedeemToken clock handle token expiresAt => onCache (Client.preloadRedeemToken clock handle token expiresAt)
  | .preloadRedeemShares clock handle shares expiresAt =>
      onCache (Client.preloadRedeemShares clock handle shares expiresAt)
  | .unwrapSecretV2 serve clock params => do
      let _ ← unwrapSecretV2Over lib serve clock params
      return ()
  | .deleteSecret serve handle => Client.deleteSecret serve handle
  | .revokeSecret serve handle reason => do
      let _ ← Client.revokeSecret serve handle reason
      return ()
  | .rotateSecret serve oldHandle newPlaintext params => do
      let _ ← Client.rotateSecret json serve oldHandle newPlaintext params
      return ()

/-- The accesses of a call. Those of a wrap and of a mint depend on what they return, those of a revocation and a rotation
on the answer alone, and an unwrap accesses the cache before it has any. -/
def ClientCall.accesses : ClientCall → Deployment → List CacheOp
  | .wrapBytesV2 describe serve clock plaintext params, w =>
      .retain clock :: onOk (Client.wrapBytesV2 json adapter describe serve clock plaintext params w).1 WrapResponse.kept
  | .mintAeadKeyV2 describe serve params, w =>
      onOk (mintAeadKeyV2Over adapter describe serve params w).1 MintAeadKeyV2Lease.kept
  | .preloadRedeemToken clock handle token expiresAt, _ => .retain clock :: keptToken (trim handle) token expiresAt
  | .preloadRedeemShares clock handle shares expiresAt, _ => .retain clock :: keptShares (trim handle) shares expiresAt
  | .unwrapSecretV2 _ clock params, _ =>
      .retain clock.purge :: if params.redeemToken.isSome ∨ params.redeemShares ≠
        [] then [] else [.remove (trim params.handle)]
  | .deleteSecret serve handle, w => onOk (call (serve handle) w).1 fun _ => [.remove handle]
  | .revokeSecret serve handle reason, w =>
      onOk (call (serve ⟨trim handle, reason.getD ""⟩) w).1 fun _ => [.remove (trim handle)]
  | .rotateSecret serve oldHandle newPlaintext params, w =>
      onOk (rotateAnswer json serve oldHandle newPlaintext params w).1 (rotatedAccesses oldHandle)

end

theorem access_snd (op : CacheOp) (cache : RedeemCache) : (access op cache).2 = cache.after [op] := rfl

theorem apply_remove_self (cache : RedeemCache) (key : String) : CacheOp.apply cache (.remove key) key = none :=
  Function.update_self ..

theorem apply_insert_self (cache : RedeemCache) (key : String) (entry : RedeemCacheEntry) :
    CacheOp.apply cache (.insert key entry) key = some entry := Function.update_self ..

theorem apply_remove_of_ne {key other : String} (h : other ≠ key) (cache : RedeemCache) :
    CacheOp.apply cache (.remove key) other = cache other := Function.update_of_ne h ..

theorem after_singleton (cache : RedeemCache) (op : CacheOp) : cache.after [op] = op.apply cache := rfl

theorem after_cons (cache : RedeemCache) (op : CacheOp) (ops : List CacheOp) :
    cache.after (op :: ops) = RedeemCache.after (op.apply cache) ops := rfl

theorem after_append (cache : RedeemCache) (ops ops' : List CacheOp) :
    cache.after (ops ++ ops') = RedeemCache.after (cache.after ops) ops' := List.foldl_append

/-- A check and then an access. -/
theorem checked_snd {α : Type} (x : Except String α) (op : CacheOp) (cache : RedeemCache) :
    ((Eff.lift x >>= fun _ => access op) cache).2 = cache.after (if x.toBool then [op] else []) := by
  cases x with
  | error e => exact congrArg Prod.snd (Eff.bind_of_error (Eff.lift_apply _ _))
  | ok a =>
      rw [Eff.bind_of_ok (Eff.lift_apply _ _)]
      rfl

theorem rememberRedeemToken_snd (handle token : String) (expiresAt : Option DateTime) (cache : RedeemCache) :
    (rememberRedeemToken handle token expiresAt cache).2 = cache.after (keptToken handle token expiresAt) := by
  have hchecked : (Eff.okOr (Base64.standard.decode (trim token))
    ("invalid redeem token received for handle " ++ handle)).toBool =
      (Base64.standard.decode (trim token)).isSome := by
    cases Base64.standard.decode (trim token) with
    | none => rfl
    | some bytes => rfl
  rw [keptToken, ← hchecked, ← checked_snd]
  rfl

theorem rememberRedeemShares_snd (handle : String) (shares : List ThresholdShareMaterial) (expiresAt : Option DateTime)
    (cache : RedeemCache) :
    (rememberRedeemShares handle shares expiresAt cache).2 = cache.after (keptShares handle shares expiresAt) := by
  rw [keptShares, ← checked_snd]
  rfl

theorem purgeExpired_apply (clock : String → DateTime) (cache : RedeemCache) :
    purgeExpired clock cache = (.ok (), CacheOp.apply cache (.retain clock)) := rfl

theorem preloadRedeemToken_snd (clock : String → DateTime) (handle token : String) (expiresAt : Option DateTime)
    (cache : RedeemCache) : (preloadRedeemToken clock handle token expiresAt cache).2 =
      cache.after (.retain clock :: keptToken (trim handle) token expiresAt) := by
  rw [after_cons, ← rememberRedeemToken_snd, preloadRedeemToken, Eff.bind_of_ok (purgeExpired_apply clock cache)]

theorem preloadRedeemShares_snd (clock : String → DateTime) (handle : String) (shares : List ThresholdShareMaterial)
    (expiresAt : Option DateTime) (cache : RedeemCache) : (preloadRedeemShares clock handle shares expiresAt cache).2 =
      cache.after (.retain clock :: keptShares (trim handle) shares expiresAt) := by
  rw [after_cons, ← rememberRedeemShares_snd, preloadRedeemShares, Eff.bind_of_ok (purgeExpired_apply clock cache)]

theorem takeRedeemMaterial_snd (lib : ClientEnv) (handle : String) (now : DateTime) (cache : RedeemCache) :
    (takeRedeemMaterial lib handle now cache).2 = CacheOp.apply cache (.remove handle) := by
  have hread : takeRedeemMaterial lib handle now cache = _ := Eff.bind_of_ok (Eff.read_apply cache)
  rw [hread]
  cases hentry : cache handle with
  | none => exact (Function.update_eq_self_iff.mpr hentry.symm).symm
  | some entry =>
      refine (congrArg Prod.snd (Eff.bind_of_ok (Eff.modify_apply _ _))).trans ?_
      cases entry.expiresAt with
      | none => rfl
      | some expiry => exact (Eff.bind_snd (fun _ => Eff.keeps_pure _) _).trans (Eff.lift_snd _ _)

theorem unwrapMaterial_snd (lib : ClientEnv) (clock : UnwrapClock) (params : UnwrapSecretV2Params) (cache : RedeemCache) :
    (unwrapMaterial lib clock params cache).2 = cache.after
      (if params.redeemToken.isSome ∨ params.redeemShares ≠ [] then [] else [.remove (trim params.handle)]) := by
  unfold unwrapMaterial
  cases params.redeemToken with
  | some token => exact Eff.lift_snd _ _
  | none =>
      by_cases hshares : params.redeemShares = []
      · simp only [hshares, Option.isSome_none, Bool.false_eq_true, ne_eq, not_true_eq_false, or_self, if_false]
        rw [after_singleton, ← takeRedeemMaterial_snd lib (trim params.handle) clock.now]
        exact Eff.bind_snd (fun _ => Eff.keeps_lift _) _
      · simp only [hshares, ne_eq, not_false_eq_true, or_true, if_true]
        exact Eff.lift_snd _ _

/-- An unwrap accesses the cache before it sends anything, so that no answer matters. -/
theorem unwrapMessage_snd (lib : ClientEnv) (clock : UnwrapClock) (params : UnwrapSecretV2Params) (cache : RedeemCache) :
    (unwrapMessage lib clock params cache).2 = cache.after (.retain clock.purge ::
      if params.redeemToken.isSome ∨ params.redeemShares ≠ [] then [] else [.remove (trim params.handle)]) := by
  rw [after_cons, ← unwrapMaterial_snd lib clock params]
  refine (congrArg Prod.snd (Eff.bind_of_ok (Eff.modify_apply _ _))).trans ?_
  by_cases hboth : params.redeemToken.isSome ∧ params.redeemShares ≠ []
  · rw [Eff.rejectIf, if_pos hboth, unwrapMaterial_snd, if_pos (.inl hboth.1)]
    rfl
  · rw [Eff.rejectIf, if_neg hboth]
    exact Eff.bind_snd (fun _ => Eff.keeps_pure _) _

theorem rememberRotated_eq (response : Proto.RotateSecretResponse) (expiresAt : Option DateTime) (cache : RedeemCache) :
    rememberRotated response expiresAt cache = (.ok (), cache.after (rotatedKept response expiresAt)) := by
  unfold rememberRotated rotatedKept
  by_cases htoken : rotatedToken response ≠ ""
  · rw [if_pos htoken, if_pos htoken, ← rememberRedeemToken_snd]
    rfl
  · rw [if_neg htoken, if_neg htoken]
    rfl

/-- The accesses of a rotation depend on its answer, not on what it makes of the rest of it. -/
theorem acceptRotated_snd (oldHandle : String) (response : Proto.RotateSecretResponse) (cache : RedeemCache) :
    (acceptRotated oldHandle response cache).2 = cache.after (rotatedAccesses oldHandle response) := by
  unfold acceptRotated rotatedAccesses
  cases optionalTimestamp response.redeemTokenExpiresAt with
  | error e => rfl
  | ok expiresAt =>
      rw [onOk_ok, after_append]
      refine (congrArg Prod.snd (Eff.bind_of_ok (rememberRotated_eq response expiresAt cache))).trans ?_
      refine (Eff.bind_snd (fun _ => ?_) _).trans (access_snd _ _)
      refine Eff.keeps_bind (Eff.keeps_lift _) fun _ => ?_
      refine Eff.keeps_bind (Eff.keeps_lift _) fun _ => ?_
      exact Eff.keeps_bind (Eff.keeps_lift _) fun _ => Eff.keeps_pure _

theorem rememberRedeemToken_spares (handle token : String) (expiresAt : Option DateTime) :
    Eff.Spares Eq (rememberRedeemToken handle token expiresAt) :=
  Eff.spares_bind_of_succeeds (Eff.keeps_lift _).spares fun _ _ _ _ => Eff.succeeds_modify _

theorem rememberRedeemShares_spares (handle : String) (shares : List ThresholdShareMaterial)
    (expiresAt : Option DateTime) : Eff.Spares Eq (rememberRedeemShares handle shares expiresAt) :=
  Eff.spares_bind_of_succeeds (Eff.keeps_lift _).spares fun _ _ _ _ => Eff.succeeds_modify _

theorem acceptWrapped_spares (response : Proto.WrapSecretResponse) : Eff.Spares Eq (acceptWrapped response) := by
  refine Eff.spares_bind (Eff.keeps_lift _) fun _ => ?_
  refine Eff.spares_bind (Eff.keeps_lift _) fun _ => ?_
  refine Eff.spares_bind (Eff.keeps_lift _) fun _ => ?_
  exact Eff.spares_bind_of_succeeds (rememberRedeemToken_spares _ _ _) fun _ _ _ _ => Eff.succeeds_pure _

theorem acceptWrapped_of_ok {response : Proto.WrapSecretResponse} {cache cache' : RedeemCache} {result : WrapResponse}
    (h : acceptWrapped response cache = (.ok result, cache')) : cache' = cache.after result.kept := by
  simp only [acceptWrapped, Eff.bind_eq_ok, Eff.lift_eq_ok, Eff.pure_eq_ok] at h
  obtain ⟨createdAt, _, ⟨-, rfl⟩, expiresAt, _, ⟨-, rfl⟩, redeemExpiresAt, _, ⟨-, rfl⟩, _, _, hremember, rfl, rfl⟩ := h
  exact (congrArg Prod.snd hremember).symm.trans (rememberRedeemToken_snd ..)

theorem acceptMinted_spares (response : Proto.MintAeadKeyV2Response) : Eff.Spares Eq (acceptMinted response) := by
  refine Eff.spares_bind (Eff.keeps_lift _) fun threshold => ?_
  refine Eff.spares_bind (Eff.keeps_lift _) fun numShares => ?_
  refine Eff.spares_bind (Eff.keeps_lift _) fun expiresAt => ?_
  refine Eff.spares_bind (Eff.keeps_lift _) fun redeemExpiresAt => ?_
  refine Eff.spares_bind (Eff.keeps_lift _) fun redeemShares => ?_
  dsimp only
  split_ifs
  · refine Eff.spares_bind (Eff.keeps_lift _) fun _ => ?_
    exact Eff.spares_bind_of_succeeds (rememberRedeemShares_spares _ _ _) fun _ _ _ _ => Eff.succeeds_pure _
  · refine Eff.spares_bind (Eff.keeps_lift _) fun token => ?_
    exact Eff.spares_bind_of_succeeds (rememberRedeemToken_spares _ _ _) fun _ _ _ _ => Eff.succeeds_pure _

theorem acceptMinted_of_ok {response : Proto.MintAeadKeyV2Response} {cache cache' : RedeemCache}
    {lease : MintAeadKeyV2Lease} (h : acceptMinted response cache = (.ok lease, cache')) :
    cache' = cache.after lease.kept := by
  simp only [acceptMinted, Eff.bind_eq_ok, Eff.lift_eq_ok] at h
  obtain ⟨threshold, _, ⟨-, rfl⟩, numShares, _, ⟨-, rfl⟩, expiresAt, _, ⟨-, rfl⟩, redeemExpiresAt, _, ⟨-, rfl⟩,
    redeemShares, _, ⟨-, rfl⟩, h⟩ := h
  by_cases hmany : threshold > 1
  · simp only [if_pos hmany, Eff.bind_eq_ok, Eff.lift_eq_ok, Eff.pure_eq_ok] at h
    obtain ⟨_, _, ⟨-, rfl⟩, _, _, hremember, rfl, rfl⟩ := h
    rw [MintAeadKeyV2Lease.kept, if_pos hmany]
    exact (congrArg Prod.snd hremember).symm.trans (rememberRedeemShares_snd ..)
  · simp only [if_neg hmany, Eff.bind_eq_ok, Eff.lift_eq_ok, Eff.pure_eq_ok] at h
    obtain ⟨token, _, ⟨htoken, rfl⟩, _, _, hremember, rfl, rfl⟩ := h
    rw [Eff.okOr_eq_ok] at htoken
    rw [MintAeadKeyV2Lease.kept, if_neg hmany]
    dsimp only
    rw [htoken]
    exact (congrArg Prod.snd hremember).symm.trans (rememberRedeemToken_snd ..)

/-- The cache of the client is left alone. -/
def SameCache (w w' : Deployment) : Prop := w'.cache = w.cache

instance : IsPreorder Deployment SameCache where
  refl _ := rfl
  trans _ _ _ h h' := h'.trans h

theorem onCache_cache {α : Type} (m : Eff RedeemCache String α) (w : Deployment) :
    (onCache m w).2.cache = (m w.cache).2 := rfl

theorem onCache_access (op : CacheOp) (w : Deployment) :
    onCache (access op) w = (.ok (), { w with cache := op.apply w.cache }) := rfl

theorem keeps_call {α : Type} (m : Remote α) : Eff.Keeps SameCache (call m) := fun _ => rfl

theorem resolvePrincipal_keeps (adapter : Adapter) (describe : Remote Proto.DescribeChannelResponse)
    (lifecycle : SecretLifecycle) (unwrapPrincipalId : Option String) :
    Eff.Keeps SameCache (resolvePrincipal adapter describe lifecycle unwrapPrincipalId) :=
  Eff.keeps_ite (Eff.keeps_bind (keeps_call _) fun _ => Eff.keeps_lift _) (Eff.keeps_pure _)

theorem rotateAnswer_keeps (json : ClientJson) (serve : Proto.RotateSecretRequest → Remote Proto.RotateSecretResponse)
    (oldHandle : String) (newPlaintext : Bytes) (params : RotateParams) :
    Eff.Keeps SameCache (rotateAnswer json serve oldHandle newPlaintext params) :=
  Eff.keeps_bind (Eff.keeps_lift _) fun _ => keeps_call _

/-- What comes last need not touch the cache. -/
theorem bind_cache_of_keeps {α β : Type} {m : Eff Deployment String α} {f : α → Eff Deployment String β}
    (hf : ∀ a, Eff.Keeps SameCache (f a)) (w : Deployment) : ((m >>= f) w).2.cache = (m w).2.cache := by
  rcases h : m w with ⟨e | a, w'⟩
  · rw [Eff.bind_of_error h]
  · rw [Eff.bind_of_ok h]
    exact hf a w'

/-- The accesses of a program are those for what it returns; if it fails, there are none. -/
def Leaves {α : Type} (kept : α → List CacheOp) (m : Eff Deployment String α) : Prop :=
  ∀ w, (m w).2.cache = w.cache.after (onOk (m w).1 kept)

theorem leaves_onCache {α : Type} {kept : α → List CacheOp} {m : Eff RedeemCache String α} (hspares : Eff.Spares Eq m)
    (hok : ∀ cache a cache', m cache = (.ok a, cache') → cache' = cache.after (kept a)) : Leaves kept (onCache m) := by
  intro w
  change (m w.cache).2 = w.cache.after (onOk (m w.cache).1 kept)
  rcases hm : m w.cache with ⟨e | a, cache'⟩
  · exact (hspares _ _ _ hm).symm
  · rw [onOk_ok]
    exact hok _ _ _ hm

theorem leaves_bind {α β : Type} {kept : β → List CacheOp} {m : Eff Deployment String α} {f : α → Eff Deployment String β}
    (hm : Eff.Keeps SameCache m) (hf : ∀ a, Leaves kept (f a)) : Leaves kept (m >>= f) := by
  intro w
  have hsame : (m w).2.cache = w.cache := hm w
  rcases h : m w with ⟨e | a, w'⟩
  · rw [h] at hsame
    rw [Eff.bind_of_error h]
    exact hsame
  · rw [h] at hsame
    rw [Eff.bind_of_ok h, ← hsame]
    exact hf a w'

theorem mintAeadKeyV2Over_leaves (adapter : Adapter) (describe : Remote Proto.DescribeChannelResponse)
    (serve : Proto.MintAeadKeyV2Request → Remote Proto.MintAeadKeyV2Response) (params : MintAeadKeyV2Params) :
    Leaves MintAeadKeyV2Lease.kept (mintAeadKeyV2Over adapter describe serve params) := by
  refine leaves_bind (resolvePrincipal_keeps _ _ _ _) fun _ => ?_
  refine leaves_bind (keeps_call _) fun response => ?_
  exact leaves_onCache (acceptMinted_spares response) fun _ _ _ => acceptMinted_of_ok

theorem wrapBytesV2_cache (json : ClientJson) (adapter : Adapter) (describe : Remote Proto.DescribeChannelResponse)
    (serve : Proto.WrapSecretV2Request → Remote Proto.WrapSecretResponse) (clock : String → DateTime) (plaintext : Bytes)
    (params : WrapV2Params) (w : Deployment) :
    (wrapBytesV2 json adapter describe serve clock plaintext params w).2.cache = w.cache.after (.retain clock ::
      onOk (wrapBytesV2 json adapter describe serve clock plaintext params w).1 WrapResponse.kept) := by
  have hrest : Leaves WrapResponse.kept (do
      let metadata ← Eff.lift (optionJsonToStruct json params.metadata)
      let resolved ← resolvePrincipal adapter describe (params.lifecycle.getD .singleUseUnwrap) params.unwrapPrincipalId
      let response ← call (serve (params.message plaintext metadata resolved))
      onCache (acceptWrapped response)) := by
    refine leaves_bind (Eff.keeps_lift _) fun _ => ?_
    refine leaves_bind (resolvePrincipal_keeps _ _ _ _) fun _ => ?_
    refine leaves_bind (keeps_call _) fun response => ?_
    exact leaves_onCache (acceptWrapped_spares response) fun _ _ _ => acceptWrapped_of_ok
  exact hrest { w with cache := CacheOp.apply w.cache (.retain clock) }

/-- Accesses that come after an answer, and depend on it alone. -/
theorem bind_cache {α β : Type} {m : Eff Deployment String α} {f : α → Eff Deployment String β} {kept : α → List CacheOp}
    (hm : Eff.Keeps SameCache m) (hf : ∀ a w, (f a w).2.cache = w.cache.after (kept a)) (w : Deployment) :
    ((m >>= f) w).2.cache = w.cache.after (onOk (m w).1 kept) := by
  have hsame : (m w).2.cache = w.cache := hm w
  rcases h : m w with ⟨e | a, w'⟩
  · rw [h] at hsame
    rw [Eff.bind_of_error h]
    exact hsame
  · rw [h] at hsame
    rw [Eff.bind_of_ok h, ← hsame, onOk_ok]
    exact hf a w'

theorem revokeSecret_cache (serve : Proto.RevokeSecretRequest → Remote Proto.RevokeSecretResponse) (handle : String)
    (reason : Option String) (w : Deployment) :
    (revokeSecret serve handle reason w).2.cache =
      w.cache.after (onOk (call (serve ⟨trim handle, reason.getD ""⟩) w).1 fun _ => [.remove (trim handle)]) := by
  refine bind_cache (keeps_call _) (fun response w' => ?_) w
  rw [bind_cache_of_keeps fun _ => Eff.keeps_bind (Eff.keeps_lift _) fun _ => Eff.keeps_pure _, onCache_cache, access_snd]

theorem rotateSecret_cache (json : ClientJson) (serve : Proto.RotateSecretRequest → Remote Proto.RotateSecretResponse)
    (oldHandle : String) (newPlaintext : Bytes) (params : RotateParams) (w : Deployment) :
    (rotateSecret json serve oldHandle newPlaintext params w).2.cache =
      w.cache.after (onOk (rotateAnswer json serve oldHandle newPlaintext params w).1 (rotatedAccesses oldHandle)) := by
  refine bind_cache (rotateAnswer_keeps _ _ _ _ _) (fun response w' => ?_) w
  rw [onCache_cache, acceptRotated_snd]

theorem unwrapSecretV2Over_cache (lib : ClientEnv)
    (serve : Proto.UnwrapSecretV2Request → Remote Proto.UnwrapSecretResponse) (clock : UnwrapClock)
    (params : UnwrapSecretV2Params) (w : Deployment) :
    (unwrapSecretV2Over lib serve clock params w).2.cache = w.cache.after (.retain clock.purge ::
      if params.redeemToken.isSome ∨ params.redeemShares ≠ [] then [] else [.remove (trim params.handle)]) := by
  rw [← unwrapMessage_snd lib clock params, ← onCache_cache]
  exact bind_cache_of_keeps (fun _ => Eff.keeps_bind (keeps_call _) fun _ => Eff.keeps_pure _) w

section

variable (lib : ClientEnv) (json : ClientJson) (adapter : Adapter)

/-- What a call does to the cache is what its accesses do. -/
theorem ClientCall.exec_cache (call : ClientCall) (w : Deployment) :
    (call.exec lib json adapter w).2.cache = w.cache.after (call.accesses json adapter w) := by
  have hdone : ∀ {α : Type} (m : Eff Deployment String α), ((m >>= fun _ => pure ()) w).2.cache = (m w).2.cache := fun m =>
    bind_cache_of_keeps (fun _ => Eff.keeps_pure ()) w
  cases call with
  | wrapBytesV2 describe serve clock plaintext params =>
      exact (hdone _).trans (wrapBytesV2_cache json adapter describe serve clock plaintext params w)
  | mintAeadKeyV2 describe serve params => exact (hdone _).trans (mintAeadKeyV2Over_leaves adapter describe serve params w)
  | preloadRedeemToken clock handle token expiresAt =>
      rw [ClientCall.accesses, ← preloadRedeemToken_snd, ClientCall.exec, onCache_cache]
  | preloadRedeemShares clock handle shares expiresAt =>
      rw [ClientCall.accesses, ← preloadRedeemShares_snd, ClientCall.exec, onCache_cache]
  | unwrapSecretV2 serve clock params => exact (hdone _).trans (unwrapSecretV2Over_cache lib serve clock params w)
  | deleteSecret serve handle => exact bind_cache (keeps_call (serve handle)) (fun _ _ => rfl) w
  | revokeSecret serve handle reason => exact (hdone _).trans (revokeSecret_cache serve handle reason w)
  | rotateSecret serve oldHandle newPlaintext params =>
      exact (hdone _).trans (rotateSecret_cache json serve oldHandle newPlaintext params w)

/-- The state that calls in a row lead to. -/
def Deployment.after (w : Deployment) (calls : List ClientCall) : Deployment :=
  calls.foldl (fun w call => (call.exec lib json adapter w).2) w

@[simp] theorem Deployment.after_nil (w : Deployment) : w.after lib json adapter [] = w := rfl

theorem Deployment.after_cons (w : Deployment) (call : ClientCall) (calls : List ClientCall) :
    w.after lib json adapter (call :: calls) = (call.exec lib json adapter w).2.after lib json adapter calls := rfl

/-- The call puts material for a key into the cache. -/
def ClientCall.Remembers (call : ClientCall) (w : Deployment) (key : String) : Prop :=
  ∃ entry, .insert key entry ∈ call.accesses json adapter w

end

theorem apply_eq_some {op : CacheOp} {cache : RedeemCache} {key : String} {entry : RedeemCacheEntry}
    (h : op.apply cache key = some entry) : cache key = some entry ∨ op = .insert key entry := by
  cases op with
  | insert handle entry' =>
      by_cases hkey : key = handle
      · subst hkey
        rw [CacheOp.apply, Function.update_self, Option.some_inj] at h
        exact .inr (by rw [h])
      · exact .inl ((Function.update_of_ne hkey _ _).symm.trans h)
  | remove handle =>
      by_cases hkey : key = handle
      · subst hkey
        rw [CacheOp.apply, Function.update_self] at h
        cases h
      · exact .inl ((Function.update_of_ne hkey _ _).symm.trans h)
  | retain clock => exact .inl (Option.eq_some_of_filter_eq_some h)

theorem after_eq_some {ops : List CacheOp} {cache : RedeemCache} {key : String} {entry : RedeemCacheEntry}
    (h : cache.after ops key = some entry) : cache key = some entry ∨ .insert key entry ∈ ops := by
  induction ops generalizing cache with
  | nil => exact .inl h
  | cons op ops ih =>
      obtain hentry | hmem := ih h
      · obtain hentry | rfl := apply_eq_some hentry
        · exact .inl hentry
        · exact .inr List.mem_cons_self
      · exact .inr (List.mem_cons_of_mem _ hmem)

theorem mem_onOk {α : Type} {result : Except String α} {kept : α → List CacheOp} {op : CacheOp} :
    op ∈ onOk result kept ↔ ∃ a, result = .ok a ∧ op ∈ kept a := by
  cases result with
  | error e => simp
  | ok a => simp

/-- An entry that is sent as some material as long as it has not expired. -/
def Sendable (lib : ClientEnv) (entry : RedeemCacheEntry) : Prop := ∃ token shares, Keeps lib entry token shares

theorem sendable_of_keptToken (lib : ClientEnv) {handle token key : String} {expiresAt : Option DateTime}
    {entry : RedeemCacheEntry} (h : .insert key entry ∈ keptToken handle token expiresAt) : Sendable lib entry := by
  unfold keptToken at h
  split_ifs at h with hdecode
  · rw [List.mem_singleton, CacheOp.insert.injEq] at h
    obtain ⟨bytes, hbytes⟩ := Option.isSome_iff_exists.mp hdecode
    rw [h.2]
    exact ⟨bytes, [], keeps_of_decode lib hbytes expiresAt⟩
  · cases h

theorem sendable_of_keptShares (lib : ClientEnv) {handle key : String} {shares : List ThresholdShareMaterial}
    {expiresAt : Option DateTime} {entry : RedeemCacheEntry} (h : .insert key entry ∈ keptShares handle shares expiresAt) :
    Sendable lib entry := by
  unfold keptShares at h
  cases hvalid : validateThresholdShares shares with
  | error e =>
      rw [hvalid] at h
      cases h
  | ok =>
      rw [hvalid] at h
      obtain ⟨-, rfl⟩ := CacheOp.insert.inj (List.mem_singleton.mp h)
      have hproto : materialToProtoShares shares = .ok (shares.map fun share => ⟨share.x.toUInt32, share.y⟩) := by
        rw [materialToProtoShares, hvalid, Eff.ok_bind]
        rfl
      exact ⟨[], _, keeps_of_proto lib hproto expiresAt⟩

section

variable {lib : ClientEnv} {json : ClientJson} {adapter : Adapter} {w : Deployment}

theorem ClientCall.Remembers.sendable {call : ClientCall} {key : String} {entry : RedeemCacheEntry}
    (h : .insert key entry ∈ call.accesses json adapter w) : Sendable lib entry := by
  cases call with
  | wrapBytesV2 describe serve clock plaintext params =>
      obtain ⟨response, -, hkept⟩ := mem_onOk.mp (List.mem_of_ne_of_mem (by simp) h)
      exact sendable_of_keptToken lib hkept
  | mintAeadKeyV2 describe serve params =>
      obtain ⟨lease, -, hkept⟩ := mem_onOk.mp h
      unfold MintAeadKeyV2Lease.kept at hkept
      split_ifs at hkept
      · exact sendable_of_keptShares lib hkept
      · exact sendable_of_keptToken lib hkept
  | preloadRedeemToken clock handle token expiresAt => exact sendable_of_keptToken lib (List.mem_of_ne_of_mem (by simp) h)
  | preloadRedeemShares clock handle shares expiresAt =>
      exact sendable_of_keptShares lib (List.mem_of_ne_of_mem (by simp) h)
  | unwrapSecretV2 serve clock params =>
      rw [ClientCall.accesses] at h
      split_ifs at h
      · simp at h
      · simp at h
  | deleteSecret serve handle =>
      obtain ⟨_, -, hremove⟩ := mem_onOk.mp h
      simp at hremove
  | revokeSecret serve handle reason =>
      obtain ⟨_, -, hremove⟩ := mem_onOk.mp h
      simp at hremove
  | rotateSecret serve oldHandle newPlaintext params =>
      obtain ⟨response, -, hrotated⟩ := mem_onOk.mp h
      obtain ⟨expiresAt, -, hkept⟩ := mem_onOk.mp hrotated
      obtain hkept | hremove := List.mem_append.mp hkept
      · unfold rotatedKept at hkept
        split_ifs at hkept
        · exact sendable_of_keptToken lib hkept
        · cases hkept
      · simp at hremove

/-- A client that starts with nothing holds nothing but what it can send. -/
theorem sendable_after {calls : List ClientCall} (hw : ∀ key entry, w.cache key = some entry → Sendable lib entry) :
    ∀ key entry, (w.after lib json adapter calls).cache key = some entry → Sendable lib entry := by
  induction calls generalizing w with
  | nil => exact hw
  | cons call calls ih =>
      refine ih (w := (call.exec lib json adapter w).2) fun key entry hentry => ?_
      rw [ClientCall.exec_cache] at hentry
      obtain hentry | hinsert := after_eq_some hentry
      · exact hw key entry hentry
      · exact ClientCall.Remembers.sendable hinsert

/-- A key without an entry gets none from a call that remembers nothing for it. -/
theorem ClientCall.gone_exec {call : ClientCall} {key : String} (hgone : w.cache key = none)
    (hquiet : ¬ call.Remembers json adapter w key) : (call.exec lib json adapter w).2.cache key = none := by
  rw [ClientCall.exec_cache, Option.eq_none_iff_forall_ne_some]
  intro entry hentry
  obtain hentry | hinsert := after_eq_some hentry
  · rw [hgone] at hentry
    cases hentry
  · exact hquiet ⟨entry, hinsert⟩

/-- None of the calls remembers material for a key. -/
def Quiet (lib : ClientEnv) (json : ClientJson) (adapter : Adapter) (key : String) : List ClientCall → Deployment → Prop
  | [], _ => True
  | call :: calls, w =>
      ¬ call.Remembers json adapter w key ∧ Quiet lib json adapter key calls (call.exec lib json adapter w).2

theorem gone_after {key : String} {calls : List ClientCall} (hgone : w.cache key = none)
    (hquiet : Quiet lib json adapter key calls w) :
    ∀ part, part <+: calls → (w.after lib json adapter part).cache key = none := by
  induction calls generalizing w with
  | nil =>
      intro part hpart
      rw [List.prefix_nil.mp hpart]
      exact hgone
  | cons call calls ih =>
      intro part hpart
      cases part with
      | nil => exact hgone
      | cons call' part =>
          obtain ⟨rfl, hrest⟩ := List.cons_prefix_cons.mp hpart
          exact ih (ClientCall.gone_exec hgone hquiet.1) hquiet.2 part hrest

/-! ### A lease of the plain broker -/

def plainMetadata : ClientJson := ⟨fun _ => "", .object⟩

/-- The handle of a renewable lease that the plain broker has sealed. -/
def plainLeaseHandle : String := handleV2 (plainMac .renewableLease)

def plainLeaseEntry : RedeemCacheEntry := ⟨.token (Base64.standard.encode (blank 32).val), some ⟨3600, 0⟩⟩

/-- The token of the lease is given to a client. -/
def plainLeasePreload : ClientCall :=
  .preloadRedeemToken (fun _ => ⟨0, 0⟩) plainLeaseHandle (Base64.standard.encode (blank 32).val) (some ⟨3600, 0⟩)

/-- The broker with the lease, and the client with its token. -/
def plainLeased : Deployment := Deployment.after plainClient plainMetadata .new
  ⟨Broker.empty.after plainEnv [plainWrap .renewableLease], fun _ => none⟩ [plainLeasePreload]

theorem trim_plainLeaseHandle : trim plainLeaseHandle = plainLeaseHandle := trim_handleV2 _

theorem plainLeased_entry : plainLeased.cache plainLeaseHandle = some plainLeaseEntry := by
  have hexec := ClientCall.exec_cache plainClient plainMetadata .new plainLeasePreload
    ⟨Broker.empty.after plainEnv [plainWrap .renewableLease], fun _ => none⟩
  have hkept : keptToken (trim plainLeaseHandle) (Base64.standard.encode (blank 32).val) (some ⟨3600, 0⟩) =
      [.insert plainLeaseHandle plainLeaseEntry] := by
    rw [keptToken, trim_encode, Base64.decode_encode Base64.standard_lawful, if_pos Option.isSome_some,
      trim_plainLeaseHandle, trim_plainLeaseHandle]
    rfl
  rw [plainLeasePreload, ClientCall.accesses, hkept, after_cons, after_singleton] at hexec
  rw [plainLeased, Deployment.after_cons, Deployment.after_nil, plainLeasePreload, hexec, apply_insert_self]

theorem plainLeased_broker : plainLeased.broker = Broker.empty.after plainEnv [plainWrap .renewableLease] := rfl

/-- The call deletes, revokes or rotates the secret of a handle, as the caller spells it. -/
def ClientCall.Retires (h : String) : ClientCall → Prop
  | .deleteSecret _ handle | .revokeSecret _ handle _ | .rotateSecret _ handle _ _ => handle = h
  | _ => False

def ClientCall.isDelete : ClientCall → Bool
  | .deleteSecret _ _ => true
  | _ => false

theorem after_rotatedAccesses {oldHandle : String} {response : Proto.RotateSecretResponse} {cache : RedeemCache}
    {result : RotateResult} (h : (acceptRotated oldHandle response cache).1 = .ok result) (cache' : RedeemCache) :
    cache'.after (rotatedAccesses oldHandle response) (trim oldHandle) = none := by
  obtain ⟨expiresAt, _, hexpiry, -⟩ := Eff.bind_fst_eq_ok h
  rw [Eff.lift_apply] at hexpiry
  dsimp only at hexpiry
  rw [rotatedAccesses, hexpiry, onOk_ok, after_append, after_singleton, apply_remove_self]

/-- A revocation and a rotation take out the entry under the trimmed handle, a deletion the one under the handle as
it is. -/
theorem ClientCall.Retires.cache {retire : ClientCall} {h : String} (hretires : retire.Retires h)
    (hok : (retire.exec lib json adapter w).1 = .ok ()) :
    (retire.exec lib json adapter w).2.cache (trim h) = if retire.isDelete ∧
    trim h ≠ h then w.cache (trim h) else none := by
  rw [ClientCall.exec_cache]
  cases retire with
  | deleteSecret serve handle =>
      obtain rfl : handle = h := hretires
      obtain ⟨_, _, hanswer, -⟩ := Eff.bind_fst_eq_ok hok
      rw [ClientCall.accesses, hanswer, onOk_ok]
      by_cases hspelled : trim handle = handle
      · rw [if_neg fun hmissed => hmissed.2 hspelled, hspelled, after_singleton, apply_remove_self]
      · rw [if_pos ⟨rfl, hspelled⟩, after_singleton, apply_remove_of_ne hspelled]
  | revokeSecret serve handle reason =>
      obtain rfl : handle = h := hretires
      obtain ⟨_, _, hresult, -⟩ := Eff.bind_fst_eq_ok hok
      obtain ⟨_, _, hanswer, -⟩ := Eff.bind_fst_eq_ok hresult
      rw [ClientCall.accesses, hanswer, onOk_ok, after_singleton, apply_remove_self]
      rfl
  | rotateSecret serve oldHandle newPlaintext params =>
      obtain rfl : oldHandle = h := hretires
      obtain ⟨_, _, hresult, -⟩ := Eff.bind_fst_eq_ok hok
      obtain ⟨response, _, hanswer, haccept⟩ := Eff.bind_fst_eq_ok hresult
      rw [ClientCall.accesses, hanswer, onOk_ok]
      exact after_rotatedAccesses haccept w.cache
  | wrapBytesV2 describe serve clock plaintext params => exact hretires.elim
  | mintAeadKeyV2 describe serve params => exact hretires.elim
  | preloadRedeemToken clock handle token expiresAt => exact hretires.elim
  | preloadRedeemShares clock handle shares expiresAt => exact hretires.elim
  | unwrapSecretV2 serve clock params => exact hretires.elim

/-- A deletion of the lease by its owner, with a blank before the handle. -/
def plainLeaseDelete : ClientCall :=
  .deleteSecret (fun handle => served plainClient
    (SecretBroker.deleteSecret plainServer ⟨.ok, ⟨60, 0⟩, ⟨60, 0⟩⟩ .ok (some plainContext) handle))
    (" " ++ plainLeaseHandle)

theorem trim_space_plainLeaseHandle : trim (" " ++ plainLeaseHandle) = plainLeaseHandle := by
  rw [trim_space, trim_plainLeaseHandle]

theorem plainLease_deleted : ∃ s', SecretBroker.deleteSecret plainServer ⟨.ok, ⟨60, 0⟩, ⟨60, 0⟩⟩ .ok (some plainContext)
    (" " ++ plainLeaseHandle) plainLeased.broker = (.ok (), s') ∧ s'.records (.filled 1) = none := by
  obtain ⟨outcome, r, hwrap, hr, hlive⟩ := plain_live .renewableLease
  obtain ⟨hparsed, -⟩ := plain_identified rfl hwrap hr hlive.unused hlive.expiresAt
  have hspaced : parseHandleIdentifier plainEnv (" " ++ plainLeaseHandle) = .ok (.filled 1) := by
    rw [parseHandleIdentifier, ← parseHandleV2_trim, trim_space_plainLeaseHandle, plainLeaseHandle, ← plain_handle hwrap]
    exact hparsed
  have hfresh : FreshUuids ([] ++ [plainWrap .renewableLease]) := plain_fresh .renewableLease rfl
  have hissued : IssuedBy ⟨.filled 1, plainContext, .renewableLease, none⟩ r := wrapped_issuedBy hfresh hr
  have hvalid := management_of_identity ((plain_admitted (.filled 1) .renewableLease).identity
    (hissued.advances (accessed_evolves plainEnv ⟨.ok, ⟨60, 0⟩, ⟨60, 0⟩⟩ r).toAdvances))
  have hdelete := deleteSecret_ok (d := ⟨.ok, ⟨60, 0⟩, ⟨60, 0⟩⟩) hspaced rfl hr hvalid
  refine ⟨(plainLeased.broker.putRecord (.filled 1) none).recorded plainEnv
    (transparencyEvent plainEnv .delete "removed" (" " ++ plainLeaseHandle) none none plainContext
      ⟨60, 0⟩ (contextMeta plainContext)), ?_, ?_⟩
  · simp only [SecretBroker.deleteSecret, Eff.bind_eq_ok, Eff.lift_eq_ok, Eff.mapError_eq_ok, brokerContext_eq_ok,
      Eff.pure_eq_ok]
    exact ⟨plainContext, _, ⟨rfl, rfl⟩, true, _, hdelete, trivial, rfl⟩
  · rw [Broker.recorded_records, Broker.putRecord_records_self]

/-- A revocation of the lease under the same spelling. -/
def plainLeaseRevoke : ClientCall := .revokeSecret (fun _ => pure ⟨true, none⟩) (" " ++ plainLeaseHandle) none

/-- **Redeem material of a secret that is gone.** After a deletion, a revocation or a rotation of a handle that succeeds,
whatever calls came before, the cache has no entry under the trimmed handle until material for it is remembered again,
except after a deletion with white space around the handle: it leaves the entry where it was. -/
theorem retired_material_gone_iff {retire : ClientCall} {h : String} {later : List ClientCall}
    (hretires : retire.Retires h) (hok : (retire.exec lib json adapter w).1 = .ok ())
    (hquiet : Quiet lib json adapter (trim h) later (retire.exec lib json adapter w).2) :
    (∀ part, part <+: later →
        ((retire.exec lib json adapter w).2.after lib json adapter part).cache (trim h) = none) ↔
      ¬ (retire.isDelete ∧ trim h ≠ h ∧ (w.cache (trim h)).isSome) := by
  have hcache := hretires.cache hok
  by_cases hmissed : retire.isDelete ∧ trim h ≠ h
  · rw [if_pos hmissed] at hcache
    constructor
    · rintro hgone ⟨-, -, hentry⟩
      have hnone : (retire.exec lib json adapter w).2.cache (trim h) = none := hgone [] (List.nil_prefix)
      rw [← hcache, hnone] at hentry
      cases hentry
    · intro hnot
      have hnone : w.cache (trim h) = none :=
        Option.not_isSome_iff_eq_none.mp fun hentry => hnot ⟨hmissed.1, hmissed.2, hentry⟩
      exact gone_after (hcache.trans hnone) hquiet
  · rw [if_neg hmissed] at hcache
    exact iff_of_true (gone_after hcache hquiet) fun h' => hmissed ⟨h'.1, h'.2.1⟩

/-- A revocation, spelled with a blank, and the deletion after it. -/
theorem retired_material_gone_revoked :
    plainLeased.cache plainLeaseHandle = some plainLeaseEntry ∧
      ((plainLeaseRevoke.exec plainClient plainMetadata .new plainLeased).2.after plainClient plainMetadata .new
        [plainLeaseDelete]).cache plainLeaseHandle = none := by
  have hretires : plainLeaseRevoke.Retires (" " ++ plainLeaseHandle) := rfl
  have hok : (plainLeaseRevoke.exec plainClient plainMetadata .new plainLeased).1 = .ok () := rfl
  have hquiet : Quiet plainClient plainMetadata .new (trim (" " ++ plainLeaseHandle)) [plainLeaseDelete]
      (plainLeaseRevoke.exec plainClient plainMetadata .new plainLeased).2 := by
    refine ⟨?_, trivial⟩
    rintro ⟨entry, hinsert⟩
    obtain ⟨_, -, hremove⟩ := mem_onOk.mp hinsert
    simp at hremove
  have hgone := (retired_material_gone_iff hretires hok hquiet).mpr (fun h => Bool.false_ne_true h.1) _
    (List.prefix_refl _)
  rw [trim_space_plainLeaseHandle] at hgone
  exact ⟨plainLeased_entry, hgone⟩

/-- A deletion that is spelled so: the broker has deleted the lease, and the client keeps its redeem token. -/
theorem deleted_material_stays :
    (plainLeaseDelete.exec plainClient plainMetadata .new plainLeased).1 = .ok () ∧
      (plainLeaseDelete.exec plainClient plainMetadata .new plainLeased).2.broker.records (.filled 1) = none ∧
      (plainLeaseDelete.exec plainClient plainMetadata .new plainLeased).2.cache (trim (" " ++ plainLeaseHandle)) =
        some plainLeaseEntry := by
  have hspelled : trim (" " ++ plainLeaseHandle) ≠ " " ++ plainLeaseHandle := by
    rw [trim_space_plainLeaseHandle]
    intro h
    have hlength := congrArg String.length h
    rw [String.length_append] at hlength
    have hone : " ".length = 1 := rfl
    omega
  obtain ⟨s', hdelete, hgone⟩ := plainLease_deleted
  have hexec : plainLeaseDelete.exec plainClient plainMetadata .new plainLeased =
      (.ok (), ⟨s', CacheOp.apply plainLeased.cache (.remove (" " ++ plainLeaseHandle))⟩) := by
    have hcall : call (served plainClient
      (SecretBroker.deleteSecret plainServer ⟨.ok, ⟨60, 0⟩, ⟨60, 0⟩⟩ .ok (some plainContext)
        (" " ++ plainLeaseHandle))) plainLeased = (.ok (), ⟨s', plainLeased.cache⟩) :=
      Eff.zoom_eq_ok.mpr ⟨s', Eff.mapError_eq_ok.mpr hdelete, rfl⟩
    rw [plainLeaseDelete, ClientCall.exec, deleteSecret, Eff.bind_of_ok hcall, onCache_access]
  rw [hexec]
  refine ⟨rfl, hgone, ?_⟩
  dsimp only
  rw [apply_remove_of_ne hspelled, trim_space_plainLeaseHandle, plainLeased_entry]

end

/-- An unwrap, with what the other side makes of its request. -/
structure UnwrapCall where
  serve : Proto.UnwrapSecretV2Request → Remote Proto.UnwrapSecretResponse
  clock : UnwrapClock
  params : UnwrapSecretV2Params

def UnwrapCall.exec (lib : ClientEnv) (call : UnwrapCall) : Eff Deployment String Bytes :=
  unwrapSecretV2Over lib call.serve call.clock call.params

/-- What unwraps in a row return. A failure does not keep the next one from being made. -/
def UnwrapCall.results (lib : ClientEnv) : List UnwrapCall → Deployment → List (Except String Bytes)
  | [], _ => []
  | call :: calls, w => (call.exec lib w).1 :: results lib calls (call.exec lib w).2

/-- The other side accepts the requests with some material, one after the other. -/
def UnwrapCall.accepted (token : Bytes) (shares : List Proto.ThresholdShare) : List UnwrapCall → Broker → Bool
  | [], _ => true
  | call :: calls, s =>
      (call.serve (call.params.message token shares) s).1.toBool &&
        accepted token shares calls (call.serve (call.params.message token shares) s).2

section

variable {lib : ClientEnv} {w : Deployment} {handle : String} {entry : RedeemCacheEntry} {call : UnwrapCall}

theorem UnwrapCall.gone_exec (hcached : call.params.Cached handle) : (call.exec lib w).2.cache (trim handle) = none := by
  have hops := unwrapSecretV2Over_cache lib call.serve call.clock call.params w
  rw [if_neg (by simp [hcached.redeemToken, hcached.redeemShares]), hcached.handle] at hops
  rw [UnwrapCall.exec, hops, after_cons, after_singleton, apply_remove_self]

theorem unwrapMessage_of_gone {params : UnwrapSecretV2Params} {clock : UnwrapClock} {cache : RedeemCache}
    (hcached : params.Cached handle) (hgone : cache (trim handle) = none) :
    (unwrapMessage lib clock params cache).1 = .error ("redeem material for handle " ++ trim handle ++ " not loaded") := by
  have hpurged : CacheOp.apply cache (.retain clock.purge) (trim handle) = none := by
    change (cache (trim handle)).filter _ = none
    rw [hgone]
    rfl
  have hboth : ¬ (params.redeemToken.isSome ∧ params.redeemShares ≠ []) := fun h => h.2 hcached.redeemShares
  have htaken : takeRedeemMaterial lib (trim handle) clock.now (CacheOp.apply cache (.retain clock.purge)) =
      (.error ("redeem material for handle " ++ trim handle ++ " not loaded"),
        CacheOp.apply cache (.retain clock.purge)) := by
    refine (Eff.bind_of_ok (Eff.read_apply _)).trans ?_
    rw [hpurged]
    rfl
  have hmaterial : unwrapMaterial lib clock params (CacheOp.apply cache (.retain clock.purge)) =
      (.error ("redeem material for handle " ++ trim handle ++ " not loaded"),
        CacheOp.apply cache (.retain clock.purge)) := by
    rw [unwrapMaterial, hcached.redeemToken]
    simp only [hcached.redeemShares, ne_eq, not_true_eq_false, if_false, hcached.handle]
    exact Eff.bind_of_error htaken
  rw [unwrapMessage, Eff.rejectIf, if_neg hboth]
  exact congrArg Prod.fst (Eff.bind_of_error hmaterial)

theorem UnwrapCall.exec_of_gone (hcached : call.params.Cached handle) (hgone : w.cache (trim handle) = none) :
    (call.exec lib w).1 = .error ("redeem material for handle " ++ trim handle ++ " not loaded") := by
  have hmessage : onCache (unwrapMessage lib call.clock call.params) w = (_, _) :=
    Prod.ext (unwrapMessage_of_gone hcached hgone) rfl
  rw [UnwrapCall.exec, unwrapSecretV2Over, Eff.bind_of_error hmessage]

/-- A call from the cache returns what the other side makes of the request for the material. -/
theorem UnwrapCall.exec_of_cached (hcached : call.params.Cached handle) (hentry : w.cache (trim handle) = some entry)
    (htime : call.clock.InTime (trim handle) entry.expiresAt) {token : Bytes} {shares : List Proto.ThresholdShare}
    (hkeeps : Keeps lib entry token shares) :
    (call.exec lib w).1 = (call.serve (call.params.message token shares) w.broker).1.map (·.plaintext) := by
  have hmessage : onCache (unwrapMessage lib call.clock call.params) w = (_, _) :=
    congrArg (fun r => (r.1, { w with cache := r.2 })) (unwrapMessage_of_cached lib hcached hentry htime hkeeps)
  rw [UnwrapCall.exec, unwrapSecretV2Over, Eff.bind_of_ok hmessage]
  rcases hserve : call.serve (call.params.message token shares) w.broker with ⟨e | response, s'⟩
  · have hcall : ∀ cache, Client.call (call.serve (call.params.message token shares)) ⟨w.broker, cache⟩ =
        (.error e, ⟨s', cache⟩) := by
      intro cache
      rw [Client.call, Eff.zoom, hserve]
    rw [Eff.bind_of_error (hcall _)]
    rfl
  · have hcall : ∀ cache, Client.call (call.serve (call.params.message token shares)) ⟨w.broker, cache⟩ =
        (.ok response, ⟨s', cache⟩) := fun cache => Eff.zoom_eq_ok.mpr ⟨s', hserve, rfl⟩
    rw [Eff.bind_of_ok (hcall _)]
    rfl

/-- The entry outlives an unwrap that does not need it, and no other. -/
theorem UnwrapCall.entry_kept_iff (hhandle : trim call.params.handle = trim handle)
    (hentry : w.cache (trim handle) = some entry) (htime : call.clock.InTime (trim handle) entry.expiresAt) :
    (call.exec lib w).2.cache (trim handle) = some entry ↔
      call.params.redeemToken.isSome ∨ call.params.redeemShares ≠ [] := by
  have hops := unwrapSecretV2Over_cache lib call.serve call.clock call.params w
  by_cases hgiven : call.params.redeemToken.isSome ∨ call.params.redeemShares ≠ []
  · rw [if_pos hgiven] at hops
    have hspares : (CacheOp.retain call.clock.purge).Spares (trim handle) entry.expiresAt := fun expiry h =>
      (htime expiry h).1
    exact iff_of_true ((congrFun hops (trim handle)).trans (hspares.apply hentry)) hgiven
  · rw [not_or, Option.not_isSome_iff_eq_none, not_not] at hgiven
    have hgone : (call.exec lib w).2.cache (trim handle) = none := UnwrapCall.gone_exec ⟨hhandle, hgiven.1, hgiven.2⟩
    rw [hgone, hgiven.1, hgiven.2]
    simp

theorem UnwrapCall.results_ok_iff {token : Bytes} {shares : List Proto.ThresholdShare}
    (hkeeps : Keeps lib entry token shares) (hentry : w.cache (trim handle) = some entry) {calls : List UnwrapCall}
    (hcalls : ∀ call ∈ calls, call.params.Cached handle ∧ call.clock.InTime (trim handle) entry.expiresAt)
    (haccepted : UnwrapCall.accepted token shares calls w.broker = true) :
    (∀ result ∈ UnwrapCall.results lib calls w, result.toBool = true) ↔ calls.length ≤ 1 := by
  match calls with
  | [] => exact iff_of_true (by simp [UnwrapCall.results]) (by simp)
  | [call] =>
      obtain ⟨hcached, htime⟩ := hcalls call List.mem_cons_self
      obtain ⟨response, s', hserved⟩ := exists_answer (Bool.and_eq_true_iff.mp haccepted).1
      refine iff_of_true (fun result hresult => ?_) (by simp)
      rw [List.mem_singleton.mp hresult, UnwrapCall.exec_of_cached hcached hentry htime hkeeps, hserved]
      rfl
  | first :: second :: calls =>
      -- the second finds nothing, whatever the other side would have answered
      have hfirst : first.params.Cached handle := (hcalls first List.mem_cons_self).1
      have hsecond : second.params.Cached handle := (hcalls second (List.mem_cons_of_mem _ List.mem_cons_self)).1
      have hgone : (first.exec lib w).2.cache (trim handle) = none := UnwrapCall.gone_exec hfirst
      have hfails : (second.exec lib (first.exec lib w).2).1 = .error _ := UnwrapCall.exec_of_gone hsecond hgone
      refine iff_of_false (fun hall => ?_) (by simp)
      have hok := hall _ (List.mem_cons_of_mem _ List.mem_cons_self)
      rw [hfails] at hok
      cases hok

/-- The unwrap of the lease that the client makes. -/
def plainLeaseParams : UnwrapSecretV2Params := ⟨plainLeaseHandle, none, [], some "acme", none, none, none, []⟩

def plainLeaseUnwrap (serve : Proto.UnwrapSecretV2Request → Remote Proto.UnwrapSecretResponse) : UnwrapCall where
  serve := serve
  clock := ⟨⟨60, 0⟩, fun _ => ⟨60, 0⟩, ⟨60, 0⟩⟩
  params := plainLeaseParams

@[simp] theorem plainLeaseUnwrap_serve (serve : Proto.UnwrapSecretV2Request → Remote Proto.UnwrapSecretResponse) :
    (plainLeaseUnwrap serve).serve = serve := rfl

@[simp] theorem plainLeaseUnwrap_params (serve : Proto.UnwrapSecretV2Request → Remote Proto.UnwrapSecretResponse) :
    (plainLeaseUnwrap serve).params = plainLeaseParams := rfl

/-- The plain broker at the other side. -/
def plainUnwraps (req : Proto.UnwrapSecretV2Request) : Remote Proto.UnwrapSecretResponse :=
  served plainClient (SecretBroker.unwrapSecretV2 plainServer plainUnwrap (some plainContext) req)

section

variable {outcome : WrapSecretOutcome} {s₁ : Broker}

theorem plainLease_request
    (hwrap : wrapSecretV2Impl plainEnv ⟨0, 0⟩ (plainDraws (.filled 1) (.filled 2) (.filled 3)) plainContext
      (plainRequest .renewableLease) Broker.empty = (.ok outcome, s₁)) :
    unwrapRequest (plainLeaseParams.message (blank 32).val []) (Base64.standard.encode (blank 32).val) =
      plainPayload outcome := by
  obtain ⟨_, _, _, _, _, -, -, -, -, -, htoken⟩ := wrap_eq_ok plainEnv hwrap
  have hempty : emptyToNone "" = none := by decide
  have htenant : emptyToNone "acme" = some (trim "acme") := by decide
  have hhandle : trim plainLeaseHandle = outcome.handle := trim_plainLeaseHandle.trans (plain_handle hwrap).symm
  rw [plainPayload, htoken, ← hhandle, unwrapRequest, UnwrapSecretV2Params.message]
  simp only [plainLeaseParams, Option.getD_some, Option.getD_none, hempty, htenant]
  rfl

theorem plainLease_served {later : List Call} (hlater : later.flatMap Call.uuids = [])
    (hwrap : wrapSecretV2Impl plainEnv ⟨0, 0⟩ (plainDraws (.filled 1) (.filled 2) (.filled 3)) plainContext
      (plainRequest .renewableLease) Broker.empty = (.ok outcome, s₁)) {r : StoredEnvelopeRecord}
    (hr : (Broker.empty.after plainEnv (plainWrap .renewableLease :: later)).records (.filled 1) = some r)
    (hlive : PlainLive .renewableLease r) :
    ∃ r', plainUnwraps (plainLeaseParams.message (blank 32).val [])
      (Broker.empty.after plainEnv (plainWrap .renewableLease :: later)) =
        (.ok ⟨[1, 2, 3]⟩, Broker.empty.after plainEnv (plainWrap .renewableLease ::
          (later ++ [.unwrap plainUnwrap plainContext (plainPayload outcome)]))) ∧
      (Broker.empty.after plainEnv (plainWrap .renewableLease ::
        (later ++ [.unwrap plainUnwrap plainContext (plainPayload outcome)]))).records (.filled 1) = some r' ∧
      PlainLive .renewableLease r' := by
  have hfresh : FreshUuids ([] ++ plainWrap .renewableLease :: later) := plain_fresh .renewableLease hlater
  obtain ⟨hparsed, hchecks⟩ := plainLive_checks hfresh hwrap hr hlive
  obtain ⟨s', r', hunwrap, hr', hlive'⟩ := hlive.unwrap hr hparsed rfl hchecks
  have hafter : Broker.empty.after plainEnv (plainWrap .renewableLease ::
      (later ++ [.unwrap plainUnwrap plainContext (plainPayload outcome)])) = s' := by
    rw [← List.cons_append, Broker.after_append, Broker.after_cons, Broker.after_nil, Call.exec_unwrap hunwrap]
  rw [hafter]
  refine ⟨r', ?_, hr', hlive'⟩
  have htoken : presentedToken plainServer (plainLeaseParams.message (blank 32).val []) =
      .ok (Base64.standard.encode (blank 32).val) := rfl
  simp only [plainUnwraps, served, SecretBroker.unwrapSecretV2, Eff.mapError_eq_ok, Eff.bind_eq_ok, Eff.lift_eq_ok,
    brokerContext_eq_ok, decodeOutcome_eq_ok, Eff.pure_eq_ok]
  exact ⟨plainContext, _, ⟨rfl, rfl⟩, _, _, ⟨htoken, rfl⟩, _, s', plainLease_request hwrap ▸ hunwrap, _, s',
    ⟨Base64.decode_encode Base64.standard_lawful _, rfl⟩, rfl, rfl⟩

theorem plainLease_unwrapped :
    (plainUnwraps (plainLeaseParams.message (blank 32).val []) plainLeased.broker).1 = .ok ⟨[1, 2, 3]⟩ := by
  obtain ⟨outcome, r, hwrap, hr, hlive⟩ := plain_live .renewableLease
  obtain ⟨_, hserved, -⟩ := plainLease_served rfl hwrap hr hlive
  rw [plainLeased_broker, hserved]

/-- The broker lets the lease be unwrapped any number of times. -/
theorem plainLease_accepted (n : ℕ) :
    UnwrapCall.accepted (blank 32).val []
      (List.replicate n (plainLeaseUnwrap plainUnwraps)) plainLeased.broker = true := by
  obtain ⟨outcome, r, hwrap, hr, hlive⟩ := plain_live .renewableLease
  have haccepted : ∀ (later : List Call) (r : StoredEnvelopeRecord), later.flatMap Call.uuids = [] →
      (Broker.empty.after plainEnv (plainWrap .renewableLease :: later)).records (.filled 1) = some r →
      PlainLive .renewableLease r → UnwrapCall.accepted (blank 32).val []
        (List.replicate n (plainLeaseUnwrap plainUnwraps))
        (Broker.empty.after plainEnv (plainWrap .renewableLease :: later)) = true := by
    induction n with
    | zero => intros; rfl
    | succ n ih =>
        intro later r hlater hr hlive
        obtain ⟨r', hserved, hr', hlive'⟩ := plainLease_served hlater hwrap hr hlive
        have hnext := ih _ r' (by rw [List.flatMap_append, hlater]; rfl) hr' hlive'
        rw [List.replicate_succ, UnwrapCall.accepted, plainLeaseUnwrap_serve, plainLeaseUnwrap_params, hserved, hnext]
        rfl
  exact haccepted [] r rfl hr hlive

end

theorem plainLease_cached : plainLeaseParams.Cached plainLeaseHandle := ⟨rfl, rfl, rfl⟩

theorem plainLease_inTime (serve : Proto.UnwrapSecretV2Request → Remote Proto.UnwrapSecretResponse) :
    (plainLeaseUnwrap serve).clock.InTime (trim plainLeaseHandle) plainLeaseEntry.expiresAt := by
  intro expiry hexpiry
  cases hexpiry
  have hlate : (⟨60, 0⟩ : DateTime) ≤ ⟨3600, 0⟩ := by decide
  exact ⟨hlate, hlate, hlate⟩

theorem plainLease_keeps : Keeps plainClient plainLeaseEntry (blank 32).val [] :=
  keeps_of_decode plainClient (Base64.decode_encode Base64.standard_lawful _) _

/-- **Cached redeem material is spent by the first try.** Material that any calls have left in the cache is still
there after an unwrap of its handle, whatever comes of it, exactly if the unwrap was given a token or shares of its
own. So, even if the other side accepts any number of unwraps with this material, unwraps in a row from the cache all
succeed only if there is at most one. -/
theorem cached_material_spent (lib : ClientEnv) (json : ClientJson) (adapter : Adapter) (before : List ClientCall)
    (s : Broker) (hentry : (Deployment.after lib json adapter ⟨s, fun _ => none⟩ before).cache (trim handle) = some entry)
    : (∀ call : UnwrapCall, trim call.params.handle = trim handle → call.clock.InTime (trim handle) entry.expiresAt →
      ((call.exec lib (Deployment.after lib json adapter ⟨s, fun _ => none⟩ before)).2.cache (trim handle) = some entry ↔
        call.params.redeemToken.isSome ∨ call.params.redeemShares ≠ [])) ∧
    ∃ token shares, Keeps lib entry token shares ∧ ∀ calls : List UnwrapCall,
      (∀ call ∈ calls, call.params.Cached handle ∧ call.clock.InTime (trim handle) entry.expiresAt) →
      UnwrapCall.accepted token shares calls (Deployment.after lib json adapter ⟨s, fun _ => none⟩ before).broker = true →
      ((∀ result ∈ UnwrapCall.results lib calls (Deployment.after lib json adapter ⟨s, fun _ => none⟩ before),
        result.toBool = true) ↔ calls.length ≤ 1) := by
  have hempty : ∀ key entry, (⟨s, fun _ => none⟩ : Deployment).cache key = some entry → Sendable lib entry := by
    intro key entry hnone
    cases hnone
  obtain ⟨token, shares, hkeeps⟩ := sendable_after hempty (trim handle) entry hentry
  refine ⟨fun call hhandle htime => UnwrapCall.entry_kept_iff hhandle hentry htime, token, shares, hkeeps, ?_⟩
  exact fun calls hcalls haccepted => UnwrapCall.results_ok_iff hkeeps hentry hcalls haccepted

theorem cached_material_spent_lease :
    plainLeased.cache plainLeaseHandle = some plainLeaseEntry ∧
    ((plainLeaseUnwrap plainUnwraps).exec plainClient plainLeased).2.cache plainLeaseHandle ≠ some plainLeaseEntry ∧
    ¬ ∀ result ∈ UnwrapCall.results plainClient [plainLeaseUnwrap plainUnwraps, plainLeaseUnwrap plainUnwraps] plainLeased,
      result.toBool = true := by
  have hentry : plainLeased.cache (trim plainLeaseHandle) = some plainLeaseEntry := by
    rw [trim_plainLeaseHandle, plainLeased_entry]
  obtain ⟨hkept, token, shares, hkeeps, hall⟩ := cached_material_spent plainClient plainMetadata .new [plainLeasePreload]
    (Broker.empty.after plainEnv [plainWrap .renewableLease]) hentry
  have hleased : Deployment.after plainClient plainMetadata .new
      ⟨Broker.empty.after plainEnv [plainWrap .renewableLease], fun _ => none⟩ [plainLeasePreload] = plainLeased := rfl
  rw [hleased] at hkept hall
  have htime := plainLease_inTime plainUnwraps
  refine ⟨plainLeased_entry, ?_, ?_⟩
  · rw [← trim_plainLeaseHandle]
    have hstill := hkept (plainLeaseUnwrap plainUnwraps) plainLease_cached.handle htime
    rw [Ne, hstill, plainLeaseUnwrap_params]
    simp [plainLeaseParams]
  · -- the material of the entry is the token that was preloaded
    have hlive : plainLeaseEntry.isExpired ⟨60, 0⟩ = false := by decide
    have hsame := (hkeeps _ hlive).symm.trans (plainLease_keeps _ hlive)
    cases hsame
    have hcalls : ∀ call ∈ List.replicate 2 (plainLeaseUnwrap plainUnwraps),
        call.params.Cached plainLeaseHandle ∧ call.clock.InTime (trim plainLeaseHandle) plainLeaseEntry.expiresAt := by
      intro call hcall
      rw [List.eq_of_mem_replicate hcall]
      exact ⟨plainLease_cached, htime⟩
    exact fun hboth => absurd ((hall _ hcalls (plainLease_accepted 2)).mp hboth) (by decide)

/-- A renewable lease, which the broker lets its client unwrap any number of times. If the connection fails, the
token is lost with the request; if it does not, the second unwrap finds nothing to send. -/
theorem cached_lease_lost :
    plainLeased.cache plainLeaseHandle = some plainLeaseEntry ∧
    ((plainLeaseUnwrap fun _ => Eff.fail "unavailable").exec plainClient plainLeased).1 = .error "unavailable" ∧
    ((plainLeaseUnwrap fun _ => Eff.fail "unavailable").exec plainClient plainLeased).2.cache plainLeaseHandle = none ∧
    (∀ n, UnwrapCall.accepted (blank 32).val [] (List.replicate n (plainLeaseUnwrap plainUnwraps)) plainLeased.broker =
      true) ∧ UnwrapCall.results plainClient [plainLeaseUnwrap plainUnwraps, plainLeaseUnwrap plainUnwraps] plainLeased =
      [.ok [1, 2, 3], .error ("redeem material for handle " ++ plainLeaseHandle ++ " not loaded")] := by
  have hentry : plainLeased.cache (trim plainLeaseHandle) = some plainLeaseEntry := by
    rw [trim_plainLeaseHandle, plainLeased_entry]
  have hexec : ∀ serve, ((plainLeaseUnwrap serve).exec plainClient plainLeased).1 =
      ((plainLeaseUnwrap serve).serve ((plainLeaseUnwrap serve).params.message (blank 32).val []) plainLeased.broker).1.map
        (·.plaintext) :=
    fun serve => UnwrapCall.exec_of_cached plainLease_cached hentry (plainLease_inTime serve) plainLease_keeps
  have hgone : ∀ serve, ((plainLeaseUnwrap serve).exec plainClient plainLeased).2.cache (trim plainLeaseHandle) = none :=
    fun serve => UnwrapCall.gone_exec plainLease_cached
  refine ⟨plainLeased_entry, ?_, ?_, plainLease_accepted, ?_⟩
  · rw [hexec]
    rfl
  · rw [← trim_plainLeaseHandle, hgone]
  · rw [UnwrapCall.results, UnwrapCall.results, UnwrapCall.results, hexec, plainLeaseUnwrap_serve, plainLeaseUnwrap_params,
      plainLease_unwrapped, UnwrapCall.exec_of_gone plainLease_cached (hgone plainUnwraps), trim_plainLeaseHandle]
    rfl

end

end Client

end SecretBroker

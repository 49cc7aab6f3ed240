import SecretBroker.ClientLibrary
import SecretBroker.CompletenessCustody
import SecretBroker.CompletenessWire
import SecretBroker.IssuanceLimits
import SecretBroker.ThresholdCorrectness

/-! The client library against the broker. A key that the broker mints is accepted by the client, and its redeem material
is sent back as it was issued, unless the broker keeps the shares for custodians: such a response has no material, and the
client takes it for a broken one. -/

open Wire

namespace SecretBroker

/-- Shares are read back from their text as they were written, and the text is not empty. -/
structure Serde.ReadsShares (serde : Serde) : Prop where
  sharesFromStr : ∀ shares, shares ≠ [] → serde.sharesFromStr (serde.sharesToString shares) = some shares
  ne_empty : ∀ shares, shares ≠ [] → serde.sharesToString shares ≠ ""

namespace Client

theorem toUInt32_eq_zero {n : UInt8} : n.toUInt32 = 0 ↔ n = 0 := by
  rw [← UInt32.toNat_inj, ← UInt8.toNat_inj, UInt8.toNat_toUInt32]
  rfl

theorem toUInt32_le (n : UInt8) : n.toUInt32 ≤ 255 := by
  rw [UInt32.le_iff_toNat_le, UInt8.toNat_toUInt32]
  have hn := n.toNat_lt
  change n.toNat ≤ 255
  omega

/-- Zero stands for absence on the way to the server. -/
theorem byteOrNone_toUInt32 (n : UInt8) (error : String) :
    byteOrNone n.toUInt32 error = .ok (if n = 0 then none else some n) := by
  unfold byteOrNone
  by_cases hzero : n = 0
  · rw [if_pos (toUInt32_eq_zero.mpr hzero), if_pos hzero]
  · rw [if_neg (mt toUInt32_eq_zero.mp hzero), if_pos (toUInt32_le n), if_neg hzero, UInt8.toUInt8_toUInt32]

theorem responseByte_toUInt32 {n : UInt8} (hn : n ≠ 0) (default : UInt8) (error : String) :
    responseByte n.toUInt32 default error = .ok n := by
  rw [responseByte, if_neg (mt toUInt32_eq_zero.mp hn), if_pos (toUInt32_le n), UInt8.toUInt8_toUInt32]

/-- A time that a response can carry. -/
def Carried (t : DateTime) : Prop := DateTime.timestampOpt t.secs t.nanos = some t

theorem carried_of_addSeconds {t u : DateTime} {secs : Int} (hclock : t.nanos < 1000000000)
    (h : t.addSeconds secs = some u) : Carried u := by
  obtain ⟨⟨-, -, hmin, hmax⟩, rfl⟩ := DateTime.addSeconds_eq_some.mp h
  have hrange : ¬ ((t.later secs).secs < DateTime.minSecs ∨ DateTime.maxSecs < (t.later secs).secs) := by
    rw [not_or, not_lt, not_lt]
    exact ⟨hmin, hmax⟩
  have hnanos : (t.later secs).nanos < 1000000000 := by rwa [DateTime.later_of_lt hclock]
  rw [Carried, DateTime.timestampOpt, if_neg hrange, if_pos (Or.inl hnanos)]

theorem optionalTimestamp_of_carried {t : Option DateTime} (h : ∀ u, t = some u → Carried u) :
    optionalTimestamp (t.bind chronoToTimestamp) = .ok t := by
  cases t with
  | none => rfl
  | some u =>
      have hu : DateTime.timestampOpt u.secs u.nanos = some u := h u rfl
      have hnanos : ¬ ((u.nanos : Int) < 0) := by omega
      simp only [Option.bind_some, chronoToTimestamp, optionalTimestamp, timestampToDatetime, Eff.rejectIf, if_neg hnanos,
        Int.toNat_natCast, hu, Eff.okOr_some, Eff.ok_bind]
      rfl

theorem carried_of_enforceTtl {env : Env} {createdAt : DateTime} {expiresAt : Option DateTime}
    {ttlSeconds ttl : Option UInt64} (hclock : createdAt.nanos < 1000000000)
    (h : enforceTtl env ttlSeconds createdAt = .ok (expiresAt, ttl)) : ∀ u, expiresAt = some u → Carried u := by
  rintro u rfl
  cases ttlSeconds with
  | none => cases h
  | some secs =>
      simp only [enforceTtl, Eff.except_bind_eq_ok, Eff.okOr_eq_ok, pure, Except.pure, Except.ok.injEq, Prod.mk.injEq,
        Option.some.injEq] at h
      obtain ⟨-, -, -, -, e, hadd, rfl, -⟩ := h
      exact carried_of_addSeconds hclock hadd

/-- A share that both sides take. -/
def Sound (share : Threshold.Share) : Prop := share.x ≠ 0 ∧ share.y.length = 32

def material (share : Threshold.Share) : ThresholdShareMaterial := ⟨share.x, share.y⟩

theorem validateThresholdShares_material {shares : List Threshold.Share} (hne : shares ≠ [])
    (hsound : ∀ share ∈ shares, Sound share) : validateThresholdShares (shares.map material) = .ok () := by
  have hmap : shares.map material ≠ [] := mt List.map_eq_nil_iff.mp hne
  simp only [validateThresholdShares, Eff.rejectIf, if_neg hmap, Eff.ok_bind, Eff.except_forM_eq_ok, List.forall_mem_map]
  intro share hshare
  have hx : (material share).x ≠ 0 := (hsound share hshare).1
  have hy : (material share).y.length = shareYLen := (hsound share hshare).2
  rw [if_neg hx, Eff.ok_bind, if_neg (not_not.mpr hy)]

theorem protoShareToMaterial_protoShare {share : Threshold.Share} (hsound : Sound share) :
    protoShareToMaterial (protoShare share) = .ok (material share) := by
  have hbyte : ¬ ((protoShare share).x = 0 ∨ (protoShare share).x > 255) := by
    rw [not_or]
    exact ⟨mt toUInt32_eq_zero.mp hsound.1, UInt32.not_lt.mpr (toUInt32_le share.x)⟩
  rw [protoShareToMaterial, Eff.rejectIf, if_neg hbyte, Eff.ok_bind, protoShare, UInt8.toUInt8_toUInt32]
  rfl

/-- Shares are read by the client as they were made. -/
theorem protoSharesToMaterial_map {shares : List Threshold.Share} (hne : shares ≠ [])
    (hsound : ∀ share ∈ shares, Sound share) :
    protoSharesToMaterial (shares.map protoShare) = .ok (shares.map material) := by
  have hmap : shares.map protoShare ≠ [] := mt List.map_eq_nil_iff.mp hne
  have hread : (shares.map protoShare).mapM protoShareToMaterial = .ok (shares.map material) := by
    rw [Eff.except_mapM_eq_ok, List.forall₂_map_left_iff, List.forall₂_map_right_iff, List.forall₂_same]
    intro share hshare
    exact protoShareToMaterial_protoShare (hsound share hshare)
  rw [protoSharesToMaterial, if_neg hmap, hread, Eff.ok_bind, validateThresholdShares_material hne hsound]
  rfl

/-- Shares are sent by the client as they were made. -/
theorem materialToProtoShares_map {shares : List Threshold.Share} (hne : shares ≠ [])
    (hsound : ∀ share ∈ shares, Sound share) :
    materialToProtoShares (shares.map material) = .ok (shares.map protoShare) := by
  rw [materialToProtoShares, validateThresholdShares_material hne hsound, Eff.ok_bind, List.map_map]
  rfl

/-- The shares of a token are sound. -/
theorem sound_split {curve : Curve} {secret : Block 32} {k n : UInt8} (hk : 1 ≤ k) (hkn : k ≤ n)
    {random : Fin (k.toNat - 1) → Scalar} {result : Threshold.SplitResult}
    (hsplit : Threshold.split curve secret k n random = .ok result) :
    result.shares ≠ [] ∧ ∀ share ∈ result.shares, Sound share := by
  constructor
  · have hlength := (Threshold.nodup_split_shares curve hk hkn hsplit).2
    have hpos := UInt8.le_iff_toNat_le.mp (UInt8.le_trans hk hkn)
    rw [UInt8.toNat_one] at hpos
    apply List.ne_nil_of_length_pos
    omega
  · intro share hshare
    obtain ⟨hpos, -, hat⟩ := (Threshold.mem_split_shares curve hk hkn hsplit).mp hshare
    refine ⟨?_, ?_⟩
    · intro hzero
      rw [hzero] at hpos
      exact absurd hpos (by decide)
    · rw [hat]
      exact (Threshold.scalarToArray _).property

/-- Redeem material in a response: a token, or shares for a threshold above one. -/
inductive Delivers (threshold : UInt8) : Bytes → List Proto.ThresholdShare → Prop
  | token {token : Bytes} (hone : ¬ threshold > 1) (hne : token ≠ []) : Delivers threshold token []
  | shares {shares : List Threshold.Share} (hmany : threshold > 1) (hne : shares ≠ [])
      (hsound : ∀ share ∈ shares, Sound share) :
      Delivers threshold [] (shares.map protoShare)

/-- A number of a request as the handler takes it. -/
def effective (n : Option UInt8) : UInt8 := if n.getD 0 = 0 then 1 else n.getD 0

theorem effective_ne_zero (n : Option UInt8) : effective n ≠ 0 := by
  unfold effective
  split_ifs with hzero
  · decide
  · exact hzero

theorem effective_gt_one (n : Option UInt8) : effective n > 1 ↔ n.getD 1 > 1 := by
  unfold effective
  cases n with
  | none => rfl
  | some m =>
      simp only [Option.getD_some]
      split_ifs with hzero
      · rw [hzero]
        decide
      · rfl

/-- What the handler is given for a request of a client. -/
def MintAeadKeyV2Params.request (params : MintAeadKeyV2Params) (principal : String) : MintV2Request :=
  mintRequest (params.message principal) (if params.threshold.getD 0 = 0 then none else some (params.threshold.getD 0))
    (if params.numShares.getD 0 = 0 then none else some (params.numShares.getD 0))

theorem request_threshold (params : MintAeadKeyV2Params) (principal : String) :
    (params.request principal).threshold.getD 1 = effective params.threshold := by
  rw [MintAeadKeyV2Params.request, mintRequest, effective]
  split_ifs <;> rfl

theorem request_numShares (params : MintAeadKeyV2Params) (principal : String) :
    (params.request principal).numShares.getD 1 = effective params.numShares := by
  rw [MintAeadKeyV2Params.request, mintRequest, effective]
  split_ifs <;> rfl

section

variable {env : ServerEnv} {d : MintDraws} {context : BrokerClientContext} {params : MintAeadKeyV2Params}
    {principal : String}
  {response : Proto.MintAeadKeyV2Response} {s s' : Broker}

/-- What the server has done when it answers a request of a client. -/
theorem mint_rpc_eq_ok
    (h : SecretBroker.mintAeadKeyV2 env d (some context) (params.message principal) s = (.ok response, s')) :
    ∃ result, mintAeadKeyV2Impl env.toEnv d context (params.request principal) s = (.ok result, s') ∧
      mintedMaterial env (effective params.threshold).toUInt32 result.redeemToken =
        .ok (response.redeemToken, response.redeemShares) ∧
      response.expiresAt = result.expiresAt.bind chronoToTimestamp ∧
      response.redeemTokenExpiresAt = result.redeemTokenExpiresAt.bind chronoToTimestamp ∧
      response.threshold = (effective params.threshold).toUInt32 ∧
      response.numShares = (effective params.numShares).toUInt32 := by
  have hthreshold := byteOrNone_toUInt32 (params.threshold.getD 0) "threshold must be <= 255"
  have hnumShares := byteOrNone_toUInt32 (params.numShares.getD 0) "num_shares must be <= 255"
  simp only [SecretBroker.mintAeadKeyV2, Eff.bind_eq_ok, Eff.lift_eq_ok, Eff.mapError_eq_ok, brokerContext_eq_ok,
    Eff.pure_eq_ok, Option.some.injEq, Prod.exists] at h
  obtain ⟨_, _, ⟨rfl, rfl⟩, threshold, _, ⟨ht, rfl⟩, numShares, _, ⟨hn, rfl⟩, result, _, hmint, key, _, ⟨-, rfl⟩,
    token, shares, _, ⟨hmaterial, rfl⟩, rfl, rfl⟩ := h
  obtain rfl := Except.ok.inj (ht.symm.trans hthreshold)
  obtain rfl := Except.ok.inj (hn.symm.trans hnumShares)
  have heffective := request_threshold params principal
  rw [MintAeadKeyV2Params.request, mintRequest] at heffective
  rw [heffective] at hmaterial
  have hcount := request_numShares params principal
  rw [MintAeadKeyV2Params.request, mintRequest] at hcount
  exact ⟨result, hmint, hmaterial, rfl, rfl, congrArg UInt8.toUInt32 heffective, congrArg UInt8.toUInt32 hcount⟩

/-- The numbers and times of a response are those of the key. -/
structure Minted (params : MintAeadKeyV2Params) (response : Proto.MintAeadKeyV2Response) (expiresAt : Option DateTime)
    (redeemExpiresAt : DateTime) : Prop where
  threshold : response.threshold = (effective params.threshold).toUInt32
  numShares : response.numShares = (effective params.numShares).toUInt32
  expiresAt : optionalTimestamp response.expiresAt = .ok expiresAt
  redeemExpiresAt : optionalTimestamp response.redeemTokenExpiresAt = .ok (some redeemExpiresAt)

theorem minted_of_ok (hclock : d.createdAt.nanos < 1000000000)
    (h : SecretBroker.mintAeadKeyV2 env d (some context) (params.message principal) s = (.ok response, s')) :
    ∃ expiresAt redeemExpiresAt, Minted params response expiresAt redeemExpiresAt := by
  obtain ⟨result, hmint, -, hexpires, hredeem, hthreshold, hnumShares⟩ := mint_rpc_eq_ok h
  obtain ⟨expiresAt, ttl, redeemExpiresAt, httl, hadd, hresult⟩ := mint_response hmint
  rw [hresult] at hexpires hredeem
  refine ⟨expiresAt, redeemExpiresAt, hthreshold, hnumShares, ?_, ?_⟩
  · rw [hexpires]
    exact optionalTimestamp_of_carried (carried_of_enforceTtl hclock httl)
  · rw [hredeem]
    apply optionalTimestamp_of_carried
    rintro u ⟨⟩
    exact carried_of_addSeconds hclock hadd

theorem toUInt32_gt_one {n : UInt8} : n.toUInt32 > 1 ↔ n > 1 := by
  rw [gt_iff_lt, gt_iff_lt, UInt32.lt_iff_toNat_lt, UInt8.lt_iff_toNat_lt, UInt8.toNat_toUInt32]
  rfl

/-- The threshold of a message as the server reads it. -/
theorem message_threshold (params : MintAeadKeyV2Params) (principal : String) :
    (if (params.message principal).threshold = 0 then 1 else (params.message principal).threshold.toUInt8) =
      effective params.threshold := by
  have hword : (params.message principal).threshold = (params.threshold.getD 0).toUInt32 := rfl
  rw [hword, effective, UInt8.toUInt8_toUInt32]
  exact if_congr toUInt32_eq_zero rfl rfl

theorem effective_eq_one {n : Option UInt8} (h : ¬ effective n > 1) : effective n = 1 := by
  have hne := effective_ne_zero n
  rw [gt_iff_lt, UInt8.lt_iff_toNat_lt, UInt8.toNat_one] at h
  rw [ne_eq, ← UInt8.toNat_inj, UInt8.toNat_zero] at hne
  rw [← UInt8.toNat_inj, UInt8.toNat_one]
  omega

/-- Without custodians a response has the material. -/
theorem delivers_of_ok (hserde : env.serde.ReadsShares)
    (h : SecretBroker.mintAeadKeyV2 env d (some context) (params.message principal) s = (.ok response, s'))
    (hopen : ¬ (effective params.threshold > 1 ∧ params.custodianIds.getD [] ≠ [])) :
    Delivers (effective params.threshold) response.redeemToken response.redeemShares := by
  obtain ⟨result, hmint, hmaterial, -⟩ := mint_rpc_eq_ok h
  by_cases hmany : effective params.threshold > 1
  · have hnone : params.custodianIds.getD [] = [] := by
      by_contra hne
      exact hopen ⟨hmany, hne⟩
    obtain ⟨_, _, _, outcome, _, _, -, hbounds, -, hpersist, -, hredeem, -⟩ := mint_eq_ok env.toEnv hmint
    obtain ⟨_, _, _, _, _, _, _, _, -, -, -, -, rfl⟩ := persist_eq_ok env.toEnv hpersist
    have hcustodians : (params.request principal).custodianIds = [] := hnone
    rw [request_threshold, request_numShares, not_or, UInt8.not_lt, gt_iff_lt, UInt8.not_lt] at hbounds
    rw [request_threshold, request_numShares, hcustodians] at hredeem
    simp only [mintRedeemMaterial, if_pos hmany, ne_eq, not_true_eq_false, if_false, Eff.bind_eq_ok, Eff.lift_eq_ok,
      Eff.pure_eq_ok] at hredeem
    obtain ⟨split, _, ⟨hsplit, -⟩, _, _, -, htext, -⟩ := hredeem
    obtain ⟨hne, hsound⟩ := sound_split hbounds.1 hbounds.2 (splitRedeemToken_eq_ok hsplit)
    rw [mintedMaterial, if_pos (toUInt32_gt_one.mpr hmany), htext, if_neg (hserde.ne_empty _ hne),
      hserde.sharesFromStr _ hne, Eff.okOr_some, Eff.ok_bind] at hmaterial
    obtain ⟨htoken, hshares⟩ := Prod.mk.inj (Except.ok.inj hmaterial)
    rw [← htoken, ← hshares]
    exact .shares hmany hne hsound
  · have htoken := mintAeadKeyV2_redeemToken h ((message_threshold params principal).trans (effective_eq_one hmany))
    have hshares : response.redeemShares = [] := by
      rw [mintedMaterial, if_neg (mt toUInt32_gt_one.mp hmany), Eff.except_bind_eq_ok] at hmaterial
      obtain ⟨_, -, hpair⟩ := hmaterial
      exact (Prod.mk.inj (Except.ok.inj hpair)).2.symm
    rw [htoken, hshares]
    exact .token hmany (block_ne_nil (by decide) _)

/-- For custodians a response has nothing. -/
theorem held_of_ok
    (h : SecretBroker.mintAeadKeyV2 env d (some context) (params.message principal) s = (.ok response, s'))
    (hmany : effective params.threshold > 1) (hcustodians : params.custodianIds.getD [] ≠ []) :
    response.redeemToken = [] ∧ response.redeemShares = [] := by
  obtain ⟨result, hmint, hmaterial, -⟩ := mint_rpc_eq_ok h
  have hmode : (params.request principal).threshold.getD 1 > 1 := by rwa [request_threshold]
  obtain ⟨_, _, -, -, hempty⟩ := mint_custody hmint hmode hcustodians
  rw [mintedMaterial, if_pos (toUInt32_gt_one.mpr hmany), if_pos hempty] at hmaterial
  obtain ⟨htoken, hshares⟩ := Prod.mk.inj (Except.ok.inj hmaterial)
  exact ⟨htoken.symm, hshares.symm⟩

end

/-- An entry that is sent as the material of a response, as long as it has not expired. -/
def Keeps (lib : ClientEnv) (entry : RedeemCacheEntry) (token : Bytes) (shares : List Proto.ThresholdShare) : Prop :=
  ∀ now, entry.isExpired now = false → sendEntry lib now entry = .ok (token, shares)

theorem validateExpiry_of_inTime (lib : ClientEnv) {entry : RedeemCacheEntry} {now : DateTime}
    (h : entry.isExpired now = false) : validateExpiry lib now entry.expiresAt = .ok () := by
  unfold RedeemCacheEntry.isExpired at h
  cases hexpiry : entry.expiresAt with
  | none => rfl
  | some expiry =>
      rw [hexpiry, Option.any_some, decide_eq_false_iff_not] at h
      rw [validateExpiry, Eff.rejectIf, if_neg h]

theorem keeps_of_decode (lib : ClientEnv) {text : String} {token : Bytes} (h : Base64.standard.decode text = some token)
    (expiresAt : Option DateTime) : Keeps lib ⟨.token text, expiresAt⟩ token [] := by
  intro now hlive
  have hvalid := validateExpiry_of_inTime lib hlive
  simp only [sendEntry, hvalid, Eff.ok_bind, h, Eff.okOr_some]
  rfl

theorem keeps_of_proto (lib : ClientEnv) {materials : List ThresholdShareMaterial} {shares : List Proto.ThresholdShare}
    (h : materialToProtoShares materials = .ok shares) (expiresAt : Option DateTime) :
    Keeps lib ⟨.shares materials, expiresAt⟩ [] shares := by
  intro now hlive
  have hvalid := validateExpiry_of_inTime lib hlive
  simp only [sendEntry, hvalid, Eff.ok_bind, h]
  rfl

section

variable {params : MintAeadKeyV2Params} {response : Proto.MintAeadKeyV2Response} {expiresAt : Option DateTime}
  {redeemExpiresAt : DateTime}

/-- What the client makes of a response, given its shares. -/
def leaseOf (params : MintAeadKeyV2Params) (response : Proto.MintAeadKeyV2Response) (expiresAt : Option DateTime)
    (redeemExpiresAt : DateTime) (redeemShares : List ThresholdShareMaterial) : MintAeadKeyV2Lease where
  key := response.key
  handle := response.handle
  redeemToken := tokenText response.redeemToken
  redeemShares := redeemShares
  redeemTokenExpiresAt := some redeemExpiresAt
  expiresAt := expiresAt
  threshold := effective params.threshold
  numShares := effective params.numShares

/-- The numbers, times and shares of a response are read; what is left is to keep the material. -/
theorem acceptMinted_eq (h : Minted params response expiresAt redeemExpiresAt) {redeemShares : List ThresholdShareMaterial}
    (hshares : protoSharesToMaterial response.redeemShares = .ok redeemShares) (cache : RedeemCache) :
    acceptMinted response cache = (do
      if effective params.threshold > 1 then do
        Eff.lift (Eff.rejectIf (redeemShares = []) "mint_aead_key_v2 response missing threshold shares")
        rememberRedeemShares response.handle redeemShares (some redeemExpiresAt)
      else do
        let token ← Eff.lift (Eff.okOr (tokenText response.redeemToken) "mint_aead_key_v2 response missing redeem token")
        rememberRedeemToken response.handle token (some redeemExpiresAt)
      return leaseOf params response expiresAt redeemExpiresAt redeemShares :
      Eff RedeemCache String MintAeadKeyV2Lease) cache := by
  have hthreshold := responseByte_toUInt32 (effective_ne_zero params.threshold) 1 "response threshold exceeds u8"
  have hnumShares := responseByte_toUInt32 (effective_ne_zero params.numShares) (effective params.threshold)
    "response num_shares exceeds u8"
  rw [← h.threshold] at hthreshold
  rw [← h.numShares] at hnumShares
  rw [acceptMinted, hthreshold]
  refine (Eff.bind_of_ok (Eff.lift_apply _ _)).trans ?_
  rw [hnumShares]
  refine (Eff.bind_of_ok (Eff.lift_apply _ _)).trans ?_
  rw [h.expiresAt]
  refine (Eff.bind_of_ok (Eff.lift_apply _ _)).trans ?_
  rw [h.redeemExpiresAt]
  refine (Eff.bind_of_ok (Eff.lift_apply _ _)).trans ?_
  rw [hshares]
  exact Eff.bind_of_ok (Eff.lift_apply _ _)

theorem rememberRedeemToken_encode (handle : String) (token : Bytes) (expiresAt : Option DateTime) (cache : RedeemCache) :
    rememberRedeemToken handle (Base64.standard.encode token) expiresAt cache =
      (.ok (), CacheOp.apply cache (.insert (trim handle) ⟨.token (Base64.standard.encode token), expiresAt⟩)) := by
  unfold rememberRedeemToken
  simp only [trim_encode, Base64.decode_encode Base64.standard_lawful, Eff.okOr_some]
  exact Eff.bind_of_ok (Eff.lift_apply _ _)

theorem rememberRedeemShares_material (handle : String) {shares : List Threshold.Share} (hne : shares ≠ [])
    (hsound : ∀ share ∈ shares, Sound share) (expiresAt : Option DateTime) (cache : RedeemCache) :
    rememberRedeemShares handle (shares.map material) expiresAt cache =
      (.ok (), CacheOp.apply cache (.insert (trim handle) ⟨.shares (shares.map material), expiresAt⟩)) := by
  rw [rememberRedeemShares, validateThresholdShares_material hne hsound]
  exact Eff.bind_of_ok (Eff.lift_apply _ _)

/-- A response with material is accepted, and the material is kept. -/
theorem acceptMinted_of_delivers (lib : ClientEnv) (h : Minted params response expiresAt redeemExpiresAt)
    (hdelivers : Delivers (effective params.threshold) response.redeemToken response.redeemShares) (cache : RedeemCache) :
    ∃ lease entry, acceptMinted response cache = (.ok lease, CacheOp.apply cache (.insert (trim response.handle) entry)) ∧
      lease.handle = response.handle ∧ lease.key = response.key ∧ lease.redeemTokenExpiresAt = entry.expiresAt ∧
      Keeps lib entry response.redeemToken response.redeemShares := by
  generalize htoken : response.redeemToken = token at hdelivers
  generalize hshares : response.redeemShares = protoShares at hdelivers
  cases hdelivers with
  | token hone hne =>
      have hread : protoSharesToMaterial response.redeemShares = .ok [] := by
        rw [hshares]
        rfl
      have htext : tokenText response.redeemToken = some (Base64.standard.encode token) := by
        rw [htoken, tokenText, if_neg hne]
      refine ⟨leaseOf params response expiresAt redeemExpiresAt [],
        ⟨.token (Base64.standard.encode token), some redeemExpiresAt⟩,
        ?_, rfl, rfl, rfl, keeps_of_decode lib (Base64.decode_encode Base64.standard_lawful _) _⟩
      rw [acceptMinted_eq h hread, if_neg hone, htext]
      exact (Eff.bind_of_ok (Eff.lift_apply _ _)).trans (Eff.bind_of_ok (rememberRedeemToken_encode ..))
  | @shares shares hmany hne hsound =>
      have hread : protoSharesToMaterial response.redeemShares = .ok (shares.map material) := by
        rw [hshares]
        exact protoSharesToMaterial_map hne hsound
      have hmap : shares.map material ≠ [] := mt List.map_eq_nil_iff.mp hne
      refine ⟨leaseOf params response expiresAt redeemExpiresAt (shares.map material),
        ⟨.shares (shares.map material), some redeemExpiresAt⟩, ?_, rfl, rfl, rfl,
          keeps_of_proto lib (materialToProtoShares_map hne hsound) _⟩
      rw [acceptMinted_eq h hread, if_pos hmany, Eff.rejectIf, if_neg hmap]
      exact (Eff.bind_of_ok (Eff.lift_apply _ _)).trans (Eff.bind_of_ok (rememberRedeemShares_material _ hne hsound _ _))

/-- A response without material for a threshold above one is refused. -/
theorem acceptMinted_of_held (h : Minted params response expiresAt redeemExpiresAt)
    (hmany : effective params.threshold > 1) (hheld : response.redeemShares = []) (cache : RedeemCache) :
    acceptMinted response cache = (.error "mint_aead_key_v2 response missing threshold shares", cache) := by
  have hread : protoSharesToMaterial response.redeemShares = .ok [] := by
    rw [hheld]
    rfl
  rw [acceptMinted_eq h hread, if_pos hmany, Eff.rejectIf, if_pos rfl]
  exact Eff.bind_of_error (Eff.lift_apply _ _)

end

/-! ### Later accesses -/

/-- An access that leaves an entry alone: it is to another handle, or it comes before the entry expires. -/
def CacheOp.Spares (handle : String) (expiresAt : Option DateTime) : CacheOp → Prop
  | .insert other _ | .remove other => other ≠ handle
  | .retain clock => ∀ expiry, expiresAt = some expiry → clock handle ≤ expiry

def RedeemCache.after (cache : RedeemCache) (ops : List CacheOp) : RedeemCache := ops.foldl CacheOp.apply cache

theorem isExpired_eq_false {entry : RedeemCacheEntry} {now : DateTime} :
    entry.isExpired now = false ↔ ∀ expiry, entry.expiresAt = some expiry → now ≤ expiry := by
  rw [RedeemCacheEntry.isExpired, Option.any_eq_false]
  simp

theorem CacheOp.Spares.apply {handle : String} {entry : RedeemCacheEntry} {op : CacheOp} {cache : RedeemCache}
    (h : op.Spares handle entry.expiresAt) (hentry : cache handle = some entry) : op.apply cache handle = some entry := by
  cases op with
  | insert other entry' => exact (Function.update_of_ne (Ne.symm h) _ _).trans hentry
  | remove other => exact (Function.update_of_ne (Ne.symm h) _ _).trans hentry
  | retain clock =>
      have hlive : entry.isExpired (clock handle) = false := isExpired_eq_false.mpr h
      change (cache handle).filter _ = some entry
      rw [hentry, Option.filter_some, hlive]
      rfl

theorem entry_after {handle : String} {entry : RedeemCacheEntry} {ops : List CacheOp} {cache : RedeemCache}
    (hops : ∀ op ∈ ops, op.Spares handle entry.expiresAt) (hentry : cache handle = some entry) :
    cache.after ops handle = some entry := by
  induction ops generalizing cache with
  | nil => exact hentry
  | cons op ops ih =>
      apply ih
      · intro op' hop'
        exact hops op' (List.mem_cons_of_mem _ hop')
      · exact (hops op List.mem_cons_self).apply hentry

/-- A call that takes its material from the cache. -/
structure UnwrapSecretV2Params.Cached (params : UnwrapSecretV2Params) (handle : String) : Prop where
  handle : trim params.handle = trim handle
  redeemToken : params.redeemToken = none
  redeemShares : params.redeemShares = []

/-- All readings of the clock come before an entry expires. -/
def UnwrapClock.InTime (clock : UnwrapClock) (handle : String) (expiresAt : Option DateTime) : Prop :=
  ∀ expiry, expiresAt = some expiry → clock.purge handle ≤ expiry ∧ clock.now ≤ expiry ∧ clock.validate ≤ expiry

theorem takeRedeemMaterial_of_live (lib : ClientEnv) {handle : String} {now : DateTime} {cache : RedeemCache}
    {entry : RedeemCacheEntry} (hentry : cache handle = some entry) (hlive : ∀ expiry, entry.expiresAt = some expiry →
      now ≤ expiry) : takeRedeemMaterial lib handle now cache = (.ok entry, CacheOp.apply cache (.remove handle)) := by
  rw [takeRedeemMaterial]
  refine (Eff.bind_of_ok (Eff.read_apply cache)).trans ?_
  rw [hentry]
  refine (Eff.bind_of_ok (Eff.modify_apply _ _)).trans ?_
  cases hexpiry : entry.expiresAt with
  | none => rfl
  | some expiry =>
      have htime : ¬ now > expiry := not_lt.mpr (hlive expiry hexpiry)
      simp only [Eff.rejectIf, if_neg htime]
      exact Eff.bind_of_ok (Eff.lift_apply _ _)

/-- An entry that is still there is sent as the material it was made from. -/
theorem unwrapMessage_of_cached (lib : ClientEnv) {handle : String} {entry : RedeemCacheEntry} {token : Bytes}
    {shares : List Proto.ThresholdShare} {cache : RedeemCache} {params : UnwrapSecretV2Params} {clock : UnwrapClock}
    (hcached : params.Cached handle) (hentry : cache (trim handle) = some entry)
    (htime : clock.InTime (trim handle) entry.expiresAt) (hkeeps : Keeps lib entry token shares) :
    unwrapMessage lib clock params cache = (.ok (params.message token shares),
      CacheOp.apply (CacheOp.apply cache (.retain clock.purge)) (.remove (trim handle))) := by
  have hpurged : CacheOp.apply cache (.retain clock.purge) (trim handle) = some entry := by
    apply CacheOp.Spares.apply _ hentry
    exact fun expiry h => (htime expiry h).1
  have htaken := takeRedeemMaterial_of_live lib hpurged fun expiry h => (htime expiry h).2.1
  have hsent : sendEntry lib clock.validate entry = .ok (token, shares) :=
    hkeeps _ (isExpired_eq_false.mpr fun expiry h => (htime expiry h).2.2)
  have hboth : ¬ (params.redeemToken.isSome ∧ params.redeemShares ≠ []) := fun h => h.2 hcached.redeemShares
  have hmaterial : unwrapMaterial lib clock params (CacheOp.apply cache (.retain clock.purge)) =
      (.ok (token, shares), CacheOp.apply (CacheOp.apply cache (.retain clock.purge)) (.remove (trim handle))) := by
    rw [unwrapMaterial, hcached.redeemToken]
    simp only [hcached.redeemShares, ne_eq, not_true_eq_false, if_false, hcached.handle]
    rw [Eff.bind_of_ok htaken, hsent]
    rfl
  rw [unwrapMessage, Eff.rejectIf, if_neg hboth]
  refine (Eff.bind_of_ok (Eff.modify_apply _ _)).trans ?_
  refine (Eff.bind_of_ok (Eff.lift_apply _ _)).trans ?_
  exact Eff.bind_of_ok hmaterial

theorem emptyToNone_getD (value : Option String) : emptyToNone (value.getD "") = value.bind normalizeOptionalString := by
  cases value with
  | none => decide
  | some v => rw [Option.getD_some, Option.bind_some, emptyToNone]

theorem bind_normalize_idem (value : Option String) :
    (value.bind normalizeOptionalString).bind normalizeOptionalString = value.bind normalizeOptionalString := by
  cases h : value.bind normalizeOptionalString with
  | none => rfl
  | some p =>
      obtain ⟨v, -, hv⟩ := Option.bind_eq_some_iff.mp h
      rw [Option.bind_some, normalizeOptionalString_idem hv]

section

variable {context : BrokerClientContext} {lifecycle : SecretLifecycle} {requested x : Option String}

theorem v2UnwrapPrincipal_congr {requested' : Option String}
    (h : requested.bind normalizeOptionalString = requested'.bind normalizeOptionalString) :
    v2UnwrapPrincipal context lifecycle requested = v2UnwrapPrincipal context lifecycle requested' := by
  simp only [v2UnwrapPrincipal, h]

/-- A principal that a single-use secret may be bound to is the caller. -/
theorem requested_eq_current {current r : String} (h : v2UnwrapPrincipal context .singleUseUnwrap requested = .ok x)
    (hcurrent : normalizedContextPrincipal context = some current) (hr : requested.bind normalizeOptionalString = some r) :
    r = current := by
  simp only [v2UnwrapPrincipal, Eff.except_bind_eq_ok, Eff.rejectIf_eq_ok, hcurrent, hr, Eff.okOr_some,
    Except.ok.injEq] at h
  obtain ⟨-, -, _, rfl, -, hsame, -⟩ := h
  simpa using hsame

/-- Naming the caller is the same as naming no one, where that is allowed. -/
theorem v2UnwrapPrincipal_current {current : String} (hcurrent : normalizedContextPrincipal context = some current) :
    v2UnwrapPrincipal context lifecycle (some current) = v2UnwrapPrincipal context lifecycle none := by
  have hidem := normalizedContextPrincipal_idem hcurrent
  cases lifecycle with
  | singleUseUnwrap => simp [v2UnwrapPrincipal, hcurrent, hidem, Eff.rejectIf]
  | renewableLease => simp [v2UnwrapPrincipal, hcurrent, hidem, Eff.rejectIf]
  | serviceBootstrap => simp [v2UnwrapPrincipal, hcurrent, hidem, Eff.rejectIf]

/-- The channel of a caller that may mint names its principal. -/
theorem requireAuthenticatedChannelPrincipal_of_ok (h : v2UnwrapPrincipal context lifecycle requested = .ok x)
    {current : String} (hcurrent : normalizedContextPrincipal context = some current) {env : ServerEnv} {sessionId : Uuid}
    {channel : Proto.DescribeChannelResponse}
    (hchannel : describeChannel env (some sessionId) (some context) = .ok channel) (operation : String) :
    Adapter.new.requireAuthenticatedChannelPrincipal operation channel (lifecycle ≠ .singleUseUnwrap) = .ok current := by
  obtain ⟨hauth, _, _, -, -, -, -, hlineage⟩ := v2UnwrapPrincipal_eq_ok h
  obtain ⟨v, hv, hnormal⟩ := Option.bind_eq_some_iff.mp hcurrent
  obtain ⟨htrim, hne⟩ := normalizeOptionalString_eq_some.mp hnormal
  obtain rfl := Except.ok.inj hchannel
  have hname : trim (context.principalId.getD "") = current := by rw [hv, Option.getD_some, htrim]
  have hpeer : ¬ (decide (lifecycle ≠ .singleUseUnwrap) = true ∧ context.peerCertSha256.getD [] = []) := by
    rintro ⟨hlifecycle, hnil⟩
    obtain ⟨cert, hsome⟩ := hlineage (of_decide_eq_true hlifecycle)
    rw [hsome, Option.getD_some] at hnil
    exact context.peerCert_ne_nil cert hsome hnil
  simp only [Adapter.requireAuthenticatedChannelPrincipal, hauth, hname, Eff.rejectIf, if_neg hne, if_neg hpeer]
  rfl

/-- A name that is already normalized is sent as it is. -/
theorem v2UnwrapPrincipal_emptyToNone {r : String} (hr : requested.bind normalizeOptionalString = some r) :
    v2UnwrapPrincipal context lifecycle (emptyToNone r) = v2UnwrapPrincipal context lifecycle requested := by
  apply v2UnwrapPrincipal_congr
  have hidem := bind_normalize_idem requested
  rw [hr, Option.bind_some] at hidem
  rw [emptyToNone, hidem, Option.bind_some, hidem, hr]

/-- The client finds a principal with which the secret is bound to the same one. -/
theorem resolveV2UnwrapPrincipal_of_ok (h : v2UnwrapPrincipal context lifecycle requested = .ok x) {env : ServerEnv}
    {sessionId : Uuid} {channel : Proto.DescribeChannelResponse}
    (hchannel : describeChannel env (some sessionId) (some context) = .ok channel)
    (hneeded : (requested.bind normalizeOptionalString).isSome ∨ lifecycle ≠ .singleUseUnwrap) :
    ∃ resolved, Adapter.new.resolveV2UnwrapPrincipal lifecycle (requested.bind normalizeOptionalString) channel =
      .ok resolved ∧ v2UnwrapPrincipal context lifecycle (emptyToNone resolved) =
        v2UnwrapPrincipal context lifecycle requested := by
  obtain ⟨-, current, _, hcurrent, -⟩ := v2UnwrapPrincipal_eq_ok h
  have hnamed := requireAuthenticatedChannelPrincipal_of_ok h hcurrent hchannel lifecycle.debugText
  rw [Adapter.resolveV2UnwrapPrincipal, bind_normalize_idem]
  simp only [if_neg (not_not.mpr hneeded), hnamed, Eff.ok_bind]
  cases hrequested : requested.bind normalizeOptionalString with
  | some r =>
      have hsame : v2UnwrapPrincipal context lifecycle (emptyToNone r) = v2UnwrapPrincipal context lifecycle requested :=
        v2UnwrapPrincipal_emptyToNone hrequested
      cases lifecycle with
      | singleUseUnwrap =>
          have hr := requested_eq_current h hcurrent hrequested
          exact ⟨r, by simp [Eff.rejectIf, hr], hsame⟩
      | renewableLease => exact ⟨r, rfl, hsame⟩
      | serviceBootstrap => exact ⟨r, rfl, hsame⟩
  | none =>
      have hsame : v2UnwrapPrincipal context lifecycle (emptyToNone current) =
        v2UnwrapPrincipal context lifecycle requested := by
        rw [emptyToNone, normalizedContextPrincipal_idem hcurrent, v2UnwrapPrincipal_current hcurrent]
        exact v2UnwrapPrincipal_congr hrequested.symm
      cases lifecycle with
      | singleUseUnwrap => simp [hrequested] at hneeded
      | renewableLease => exact ⟨current, rfl, hsame⟩
      | serviceBootstrap => exact ⟨current, rfl, hsame⟩

end

section

variable {env : ServerEnv} {d : MintDraws} {context : BrokerClientContext} {params : MintAeadKeyV2Params}
  {response : Proto.MintAeadKeyV2Response} {s s' : Broker}

theorem fromProto_intoProto (lifecycle : SecretLifecycle) : SecretLifecycle.fromProto lifecycle.intoProto = lifecycle := by
  cases lifecycle <;> rfl

theorem request_lifecycle (params : MintAeadKeyV2Params) (principal : String) :
    (params.request principal).lifecycle = params.lifecycle.getD .singleUseUnwrap :=
  fromProto_intoProto _

theorem request_unwrapPrincipalId (params : MintAeadKeyV2Params) (principal : String) :
    (params.request principal).unwrapPrincipalId = emptyToNone principal := by
  simp only [MintAeadKeyV2Params.request, mintRequest, MintAeadKeyV2Params.message]

/-- The handler reads the principal of a request only to choose whom the secret is bound to. -/
theorem mintImpl_congr {principal principal' : String} {threshold numShares : Option UInt8}
    (h : v2UnwrapPrincipal context (params.lifecycle.getD .singleUseUnwrap) (emptyToNone principal) =
      v2UnwrapPrincipal context (params.lifecycle.getD .singleUseUnwrap) (emptyToNone principal')) :
    mintAeadKeyV2Impl env.toEnv d context (mintRequest (params.message principal) threshold numShares) =
      mintAeadKeyV2Impl env.toEnv d context (mintRequest (params.message principal') threshold numShares) := by
  rw [← fromProto_intoProto (params.lifecycle.getD .singleUseUnwrap)] at h
  simp only [mintAeadKeyV2Impl, mintRequest, MintAeadKeyV2Params.message, mintCaveats, h]
  rfl

theorem mint_rpc_congr {principal principal' : String}
    (h : v2UnwrapPrincipal context (params.lifecycle.getD .singleUseUnwrap) (emptyToNone principal) =
      v2UnwrapPrincipal context (params.lifecycle.getD .singleUseUnwrap) (emptyToNone principal')) :
    SecretBroker.mintAeadKeyV2 env d (some context) (params.message principal) =
      SecretBroker.mintAeadKeyV2 env d (some context) (params.message principal') := by
  have hcontext : (Eff.lift (brokerContext (some context)) : Eff Broker RpcError BrokerClientContext) = pure context := rfl
  simp only [SecretBroker.mintAeadKeyV2, hcontext, pure_bind, mintImpl_congr h]
  rfl

/-- The principal that the client sends binds the secret to the same one as the parameters do. -/
theorem resolvePrincipal_of_ok (lib : ClientEnv) (env : ServerEnv) (sessionId : Uuid) {x : Option String}
    (h : v2UnwrapPrincipal context (params.lifecycle.getD .singleUseUnwrap) params.unwrapPrincipalId = .ok x)
    (w : Deployment) : ∃ resolved, resolvePrincipal .new
      (served lib (Eff.lift (describeChannel env (some sessionId) (some context))))
        (params.lifecycle.getD .singleUseUnwrap) params.unwrapPrincipalId w = (.ok resolved, w) ∧
      v2UnwrapPrincipal context (params.lifecycle.getD .singleUseUnwrap) (emptyToNone resolved) =
        v2UnwrapPrincipal context (params.lifecycle.getD .singleUseUnwrap) params.unwrapPrincipalId := by
  by_cases hneeded : (params.unwrapPrincipalId.bind normalizeOptionalString).isSome ∨
      params.lifecycle.getD .singleUseUnwrap ≠ .singleUseUnwrap
  · obtain ⟨channel, hchannel⟩ : ∃ channel, describeChannel env (some sessionId) (some context) = .ok channel := ⟨_, rfl⟩
    obtain ⟨resolved, hresolved, hsame⟩ := resolveV2UnwrapPrincipal_of_ok h hchannel hneeded
    have hdescribed : call (served lib (Eff.lift (describeChannel env (some sessionId) (some context)))) w =
      (.ok channel, w) := by
      rw [hchannel]
      rfl
    refine ⟨resolved, ?_, hsame⟩
    rw [resolvePrincipal, if_pos hneeded, Eff.bind_of_ok hdescribed, hresolved]
    rfl
  · refine ⟨"", ?_, ?_⟩
    · rw [resolvePrincipal, if_neg hneeded]
      rfl
    · rw [not_or, Option.not_isSome_iff_eq_none] at hneeded
      exact v2UnwrapPrincipal_congr hneeded.1.symm

theorem call_of_ok (lib : ClientEnv) {α : Type} {handler : Eff Broker RpcError α} {a : α} (h : handler s = (.ok a, s'))
    (cache : RedeemCache) : call (served lib handler) ⟨s, cache⟩ = (.ok a, ⟨s', cache⟩) :=
  Eff.zoom_eq_ok.mpr ⟨s', Eff.mapError_eq_ok.mpr h, rfl⟩

/-- What the server answers is what the client has to accept. -/
theorem client_mint_eq (lib : ClientEnv) (sessionId : Uuid)
    (h : SecretBroker.mintAeadKeyV2 env d (some context) (params.message (params.unwrapPrincipalId.getD "")) s =
      (.ok response, s')) (cache : RedeemCache) :
    mintAeadKeyV2 lib env .new (some sessionId) d (some context) params ⟨s, cache⟩ =
      ((acceptMinted response cache).1, ⟨s', (acceptMinted response cache).2⟩) := by
  obtain ⟨result, hmint, -⟩ := mint_rpc_eq_ok h
  obtain ⟨_, _, unwrapPrincipalId, _, _, _, -, -, hprincipal, -⟩ := mint_eq_ok env.toEnv hmint
  rw [request_lifecycle, request_unwrapPrincipalId] at hprincipal
  have hgiven : v2UnwrapPrincipal context (params.lifecycle.getD .singleUseUnwrap)
      (emptyToNone (params.unwrapPrincipalId.getD "")) =
      v2UnwrapPrincipal context (params.lifecycle.getD .singleUseUnwrap) params.unwrapPrincipalId := by
    rw [emptyToNone_getD]
    exact v2UnwrapPrincipal_congr (bind_normalize_idem _)
  obtain ⟨resolved, hresolved, hsame⟩ := resolvePrincipal_of_ok lib env sessionId (hgiven.symm.trans hprincipal) ⟨s, cache⟩
  have hanswer : SecretBroker.mintAeadKeyV2 env d (some context) (params.message resolved) s = (.ok response, s') := by
    rw [mint_rpc_congr (hsame.trans hgiven.symm)]
    exact h
  rw [mintAeadKeyV2, mintAeadKeyV2Over, Eff.bind_of_ok hresolved, Eff.bind_of_ok (call_of_ok lib hanswer cache)]
  rfl

end

/-- A share from the text of its point and value. -/
def readShare (piece : List Char) : Option Threshold.Share :=
  match Base64.standard.decode (String.ofList piece) with
  | some (x :: y) => some ⟨x, y⟩
  | _ => none

/-- Shares are written as base64 texts between commas. -/
def listSerde : Serde :=
  { plainSerde with
    sharesToString shares := "[" ++ ",".intercalate (shares.map fun share => Base64.standard.encode (share.x :: share.y))
    sharesFromStr text :=
      match text.toList with
      | '[' :: rest => (rest.splitOn ',').mapM readShare
      | _ => none }

theorem listSerde_readsShares : listSerde.ReadsShares := by
  constructor
  · intro shares hne
    have hlist : ("[" ++ ",".intercalate (shares.map fun share => Base64.standard.encode (share.x :: share.y))).toList =
        '[' :: [','].intercalate (shares.map fun share => Base64.standard.encodeChars (share.x :: share.y)) := by
      rw [String.toList_append, String.toList_intercalate, List.map_map]
      simp [Function.comp_def, Base64.encode]
    have hcomma : ∀ piece ∈ shares.map (fun share => Base64.standard.encodeChars (share.x :: share.y)), ',' ∉ piece := by
      intro piece hpiece hmem
      obtain ⟨share, -, rfl⟩ := List.mem_map.mp hpiece
      exact Base64.encodeChars_all (P := fun c => c ≠ ',') (by decide) (by decide) _ _ hmem rfl
    have hread : ∀ share : Threshold.Share, readShare (Base64.standard.encodeChars (share.x :: share.y)) = some share := by
      intro share
      rw [readShare, ← Base64.encode, Base64.decode_encode Base64.standard_lawful]
    simp only [listSerde, hlist]
    rw [List.splitOn_intercalate ',' hcomma (mt List.map_eq_nil_iff.mp hne), List.mapM_map]
    have hall : shares.mapM (fun share => some (id share)) = some (shares.map id) := List.mapM_pure
    simp only [Function.comp_def, hread]
    exact hall.trans (congrArg some (List.map_id shares))
  · intro shares _ hempty
    have hlist := congrArg String.toList hempty
    simp [listSerde] at hlist

def plainListServer : ServerEnv := { plainServer with toEnv := plainWith listSerde }

theorem exists_answer {ε α σ : Type} {result : Except ε α × σ} (h : result.1.toBool = true) :
    ∃ a s', result = (.ok a, s') := by
  obtain ⟨error | a, s'⟩ := result
  · cases h
  · exact ⟨a, s', rfl⟩

def plainClient : ClientEnv := ⟨fun _ => "", fun _ => ""⟩

/-- Parameters for a key with some shares and custodians. -/
def plainParams (threshold numShares : Option UInt8) (custodianIds : Option (List String)) : MintAeadKeyV2Params :=
  ⟨none, none, none, none, threshold, numShares, none, none, none, custodianIds⟩

section

variable {env : ServerEnv} {d : MintDraws} {context : BrokerClientContext} {params : MintAeadKeyV2Params}
  {response : Proto.MintAeadKeyV2Response} {s s' : Broker}

/-- **The client accepts what the broker mints**, with the broker's handle and key, exactly if the shares are not held for
custodians. Redeem material that the broker returned is kept: whatever else is done with the cache, other than to
this handle or after the material has expired, a later unwrap from the cache sends what the broker issued. -/
theorem minted_accepted_iff (lib : ClientEnv) (hserde : env.serde.ReadsShares) (sessionId : Uuid)
    (hclock : d.createdAt.nanos < 1000000000)
    (hserver : SecretBroker.mintAeadKeyV2 env d (some context) (params.message (params.unwrapPrincipalId.getD "")) s =
      (.ok response, s')) (cache : RedeemCache) :
    ((∃ lease w, mintAeadKeyV2 lib env .new (some sessionId) d (some context) params ⟨s, cache⟩ = (.ok lease, w) ∧
        lease.handle = response.handle ∧ lease.key = response.key) ↔
      ¬ (params.threshold.getD 1 > 1 ∧ params.custodianIds.getD [] ≠ [])) ∧
    (response.redeemToken ≠ [] ∨ response.redeemShares ≠ [] →
      ∃ lease cache', mintAeadKeyV2 lib env .new (some sessionId) d (some context) params ⟨s, cache⟩ =
          (.ok lease, ⟨s', cache'⟩) ∧
        ∀ ops : List CacheOp, (∀ op ∈ ops, op.Spares (trim response.handle) lease.redeemTokenExpiresAt) →
          ∀ later clock, UnwrapSecretV2Params.Cached later response.handle →
            UnwrapClock.InTime clock (trim response.handle) lease.redeemTokenExpiresAt →
            ∃ request cache'', unwrapMessage lib clock later (RedeemCache.after cache' ops) = (.ok request, cache'') ∧
              request.redeemToken = response.redeemToken ∧ request.redeemShares = response.redeemShares) := by
  obtain ⟨expiresAt, redeemExpiresAt, hminted⟩ := minted_of_ok hclock hserver
  have hclient := client_mint_eq lib sessionId hserver cache
  rw [← effective_gt_one]
  by_cases hheld : effective params.threshold > 1 ∧ params.custodianIds.getD [] ≠ []
  · obtain ⟨htoken, hshares⟩ := held_of_ok hserver hheld.1 hheld.2
    rw [acceptMinted_of_held hminted hheld.1 hshares] at hclient
    refine ⟨iff_of_false ?_ (not_not.mpr hheld), fun hmaterial => ?_⟩
    · rintro ⟨lease, w, hlease, -⟩
      rw [hclient] at hlease
      cases hlease
    · exact absurd hmaterial (not_or.mpr ⟨not_not.mpr htoken, not_not.mpr hshares⟩)
  · obtain ⟨lease, entry, haccept, hhandle, hkey, hexpiry, hkeeps⟩ :=
      acceptMinted_of_delivers lib hminted (delivers_of_ok hserde hserver hheld) cache
    rw [haccept] at hclient
    dsimp only at hclient
    refine ⟨iff_of_true ⟨lease, _, hclient, hhandle, hkey⟩ hheld, fun _ => ?_⟩
    refine ⟨lease, CacheOp.apply cache (.insert (trim response.handle) entry), hclient, ?_⟩
    intro ops hops later clock hcached htime
    rw [hexpiry] at hops htime
    have hentry : RedeemCache.after (CacheOp.apply cache (.insert (trim response.handle) entry)) ops
      (trim response.handle) =
        some entry := entry_after hops (Function.update_self ..)
    exact ⟨_, _, unwrapMessage_of_cached lib hcached hentry htime hkeeps, rfl, rfl⟩

end

theorem minted_accepted_shares : ∃ response s' lease w,
    SecretBroker.mintAeadKeyV2 plainListServer plainMintDraws (some plainContext)
      ((plainParams (some 2) (some 2) none).message "") Broker.empty = (.ok response, s') ∧
    mintAeadKeyV2 plainClient plainListServer .new (some (.filled 9)) plainMintDraws (some plainContext)
      (plainParams (some 2) (some 2) none) ⟨Broker.empty, fun _ => none⟩ = (.ok lease, w) ∧
    lease.handle = response.handle ∧ lease.key = response.key := by
  obtain ⟨response, s', hserver⟩ : ∃ response s', SecretBroker.mintAeadKeyV2 plainListServer plainMintDraws
    (some plainContext)
      ((plainParams (some 2) (some 2) none).message "") Broker.empty = (.ok response, s') :=
        exists_answer (by decide +kernel)
  obtain ⟨lease, w, hlease, hsame⟩ :=
    (minted_accepted_iff plainClient listSerde_readsShares (.filled 9) (by decide) hserver
    fun _ => none).1.mpr (by decide)
  exact ⟨response, s', lease, w, hserver, hlease, hsame⟩

/-- A key whose shares are held for two custodians: the broker has minted it and answers, and the client reports a failure,
so that neither the key nor its handle is returned. -/
theorem custodian_mint_refused :
    (∃ response s', SecretBroker.mintAeadKeyV2 plainListServer plainMintDraws (some plainContext)
      ((plainParams (some 2) (some 2) (some ["alice", "bob"])).message "") Broker.empty = (.ok response, s')) ∧
    (mintAeadKeyV2 plainClient plainListServer .new (some (.filled 9)) plainMintDraws (some plainContext)
      (plainParams (some 2) (some 2) (some ["alice", "bob"])) ⟨Broker.empty, fun _ => none⟩).1 =
        .error "mint_aead_key_v2 response missing threshold shares" := by
  constructor
  · exact exists_answer (by decide +kernel)
  · decide +kernel

end Client

end SecretBroker

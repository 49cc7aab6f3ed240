import SecretBroker.PlainBroker
import SecretBroker.RedemptionSpec

/-! Enough shares of a split reconstruct the canonical secret, and the comparison of redeem tokens accepts
them. -/

open Wire

namespace SecretBroker

namespace Threshold

/-- Enough distinct shares of a split reconstruct the secret. -/
theorem reconstruct_split (curve : Curve) {secret : Block 32} {k n : UInt8} (hk : 1 ≤ k) (hkn : k ≤ n)
    {random : Fin (k.toNat - 1) → Scalar} {result : SplitResult} (hsplit : split curve secret k n random = .ok result)
    {shares : List Share} (hshares : ∀ share ∈ shares, share ∈ result.shares) (hnodup : shares.Nodup)
    (henough : k.toNat ≤ shares.length) :
    reconstruct curve shares k result.commitments = .ok (canonicalSecretBytes secret) := by
  have hon : ∀ share ∈ shares, ∃ x, share = shareAt (secretScalarFromBytes secret :: List.ofFn random) x :=
    fun share hshare => ⟨share.x, ((mem_split_shares curve hk hkn hsplit).mp (hshares share hshare)).2.2⟩
  have hlen : (secretScalarFromBytes secret :: List.ofFn random).length = k.toNat := by
    have hpos : 1 ≤ k.toNat := UInt8.le_iff_toNat_le.mp hk
    rw [List.length_cons, List.length_ofFn]
    omega
  rw [split_eq curve secret hk hkn random] at hsplit
  cases hsplit
  exact reconstruct_shareAt curve hlen hon hnodup henough

/-- The shares of a split lie at different points. -/
theorem nodup_split_shares (curve : Curve) {secret : Block 32} {k n : UInt8} (hk : 1 ≤ k) (hkn : k ≤ n)
    {random : Fin (k.toNat - 1) → Scalar} {result : SplitResult} (hsplit : split curve secret k n random = .ok result) :
    (result.shares.map Share.x).Nodup ∧ result.shares.length = n.toNat := by
  rw [split_eq curve secret hk hkn random] at hsplit
  cases hsplit
  refine ⟨?_, by rw [List.length_map, List.length_range]⟩
  rw [List.map_map]
  apply List.Nodup.map_on _ List.nodup_range
  intro i hi j hj h
  have hn := n.toNat_lt
  rw [List.mem_range] at hi hj
  have hpoint : UInt8.ofNat (i + 1) = UInt8.ofNat (j + 1) := h
  have hval := congrArg UInt8.toNat hpoint
  rw [UInt8.toNat_ofNat', UInt8.toNat_ofNat'] at hval
  omega

end Threshold

/-- The stored commitments decode to those of the split. -/
theorem decode_encodedCommitments (split : Threshold.SplitResult) (e : ServiceError) :
    ((encodedCommitments split).mapM fun c => Eff.okOr (Base64.standard.decode c) e) = .ok split.commitments := by
  rw [Eff.except_mapM_eq_ok, encodedCommitments, List.forall₂_map_left_iff]
  refine List.forall₂_same.mpr fun c _ => ?_
  rw [Base64.decode_encode Base64.standard_lawful, Eff.okOr_some]

/-- The comparison accepts shares that reconstruct the expected token. -/
theorem compareRedeemToken_of_reconstruct {env : Env} {record : StoredEnvelopeRecord} {k : UInt8} (hk : 1 < k)
    (hthreshold : record.threshold = some k) {split : Threshold.SplitResult}
    (hcommitments : record.thresholdCommitments = some (encodedCommitments split)) {redeemToken : String}
    {shares : List Threshold.Share} (hshares : env.serde.sharesFromStr redeemToken = some shares) {expected : Block 32}
    (hreconstruct : Threshold.reconstruct env.curve shares k split.commitments =
      .ok (Threshold.canonicalSecretBytes expected)) :
    compareRedeemToken env record expected redeemToken = .ok () := by
  have hmany : record.threshold.getD 1 > 1 := by
    rw [hthreshold]
    exact hk
  have hprovided : providedToken env record redeemToken = .ok (Threshold.canonicalSecretBytes expected).val := by
    rw [providedToken, if_pos hmany, hshares, Eff.okOr_some, Eff.ok_bind, hcommitments, Eff.okOr_some, Eff.ok_bind,
      decode_encodedCommitments, Eff.ok_bind, hthreshold, Option.getD_some, hreconstruct]
    rfl
  rw [compareRedeemToken, hprovided, Eff.ok_bind, comparedToken, if_pos hmany, Eff.rejectIf_eq_ok, not_not]

/-- **Threshold correctness**: any at least `k` distinct shares of a split, in any order, reconstruct the
secret reduced modulo the group order, and an unwrap that presents them passes the comparison with the
expected token. -/
theorem threshold_correct (env : Env) (secret : Block 32) {k n : UInt8} (hk : 1 ≤ k) (hkn : k ≤ n)
    (random : Fin (k.toNat - 1) → Scalar) :
    ∃ result, Threshold.split env.curve secret k n random = .ok result ∧
      ofBE (Threshold.canonicalSecretBytes secret).val = ofBE secret.val % groupOrder ∧
      ∀ shares : List Threshold.Share, (∀ share ∈ shares, share ∈ result.shares) → shares.Nodup →
        k.toNat ≤ shares.length →
        Threshold.reconstruct env.curve shares k result.commitments = .ok (Threshold.canonicalSecretBytes secret) ∧
        ∀ (record : StoredEnvelopeRecord) (redeemToken : String), 1 < k → record.threshold = some k →
          record.thresholdCommitments = some (encodedCommitments result) →
          env.serde.sharesFromStr redeemToken = some shares →
          compareRedeemToken env record secret redeemToken = .ok () := by
  refine ⟨_, Threshold.split_eq env.curve secret hk hkn random, Threshold.ofBE_canonicalSecretBytes secret, ?_⟩
  intro shares hshares hnodup henough
  have hreconstruct := Threshold.reconstruct_split env.curve hk hkn (Threshold.split_eq env.curve secret hk hkn random)
    hshares hnodup henough
  refine ⟨hreconstruct, fun record redeemToken hmany hthreshold hcommitments hread => ?_⟩
  exact compareRedeemToken_of_reconstruct hmany hthreshold hcommitments hread hreconstruct

/-- All shares of a two-of-three split. -/
theorem threshold_correct_two_of_three : ∃ result,
    Threshold.split plainEnv.curve (blank 32) 2 3 (fun _ => 5) = .ok result ∧
    Threshold.reconstruct plainEnv.curve result.shares.reverse 2 result.commitments =
      .ok (Threshold.canonicalSecretBytes (blank 32)) := by
  obtain ⟨result, hsplit, -, hcorrect⟩ :=
    threshold_correct plainEnv (blank 32) (by decide : (1 : UInt8) ≤ 2) (by decide : (2 : UInt8) ≤ 3) fun _ => 5
  obtain ⟨hnodup, hlen⟩ := Threshold.nodup_split_shares plainEnv.curve (by decide) (by decide) hsplit
  refine ⟨result, hsplit, (hcorrect result.shares.reverse (fun share => List.mem_reverse.mp) ?_ ?_).1⟩
  · exact List.nodup_reverse.mpr hnodup.of_map
  · rw [List.length_reverse, hlen]
    decide

end SecretBroker

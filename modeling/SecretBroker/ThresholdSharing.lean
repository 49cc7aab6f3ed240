import SecretBroker.LibEffect
import SecretBroker.Threshold

/-! What `split` produces and what `reconstruct` accepts and returns. The loops of the source are
stated as the sums and products of interpolation at zero; every later fact about shares is read off
`reconstruct_eq_ok`. -/

open Wire Interpolation

namespace SecretBroker.Threshold

theorem scalarFromX_injective : Function.Injective scalarFromX := by
  intro x y h
  have hlt : ∀ z : UInt8, z.toNat < groupOrder := fun z =>
    lt_trans z.toNat_lt (by norm_num [groupOrder])
  have hval := congrArg ZMod.val h
  rw [scalarFromX, scalarFromX, ZMod.val_natCast_of_lt (hlt x), ZMod.val_natCast_of_lt (hlt y)] at hval
  exact UInt8.toNat_inj.mp hval

theorem evalPoly_eq_horner (coeffs : List Scalar) (x : Scalar) : evalPoly coeffs x = horner x coeffs := by
  rw [evalPoly, horner, List.foldl_reverse]

theorem shareScalar_scalarToArray (x : UInt8) (y : Scalar) :
    shareScalar ⟨x, (scalarToArray y).val⟩ = .ok y := by
  have hlen : (scalarToArray y).val.length = 32 := (scalarToArray y).property
  rw [shareScalar, dif_pos hlen]
  simp only [scalarToArray, Subtype.coe_eta, Scalar.fromRepr_toBytes]

theorem duplicateX_eq_false {shares : List Share} :
    duplicateX shares = false ↔ (shares.map Share.x).Nodup := by
  induction shares with
  | nil => simp [duplicateX]
  | cons share rest ih =>
      simp only [duplicateX, Bool.or_eq_false_iff, ih, List.map_cons, List.nodup_cons, List.mem_map,
        List.any_eq_false, beq_iff_eq, not_exists, not_and]
      constructor
      · rintro ⟨hne, hrest⟩
        exact ⟨fun other hother heq => hne other hother heq.symm, hrest⟩
      · rintro ⟨hne, hrest⟩
        exact ⟨fun other hother heq => hne other hother heq.symm, hrest⟩

/-- The evaluation points of a list of shares, by position. -/
def nodes (shares : List Share) (i : Fin shares.length) : Scalar := scalarFromX (shares.get i).x

theorem nodes_injective {shares : List Share} (hnodup : (shares.map Share.x).Nodup) :
    Function.Injective (nodes shares) := by
  intro i j h
  have hx : (shares.get i).x = (shares.get j).x := scalarFromX_injective h
  have hi : i.val < (shares.map Share.x).length := by simp
  have hj : j.val < (shares.map Share.x).length := by simp
  have hget : (shares.map Share.x)[i.val] = (shares.map Share.x)[j.val] := by simpa using hx
  exact Fin.ext ((List.Nodup.getElem_inj_iff hnodup).mp hget)

/-- A fold that multiplies up two factors per position, skipping one position. -/
theorem foldl_skip_eq (l : List (Share × ℕ)) (i : ℕ) (f g : Share → Scalar) (a b : Scalar) :
    l.foldl (fun (state : Scalar × Scalar) entry =>
      if i = entry.2 then state else (state.1 * f entry.1, state.2 * g entry.1)) (a, b) =
      (a * (l.map fun entry => if i = entry.2 then 1 else f entry.1).prod,
        b * (l.map fun entry => if i = entry.2 then 1 else g entry.1).prod) := by
  induction l generalizing a b with
  | nil => simp
  | cons entry l ih =>
      rw [List.foldl_cons]
      by_cases h : i = entry.2
      · rw [if_pos h, ih]
        simp [h]
      · rw [if_neg h, ih]
        simp [h, mul_assoc]

theorem prod_zipIdx_skip (shares : List Share) (i : Fin shares.length) (f : Share → Scalar) :
    (shares.zipIdx.map fun entry => if i.val = entry.2 then 1 else f entry.1).prod =
      ∏ j ∈ Finset.univ.erase i, f (shares.get j) := by
  have hlist : (shares.zipIdx.map fun entry => if i.val = entry.2 then 1 else f entry.1) =
      List.ofFn fun j : Fin shares.length => if i = j then 1 else f (shares.get j) := by
    apply List.ext_getElem (by simp)
    intro n hn hn'
    simp [Fin.ext_iff]
  rw [hlist, List.prod_ofFn, ← Finset.prod_erase (a := i) Finset.univ (by simp)]
  apply Finset.prod_congr rfl
  intro j hj
  rw [if_neg (Ne.symm (Finset.ne_of_mem_erase hj))]

theorem weightParts_eq (shares : List Share) (i : Fin shares.length) :
    weightParts shares i (nodes shares i) =
      (∏ j ∈ Finset.univ.erase i, nodes shares j,
        ∏ j ∈ Finset.univ.erase i, (nodes shares j - nodes shares i)) := by
  have hfold := foldl_skip_eq shares.zipIdx i (fun share => scalarFromX share.x)
    (fun share => scalarFromX share.x - nodes shares i) 1 1
  rw [one_mul, one_mul, prod_zipIdx_skip shares i fun share => scalarFromX share.x,
    prod_zipIdx_skip shares i fun share => scalarFromX share.x - nodes shares i] at hfold
  exact hfold

/-- Folding a step that adds a known term and cannot fail adds up the terms. -/
theorem foldlM_add_eq {α ε : Type} (step : Scalar → α → Except ε Scalar) (term : α → Scalar) (l : List α)
    (hstep : ∀ a ∈ l, ∀ acc, step acc a = .ok (acc + term a)) (acc : Scalar) :
    l.foldlM step acc = .ok (acc + (l.map term).sum) := by
  induction l generalizing acc with
  | nil => simp [pure, Except.pure]
  | cons a l ih =>
      have hrest := ih (fun b hb => hstep b (List.mem_cons_of_mem _ hb)) (acc + term a)
      rw [List.foldlM_cons, hstep a List.mem_cons_self, List.map_cons, List.sum_cons, ← add_assoc]
      exact hrest

/-- The sum that the interpolation loop computes. -/
def weightedSum (shares : List Share) (ys : List Scalar) : Scalar :=
  ∑ i : Fin shares.length, ys.getD i 0 * weight Finset.univ (nodes shares) i

/-- With distinct evaluation points no inversion fails, and the loop computes the weighted sum. -/
theorem interpolate_eq {shares : List Share} {ys : List Scalar} (hlen : ys.length = shares.length)
    (hnodup : (shares.map Share.x).Nodup) :
    (shares.zip ys).zipIdx.foldlM (addWeighted shares) 0 = .ok (weightedSum shares ys) := by
  have hstep : ∀ entry ∈ (shares.zip ys).zipIdx, ∀ acc, addWeighted shares acc entry =
      .ok (acc + if h : entry.2 < shares.length then
        ys.getD entry.2 0 * weight Finset.univ (nodes shares) ⟨entry.2, h⟩ else 0) := by
    rintro ⟨⟨share, y⟩, n⟩ hentry acc
    obtain ⟨hn, hget⟩ := List.getElem?_eq_some_iff.mp (List.mem_zipIdx_iff_getElem?.mp hentry)
    rw [List.length_zip] at hn
    have hns : n < shares.length := by omega
    have hny : n < ys.length := by omega
    obtain ⟨rfl, rfl⟩ : shares[n] = share ∧ ys[n] = y := by simpa [List.getElem_zip] using hget
    have hparts := weightParts_eq shares ⟨n, hns⟩
    have hne := prod_sub_ne_zero (s := Finset.univ) (nodes_injective hnodup).injOn
      (Finset.mem_univ (⟨n, hns⟩ : Fin shares.length))
    have hnode : scalarFromX shares[n].x = nodes shares ⟨n, hns⟩ := rfl
    simp only [addWeighted, hnode, hparts, Scalar.invert_of_ne_zero hne, dif_pos hns, weight]
    rw [List.getD_eq_getElem _ _ hny, mul_assoc]
  rw [foldlM_add_eq _ _ _ hstep, zero_add, weightedSum, ← List.sum_ofFn]
  congr 2
  apply List.ext_getElem (by simp [hlen])
  intro n hn hn'
  simp only [List.length_ofFn] at hn'
  simp [hn']

theorem decodeCommitment_commitmentForScalar (curve : Curve) (coeff : Scalar) :
    decodeCommitment curve (commitmentForScalar curve coeff) = .ok (coeff • curve.generator) := by
  have hlen : (commitmentForScalar curve coeff).length = 33 :=
    (curve.toBytes (coeff • curve.generator)).property
  rw [decodeCommitment, dif_pos hlen]
  simp only [commitmentForScalar, Subtype.coe_eta, curve.fromBytes_toBytes]

/-- A share passes the check exactly when its value, in the exponent, is that of the committed
polynomial at its point. -/
theorem verifyShare_eq_ok (curve : Curve) (share : Share) (points : List curve.Point) (u : Unit) :
    verifyShareWithCommitments curve share points = .ok u ↔
      ∃ y, shareScalar share = .ok y ∧
        y • curve.generator = powerSum (scalarFromX share.x) points := by
  simp only [verifyShareWithCommitments, Eff.except_bind_eq_ok, foldl_powerSum, zero_add, one_smul,
    Eff.rejectIf_eq_ok, not_not]

/-- The checks of `reconstruct` that a list of shares has passed, with the decoded commitments and
the scalars of the shares. -/
structure Accepted (curve : Curve) (shares : List Share) (threshold : UInt8) (commitments : List Bytes)
    (points : List curve.Point) (ys : List Scalar) : Prop where
  enough : threshold.toNat ≤ shares.length
  committed : commitments ≠ []
  count : commitments.length = threshold.toNat
  distinct : (shares.map Share.x).Nodup
  decoded : List.Forall₂ (fun bytes p => decodeCommitment curve bytes = .ok p) commitments points
  onPolynomial : List.Forall₂ (fun share y => shareScalar share = .ok y ∧
    y • curve.generator = powerSum (scalarFromX share.x) points) shares ys

theorem validateCommitments_eq_ok {commitments : List Bytes} {threshold : UInt8} {u : Unit} :
    validateCommitments commitments threshold = .ok u ↔
      commitments ≠ [] ∧ commitments.length = threshold.toNat := by
  simp only [validateCommitments, Eff.except_bind_eq_ok, Eff.rejectIf_eq_ok, not_not, exists_const]

/-- The loop over the shares verifies each one and keeps its scalar. -/
theorem verifyShares_eq_ok (curve : Curve) (shares : List Share) (points : List curve.Point)
    (ys : List Scalar) :
    shares.mapM (fun share => do
        verifyShareWithCommitments curve share points
        shareScalar share) = .ok ys ↔
      List.Forall₂ (fun share y => shareScalar share = .ok y ∧
        y • curve.generator = powerSum (scalarFromX share.x) points) shares ys := by
  rw [Eff.except_mapM_eq_ok]
  have hiff : ∀ share y, (do
        verifyShareWithCommitments curve share points
        shareScalar share) = Except.ok y ↔
      shareScalar share = .ok y ∧ y • curve.generator = powerSum (scalarFromX share.x) points := by
    intro share y
    simp only [Eff.except_bind_eq_ok, verifyShare_eq_ok]
    constructor
    · rintro ⟨_, ⟨y', hy', hsum⟩, hy⟩
      rw [hy] at hy'
      cases hy'
      exact ⟨hy, hsum⟩
    · rintro ⟨hy, hsum⟩
      exact ⟨(), ⟨y, hy, hsum⟩, hy⟩
  simp only [hiff]

/-- `reconstruct` returns exactly the weighted sums of the share lists that pass its checks. -/
theorem reconstruct_eq_ok (curve : Curve) (shares : List Share) (threshold : UInt8)
    (commitments : List Bytes) (secret : Block 32) :
    reconstruct curve shares threshold commitments = .ok secret ↔
      ∃ points ys, Accepted curve shares threshold commitments points ys ∧
        secret = scalarToArray (weightedSum shares ys) := by
  simp only [reconstruct, Eff.except_bind_eq_ok, Eff.rejectIf_eq_ok, validateCommitments_eq_ok,
    verifyShares_eq_ok, Bool.not_eq_true, duplicateX_eq_false, exists_const, not_lt]
  constructor
  · rintro ⟨henough, ⟨hcommitted, hcount⟩, hdistinct, points, hdecoded, ys, hys, value, hvalue, hsecret⟩
    rw [interpolate_eq hys.length_eq.symm hdistinct] at hvalue
    cases hvalue
    cases hsecret
    exact ⟨points, ys, ⟨henough, hcommitted, hcount, hdistinct, Eff.except_mapM_eq_ok.mp hdecoded, hys⟩, rfl⟩
  · rintro ⟨points, ys, hacc, rfl⟩
    refine ⟨hacc.enough, ⟨hacc.committed, hacc.count⟩, hacc.distinct, points,
      Eff.except_mapM_eq_ok.mpr hacc.decoded, ys, hacc.onPolynomial, weightedSum shares ys, ?_, rfl⟩
    exact interpolate_eq hacc.onPolynomial.length_eq.symm hacc.distinct

/-- The share that `split` computes for the evaluation point `x`. -/
def shareAt (coeffs : List Scalar) (x : UInt8) : Share :=
  ⟨x, (scalarToArray (evalPoly coeffs (scalarFromX x))).val⟩

theorem split_eq (curve : Curve) (secret : Block 32) {k n : UInt8} (hk : 1 ≤ k) (hkn : k ≤ n)
    (random : Fin (k.toNat - 1) → Scalar) :
    split curve secret k n random = .ok
      { shares := (List.range n.toNat).map fun i =>
          shareAt (secretScalarFromBytes secret :: List.ofFn random) (UInt8.ofNat (i + 1))
        commitments := (secretScalarFromBytes secret :: List.ofFn random).map (commitmentForScalar curve) } := by
  have hparams : ¬ (k < 1 ∨ k > n) := by
    rw [not_or]
    exact ⟨UInt8.not_lt.mpr hk, UInt8.not_lt.mpr hkn⟩
  have hn : n ≠ 0 := by
    rintro rfl
    have hpos := UInt8.le_iff_toNat_le.mp (UInt8.le_trans hk hkn)
    simp at hpos
  rw [split, if_neg hparams, if_neg hn]
  rfl

/-- The points of the shares of `split` are `1` to `n`. -/
theorem mem_range_shares {n x : UInt8} :
    (∃ i ∈ List.range n.toNat, UInt8.ofNat (i + 1) = x) ↔ 1 ≤ x ∧ x ≤ n := by
  have hn := n.toNat_lt
  have hx := x.toNat_lt
  rw [UInt8.le_iff_toNat_le, UInt8.le_iff_toNat_le, UInt8.toNat_one]
  constructor
  · rintro ⟨i, hi, rfl⟩
    have hi' := List.mem_range.mp hi
    rw [UInt8.toNat_ofNat_of_lt' (by change i + 1 < 256; omega)]
    omega
  · rintro ⟨hpos, hle⟩
    refine ⟨x.toNat - 1, List.mem_range.mpr (by omega), ?_⟩
    rw [Nat.sub_add_cancel hpos, UInt8.ofNat_toNat]

end SecretBroker.Threshold

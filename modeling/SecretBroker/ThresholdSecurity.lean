import SecretBroker.ThresholdSharing

/-! Threshold sharing against arbitrary shares: enough shares of a split reconstruct the secret,
whatever is accepted reconstructs the committed secret, and fewer shares than the threshold say
nothing about it. -/

open Wire Interpolation

namespace SecretBroker

/-- The scalar field itself as a group, with generator one: the smallest group with every property of
`Curve`. -/
def Curve.additive : Curve where
  Point := Scalar
  generator := 1
  toBytes p := ⟨0 :: p.toBytes.val, by simp [p.toBytes.property]⟩
  fromBytes b := some (Scalar.reduceBytes ⟨b.val.tail, by simp [b.property]⟩)
  smul_generator s h := by simpa using h
  generates p := ⟨p, by simp⟩
  fromBytes_toBytes p := congrArg some (Scalar.reduceBytes_toBytes p)

namespace Threshold

/-- The coefficients behind a list of commitments. -/
def CommittedTo (curve : Curve) (commitments : List Bytes) (coeffs : List Scalar) : Prop :=
  List.Forall₂ (fun bytes c => decodeCommitment curve bytes = .ok (c • curve.generator)) commitments coeffs

/-- The share has no value, or one off the committed polynomial. -/
def OffPolynomial (curve : Curve) (commitments : List Bytes) (share : Share) : Prop :=
  ¬ ∃ coeffs, CommittedTo curve commitments coeffs ∧
    shareScalar share = .ok (evalPoly coeffs (scalarFromX share.x))

/-- Every point is a multiple of the generator, so decoded commitments have coefficients. -/
theorem exists_coeffs (curve : Curve) (points : List curve.Point) :
    ∃ coeffs : List Scalar, points = coeffs.map fun c => c • curve.generator := by
  induction points with
  | nil => exact ⟨[], rfl⟩
  | cons p ps ih =>
      obtain ⟨c, rfl⟩ := curve.generates p
      obtain ⟨cs, rfl⟩ := ih
      exact ⟨c :: cs, rfl⟩

theorem committedTo_iff (curve : Curve) (commitments : List Bytes) (coeffs : List Scalar) :
    CommittedTo curve commitments coeffs ↔
      List.Forall₂ (fun bytes p => decodeCommitment curve bytes = .ok p) commitments
        (coeffs.map fun c => c • curve.generator) := by
  rw [CommittedTo, List.forall₂_map_right_iff]

/-- A share that passes the check has the value of the committed polynomial. -/
theorem value_eq_evalPoly (curve : Curve) {x y : Scalar} {coeffs : List Scalar}
    (h : y • curve.generator = powerSum x (coeffs.map fun c => c • curve.generator)) :
    y = evalPoly coeffs x := by
  rw [powerSum_smul] at h
  rw [evalPoly_eq_horner]
  exact curve.smul_generator_injective h

/-- The values of accepted shares interpolate to the first coefficient. -/
theorem weightedSum_of_onPolynomial {shares : List Share} {ys : List Scalar} {c : Scalar} {cs : List Scalar}
    (hdistinct : (shares.map Share.x).Nodup) (henough : (c :: cs).length ≤ shares.length)
    (hys : List.Forall₂ (fun share y => y = evalPoly (c :: cs) (scalarFromX share.x)) shares ys) :
    weightedSum shares ys = c := by
  have hvalue : ∀ i : Fin shares.length, ys.getD i 0 = powerSum (nodes shares i) (c :: cs) := by
    intro i
    have hi : i.val < ys.length := hys.length_eq ▸ i.isLt
    have hget := (List.forall₂_iff_get.mp hys).2 i i.isLt hi
    have hsum := powerSum_smul (nodes shares i) (1 : Scalar) (c :: cs)
    simp only [smul_eq_mul, mul_one, List.map_id_fun', id_eq] at hsum
    rw [List.getD_eq_getElem _ _ hi, hsum, ← evalPoly_eq_horner]
    exact hget
  have hweights := sum_weight_powerSum (s := Finset.univ) (nodes_injective hdistinct).injOn c cs
    (by simpa using henough)
  rw [weightedSum, ← hweights]
  apply Finset.sum_congr rfl
  intro i _
  rw [hvalue i, smul_eq_mul, mul_comm]

/-- What acceptance says in terms of the committed coefficients. -/
theorem reconstruct_coeffs (curve : Curve) {shares : List Share} {threshold : UInt8}
    {commitments : List Bytes} {secret : Block 32}
    (hok : reconstruct curve shares threshold commitments = .ok secret) :
    ∃ c cs, CommittedTo curve commitments (c :: cs) ∧ secret = scalarToArray c ∧
      ∀ share ∈ shares, shareScalar share = .ok (evalPoly (c :: cs) (scalarFromX share.x)) := by
  obtain ⟨points, ys, hacc, rfl⟩ := (reconstruct_eq_ok curve shares threshold commitments secret).mp hok
  obtain ⟨coeffs, rfl⟩ := exists_coeffs curve points
  have hcommitted := (committedTo_iff curve commitments coeffs).mpr hacc.decoded
  have hlen : commitments.length = coeffs.length := hcommitted.length_eq
  obtain ⟨c, cs, rfl⟩ : ∃ c cs, coeffs = c :: cs := by
    cases coeffs with
    | nil => exact absurd (List.length_eq_zero_iff.mp hlen) hacc.committed
    | cons c cs => exact ⟨c, cs, rfl⟩
  have hvalues : List.Forall₂ (fun share y => y = evalPoly (c :: cs) (scalarFromX share.x)) shares ys :=
    hacc.onPolynomial.imp fun share y h => value_eq_evalPoly curve h.2
  refine ⟨c, cs, hcommitted, ?_, fun share hshare => ?_⟩
  · rw [weightedSum_of_onPolynomial hacc.distinct (by rw [← hlen, hacc.count]; exact hacc.enough) hvalues]
  · obtain ⟨i, hi, rfl⟩ := List.getElem_of_mem hshare
    have hi' : i < ys.length := hacc.onPolynomial.length_eq ▸ hi
    have hpoly := (List.forall₂_iff_get.mp hacc.onPolynomial).2 i hi hi'
    have hval := (List.forall₂_iff_get.mp hvalues).2 i hi hi'
    simp only [List.get_eq_getElem] at hpoly hval
    rw [hpoly.1, hval]

theorem committedTo_unique (curve : Curve) {commitments : List Bytes} {coeffs coeffs' : List Scalar}
    (h : CommittedTo curve commitments coeffs) (h' : CommittedTo curve commitments coeffs') :
    coeffs = coeffs' := by
  induction h generalizing coeffs' with
  | nil =>
      cases h'
      rfl
  | cons hc hcs ih =>
      cases h' with
      | cons hc' hcs' =>
          rw [hc] at hc'
          rw [curve.smul_generator_injective (Except.ok.inj hc'), ih hcs']

theorem ofBE_canonicalSecretBytes (secret : Block 32) :
    ofBE (canonicalSecretBytes secret).val = ofBE secret.val % groupOrder := by
  rw [canonicalSecretBytes, scalarToArray, Scalar.ofBE_toBytes, secretScalarFromBytes,
    Scalar.reduceBytes, ZMod.val_natCast]

/-- Distinct shares of one polynomial, at least as many as its coefficients, reconstruct its constant
coefficient. -/
theorem reconstruct_shareAt (curve : Curve) {k : UInt8} {c : Scalar} {cs : List Scalar}
    (hlen : (c :: cs).length = k.toNat) {shares : List Share}
    (hshares : ∀ share ∈ shares, ∃ x, share = shareAt (c :: cs) x) (hnodup : shares.Nodup)
    (henough : k.toNat ≤ shares.length) :
    reconstruct curve shares k ((c :: cs).map (commitmentForScalar curve)) = .ok (scalarToArray c) := by
  have hat : ∀ share ∈ shares, share = shareAt (c :: cs) share.x := by
    intro share hshare
    obtain ⟨x, rfl⟩ := hshares share hshare
    rfl
  have hdistinct : (shares.map Share.x).Nodup := by
    apply hnodup.map_on
    intro a ha b hb hx
    rw [hat a ha, hat b hb, hx]
  have hvalues : List.Forall₂ (fun share y => y = evalPoly (c :: cs) (scalarFromX share.x)) shares
      (shares.map fun share => evalPoly (c :: cs) (scalarFromX share.x)) := by
    rw [List.forall₂_map_right_iff]
    exact List.forall₂_same.mpr fun _ _ => rfl
  rw [reconstruct_eq_ok]
  refine ⟨(c :: cs).map fun coeff => coeff • curve.generator, _, ⟨henough, by simp, ?_, hdistinct, ?_, ?_⟩,
    congrArg scalarToArray (weightedSum_of_onPolynomial hdistinct (hlen ▸ henough) hvalues).symm⟩
  · rw [List.length_map, hlen]
  · rw [List.forall₂_map_left_iff, List.forall₂_map_right_iff]
    exact List.forall₂_same.mpr fun coeff _ => decodeCommitment_commitmentForScalar curve coeff
  · rw [List.forall₂_map_right_iff]
    refine List.forall₂_same.mpr fun share hshare => ⟨?_, ?_⟩
    · conv_lhs => rw [hat share hshare]
      exact shareScalar_scalarToArray share.x _
    · rw [powerSum_smul, evalPoly_eq_horner]

/-- Two of three shares. -/
theorem reconstruct_two_of_three {x y : UInt8} (hne : x ≠ y) :
    reconstruct Curve.additive [shareAt [7, 5] x, shareAt [7, 5] y] 2 ([7, 5].map (commitmentForScalar Curve.additive)) =
      .ok (scalarToArray 7) := by
  have hshares : ∀ share ∈ [shareAt [7, 5] x, shareAt [7, 5] y], ∃ x, share = shareAt [7, 5] x := by
    simp
  have hnodup : [shareAt [7, 5] x, shareAt [7, 5] y].Nodup := by
    rw [List.nodup_cons, List.mem_singleton]
    exact ⟨fun heq => hne (congrArg Share.x heq), List.nodup_singleton _⟩
  exact reconstruct_shareAt Curve.additive rfl hshares hnodup le_rfl

/-- **Whatever is accepted is the committed secret.** For any commitments and any shares: an
accepted list reconstructs the discrete logarithm of the first commitment, two accepted lists
reconstruct the same bytes, and a list with a share off the committed polynomial is not accepted. -/
theorem reconstruct_sound (curve : Curve) (commitments : List Bytes) :
    (∀ threshold shares secret, reconstruct curve shares threshold commitments = .ok secret →
      ∃ (bytes : Bytes) (s : Scalar), commitments[0]? = some bytes ∧ secret = scalarToArray s ∧
        decodeCommitment curve bytes = .ok (s • curve.generator)) ∧
    (∀ threshold threshold' shares shares' secret secret',
      reconstruct curve shares threshold commitments = .ok secret →
      reconstruct curve shares' threshold' commitments = .ok secret' → secret = secret') ∧
    (∀ threshold shares, (∃ share ∈ shares, OffPolynomial curve commitments share) →
      ∀ secret, reconstruct curve shares threshold commitments ≠ .ok secret) := by
  refine ⟨?_, ?_, ?_⟩
  · intro threshold shares secret hok
    obtain ⟨c, cs, hcommitted, hsecret, -⟩ := reconstruct_coeffs curve hok
    obtain ⟨bytes, rest, hbytes, -, rfl⟩ := List.forall₂_cons_right_iff.mp hcommitted
    exact ⟨bytes, c, rfl, hsecret, hbytes⟩
  · intro threshold threshold' shares shares' secret secret' hok hok'
    obtain ⟨c, cs, hcommitted, rfl, -⟩ := reconstruct_coeffs curve hok
    obtain ⟨c', cs', hcommitted', rfl, -⟩ := reconstruct_coeffs curve hok'
    have hsame := committedTo_unique curve hcommitted hcommitted'
    rw [(List.cons.inj hsame).1]
  · rintro threshold shares ⟨share, hshare, hoff⟩ secret hok
    obtain ⟨c, cs, hcommitted, -, hon⟩ := reconstruct_coeffs curve hok
    exact hoff ⟨c :: cs, hcommitted, hon share hshare⟩

/-- The polynomial 7 + 5x shared to three holders: the first and the third get the secret that the second and the
third get, and it is the committed one. -/
theorem reconstruct_sound_two_of_three : ∃ secret secret',
    reconstruct Curve.additive [shareAt [7, 5] 1, shareAt [7, 5] 3] 2
      ([7, 5].map (commitmentForScalar Curve.additive)) = .ok secret ∧
    reconstruct Curve.additive [shareAt [7, 5] 2, shareAt [7, 5] 3] 2
      ([7, 5].map (commitmentForScalar Curve.additive)) = .ok secret' ∧
    secret = secret' ∧ ∃ (bytes : Bytes) (s : Scalar),
      ([7, 5].map (commitmentForScalar Curve.additive))[0]? = some bytes ∧ secret = scalarToArray s ∧
        decodeCommitment Curve.additive bytes = .ok (s • Curve.additive.generator) := by
  obtain ⟨hcommitted, hsame, -⟩ := reconstruct_sound Curve.additive ([7, 5].map (commitmentForScalar Curve.additive))
  have hfirst : reconstruct Curve.additive [shareAt [7, 5] 1, shareAt [7, 5] 3] 2
      ([7, 5].map (commitmentForScalar Curve.additive)) = .ok (scalarToArray 7) := reconstruct_two_of_three (by decide)
  have hsecond : reconstruct Curve.additive [shareAt [7, 5] 2, shareAt [7, 5] 3] 2
      ([7, 5].map (commitmentForScalar Curve.additive)) = .ok (scalarToArray 7) := reconstruct_two_of_three (by decide)
  exact ⟨_, _, hfirst, hsecond, hsame _ _ _ _ _ _ hfirst hsecond, hcommitted _ _ _ hfirst⟩

/-- The shares of a split at the points of `X`. -/
def sharesAt (X : Finset UInt8) (result : SplitResult) : List Share :=
  result.shares.filter fun share => share.x ∈ X

/-- The value of the split polynomial at each point of `X`. -/
def valuesAt (secret : Block 32) {m : ℕ} (X : Finset UInt8) (random : Fin m → Scalar) (x : X) : Scalar :=
  evalPoly (secretScalarFromBytes secret :: List.ofFn random) (scalarFromX x)

theorem scalarFromX_ne_zero {x : UInt8} (hx : 1 ≤ x) : scalarFromX x ≠ 0 := by
  intro h
  have hzero : x = 0 := scalarFromX_injective (h.trans (by simp [scalarFromX]))
  subst hzero
  exact absurd hx (by decide)

/-- For fixed secret and points, the drawn coefficients and the values determine each other. -/
theorem valuesAt_bijective (secret : Block 32) {m : ℕ} {X : Finset UInt8} (hcard : X.card = m)
    (hpos : ∀ x ∈ X, 1 ≤ x) : Function.Bijective (valuesAt secret (m := m) X) := by
  have hnodes : (X.image scalarFromX).card = m := by
    rw [Finset.card_image_of_injective _ scalarFromX_injective, hcard]
  have hzero : (0 : Scalar) ∉ X.image scalarFromX := by
    rw [Finset.mem_image]
    rintro ⟨x, hx, h⟩
    exact scalarFromX_ne_zero (hpos x hx) h
  have hunique : ∀ values : X → Scalar, ∃! random : Fin m → Scalar, valuesAt secret X random = values := by
    intro values
    obtain ⟨coeffs, ⟨hlen, hvalues⟩, huniq⟩ := existsUnique_coeffs (secretScalarFromBytes secret)
      (X.image scalarFromX) hzero
      (fun s => if h : ∃ x : X, scalarFromX x = s then values h.choose else 0)
    have hchoose : ∀ x : X, (if h : ∃ x' : X, scalarFromX x' = scalarFromX x then values h.choose else 0) =
        values x := by
      intro x
      have hex : ∃ x' : X, scalarFromX x' = scalarFromX x := ⟨x, rfl⟩
      rw [dif_pos hex]
      exact congrArg values (Subtype.ext (scalarFromX_injective hex.choose_spec))
    rw [hnodes] at hlen
    subst hlen
    refine ⟨coeffs.get, ?_, fun random hrandom => ?_⟩
    · funext x
      rw [valuesAt, List.ofFn_get, evalPoly_eq_horner,
        hvalues _ (Finset.mem_image_of_mem _ x.property), hchoose x]
    · have hother := huniq (List.ofFn random) ⟨by rw [List.length_ofFn, hnodes], fun s hs => ?_⟩
      · apply List.ofFn_injective
        rw [hother, List.ofFn_get]
      · obtain ⟨x, hx, rfl⟩ := Finset.mem_image.mp hs
        rw [hchoose ⟨x, hx⟩, ← hrandom, valuesAt, evalPoly_eq_horner]
  constructor
  · intro random random' h
    exact (hunique (valuesAt secret X random')).unique h rfl
  · intro values
    obtain ⟨random, h, -⟩ := hunique values
    exact ⟨random, h⟩

/-- The shares at the points of `X`, in the order of the split, from the values there. -/
def sharesOf (X : Finset UInt8) (n : UInt8) (values : X → Scalar) : List Share :=
  ((List.range n.toNat).map fun i => UInt8.ofNat (i + 1)).filterMap fun x =>
    if hx : x ∈ X then some ⟨x, (scalarToArray (values ⟨x, hx⟩)).val⟩ else none

theorem filter_shareAt (secret : Block 32) {m : ℕ} (X : Finset UInt8) (random : Fin m → Scalar)
    (points : List UInt8) :
    (points.map (shareAt (secretScalarFromBytes secret :: List.ofFn random))).filter
        (fun share => share.x ∈ X) =
      points.filterMap fun x =>
        if hx : x ∈ X then some ⟨x, (scalarToArray (valuesAt secret X random ⟨x, hx⟩)).val⟩ else none := by
  induction points with
  | nil => rfl
  | cons x points ih =>
      have hpoint : (shareAt (secretScalarFromBytes secret :: List.ofFn random) x).x = x := rfl
      rw [List.map_cons, List.filter_cons, ih, hpoint]
      by_cases hx : x ∈ X
      · rw [if_pos (decide_eq_true hx), List.filterMap_cons_some (dif_pos hx)]
        rfl
      · rw [if_neg (by rwa [decide_eq_true_eq]), List.filterMap_cons_none (dif_neg hx)]

theorem mem_split_shares (curve : Curve) {secret : Block 32} {k n : UInt8} (hk : 1 ≤ k) (hkn : k ≤ n)
    {random : Fin (k.toNat - 1) → Scalar} {result : SplitResult}
    (hsplit : split curve secret k n random = .ok result) {share : Share} :
    share ∈ result.shares ↔ 1 ≤ share.x ∧ share.x ≤ n ∧
      share = shareAt (secretScalarFromBytes secret :: List.ofFn random) share.x := by
  rw [split_eq curve secret hk hkn random] at hsplit
  cases hsplit
  rw [List.mem_map, ← and_assoc, ← mem_range_shares]
  constructor
  · rintro ⟨i, hi, rfl⟩
    exact ⟨⟨i, hi, rfl⟩, rfl⟩
  · rintro ⟨⟨i, hi, hx⟩, hshare⟩
    exact ⟨i, hi, by rw [hx, ← hshare]⟩

/-- **Fewer shares than the threshold say nothing about the secret.** For any secret and any values
at `k - 1` points of the split, exactly one draw of the coefficients gives these values there; so the
shares at these points are distributed alike for all secrets. -/
theorem split_secrecy (curve : Curve) {k n : UInt8} (hk : 1 ≤ k) (hkn : k ≤ n) (X : Finset UInt8)
    (hX : ∀ x ∈ X, 1 ≤ x ∧ x ≤ n) (hcard : X.card = k.toNat - 1) :
    (∀ (secret : Block 32) (ys : UInt8 → Scalar), ∃! random : Fin (k.toNat - 1) → Scalar,
      ∃ result, split curve secret k n random = .ok result ∧
        ∀ x ∈ X, ⟨x, (scalarToArray (ys x)).val⟩ ∈ result.shares) ∧
    ∀ secret secret' : Block 32,
      (PMF.uniformOfFintype (Fin (k.toNat - 1) → Scalar)).map
          (fun random => (split curve secret k n random).map (sharesAt X)) =
        (PMF.uniformOfFintype (Fin (k.toNat - 1) → Scalar)).map
          (fun random => (split curve secret' k n random).map (sharesAt X)) := by
  have hbijective := fun secret => valuesAt_bijective secret hcard fun x hx => (hX x hx).1
  constructor
  · intro secret ys
    have hiff : ∀ random, (∃ result, split curve secret k n random = .ok result ∧
        ∀ x ∈ X, ⟨x, (scalarToArray (ys x)).val⟩ ∈ result.shares) ↔
          valuesAt secret X random = fun x : X => ys x := by
      intro random
      constructor
      · rintro ⟨result, hsplit, hmem⟩
        funext x
        have hshare := ((mem_split_shares curve hk hkn hsplit).mp (hmem x x.property)).2.2
        have hbytes := congrArg Share.y hshare
        exact (Scalar.toBytes_injective (Subtype.ext hbytes)).symm
      · intro hvalues
        refine ⟨_, split_eq curve secret hk hkn random, fun x hx => ?_⟩
        rw [mem_split_shares curve hk hkn (split_eq curve secret hk hkn random)]
        refine ⟨(hX x hx).1, (hX x hx).2, ?_⟩
        have hvalue : ys x = _ := (congrFun hvalues ⟨x, hx⟩).symm
        rw [hvalue]
        rfl
    simp only [hiff]
    exact (hbijective secret).existsUnique _
  · have hview : ∀ secret : Block 32,
        (fun random => (split curve secret k n random).map (sharesAt X)) =
          (fun values => (.ok (sharesOf X n values) : Except ThresholdError (List Share))) ∘
            valuesAt secret X := by
      intro secret
      funext random
      rw [split_eq curve secret hk hkn random]
      change Except.ok (sharesAt X _) = Except.ok (sharesOf X n (valuesAt secret X random))
      rw [sharesOf, ← filter_shareAt, List.map_map]
      rfl
    intro secret secret'
    rw [hview secret, hview secret', ← PMF.map_comp, ← PMF.map_comp,
      uniform_map_of_bijective (hbijective secret), uniform_map_of_bijective (hbijective secret')]

/-- One share of a two-of-three split. -/
theorem split_secrecy_two_of_three :
    ∃! random : Fin ((2 : UInt8).toNat - 1) → Scalar,
      ∃ result, split Curve.additive ⟨List.replicate 32 0, rfl⟩ 2 3 random = .ok result ∧
        ∀ x ∈ ({1} : Finset UInt8), ⟨x, (scalarToArray 5).val⟩ ∈ result.shares := by
  have hpoint : ∀ x ∈ ({1} : Finset UInt8), 1 ≤ x ∧ x ≤ 3 := by
    intro x hx
    rw [Finset.mem_singleton] at hx
    subst hx
    decide
  exact (split_secrecy Curve.additive (by decide) (by decide) {1} hpoint (by simp)).1 _ fun _ => 5

end Threshold

end SecretBroker

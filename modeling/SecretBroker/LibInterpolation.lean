import Mathlib

/-! Interpolation at zero over a field, for values in any module: Lagrange weights at distinct
nodes recover the constant coefficient from the values of a polynomial with fewer coefficients than
nodes, and fewer nodes leave the constant coefficient free. Coefficients are lists, lowest first. -/

open Polynomial

namespace Interpolation

variable {F M : Type*} [Field F] [AddCommGroup M] [Module F M]

/-- The value at `x` of the polynomial with these coefficients, by Horner's rule. -/
def horner (x : F) (coeffs : List F) : F := coeffs.foldr (fun c acc => acc * x + c) 0

/-- The value at `x` of the polynomial with coefficients in a module. -/
def powerSum (x : F) : List M → M
  | [] => 0
  | c :: cs => c + x • powerSum x cs

@[simp] theorem horner_nil (x : F) : horner x [] = 0 := rfl

@[simp] theorem horner_cons (x c : F) (cs : List F) : horner x (c :: cs) = horner x cs * x + c := rfl

/-- The running sum with a running power of `x` is the value scaled by the power it started from. -/
theorem foldl_powerSum (x : F) (cs : List M) (acc : M) (p : F) :
    (cs.foldl (fun (state : M × F) c => (state.1 + state.2 • c, state.2 * x)) (acc, p)).1 =
      acc + p • powerSum x cs := by
  induction cs generalizing acc p with
  | nil => simp [powerSum]
  | cons c cs ih => rw [List.foldl_cons, ih, powerSum, smul_add, mul_smul, add_assoc]

theorem powerSum_smul (x : F) (g : M) (coeffs : List F) :
    powerSum x (coeffs.map fun c => c • g) = horner x coeffs • g := by
  induction coeffs with
  | nil => simp [powerSum]
  | cons c cs ih =>
      rw [List.map_cons, powerSum, ih, horner_cons, add_smul, mul_comm, mul_smul, add_comm]

theorem powerSum_eq_sum (x : F) (cs : List M) :
    powerSum x cs = ∑ j : Fin cs.length, x ^ j.val • cs.get j := by
  induction cs with
  | nil => simp [powerSum]
  | cons c cs ih =>
      rw [powerSum, ih]
      erw [Fin.sum_univ_succ]
      simp only [List.length_cons, Fin.val_zero, pow_zero, one_smul, Fin.val_succ, Finset.smul_sum]
      congr 1
      apply Finset.sum_congr rfl
      intro j _
      rw [smul_smul, pow_succ, mul_comm]
      rfl

section Weights

variable {ι : Type*} [DecidableEq ι]

/-- The Lagrange weight of node `i` for the value at zero. -/
def weight (s : Finset ι) (x : ι → F) (i : ι) : F :=
  (∏ j ∈ s.erase i, x j) * (∏ j ∈ s.erase i, (x j - x i))⁻¹

theorem weight_eq_eval_basis (s : Finset ι) (x : ι → F) (i : ι) :
    weight s x i = (Lagrange.basis s x i).eval 0 := by
  rw [weight, Lagrange.basis, eval_prod, ← Finset.prod_inv_distrib, ← Finset.prod_mul_distrib]
  apply Finset.prod_congr rfl
  intro j _
  rw [Lagrange.basisDivisor, eval_mul, eval_C, eval_sub, eval_X, eval_C, zero_sub, mul_neg,
    ← neg_sub (x i) (x j), inv_neg, mul_neg, mul_comm]

theorem prod_sub_ne_zero {s : Finset ι} {x : ι → F} (hx : Set.InjOn x s) {i : ι} (hi : i ∈ s) :
    ∏ j ∈ s.erase i, (x j - x i) ≠ 0 := by
  rw [Finset.prod_ne_zero_iff]
  intro j hj
  obtain ⟨hne, hjs⟩ := Finset.mem_erase.mp hj
  exact sub_ne_zero.mpr fun h => hne (hx hjs hi h)

/-- The weights send a power below the number of nodes to its value at zero. -/
theorem sum_weight_mul_pow {s : Finset ι} {x : ι → F} (hx : Set.InjOn x s) {m : ℕ} (hm : m < s.card) :
    ∑ i ∈ s, weight s x i * x i ^ m = 0 ^ m := by
  have hdegree : (X ^ m : F[X]).degree < s.card := by
    rw [degree_X_pow]
    exact_mod_cast hm
  have hinterp := Lagrange.eq_interpolate hx hdegree
  have heval := congrArg (eval 0) hinterp
  rw [Lagrange.interpolate_apply, eval_finsetSum] at heval
  simp only [eval_pow, eval_X, eval_mul, eval_C] at heval
  rw [heval]
  apply Finset.sum_congr rfl
  intro i _
  rw [weight_eq_eval_basis, mul_comm]

/-- The weights recover the constant coefficient from the values of a polynomial that has no more
coefficients than there are nodes. -/
theorem sum_weight_powerSum {s : Finset ι} {x : ι → F} (hx : Set.InjOn x s) (c : M) (cs : List M)
    (hlen : cs.length < s.card) : ∑ i ∈ s, weight s x i • powerSum (x i) (c :: cs) = c := by
  simp only [powerSum_eq_sum, Finset.smul_sum, smul_smul]
  rw [Finset.sum_comm]
  simp only [← Finset.sum_smul]
  have hpow : ∀ j : Fin (c :: cs).length,
      (∑ i ∈ s, weight s x i * x i ^ j.val) • (c :: cs).get j = (0 : F) ^ j.val • (c :: cs).get j := by
    intro j
    have hj : j.val < (c :: cs).length := j.isLt
    rw [sum_weight_mul_pow hx (by simp only [List.length_cons] at hj; omega)]
  rw [Finset.sum_congr rfl fun j _ => hpow j]
  rw [Finset.sum_eq_single (⟨0, by simp⟩ : Fin (c :: cs).length)]
  · simp
  · intro j _ hj
    have hpos : j.val ≠ 0 := fun h => hj (Fin.ext h)
    rw [zero_pow hpos, zero_smul]
  · intro h
    exact absurd (Finset.mem_univ _) h

end Weights

/-- The polynomial with these coefficients. -/
noncomputable def listPoly : List F → F[X]
  | [] => 0
  | c :: cs => C c + X * listPoly cs

theorem eval_listPoly (x : F) (coeffs : List F) : (listPoly coeffs).eval x = horner x coeffs := by
  induction coeffs with
  | nil => simp [listPoly]
  | cons c cs ih => rw [listPoly, horner_cons, eval_add, eval_mul, eval_C, eval_X, ih]; ring

theorem coeff_listPoly (coeffs : List F) (n : ℕ) : (listPoly coeffs).coeff n = coeffs.getD n 0 := by
  induction coeffs generalizing n with
  | nil => simp [listPoly]
  | cons c cs ih =>
      cases n with
      | zero => simp [listPoly]
      | succ n => simp [listPoly, ih]

theorem degree_listPoly_lt (coeffs : List F) : (listPoly coeffs).degree < coeffs.length := by
  rw [degree_lt_iff_coeff_zero]
  intro m hm
  rw [coeff_listPoly, List.getD_eq_default _ _ hm]

theorem listPoly_injective {cs cs' : List F} (hlen : cs.length = cs'.length)
    (h : listPoly cs = listPoly cs') : cs = cs' := by
  apply List.ext_getElem hlen
  intro n hn hn'
  have hcoeff := congrArg (fun p => coeff p n) h
  simp only [coeff_listPoly, List.getD_eq_getElem _ _ hn, List.getD_eq_getElem _ _ hn'] at hcoeff
  exact hcoeff

theorem exists_listPoly {p : F[X]} {n : ℕ} (hp : p.degree < n) :
    ∃ coeffs : List F, coeffs.length = n ∧ listPoly coeffs = p := by
  refine ⟨(List.range n).map p.coeff, by simp, ?_⟩
  ext m
  rw [coeff_listPoly]
  by_cases hm : m < n
  · simp [List.getD_eq_getElem?_getD, hm]
  · have hzero : p.coeff m = 0 := by
      rw [degree_lt_iff_coeff_zero] at hp
      exact hp m (by omega)
    rw [hzero, List.getD_eq_default _ _ (by simp; omega)]

/-- **Fewer nodes than coefficients say nothing about the constant one.** For any constant and any
values at nonzero distinct nodes there is exactly one choice of as many further coefficients. -/
theorem existsUnique_coeffs [DecidableEq F] (secret : F) (nodes : Finset F) (hzero : (0 : F) ∉ nodes)
    (values : F → F) :
    ∃! coeffs : List F, coeffs.length = nodes.card ∧
      ∀ x ∈ nodes, horner x (secret :: coeffs) = values x := by
  have hinj : Set.InjOn (id : F → F) (insert 0 nodes : Finset F) := fun _ _ _ _ h => h
  have hcard : (insert 0 nodes : Finset F).card = nodes.card + 1 := Finset.card_insert_of_notMem hzero
  have hvalue : ∀ x ∈ nodes, (if x = 0 then secret else values x) = values x := by
    intro x hx
    rw [if_neg]
    rintro rfl
    exact hzero hx
  obtain ⟨all, hall, hpoly⟩ := exists_listPoly (n := nodes.card + 1)
    (p := Lagrange.interpolate (insert 0 nodes) id fun x => if x = 0 then secret else values x)
    (by rw [← hcard]; exact Lagrange.degree_interpolate_lt _ hinj)
  have hat : ∀ x ∈ (insert 0 nodes : Finset F), horner x all = if x = 0 then secret else values x := by
    intro x hx
    rw [← eval_listPoly, hpoly]
    exact Lagrange.eval_interpolate_at_node _ hinj hx
  obtain ⟨c, coeffs, rfl⟩ : ∃ c coeffs, all = c :: coeffs := by
    cases all with
    | nil => simp at hall
    | cons c coeffs => exact ⟨c, coeffs, rfl⟩
  have hc : c = secret := by
    have h := hat 0 (Finset.mem_insert_self _ _)
    simpa using h
  subst hc
  refine ⟨coeffs, ⟨by simpa using hall, fun x hx => ?_⟩, ?_⟩
  · rw [hat x (Finset.mem_insert_of_mem hx), hvalue x hx]
  · rintro other ⟨hlen, hother⟩
    have hsame : listPoly (c :: other) = listPoly (c :: coeffs) := by
      apply eq_of_degrees_lt_of_eval_finset_eq (insert 0 nodes)
      · rw [hcard, ← hlen]
        exact degree_listPoly_lt (c :: other)
      · rw [hcard, ← hall]
        exact degree_listPoly_lt (c :: coeffs)
      · intro x hx
        rw [eval_listPoly, eval_listPoly, hat x hx]
        rcases Finset.mem_insert.mp hx with rfl | hx
        · simp
        · rw [hvalue x hx, hother x hx]
    have hlists := listPoly_injective (by rw [hall, List.length_cons, hlen]) hsame
    exact (List.cons.inj hlists).2

/-- A bijection carries the uniform distribution to the uniform distribution. -/
theorem uniform_map_of_bijective {α β : Type*} [Fintype α] [Nonempty α] [Fintype β] [Nonempty β]
    {f : α → β} (hf : Function.Bijective f) :
    (PMF.uniformOfFintype α).map f = PMF.uniformOfFintype β := by
  ext b
  obtain ⟨a, rfl⟩ := hf.surjective b
  rw [PMF.map_apply, tsum_eq_single a, if_pos rfl, PMF.uniformOfFintype_apply,
    PMF.uniformOfFintype_apply, Fintype.card_of_bijective hf]
  intro a' hne
  rw [if_neg]
  exact fun h => hne (hf.injective h).symm

end Interpolation

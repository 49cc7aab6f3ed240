import Mathlib

/-! Primality of large numbers by Lucas's test, with exponentiation that the kernel evaluates. -/

namespace Primality

/-- `a ^ e % m` for an exponent of at most `bits` bits. -/
def powMod (m a : ℕ) : ℕ → ℕ → ℕ
  | 0, _ => 1 % m
  | bits + 1, e =>
      let half := powMod m a bits (e / 2)
      if e % 2 = 1 then half * half % m * a % m else half * half % m

theorem powMod_eq (m a : ℕ) {bits e : ℕ} (he : e < 2 ^ bits) : powMod m a bits e = a ^ e % m := by
  induction bits generalizing e with
  | zero =>
      obtain rfl : e = 0 := by simpa using he
      simp [powMod]
  | succ bits ih =>
      have hhalf : e / 2 < 2 ^ bits := by
        rw [pow_succ] at he
        omega
      have hsquare : a ^ (e / 2) % m * (a ^ (e / 2) % m) % m = a ^ (2 * (e / 2)) % m := by
        rw [← Nat.mul_mod, ← pow_add, two_mul]
      simp only [powMod, ih hhalf, hsquare]
      split_ifs with hodd
      · rw [Nat.mod_mul_mod, ← pow_succ, show 2 * (e / 2) + 1 = e by omega]
      · rw [show 2 * (e / 2) = e by omega]

/-- Lucas's test from a factorization of the predecessor into primes. -/
theorem prime_of_factors {p a : ℕ} (bits : ℕ) (factors : List ℕ) (hp : 1 < p) (hbits : p ≤ 2 ^ bits)
    (hprod : factors.prod = p - 1) (hprime : ∀ q ∈ factors, q.Prime)
    (hone : powMod p a bits (p - 1) = 1) (hne : ∀ q ∈ factors, powMod p a bits ((p - 1) / q) ≠ 1) :
    p.Prime := by
  have hcast : ∀ e, ((a : ZMod p) ^ e = 1 ↔ a ^ e % p = 1) := by
    intro e
    have h := ZMod.natCast_eq_natCast_iff' (a ^ e) 1 p
    rw [Nat.mod_eq_of_lt hp] at h
    exact_mod_cast h
  have hlt : ∀ e ≤ p - 1, e < 2 ^ bits := fun e he => by omega
  apply lucas_primality p (a : ZMod p)
  · rw [hcast, ← powMod_eq p a (hlt _ le_rfl), hone]
  · intro q hq hdvd
    rw [← hprod] at hdvd
    obtain ⟨r, hr, hqr⟩ := (Prime.dvd_prod_iff hq.prime).mp hdvd
    rw [Ne, hcast, (Nat.prime_dvd_prime_iff_eq hq (hprime r hr)).mp hqr,
      ← powMod_eq p a (hlt _ (Nat.div_le_self _ _))]
    exact hne r hr

end Primality

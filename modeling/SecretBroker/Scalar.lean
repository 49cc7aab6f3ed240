import SecretBroker.LibBytes
import SecretBroker.LibPrimality

/-! The P-256 scalar field: integers modulo the group order, their 32-byte big-endian encoding, and
the reduction of arbitrary 32-byte material. -/

open Wire

namespace SecretBroker

/-- The order of the P-256 group. -/
def groupOrder : ℕ := 0xffffffff00000000ffffffffffffffffbce6faada7179e84f3b9cac2fc632551

/-- `p256::Scalar`. -/
abbrev Scalar := ZMod groupOrder

/-! Each prime is certified by a generator of its multiplicative group and the factorization of its
predecessor. -/

private theorem prime_311245691 : Nat.Prime 311245691 := by
  refine Primality.prime_of_factors (a := 2) 30 [2, 5, 7, 17, 29, 29, 311] (by norm_num)
    (by norm_num) (by norm_num) ?_ (by decide +kernel) (by decide +kernel)
  norm_num

private theorem prime_622491383 : Nat.Prime 622491383 := by
  refine Primality.prime_of_factors (a := 5) 30 [2, 311245691] (by norm_num) (by norm_num)
    (by norm_num) ?_ (by decide +kernel) (by decide +kernel)
  simp only [List.forall_mem_cons]
  exact ⟨by norm_num, prime_311245691, by simp⟩

private theorem prime_1002328039319 : Nat.Prime 1002328039319 := by
  refine Primality.prime_of_factors (a := 19) 40 [2, 126241, 3969899] (by norm_num) (by norm_num)
    (by norm_num) ?_ (by decide +kernel) (by decide +kernel)
  norm_num

private theorem prime_187019741 : Nat.Prime 187019741 := by
  refine Primality.prime_of_factors (a := 2) 30 [2, 2, 5, 9350987] (by norm_num) (by norm_num)
    (by norm_num) ?_ (by decide +kernel) (by decide +kernel)
  norm_num

private theorem prime_191039911 : Nat.Prime 191039911 := by
  refine Primality.prime_of_factors (a := 3) 30 [2, 3, 5, 41, 155317] (by norm_num) (by norm_num)
    (by norm_num) ?_ (by decide +kernel) (by decide +kernel)
  norm_num

private theorem prime_208150935158385979 : Nat.Prime 208150935158385979 := by
  refine Primality.prime_of_factors (a := 2) 58 [2, 3, 11, 43, 127, 3023, 191039911] (by norm_num)
    (by norm_num) (by norm_num) ?_ (by decide +kernel) (by decide +kernel)
  simp only [List.forall_mem_cons]
  refine ⟨?_, ?_, ?_, ?_, ?_, ?_, prime_191039911, by simp⟩ <;> norm_num

private theorem prime_2624747550333869278416773953 : Nat.Prime 2624747550333869278416773953 := by
  refine Primality.prime_of_factors (a := 7) 92
    [2, 2, 2, 2, 2, 2, 3, 3, 1297, 16879, 208150935158385979] (by norm_num) (by norm_num)
    (by norm_num) ?_ (by decide +kernel) (by decide +kernel)
  simp only [List.forall_mem_cons]
  refine ⟨?_, ?_, ?_, ?_, ?_, ?_, ?_, ?_, ?_, ?_, prime_208150935158385979, by simp⟩ <;> norm_num

theorem groupOrder_prime : groupOrder.Prime := by
  refine Primality.prime_of_factors (a := 7) 256
    [2, 2, 2, 2, 3, 71, 131, 373, 3407, 17449, 38189, 187019741, 622491383, 1002328039319,
      2624747550333869278416773953] (by norm_num [groupOrder]) (by norm_num [groupOrder])
    (by norm_num [groupOrder]) ?_ (by decide +kernel) (by decide +kernel)
  simp only [List.forall_mem_cons]
  refine ⟨?_, ?_, ?_, ?_, ?_, ?_, ?_, ?_, ?_, ?_, ?_, prime_187019741, prime_622491383,
    prime_1002328039319, prime_2624747550333869278416773953, by simp⟩ <;> norm_num

instance : Fact groupOrder.Prime := ⟨groupOrder_prime⟩

namespace Scalar

/-- `Scalar::to_bytes`: 32 bytes, most significant first. -/
def toBytes (s : Scalar) : Block 32 := ⟨natBE 32 s.val, length_natBE 32 s.val⟩

/-- `Scalar::from_repr`: only encodings of integers below the group order are accepted. -/
def fromRepr (b : Block 32) : Option Scalar :=
  if ofBE b.val < groupOrder then some (ofBE b.val : Scalar) else none

/-- `Reduce::<U256>::reduce_bytes`: the integer modulo the group order. -/
def reduceBytes (b : Block 32) : Scalar := (ofBE b.val : Scalar)

/-- `Scalar::invert`, which fails only on zero. -/
def invert (s : Scalar) : Option Scalar := if s = 0 then none else some s⁻¹

theorem val_lt (s : Scalar) : s.val < 256 ^ 32 :=
  lt_trans (ZMod.val_lt s) (by norm_num [groupOrder])

theorem ofBE_toBytes (s : Scalar) : ofBE (toBytes s).val = s.val := ofBE_natBE_of_lt (val_lt s)

theorem fromRepr_toBytes (s : Scalar) : fromRepr (toBytes s) = some s := by
  rw [fromRepr, ofBE_toBytes, if_pos (ZMod.val_lt s), ZMod.natCast_zmod_val]

theorem reduceBytes_toBytes (s : Scalar) : reduceBytes (toBytes s) = s := by
  rw [reduceBytes, ofBE_toBytes, ZMod.natCast_zmod_val]

theorem toBytes_injective : Function.Injective toBytes := by
  intro s t h
  rw [← reduceBytes_toBytes s, h, reduceBytes_toBytes]

theorem invert_of_ne_zero {s : Scalar} (hs : s ≠ 0) : invert s = some s⁻¹ := if_neg hs

end Scalar

end SecretBroker

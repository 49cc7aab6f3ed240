import Mathlib

/-! Byte strings, fixed-size blocks and the endian encodings of naturals. Nothing here refers to a
particular program: the wire formats and the scalar encodings of the model are built from these. -/

namespace Wire

/-- A byte string. -/
abbrev Bytes := List UInt8

/-- A byte string of a fixed length, the Rust array `[u8; n]`. -/
abbrev Block (n : Nat) := { b : Bytes // b.length = n }

/-- The `n` low bytes of a natural, least significant first. -/
def natLE : Nat → Nat → Bytes
  | 0, _ => []
  | n + 1, x => UInt8.ofNat (x % 256) :: natLE n (x / 256)

/-- The natural that a little-endian byte string denotes. -/
def ofLE : Bytes → Nat
  | [] => 0
  | b :: bs => b.toNat + 256 * ofLE bs

/-- The `n` low bytes of a natural, most significant first. -/
def natBE (n x : Nat) : Bytes := (natLE n x).reverse

/-- The natural that a big-endian byte string denotes. -/
def ofBE (b : Bytes) : Nat := ofLE b.reverse

@[simp] theorem length_natLE (n x : Nat) : (natLE n x).length = n := by
  induction n generalizing x with
  | zero => rfl
  | succ n ih => simp [natLE, ih]

@[simp] theorem length_natBE (n x : Nat) : (natBE n x).length = n := by simp [natBE]

theorem ofLE_natLE (n x : Nat) : ofLE (natLE n x) = x % 256 ^ n := by
  induction n generalizing x with
  | zero => simp [natLE, ofLE, Nat.mod_one]
  | succ n ih =>
      have hbyte : (UInt8.ofNat (x % 256)).toNat = x % 256 := by
        simp only [UInt8.toNat_ofNat', Nat.reducePow, Nat.mod_mod]
      rw [natLE, ofLE, ih, hbyte, pow_succ, Nat.mul_comm (256 ^ n) 256, Nat.mod_mul]

theorem ofLE_natLE_of_lt {n x : Nat} (hx : x < 256 ^ n) : ofLE (natLE n x) = x := by
  rw [ofLE_natLE, Nat.mod_eq_of_lt hx]

theorem ofBE_natBE_of_lt {n x : Nat} (hx : x < 256 ^ n) : ofBE (natBE n x) = x := by
  rw [ofBE, natBE, List.reverse_reverse, ofLE_natLE_of_lt hx]

/-- Every byte string is the encoding of what it denotes at its own length. -/
theorem natLE_ofLE (b : Bytes) : natLE b.length (ofLE b) = b := by
  induction b with
  | nil => rfl
  | cons x xs ih =>
      have hx : x.toNat < 256 := x.toNat_lt
      have hlow : (x.toNat + 256 * ofLE xs) % 256 = x.toNat := by omega
      have hhigh : (x.toNat + 256 * ofLE xs) / 256 = ofLE xs := by omega
      rw [List.length_cons, natLE, ofLE, hlow, hhigh, ih, UInt8.ofNat_toNat]

theorem ofLE_lt (b : Bytes) : ofLE b < 256 ^ b.length := by
  rw [← natLE_ofLE b, ofLE_natLE, length_natLE]
  exact Nat.mod_lt _ (by positivity)

/-- The first `n` bytes and what follows them, if there are so many. -/
def takeBytes (n : Nat) (b : Bytes) : Option (Bytes × Bytes) :=
  if n ≤ b.length then some (b.take n, b.drop n) else none

theorem takeBytes_append {n : Nat} {a : Bytes} (ha : a.length = n) (b : Bytes) :
    takeBytes n (a ++ b) = some (a, b) := by
  subst ha
  simp [takeBytes]

theorem takeBytes_eq_some {n : Nat} {a b rest : Bytes} :
    takeBytes n b = some (a, rest) ↔ b = a ++ rest ∧ a.length = n := by
  constructor
  · intro h
    unfold takeBytes at h
    split_ifs at h with hlength
    cases h
    exact ⟨(List.take_append_drop n b).symm, List.length_take_of_le hlength⟩
  · rintro ⟨rfl, hlength⟩
    exact takeBytes_append hlength rest

/-- A byte string as an array of a known length, if it has that length. -/
def sized (n : Nat) (b : Bytes) : Option (Block n) := if h : b.length = n then some ⟨b, h⟩ else none

@[simp] theorem sized_val {n : Nat} (b : Block n) : sized n b.val = some b := dif_pos b.property

theorem sized_eq_some {n : Nat} {b : Bytes} {c : Block n} : sized n b = some c ↔ b = c.val := by
  constructor
  · intro h
    unfold sized at h
    split_ifs at h
    cases h
    rfl
  · rintro rfl
    exact sized_val c

/-- Why a read at a cursor ends without a value: the reader refuses the bytes, or it reads outside of them. -/
inductive Fault where
  | refused
  | outOfBounds
  deriving DecidableEq, Repr

/-- The byte at an index, `b[i]`. -/
def byteAt (b : Bytes) (i : Nat) : Except Fault UInt8 :=
  match b[i]? with
  | some x => .ok x
  | none => .error .outOfBounds

/-- The bytes between two indices, `b[i..j]`. -/
def slice (b : Bytes) (i j : Nat) : Except Fault Bytes :=
  if i ≤ j ∧ j ≤ b.length then .ok ((b.drop i).take (j - i)) else .error .outOfBounds

theorem byteAt_of_lt {b : Bytes} {i : Nat} (h : i < b.length) : byteAt b i = .ok b[i] := by
  rw [byteAt, List.getElem?_eq_getElem h]

theorem slice_of_le {b : Bytes} {i n : Nat} (h : i + n ≤ b.length) : slice b i (i + n) = .ok ((b.drop i).take n) := by
  rw [slice, if_pos ⟨Nat.le_add_right i n, h⟩, Nat.add_sub_cancel_left]

/-- Taking bytes at a cursor. -/
theorem takeBytes_drop {b : Bytes} {i n : Nat} (h : i + n ≤ b.length) :
    takeBytes n (b.drop i) = some ((b.drop i).take n, b.drop (i + n)) := by
  rw [takeBytes, List.length_drop, if_pos (by omega), List.drop_drop]

theorem takeBytes_drop_of_lt {b : Bytes} {i n : Nat} (hi : i ≤ b.length) (h : b.length < i + n) :
    takeBytes n (b.drop i) = none := by
  rw [takeBytes, List.length_drop, if_neg (by omega)]

/-- The two bytes at a cursor. -/
theorem take_two_drop {b : Bytes} {i : Nat} (h : i + 2 ≤ b.length) : (b.drop i).take 2 = [b[i], b[i + 1]] := by
  rw [List.drop_eq_getElem_cons (by omega), List.drop_eq_getElem_cons (by omega)]
  rfl

end Wire

import SecretBroker.LibBytes

/-! Base64 (RFC 4648 §4 and §5) with canonical decoding: padding exactly as the encoder writes it,
and no stray bits in the last quantum. The alphabet and the use of padding are parameters. -/

namespace Wire

/-- The two characters in which base64 alphabets differ, and whether the encoder pads. -/
structure Base64 where
  char62 : Char
  char63 : Char
  pad : Bool

namespace Base64

/-- The standard alphabet, padded. -/
def standard : Base64 := ⟨'+', '/', true⟩

/-- The URL-safe alphabet, unpadded. -/
def urlSafeNoPad : Base64 := ⟨'-', '_', false⟩

/-- The character of a sextet. -/
def char (e : Base64) (i : Nat) : Char :=
  if i < 26 then Char.ofNat (65 + i)
  else if i < 52 then Char.ofNat (71 + i)
  else if i < 62 then Char.ofNat (i - 4)
  else if i = 62 then e.char62 else e.char63

/-- The sextet of a character. -/
def value (e : Base64) (c : Char) : Option Nat :=
  if 65 ≤ c.toNat ∧ c.toNat ≤ 90 then some (c.toNat - 65)
  else if 97 ≤ c.toNat ∧ c.toNat ≤ 122 then some (c.toNat - 71)
  else if 48 ≤ c.toNat ∧ c.toNat ≤ 57 then some (c.toNat + 4)
  else if c = e.char62 then some 62
  else if c = e.char63 then some 63
  else none

def encodeChars (e : Base64) : Bytes → List Char
  | [] => []
  | [x] =>
      [e.char (x.toNat / 4), e.char (x.toNat % 4 * 16)] ++ if e.pad then ['=', '='] else []
  | [x, y] =>
      [e.char (x.toNat / 4), e.char (x.toNat % 4 * 16 + y.toNat / 16), e.char (y.toNat % 16 * 4)] ++
        if e.pad then ['='] else []
  | x :: y :: z :: rest =>
      e.char (x.toNat / 4) :: e.char (x.toNat % 4 * 16 + y.toNat / 16) ::
        e.char (y.toNat % 16 * 4 + z.toNat / 64) :: e.char (z.toNat % 64) :: encodeChars e rest

/-- A last quantum of one byte: the four low bits of its second sextet must be zero. -/
def tailOne (e : Base64) (c₀ c₁ : Char) : Option Bytes := do
  let v₀ ← e.value c₀
  let v₁ ← e.value c₁
  if v₁ % 16 = 0 then some [UInt8.ofNat (v₀ * 4 + v₁ / 16)] else none

/-- A last quantum of two bytes: the two low bits of its third sextet must be zero. -/
def tailTwo (e : Base64) (c₀ c₁ c₂ : Char) : Option Bytes := do
  let v₀ ← e.value c₀
  let v₁ ← e.value c₁
  let v₂ ← e.value c₂
  if v₂ % 4 = 0 then
    some [UInt8.ofNat (v₀ * 4 + v₁ / 16), UInt8.ofNat (v₁ % 16 * 16 + v₂ / 4)]
  else none

/-- A full quantum. -/
def quantum (e : Base64) (c₀ c₁ c₂ c₃ : Char) : Option Bytes := do
  let v₀ ← e.value c₀
  let v₁ ← e.value c₁
  let v₂ ← e.value c₂
  let v₃ ← e.value c₃
  some [UInt8.ofNat (v₀ * 4 + v₁ / 16), UInt8.ofNat (v₁ % 16 * 16 + v₂ / 4),
    UInt8.ofNat (v₂ % 4 * 64 + v₃)]

def decodeChars (e : Base64) : List Char → Option Bytes
  | [] => some []
  | [_] => none
  | [c₀, c₁] => if e.pad then none else e.tailOne c₀ c₁
  | [c₀, c₁, c₂] => if e.pad then none else e.tailTwo c₀ c₁ c₂
  | c₀ :: c₁ :: c₂ :: c₃ :: rest =>
      if e.pad ∧ rest = [] ∧ c₃ = '=' then
        if c₂ = '=' then e.tailOne c₀ c₁ else e.tailTwo c₀ c₁ c₂
      else do
        let head ← e.quantum c₀ c₁ c₂ c₃
        let tail ← decodeChars e rest
        some (head ++ tail)

def encode (e : Base64) (b : Bytes) : String := String.ofList (e.encodeChars b)

def decode (e : Base64) (s : String) : Option Bytes := e.decodeChars s.toList

/-- What the codec needs of its alphabet: characters determine their sextets, and `=` is free. -/
structure Lawful (e : Base64) : Prop where
  value_char : ∀ i < 64, e.value (e.char i) = some i
  char_ne_pad : ∀ i < 64, e.char i ≠ '='

theorem standard_lawful : standard.Lawful := ⟨by decide, by decide⟩

theorem urlSafeNoPad_lawful : urlSafeNoPad.Lawful := ⟨by decide, by decide⟩

private theorem ofNat_join {x : UInt8} {n : Nat} (h : n = x.toNat) : UInt8.ofNat n = x := by
  rw [h, UInt8.ofNat_toNat]

section RoundTrip

variable {e : Base64} (he : e.Lawful)
include he

theorem tailOne_char (x : UInt8) :
    e.tailOne (e.char (x.toNat / 4)) (e.char (x.toNat % 4 * 16)) = some [x] := by
  have hx : x.toNat < 256 := x.toNat_lt
  simp only [tailOne, he.value_char _ (show x.toNat / 4 < 64 by omega),
    he.value_char _ (show x.toNat % 4 * 16 < 64 by omega), Option.bind_eq_bind, Option.bind_some]
  rw [if_pos (by omega), ofNat_join (x := x) (by omega)]

theorem tailTwo_char (x y : UInt8) :
    e.tailTwo (e.char (x.toNat / 4)) (e.char (x.toNat % 4 * 16 + y.toNat / 16))
      (e.char (y.toNat % 16 * 4)) = some [x, y] := by
  have hx : x.toNat < 256 := x.toNat_lt
  have hy : y.toNat < 256 := y.toNat_lt
  simp only [tailTwo, he.value_char _ (show x.toNat / 4 < 64 by omega),
    he.value_char _ (show x.toNat % 4 * 16 + y.toNat / 16 < 64 by omega),
    he.value_char _ (show y.toNat % 16 * 4 < 64 by omega), Option.bind_eq_bind, Option.bind_some]
  rw [if_pos (by omega), ofNat_join (x := x) (by omega), ofNat_join (x := y) (by omega)]

theorem quantum_char (x y z : UInt8) :
    e.quantum (e.char (x.toNat / 4)) (e.char (x.toNat % 4 * 16 + y.toNat / 16))
      (e.char (y.toNat % 16 * 4 + z.toNat / 64)) (e.char (z.toNat % 64)) = some [x, y, z] := by
  have hx : x.toNat < 256 := x.toNat_lt
  have hy : y.toNat < 256 := y.toNat_lt
  have hz : z.toNat < 256 := z.toNat_lt
  simp only [quantum, he.value_char _ (show x.toNat / 4 < 64 by omega),
    he.value_char _ (show x.toNat % 4 * 16 + y.toNat / 16 < 64 by omega),
    he.value_char _ (show y.toNat % 16 * 4 + z.toNat / 64 < 64 by omega),
    he.value_char _ (show z.toNat % 64 < 64 by omega), Option.bind_eq_bind, Option.bind_some]
  rw [ofNat_join (x := x) (by omega), ofNat_join (x := y) (by omega),
    ofNat_join (x := z) (by omega)]

theorem decodeChars_encodeChars (b : Bytes) : e.decodeChars (e.encodeChars b) = some b := by
  induction b using encodeChars.induct with
  | case1 => rfl
  | case2 x =>
      cases hp : e.pad with
      | true => simp [encodeChars, decodeChars, hp, tailOne_char he]
      | false => simp [encodeChars, decodeChars, hp, tailOne_char he]
  | case3 x y =>
      have hy : y.toNat < 256 := y.toNat_lt
      cases hp : e.pad with
      | true =>
          simp [encodeChars, decodeChars, hp, tailTwo_char he,
            he.char_ne_pad _ (show y.toNat % 16 * 4 < 64 by omega)]
      | false => simp [encodeChars, decodeChars, hp, tailTwo_char he]
  | case4 x y z rest ih =>
      have hz : z.toNat % 64 < 64 := by omega
      simp [encodeChars, decodeChars, quantum_char he, he.char_ne_pad _ hz, ih]

theorem decode_encode (b : Bytes) : e.decode (e.encode b) = some b := by
  rw [decode, encode, String.toList_ofList, decodeChars_encodeChars he]

theorem encode_injective : Function.Injective e.encode := by
  intro b b' h
  have hdecode := congrArg e.decode h
  rw [decode_encode he, decode_encode he] at hdecode
  exact Option.some.inj hdecode

end RoundTrip

/-- A character that has a sextet is the character of it. -/
theorem char_of_value {e : Base64} {c : Char} {v : Nat} (h : e.value c = some v) : v < 64 ∧ e.char v = c := by
  unfold value at h
  split_ifs at h with hupper hlower hdigit h62 h63
  · cases h
    rw [char, if_pos (by omega), show 65 + (c.toNat - 65) = c.toNat by omega, Char.ofNat_toNat]
    exact ⟨by omega, rfl⟩
  · cases h
    rw [char, if_neg (by omega), if_pos (by omega), show 71 + (c.toNat - 71) = c.toNat by omega, Char.ofNat_toNat]
    exact ⟨by omega, rfl⟩
  · cases h
    rw [char, if_neg (by omega), if_neg (by omega), if_pos (by omega), show c.toNat + 4 - 4 = c.toNat by omega,
      Char.ofNat_toNat]
    exact ⟨by omega, rfl⟩
  · cases h
    exact ⟨by omega, h62.symm⟩
  · cases h
    exact ⟨by omega, h63.symm⟩

/-- What is decoded from a last quantum of one byte is encoded as it. -/
theorem encode_tailOne {e : Base64} {c₀ c₁ : Char} {b : Bytes} (h : e.tailOne c₀ c₁ = some b) :
    ∃ x : UInt8, b = [x] ∧ e.char (x.toNat / 4) = c₀ ∧ e.char (x.toNat % 4 * 16) = c₁ := by
  simp only [tailOne, Option.bind_eq_bind, Option.bind_eq_some_iff, Option.ite_none_right_eq_some, Option.some.injEq] at h
  obtain ⟨v₀, h₀, v₁, h₁, hlow, rfl⟩ := h
  obtain ⟨hlt₀, rfl⟩ := char_of_value h₀
  obtain ⟨hlt₁, rfl⟩ := char_of_value h₁
  refine ⟨_, rfl, ?_⟩
  rw [UInt8.toNat_ofNat', Nat.mod_eq_of_lt (show v₀ * 4 + v₁ / 16 < 2 ^ 8 by omega)]
  exact ⟨congrArg e.char (by omega), congrArg e.char (by omega)⟩

theorem encode_tailTwo {e : Base64} {c₀ c₁ c₂ : Char} {b : Bytes} (h : e.tailTwo c₀ c₁ c₂ = some b) :
    ∃ x y : UInt8, b = [x, y] ∧ e.char (x.toNat / 4) = c₀ ∧ e.char (x.toNat % 4 * 16 + y.toNat / 16) = c₁ ∧
      e.char (y.toNat % 16 * 4) = c₂ := by
  simp only [tailTwo, Option.bind_eq_bind, Option.bind_eq_some_iff, Option.ite_none_right_eq_some, Option.some.injEq] at h
  obtain ⟨v₀, h₀, v₁, h₁, v₂, h₂, hlow, rfl⟩ := h
  obtain ⟨hlt₀, rfl⟩ := char_of_value h₀
  obtain ⟨hlt₁, rfl⟩ := char_of_value h₁
  obtain ⟨hlt₂, rfl⟩ := char_of_value h₂
  refine ⟨_, _, rfl, ?_⟩
  rw [UInt8.toNat_ofNat', UInt8.toNat_ofNat', Nat.mod_eq_of_lt (show v₀ * 4 + v₁ / 16 < 2 ^ 8 by omega),
    Nat.mod_eq_of_lt (show v₁ % 16 * 16 + v₂ / 4 < 2 ^ 8 by omega)]
  exact ⟨congrArg e.char (by omega), congrArg e.char (by omega), congrArg e.char (by omega)⟩

theorem encode_quantum {e : Base64} {c₀ c₁ c₂ c₃ : Char} {b : Bytes} (h : e.quantum c₀ c₁ c₂ c₃ = some b) :
    ∃ x y z : UInt8, b = [x, y, z] ∧ e.char (x.toNat / 4) = c₀ ∧ e.char (x.toNat % 4 * 16 + y.toNat / 16) = c₁ ∧
      e.char (y.toNat % 16 * 4 + z.toNat / 64) = c₂ ∧ e.char (z.toNat % 64) = c₃ := by
  simp only [quantum, Option.bind_eq_bind, Option.bind_eq_some_iff, Option.some.injEq] at h
  obtain ⟨v₀, h₀, v₁, h₁, v₂, h₂, v₃, h₃, rfl⟩ := h
  obtain ⟨hlt₀, rfl⟩ := char_of_value h₀
  obtain ⟨hlt₁, rfl⟩ := char_of_value h₁
  obtain ⟨hlt₂, rfl⟩ := char_of_value h₂
  obtain ⟨hlt₃, rfl⟩ := char_of_value h₃
  refine ⟨_, _, _, rfl, ?_⟩
  rw [UInt8.toNat_ofNat', UInt8.toNat_ofNat', UInt8.toNat_ofNat',
    Nat.mod_eq_of_lt (show v₀ * 4 + v₁ / 16 < 2 ^ 8 by omega),
    Nat.mod_eq_of_lt (show v₁ % 16 * 16 + v₂ / 4 < 2 ^ 8 by omega),
    Nat.mod_eq_of_lt (show v₂ % 4 * 64 + v₃ < 2 ^ 8 by omega)]
  exact ⟨congrArg e.char (by omega), congrArg e.char (by omega), congrArg e.char (by omega), congrArg e.char (by omega)⟩

/-- Decoding accepts the encoding of what it returns, and nothing else. -/
theorem encodeChars_decodeChars {e : Base64} {cs : List Char} {b : Bytes} (h : e.decodeChars cs = some b) :
    e.encodeChars b = cs := by
  induction cs using decodeChars.induct (e := e) generalizing b with
  | case1 =>
      cases h
      rfl
  | case2 => cases h
  | case3 c₀ c₁ hpad => 
      rw [decodeChars, if_pos hpad] at h
      cases h
  | case4 c₀ c₁ hpad =>
      rw [decodeChars, if_neg hpad] at h
      obtain ⟨x, rfl, h₀, h₁⟩ := encode_tailOne h
      rw [encodeChars, h₀, h₁, if_neg hpad, List.append_nil]
  | case5 c₀ c₁ c₂ hpad =>
      rw [decodeChars, if_pos hpad] at h
      cases h
  | case6 c₀ c₁ c₂ hpad =>
      rw [decodeChars, if_neg hpad] at h
      obtain ⟨x, y, rfl, h₀, h₁, h₂⟩ := encode_tailTwo h
      rw [encodeChars, h₀, h₁, h₂, if_neg hpad, List.append_nil]
  | case7 c₀ c₁ c₃ rest hlast =>
      rw [decodeChars, if_pos hlast, if_pos rfl] at h
      obtain ⟨hpad, rfl, rfl⟩ := hlast
      obtain ⟨x, rfl, h₀, h₁⟩ := encode_tailOne h
      rw [encodeChars, h₀, h₁, if_pos hpad]
      rfl
  | case8 c₀ c₁ c₂ c₃ rest hlast htwo =>
      rw [decodeChars, if_pos hlast, if_neg htwo] at h
      obtain ⟨hpad, rfl, rfl⟩ := hlast
      obtain ⟨x, y, rfl, h₀, h₁, h₂⟩ := encode_tailTwo h
      rw [encodeChars, h₀, h₁, h₂, if_pos hpad]
      rfl
  | case9 c₀ c₁ c₂ c₃ rest hmore ih =>
      rw [decodeChars, if_neg hmore] at h
      simp only [Option.bind_eq_bind, Option.bind_eq_some_iff, Option.some.injEq] at h
      obtain ⟨head, hhead, tail, htail, rfl⟩ := h
      obtain ⟨x, y, z, rfl, h₀, h₁, h₂, h₃⟩ := encode_quantum hhead
      simp only [List.cons_append, List.nil_append, encodeChars, h₀, h₁, h₂, h₃, ih htail]

theorem encode_decode {e : Base64} {s : String} {b : Bytes} (h : e.decode s = some b) : e.encode b = s := by
  rw [encode, encodeChars_decodeChars h, String.ofList_toList]

theorem encode_eq_empty_iff (e : Base64) (b : Bytes) : e.encode b = "" ↔ b = [] := by
  constructor
  · intro h
    have hchars : e.encodeChars b = [] := by
      simpa only [encode, String.toList_ofList, String.toList_empty] using congrArg String.toList h
    match b with
    | [] => rfl
    | [x] => simp [encodeChars] at hchars
    | [x, y] => simp [encodeChars] at hchars
    | x :: y :: z :: rest => simp [encodeChars] at hchars
  · rintro rfl
    rfl

theorem length_encodeChars_le (e : Base64) (b : Bytes) : (e.encodeChars b).length ≤ 4 * ((b.length + 2) / 3) := by
  induction b using encodeChars.induct with
  | case1 => simp [encodeChars]
  | case2 x => cases hp : e.pad <;> simp [encodeChars, hp]
  | case3 x y => cases hp : e.pad <;> simp [encodeChars, hp]
  | case4 x y z rest ih =>
      simp only [encodeChars, List.length_cons]
      omega

theorem length_lt_encodeChars (e : Base64) {b : Bytes} (hb : b ≠ []) : b.length < (e.encodeChars b).length := by
  induction b using encodeChars.induct with
  | case1 => exact absurd rfl hb
  | case2 x => cases hp : e.pad <;> simp [encodeChars, hp]
  | case3 x y => cases hp : e.pad <;> simp [encodeChars, hp]
  | case4 x y z rest ih =>
      simp only [encodeChars, List.length_cons]
      by_cases hrest : rest = []
      · simp [hrest]
      · have := ih hrest
        omega

/-- A predicate on characters that holds of the alphabet and of `=` holds of every encoding. -/
theorem encodeChars_all {e : Base64} {P : Char → Prop} (hchar : ∀ i < 64, P (e.char i)) (hpad : P '=')
    (b : Bytes) : ∀ c ∈ e.encodeChars b, P c := by
  induction b using encodeChars.induct with
  | case1 => simp [encodeChars]
  | case2 x =>
      have hx : x.toNat < 256 := x.toNat_lt
      intro c hc
      cases hp : e.pad <;> simp only [encodeChars, hp, List.mem_append, List.mem_cons, List.not_mem_nil,
        or_false, Bool.false_eq_true, if_true, if_false] at hc
      · rcases hc with rfl | rfl <;> exact hchar _ (by omega)
      · rcases hc with (rfl | rfl) | rfl | rfl
        · exact hchar _ (by omega)
        · exact hchar _ (by omega)
        · exact hpad
        · exact hpad
  | case3 x y =>
      have hx : x.toNat < 256 := x.toNat_lt
      have hy : y.toNat < 256 := y.toNat_lt
      intro c hc
      cases hp : e.pad <;> simp only [encodeChars, hp, List.mem_append, List.mem_cons, List.not_mem_nil,
        or_false, Bool.false_eq_true, if_true, if_false] at hc
      · rcases hc with rfl | rfl | rfl <;> exact hchar _ (by omega)
      · rcases hc with (rfl | rfl | rfl) | rfl
        · exact hchar _ (by omega)
        · exact hchar _ (by omega)
        · exact hchar _ (by omega)
        · exact hpad
  | case4 x y z rest ih =>
      have hx : x.toNat < 256 := x.toNat_lt
      have hy : y.toNat < 256 := y.toNat_lt
      have hz : z.toNat < 256 := z.toNat_lt
      intro c hc
      simp only [encodeChars, List.mem_cons] at hc
      rcases hc with rfl | rfl | rfl | rfl | hc
      · exact hchar _ (by omega)
      · exact hchar _ (by omega)
      · exact hchar _ (by omega)
      · exact hchar _ (by omega)
      · exact ih c hc

end Base64

end Wire

import SecretBroker.LibText

/-! The plain values that the broker's records and requests are made of: points in time, UUIDs and
JSON documents. -/

open Wire

namespace SecretBroker

/-- `chrono::DateTime<Utc>`: Unix seconds and the fraction in nanoseconds. A fraction of a second or
more stands for a leap second, which chrono orders after the second it extends. -/
structure DateTime where
  secs : Int
  nanos : ℕ
  deriving DecidableEq, Repr

namespace DateTime

theorem toLex_injective : Function.Injective fun t : DateTime => toLex (t.secs, t.nanos) := by
  rintro ⟨secs, nanos⟩ ⟨secs', nanos'⟩ h
  simpa using h

instance : LinearOrder DateTime :=
  LinearOrder.lift' (fun t : DateTime => toLex (t.secs, t.nanos)) toLex_injective

theorem lt_iff {t u : DateTime} : t < u ↔ t.secs < u.secs ∨ t.secs = u.secs ∧ t.nanos < u.nanos :=
  Prod.Lex.lt_iff

/-- The first second that chrono represents, in the year -262143. -/
def minSecs : Int := -8334601228800

/-- The last second that chrono represents, in the year 262142. -/
def maxSecs : Int := 8210266876799

/-- The time from which chrono counts seconds. A leap second is left first: forwards it counts as the second it
extends, backwards as the one after it. -/
def outOfLeap (t : DateTime) (secs : Int) : DateTime :=
  if t.nanos < 1000000000 ∨ secs = 0 then t
  else if 0 < secs then ⟨t.secs, t.nanos - 1000000000⟩
  else ⟨t.secs + 1, t.nanos - 1000000000⟩

/-- The time some seconds later, whether or not chrono represents it. -/
def later (t : DateTime) (secs : Int) : DateTime := ⟨(t.outOfLeap secs).secs + secs, (t.outOfLeap secs).nanos⟩

theorem later_of_lt {t : DateTime} (h : t.nanos < 1000000000) (secs : Int) : t.later secs = ⟨t.secs + secs, t.nanos⟩ := by
  rw [later, outOfLeap, if_pos (Or.inl h)]

/-- `time + Duration::seconds(secs)`. Both the duration and the sum can be out of range, and the
program panics then. -/
def addSeconds (t : DateTime) (secs : Int) : Option DateTime :=
  if secs < -9223372036854775 ∨ 9223372036854775 < secs then none
  else if (t.later secs).secs < minSecs ∨ maxSecs < (t.later secs).secs then none
  else some (t.later secs)

/-- The times of the years 1970 to 9999, leap seconds aside, which RFC 3339 can write. -/
def Rfc3339 (t : DateTime) : Prop := 0 ≤ t.secs ∧ t.secs < 253402300800 ∧ t.nanos < 1000000000

/-- What the system clock shows up to the year 9998. -/
def OnClock (t : DateTime) : Prop := 0 ≤ t.secs ∧ t.secs < 253370764800 ∧ t.nanos < 1000000000

/-- `DateTime::from_timestamp(secs, 0)`. -/
def fromTimestamp (secs : Int) : Option DateTime :=
  if secs < minSecs ∨ maxSecs < secs then none else some ⟨secs, 0⟩

end DateTime

/-- `secs as i64` for a `u64`. -/
def asI64 (n : UInt64) : Int := n.toInt64.toInt

/-- `uuid::Uuid`, by its bytes. -/
structure Uuid where
  bytes : Block 16
  deriving DecidableEq

namespace Uuid

theorem bytes_injective {id id' : Uuid} (h : id.bytes.val = id'.bytes.val) : id = id' := by
  cases id
  cases id'
  exact congrArg Uuid.mk (Subtype.ext h)

/-- A lower-case hexadecimal digit. -/
def hexDigit (n : ℕ) : Char := if n < 10 then Char.ofNat (48 + n) else Char.ofNat (87 + n)

def hexChars (b : Bytes) : List Char :=
  b.flatMap fun x => [hexDigit (x.toNat / 16), hexDigit (x.toNat % 16)]

/-- `Uuid::to_string`: the bytes in hexadecimal with hyphens after the fourth, sixth, eighth and tenth. -/
def toString (u : Uuid) : String :=
  let part := fun i n => hexChars ((u.bytes.val.drop i).take n)
  String.ofList (part 0 4 ++ '-' :: (part 4 2 ++ '-' :: (part 6 2 ++ '-' :: (part 8 2 ++ '-' :: part 10 6))))

theorem hexDigit_injOn : ∀ m < 16, ∀ n < 16, hexDigit m = hexDigit n → m = n := by decide

theorem hexDigit_ne_hyphen : ∀ n < 16, hexDigit n ≠ '-' := by decide

theorem hexChars_injective : Function.Injective hexChars := by
  intro b
  induction b with
  | nil =>
      rintro (_ | ⟨y, c⟩) h
      · rfl
      · simp [hexChars] at h
  | cons x b ih =>
      rintro (_ | ⟨y, c⟩) h
      · simp [hexChars] at h
      · simp only [hexChars, List.flatMap_cons, List.cons_append, List.nil_append, List.cons.injEq] at h
        obtain ⟨hhigh, hlow, hrest⟩ := h
        have hx := x.toNat_lt
        have hy := y.toNat_lt
        have hdiv := hexDigit_injOn _ (by omega) _ (by omega) hhigh
        have hmod := hexDigit_injOn _ (by omega) _ (by omega) hlow
        have hbyte : x = y := UInt8.toNat_inj.mp (by omega)
        rw [hbyte, ih hrest]

theorem hexChars_all {P : Char → Prop} (h : ∀ n < 16, P (hexDigit n)) (b : Bytes) : ∀ c ∈ hexChars b, P c := by
  intro c hc
  obtain ⟨x, -, hx⟩ := List.mem_flatMap.mp hc
  have hlt := x.toNat_lt
  simp only [List.mem_cons, List.not_mem_nil, or_false] at hx
  rcases hx with rfl | rfl
  · exact h _ (by omega)
  · exact h _ (by omega)

theorem hyphen_notMem_hexChars (b : Bytes) : '-' ∉ hexChars b := fun h =>
  hexChars_all (P := fun c => c ≠ '-') hexDigit_ne_hyphen b _ h rfl

/-- A predicate on characters that holds of the digits and of the hyphen holds of every UUID. -/
theorem toString_all {P : Char → Prop} (h : ∀ n < 16, P (hexDigit n)) (hhyphen : P '-') (u : Uuid) :
    ∀ c ∈ u.toString.toList, P c := by
  intro c hc
  simp only [toString, String.toList_ofList, List.mem_append, List.mem_cons] at hc
  rcases hc with hc | rfl | hc | rfl | hc | rfl | hc | rfl | hc
  · exact hexChars_all h _ c hc
  · exact hhyphen
  · exact hexChars_all h _ c hc
  · exact hhyphen
  · exact hexChars_all h _ c hc
  · exact hhyphen
  · exact hexChars_all h _ c hc
  · exact hhyphen
  · exact hexChars_all h _ c hc

theorem filter_hexChars (b : Bytes) : (hexChars b).filter (fun c => c ≠ '-') = hexChars b := by
  apply List.filter_eq_self.mpr
  intro c hc
  simp only [ne_eq, decide_not, Bool.not_eq_eq_eq_not, Bool.not_true, decide_eq_false_iff_not]
  rintro rfl
  exact hyphen_notMem_hexChars b hc

/-- The hyphens carry nothing: without them the text is the hexadecimal form of the bytes. -/
theorem filter_toString (u : Uuid) : u.toString.toList.filter (fun c => c ≠ '-') = hexChars u.bytes.val := by
  have hparts : ∀ b c : Bytes, hexChars b ++ hexChars c = hexChars (b ++ c) := by
    intro b c
    rw [hexChars, hexChars, hexChars, List.flatMap_append]
  simp only [toString, String.toList_ofList, List.filter_append, List.filter_cons, filter_hexChars,
    ne_eq, not_true_eq_false, decide_false, Bool.false_eq_true, if_false, hparts]
  congr 1
  obtain ⟨⟨b, hb⟩⟩ := u
  match b, hb with
  | [b0, b1, b2, b3, b4, b5, b6, b7, b8, b9, b10, b11, b12, b13, b14, b15], _ => rfl

theorem toString_injective : Function.Injective toString := by
  intro u v h
  have hhex := congrArg (fun s : String => s.toList.filter (fun c => c ≠ '-')) h
  simp only [filter_toString] at hhex
  cases u
  cases v
  exact congrArg Uuid.mk (Subtype.ext (hexChars_injective hhex))

/-- The UUID all of whose bytes are `b`. -/
def filled (b : UInt8) : Uuid := ⟨⟨List.replicate 16 b, List.length_replicate⟩⟩

end Uuid

/-- `serde_json::Value`. A number is an integer or a double, by its bits. -/
inductive Value where
  | null
  | bool (b : Bool)
  | integer (n : Int)
  | float (bits : UInt64)
  | string (s : String)
  | array (items : List Value)
  | object (members : List (String × Value))

/-- A document without fractional numbers. -/
inductive Value.NoFraction : Value → Prop where
  | null : NoFraction .null
  | bool (b : Bool) : NoFraction (.bool b)
  | integer (n : Int) : NoFraction (.integer n)
  | string (s : String) : NoFraction (.string s)
  | array {items : List Value} (h : ∀ v ∈ items, NoFraction v) : NoFraction (.array items)
  | object {members : List (String × Value)} (h : ∀ m ∈ members, NoFraction m.2) :
      NoFraction (.object members)

namespace Value

/-- `Value::get` with a member's name. -/
def get (key : String) : Value → Option Value
  | .object members => (members.find? fun m => m.1 = key).map (·.2)
  | _ => none

/-- `Map::insert`. The members of a map are in the order of their names. -/
def insert (key : String) (value : Value) : List (String × Value) → List (String × Value)
  | [] => [(key, value)]
  | m :: members =>
      if key = m.1 then (key, value) :: members
      else if key < m.1 then (key, value) :: m :: members
      else m :: insert key value members

/-- The object into which members are inserted one after the other, as far as they have a value. -/
def ofInserts (inserts : List (String × Option Value)) : Value :=
  .object (inserts.foldl (fun members (key, value) => value.elim members fun v => insert key v members) [])

/-- `Value::as_str`. -/
def asStr : Value → Option String
  | .string s => some s
  | _ => none

/-- `Value::as_u64`. -/
def asU64 : Value → Option UInt64
  | .integer n => if 0 ≤ n ∧ n < 18446744073709551616 then some (UInt64.ofNat n.toNat) else none
  | _ => none

theorem asU64_integer (n : UInt64) : asU64 (.integer n.toNat) = some n := by
  have hlt : (n.toNat : Int) < 18446744073709551616 := by
    have := n.toNat_lt
    omega
  rw [asU64, if_pos ⟨Int.natCast_nonneg _, hlt⟩, Int.toNat_natCast, UInt64.ofNat_toNat]

/-- `Value::as_array`. -/
def asArray : Value → Option (List Value)
  | .array items => some items
  | _ => none

end Value

end SecretBroker

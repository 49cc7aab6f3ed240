import SecretBroker.Values

/-! A text for JSON documents and its reader. It has no blanks, and what is written is read as the same document. The
digits of a fractional number are left to the library that is modelled: here the bits of the double stand before the
point. -/

open Wire

namespace SecretBroker

namespace JsonText

/-- A character of a string. Quotes, backslashes and control characters are escaped. -/
def quoteChar (c : Char) : List Char :=
  if c = '"' ∨ c = '\\' then ['\\', c]
  else if c.toNat < 32 then ['\\', 'u', '0', '0', Uuid.hexDigit (c.toNat / 16), Uuid.hexDigit (c.toNat % 16)]
  else [c]

def hexValue (c : Char) : ℕ := if c.isDigit then c.toNat - 48 else c.toNat - 87

/-- What a string holds after its first quote, and what follows it. -/
def readChars : List Char → Option (List Char × List Char)
  | [] => none
  | '"' :: rest => some ([], rest)
  | '\\' :: 'u' :: '0' :: '0' :: high :: low :: rest =>
      (readChars rest).map fun read => (Char.ofNat (16 * hexValue high + hexValue low) :: read.1, read.2)
  | '\\' :: c :: rest => (readChars rest).map fun read => (c :: read.1, read.2)
  | c :: rest => (readChars rest).map fun read => (c :: read.1, read.2)

theorem readChars_quoteChar (c : Char) (rest : List Char) :
    readChars (quoteChar c ++ rest) = (readChars rest).map fun read => (c :: read.1, read.2) := by
  rw [quoteChar]
  split_ifs with hescaped hcontrol
  · rcases hescaped with rfl | rfl
    · rfl
    · rfl
  · have hdigits : ∀ n < 32, Char.ofNat (16 * hexValue (Uuid.hexDigit (n / 16)) + hexValue (Uuid.hexDigit (n % 16))) =
        Char.ofNat n := by decide
    have hc := hdigits c.toNat hcontrol
    rw [Char.ofNat_toNat] at hc
    simp [readChars, hc]
  · rw [not_or] at hescaped
    simp [readChars, hescaped.1, hescaped.2]

theorem readChars_flatMap_quoteChar (cs rest : List Char) :
    readChars (cs.flatMap quoteChar ++ '"' :: rest) = some (cs, rest) := by
  induction cs with
  | nil => rfl
  | cons c cs ih => rw [List.flatMap_cons, List.append_assoc, readChars_quoteChar, ih, Option.map_some]

def writeString (s : String) : List Char := '"' :: (s.toList.flatMap quoteChar ++ ['"'])

/-- A number has ended when no digit and no point follows. -/
def Ends (rest : List Char) : Prop := ∀ c ∈ rest.head?, c.isDigit = false ∧ c ≠ '.'

def writeInt : Int → List Char
  | .ofNat n => Nat.toDigits 10 n
  | .negSucc n => '-' :: Nat.toDigits 10 (n + 1)

def readNat (text : List Char) : Option (ℕ × List Char) :=
  match text.takeWhile Char.isDigit with
  | [] => none
  | digits => some (Nat.ofDigitChars 10 digits 0, text.dropWhile Char.isDigit)

def readInt : List Char → Option (Int × List Char)
  | [] => none
  | c :: rest =>
      if c = '-' then (readNat rest).map fun read => (-read.1, read.2)
      else (readNat (c :: rest)).map fun read => (read.1, read.2)

theorem readNat_toDigits (n : ℕ) {rest : List Char} (hrest : ∀ c ∈ rest.head?, c.isDigit = false) :
    readNat (Nat.toDigits 10 n ++ rest) = some (n, rest) := by
  have hdigits : ∀ c ∈ Nat.toDigits 10 n, c.isDigit = true := fun _ => Nat.isDigit_of_mem_toDigits (by decide) (by decide)
  have htake : rest.takeWhile Char.isDigit = [] := by
    cases rest with
    | nil => rfl
    | cons c rest => exact List.takeWhile_cons_of_neg (by simp [hrest c rfl])
  have hdrop : rest.dropWhile Char.isDigit = rest := by
    cases rest with
    | nil => rfl
    | cons c rest => exact List.dropWhile_cons_of_neg (by simp [hrest c rfl])
  rw [readNat, List.takeWhile_append_of_pos hdigits, List.dropWhile_append_of_pos hdigits, htake, hdrop, List.append_nil]
  cases heq : Nat.toDigits 10 n with
  | nil => exact absurd heq Nat.toDigits_ne_nil
  | cons c cs =>
      change some (Nat.ofDigitChars 10 (c :: cs) 0, rest) = some (n, rest)
      rw [← heq, Nat.ofDigitChars_ten_toDigits]

theorem exists_toDigits (n : ℕ) : ∃ c cs, Nat.toDigits 10 n = c :: cs ∧ c.isDigit = true := by
  cases heq : Nat.toDigits 10 n with
  | nil => exact absurd heq Nat.toDigits_ne_nil
  | cons c cs => exact ⟨c, cs, rfl, Nat.isDigit_of_mem_toDigits (n := n) (by decide) le_rfl (by simp [heq])⟩

theorem ne_of_isDigit {c d : Char} (hc : c.isDigit = true) (hd : d.isDigit = false) : c ≠ d := by
  rintro rfl
  rw [hc] at hd
  cases hd

theorem readInt_writeInt (n : Int) {rest : List Char} (hrest : ∀ c ∈ rest.head?, c.isDigit = false) :
    readInt (writeInt n ++ rest) = some (n, rest) := by
  cases n with
  | ofNat n =>
      have hread := readNat_toDigits n hrest
      obtain ⟨c, cs, hdigits, hc⟩ := exists_toDigits n
      rw [hdigits, List.cons_append] at hread
      rw [writeInt, hdigits, List.cons_append, readInt, if_neg (ne_of_isDigit hc rfl), hread]
      rfl
  | negSucc n =>
      rw [writeInt, List.cons_append, readInt, if_pos rfl, readNat_toDigits (n + 1) hrest]
      rfl

theorem exists_writeInt (n : Int) : ∃ c cs, writeInt n = c :: cs ∧ (c.isDigit = true ∨ c = '-') := by
  cases n with
  | ofNat n =>
      obtain ⟨c, cs, hdigits, hc⟩ := exists_toDigits n
      exact ⟨c, cs, hdigits, Or.inl hc⟩
  | negSucc n => exact ⟨'-', _, rfl, Or.inr rfl⟩

def readNumber (text : List Char) : Option (Value × List Char) :=
  match readInt text with
  | some (n, '.' :: rest) => some (.float (UInt64.ofNat n.toNat), rest.drop 1)
  | some (n, rest) => some (.integer n, rest)
  | none => none

/-- Texts of which each has a comma before it, up to a closing bracket. -/
def manyText (close : Char) : List (List Char) → List Char
  | [] => [close]
  | text :: texts => ',' :: (text ++ manyText close texts)

/-- Texts with commas between them, up to a closing bracket. -/
def listText (close : Char) (texts : List (List Char)) : List Char :=
  match texts with
  | [] => [close]
  | text :: texts => text ++ manyText close texts

section Lists

variable {α : Type} (read : List Char → Option (α × List Char)) (close : Char)

def readMany : ℕ → List Char → Option (List α × List Char)
  | fuel + 1, c :: text =>
      if c = ',' then do
        let (a, text) ← read text
        let (l, rest) ← readMany fuel text
        return (a :: l, rest)
      else if c = close then some ([], text)
      else none
  | _, _ => none

def readList (text : List Char) : Option (List α × List Char) :=
  if text.head? = some close then some ([], text.tail) else readMany read close (text.length + 1) (',' :: text)

variable {read close} {write : α → List Char} {l : List α}

theorem length_lt_manyText (close : Char) (texts : List (List Char)) : texts.length < (manyText close texts).length := by
  induction texts with
  | nil => exact Nat.zero_lt_one
  | cons text texts ih =>
      rw [manyText, List.length_cons, List.length_cons, List.length_append]
      omega

theorem succ_length_lt_manyText (close : Char) {text : List Char} {texts : List (List Char)} (h : text ∈ texts) :
    text.length + 1 < (manyText close texts).length := by
  induction texts with
  | nil => cases h
  | cons first texts ih =>
      rw [manyText, List.length_cons, List.length_append]
      rcases List.mem_cons.mp h with rfl | hrest
      · have hpos := length_lt_manyText close texts
        omega
      · have hlength := ih hrest
        omega

theorem manyText_eq_cons {texts : List (List Char)} (h : texts ≠ []) :
    manyText close texts = ',' :: listText close texts := by
  cases texts with
  | nil => exact absurd rfl h
  | cons text texts => rfl

theorem length_lt_listText (close : Char) {text : List Char} {texts : List (List Char)} (h : text ∈ texts) :
    text.length < (listText close texts).length := by
  have hlength := succ_length_lt_manyText close h
  rw [manyText_eq_cons (List.ne_nil_of_mem h), List.length_cons] at hlength
  omega

theorem ends_manyText (hclose : close.isDigit = false ∧ close ≠ '.') (texts : List (List Char)) (rest : List Char) :
    Ends (manyText close texts ++ rest) := by
  rintro c hc
  cases texts with
  | nil =>
      obtain rfl := Option.some.inj hc
      exact hclose
  | cons text texts =>
      obtain rfl := Option.some.inj hc
      decide

theorem readMany_manyText (hclose : close.isDigit = false ∧ close ≠ '.') (hcomma : close ≠ ',')
    (hread : ∀ a ∈ l, ∀ rest, Ends rest → read (write a ++ rest) = some (a, rest)) {fuel : ℕ} (hfuel : l.length < fuel)
    (rest : List Char) : readMany read close fuel (manyText close (l.map write) ++ rest) = some (l, rest) := by
  induction l generalizing fuel with
  | nil =>
      cases fuel with
      | zero => cases hfuel
      | succ fuel => rw [List.map_nil, manyText, List.singleton_append, readMany, if_neg hcomma, if_pos rfl]
  | cons a l ih =>
      cases fuel with
      | zero => cases hfuel
      | succ fuel =>
          have hfirst := hread a List.mem_cons_self _ (ends_manyText hclose (l.map write) rest)
          have hrest := ih (fun b hb => hread b (List.mem_cons_of_mem _ hb)) (Nat.lt_of_succ_lt_succ hfuel)
          rw [List.map_cons, manyText, List.cons_append, List.append_assoc, readMany, if_pos rfl, hfirst]
          simp only [Option.bind_eq_bind, Option.bind_some, hrest]
          rfl

theorem readList_listText (hclose : close.isDigit = false ∧ close ≠ '.') (hcomma : close ≠ ',')
    (hread : ∀ a ∈ l, ∀ rest, Ends rest → read (write a ++ rest) = some (a, rest))
    (hhead : ∀ a ∈ l, ∃ c cs, write a = c :: cs ∧ c ≠ close) (rest : List Char) :
    readList read close (listText close (l.map write) ++ rest) = some (l, rest) := by
  cases l with
  | nil => simp [readList, listText]
  | cons a l =>
      have hfuel : (a :: l).length < (listText close ((a :: l).map write) ++ rest).length + 1 := by
        have hlength := length_lt_manyText close ((a :: l).map write)
        rw [manyText_eq_cons (by simp), List.length_cons, List.length_map] at hlength
        rw [List.length_append]
        omega
      have hmany := readMany_manyText hclose hcomma hread hfuel rest
      obtain ⟨c, cs, ha, hc⟩ := hhead a List.mem_cons_self
      rw [readList, if_neg, ← hmany]
      · rfl
      · simp [listText, ha, hc]

end Lists

mutual

def write : Value → List Char
  | .null => "null".toList
  | .bool true => "true".toList
  | .bool false => "false".toList
  | .integer n => writeInt n
  | .float bits => Nat.toDigits 10 bits.toNat ++ ['.', '0']
  | .string s => writeString s
  | .array items => '[' :: listText ']' (writeItems items)
  | .object members => '{' :: listText '}' (writeMembers members)

def writeItems : List Value → List (List Char)
  | [] => []
  | v :: items => write v :: writeItems items

def writeMembers : List (String × Value) → List (List Char)
  | [] => []
  | (name, v) :: members => (writeString name ++ ':' :: write v) :: writeMembers members

end

theorem writeItems_eq_map (items : List Value) : writeItems items = items.map write := by
  induction items with
  | nil => rfl
  | cons v items ih => rw [writeItems, ih, List.map_cons]

def writeMember (m : String × Value) : List Char := writeString m.1 ++ ':' :: write m.2

theorem writeMembers_eq_map (members : List (String × Value)) : writeMembers members = members.map writeMember := by
  induction members with
  | nil => rfl
  | cons m members ih => rw [writeMembers, ih, List.map_cons, writeMember]

def readWord (word : String) (v : Value) (text : List Char) : Option (Value × List Char) :=
  if word.toList.isPrefixOf text then some (v, text.drop word.toList.length) else none

def readMember (readValue : List Char → Option (Value × List Char)) : List Char → Option ((String × Value) × List Char)
  | '"' :: text =>
      match readChars text with
      | some (name, ':' :: text) => (readValue text).map fun read => ((String.ofList name, read.1), read.2)
      | _ => none
  | _ => none

def readValue : ℕ → List Char → Option (Value × List Char)
  | fuel + 1, c :: text =>
      if c = '"' then (readChars text).map fun read => (.string (String.ofList read.1), read.2)
      else if c = '[' then (readList (readValue fuel) ']' text).map fun read => (.array read.1, read.2)
      else if c = '{' then (readList (readMember (readValue fuel)) '}' text).map fun read => (.object read.1, read.2)
      else if c = 'n' then readWord "null" .null (c :: text)
      else if c = 't' then readWord "true" (.bool true) (c :: text)
      else if c = 'f' then readWord "false" (.bool false) (c :: text)
      else readNumber (c :: text)
  | _, _ => none

/-- No document begins with a closing bracket. -/
theorem exists_write (v : Value) : ∃ c cs, write v = c :: cs ∧ c ≠ ']' := by
  cases v with
  | null => exact ⟨'n', _, rfl, by decide⟩
  | bool b =>
      cases b with
      | true => exact ⟨'t', _, rfl, by decide⟩
      | false => exact ⟨'f', _, rfl, by decide⟩
  | integer n =>
      obtain ⟨c, cs, hn, hdigit | rfl⟩ := exists_writeInt n
      · exact ⟨c, cs, hn, ne_of_isDigit hdigit rfl⟩
      · exact ⟨'-', cs, hn, by decide⟩
  | float bits =>
      obtain ⟨c, cs, hdigits, hc⟩ := exists_toDigits bits.toNat
      exact ⟨c, cs ++ ['.', '0'], by rw [write, hdigits, List.cons_append], ne_of_isDigit hc rfl⟩
  | string s => exact ⟨'"', _, rfl, by decide⟩
  | array items => exact ⟨'[', _, rfl, by decide⟩
  | object members => exact ⟨'{', _, rfl, by decide⟩

theorem readNumber_writeInt (n : Int) {rest : List Char} (hrest : Ends rest) :
    readNumber (writeInt n ++ rest) = some (.integer n, rest) := by
  rw [readNumber, readInt_writeInt n fun c hc => (hrest c hc).1]
  cases rest with
  | nil => rfl
  | cons c rest =>
      have hc := (hrest c rfl).2
      simp [hc]

theorem readNumber_float (bits : UInt64) (rest : List Char) :
    readNumber (Nat.toDigits 10 bits.toNat ++ '.' :: '0' :: rest) = some (.float bits, rest) := by
  have hpoint : ∀ c ∈ ('.' :: '0' :: rest).head?, c.isDigit = false := by
    rintro c ⟨⟩
    rfl
  have hread : readInt (Nat.toDigits 10 bits.toNat ++ '.' :: '0' :: rest) =
    some (Int.ofNat bits.toNat, '.' :: '0' :: rest) :=
    readInt_writeInt (.ofNat bits.toNat) hpoint
  rw [readNumber, hread]
  simp

/-- A text that begins like a number is read as one. -/
theorem readValue_number {fuel : ℕ} {c : Char} (hc : c.isDigit = true ∨ c = '-') (text : List Char) :
    readValue (fuel + 1) (c :: text) = readNumber (c :: text) := by
  have hne : ∀ d : Char, d.isDigit = false → d ≠ '-' → c ≠ d := by
    rintro d hd hminus rfl
    rcases hc with hc | hc
    · exact ne_of_isDigit hc hd rfl
    · exact hminus hc
  simp only [readValue, if_neg (hne '"' rfl (by decide)), if_neg (hne '[' rfl (by decide)),
    if_neg (hne '{' rfl (by decide)), if_neg (hne 'n' rfl (by decide)), if_neg (hne 't' rfl (by decide)),
      if_neg (hne 'f' rfl (by decide))]

theorem readMember_writeMember {read : List Char → Option (Value × List Char)} {m : String × Value} {rest : List Char}
    (h : read (write m.2 ++ rest) = some (m.2, rest)) : readMember read (writeMember m ++ rest) = some (m, rest) := by
  have hname := readChars_flatMap_quoteChar m.1.toList (':' :: (write m.2 ++ rest))
  simp only [writeMember, writeString, List.cons_append, List.append_assoc, List.nil_append, readMember, hname, h,
    Option.map_some, String.ofList_toList]

/-- What is written is read, whatever follows. The induction is on the length of the text, which the parts of a document
have less of. -/
theorem readValue_write {fuel : ℕ} {v : Value} (hfuel : (write v).length ≤ fuel) {rest : List Char} (hrest : Ends rest) :
    readValue fuel (write v ++ rest) = some (v, rest) := by
  induction fuel generalizing v rest with
  | zero =>
      obtain ⟨c, cs, hv, -⟩ := exists_write v
      rw [hv] at hfuel
      cases hfuel
  | succ fuel ih =>
      cases v with
      | null => rfl
      | bool b =>
          cases b with
          | true => rfl
          | false => rfl
      | integer n =>
          have hread := readNumber_writeInt n hrest
          obtain ⟨c, cs, hn, hc⟩ := exists_writeInt n
          rw [hn, List.cons_append] at hread
          rw [write, hn, List.cons_append, readValue_number hc, hread]
      | float bits =>
          have hread := readNumber_float bits rest
          obtain ⟨c, cs, hdigits, hc⟩ := exists_toDigits bits.toNat
          rw [hdigits, List.cons_append] at hread
          rw [write, hdigits, List.append_assoc, List.cons_append, readValue_number (Or.inl hc)]
          exact hread
      | string s =>
          have hread := readChars_flatMap_quoteChar s.toList rest
          simp only [write, writeString, List.cons_append, List.append_assoc, List.nil_append, readValue, if_pos, hread,
            Option.map_some, String.ofList_toList]
      | array items =>
          have hread : ∀ v ∈ items, ∀ rest, Ends rest → readValue fuel (write v ++ rest) = some (v, rest) := by
            intro v hv rest hrest
            have hlength := length_lt_listText ']' (List.mem_map_of_mem (f := write) hv)
            rw [write, writeItems_eq_map, List.length_cons] at hfuel
            exact ih (by omega) hrest
          have hlist := readList_listText (by decide) (by decide) hread (fun v _ => exists_write v) rest
          rw [write, writeItems_eq_map, List.cons_append, readValue, if_neg (by decide), if_pos rfl, hlist,
            Option.map_some]
      | object members =>
          have hread : ∀ m ∈ members, ∀ rest, Ends rest →
              readMember (readValue fuel) (writeMember m ++ rest) = some (m, rest) := by
            intro m hm rest hrest
            have hlength := length_lt_listText '}' (List.mem_map_of_mem (f := writeMember) hm)
            rw [write, writeMembers_eq_map, List.length_cons] at hfuel
            rw [writeMember, List.length_append, List.length_cons] at hlength
            exact readMember_writeMember (ih (by omega) hrest)
          have hhead : ∀ m ∈ members, ∃ c cs, writeMember m = c :: cs ∧ c ≠ '}' := fun _ _ => ⟨'"', _, rfl, by decide⟩
          have hlist := readList_listText (by decide) (by decide) hread hhead rest
          rw [write, writeMembers_eq_map, List.cons_append, readValue, if_neg (by decide), if_neg (by decide), if_pos rfl,
            hlist, Option.map_some]

/-- A whole text is one document. -/
def fromSlice (b : Bytes) : Option Value := do
  let text ← fromUtf8 b
  match readValue text.toList.length text.toList with
  | some (v, []) => some v
  | _ => none

def toVec (v : Value) : Bytes := asBytes (String.ofList (write v))

theorem fromSlice_toVec (v : Value) : fromSlice (toVec v) = some v := by
  have hend : Ends [] := by rintro c ⟨⟩
  have hread := readValue_write (v := v) le_rfl hend
  rw [List.append_nil] at hread
  simp only [fromSlice, toVec, fromUtf8_asBytes, Option.bind_eq_bind, Option.bind_some, String.toList_ofList, hread]

example : toVec (.array [.integer (-2), .bool false, .array [], .string "a\"b"]) = asBytes "[-2,false,[],\"a\\\"b\"]" := by
  decide

/-- A time as its seconds, a point and its nanoseconds. -/
def timeToString (t : DateTime) : String := String.ofList (writeInt t.secs ++ '.' :: Nat.toDigits 10 t.nanos)

def timeFromStr (s : String) : Option DateTime :=
  match readInt s.toList with
  | some (secs, '.' :: text) =>
      match readNat text with
      | some (nanos, []) => some ⟨secs, nanos⟩
      | _ => none
  | _ => none

theorem timeFromStr_timeToString (t : DateTime) : timeFromStr (timeToString t) = some t := by
  have hpoint : ∀ c ∈ ('.' :: Nat.toDigits 10 t.nanos).head?, c.isDigit = false := by
    rintro c ⟨⟩
    rfl
  have hnanos : readNat (Nat.toDigits 10 t.nanos ++ []) = some (t.nanos, []) := readNat_toDigits t.nanos (by rintro c ⟨⟩)
  rw [List.append_nil] at hnanos
  simp only [timeFromStr, timeToString, String.toList_ofList, readInt_writeInt t.secs hpoint, hnanos]

end JsonText

end SecretBroker

import SecretBroker.LibBytes

/-! Text as Rust's `str` handles it: UTF-8 bytes, trimming of Unicode white space, stripping a
literal head, splitting at the first separator, and reading a 32-bit decimal. -/

namespace Wire

/-- `str::as_bytes`. -/
def asBytes (s : String) : Bytes := s.toByteArray.data.toList

/-- `std::str::from_utf8`. -/
def fromUtf8 (b : Bytes) : Option String := String.fromUTF8? ⟨b.toArray⟩

@[simp] theorem fromUtf8_asBytes (s : String) : fromUtf8 (asBytes s) = some s := by
  have harray : (⟨(asBytes s).toArray⟩ : ByteArray) = s.toByteArray := by simp [asBytes]
  rw [fromUtf8, harray, String.fromUTF8?, dif_pos s.isValidUTF8]
  rfl

theorem asBytes_injective : Function.Injective asBytes := by
  intro s t h
  have htext := congrArg fromUtf8 h
  rwa [fromUtf8_asBytes, fromUtf8_asBytes, Option.some_inj] at htext

theorem asBytes_of_fromUtf8 {b : Bytes} {s : String} (h : fromUtf8 b = some s) : asBytes s = b := by
  rw [fromUtf8, String.fromUTF8?] at h
  split_ifs at h with hvalid
  cases h
  rfl

@[simp] theorem asBytes_append (s t : String) : asBytes (s ++ t) = asBytes s ++ asBytes t := by
  simp [asBytes]

/-- A text of characters of one byte. -/
theorem length_asBytes_ofList {l : List Char} (h : ∀ c ∈ l, c.utf8Size = 1) :
    (asBytes (String.ofList l)).length = l.length := by
  have hsize : (asBytes (String.ofList l)).length = String.utf8Len l := by
    rw [← String.utf8ByteSize_ofList, ← String.size_toByteArray]
    rfl
  rw [hsize]
  clear hsize
  induction l with
  | nil => rfl
  | cons c l ih =>
      have hrest := ih fun c' hc' => h c' (List.mem_cons_of_mem _ hc')
      simp [h c List.mem_cons_self, hrest]

theorem asBytes_ofList (l : List Char) : asBytes (String.ofList l) = l.flatMap String.utf8EncodeChar := by
  rw [asBytes, String.toByteArray_ofList, List.utf8Encode, List.data_toByteArray]

/-- A byte below 128 stands only for the character of that number. -/
theorem ofNat_mem_utf8EncodeChar {c : Char} {n : ℕ} (hn : n < 128) (h : UInt8.ofNat n ∈ String.utf8EncodeChar c) :
    c.toNat = n := by
  have hbyte : (UInt8.ofNat n).toNat = n := by
    rw [UInt8.toNat_ofNat', Nat.mod_eq_of_lt (by omega)]
  -- every byte of a longer code is at least 128
  have hhigh : ∀ m, 128 ≤ m → m < 256 → UInt8.ofNat n ≠ UInt8.ofNat m := by
    intro m hm hlt heq
    rw [heq, UInt8.toNat_ofNat', Nat.mod_eq_of_lt hlt] at hbyte
    omega
  rw [String.utf8EncodeChar] at h
  split_ifs at h with h1 h2 h3
  · rw [List.mem_singleton] at h
    rw [h, UInt8.toNat_ofNat', Nat.mod_eq_of_lt (by omega)] at hbyte
    exact hbyte
  all_goals
    simp only [List.mem_cons, List.not_mem_nil, or_false] at h
  · rcases h with h | h
    all_goals exact absurd h (hhigh _ (by omega) (by omega))
  · rcases h with h | h | h
    all_goals exact absurd h (hhigh _ (by omega) (by omega))
  · rcases h with h | h | h | h
    all_goals exact absurd h (hhigh _ (by omega) (by omega))

/-- A text without a character below 128 has no byte of that value. -/
theorem ofNat_notMem_asBytes {s : String} {n : ℕ} (hn : n < 128) (h : ∀ c ∈ s.toList, c.toNat ≠ n) :
    UInt8.ofNat n ∉ asBytes s := by
  rw [← String.ofList_toList (s := s), asBytes_ofList, List.mem_flatMap]
  intro ⟨c, hc, hbyte⟩
  exact h c hc (ofNat_mem_utf8EncodeChar hn hbyte)

/-- The Unicode `White_Space` property, which `str::trim` uses. -/
def isWhiteSpace (c : Char) : Bool :=
  (9 ≤ c.toNat && c.toNat ≤ 13) || c.toNat == 0x20 || c.toNat == 0x85 || c.toNat == 0xA0 ||
    c.toNat == 0x1680 || (0x2000 ≤ c.toNat && c.toNat ≤ 0x200A) || c.toNat == 0x2028 ||
    c.toNat == 0x2029 || c.toNat == 0x202F || c.toNat == 0x205F || c.toNat == 0x3000

/-- `str::trim`. -/
def trim (s : String) : String :=
  String.ofList ((s.toList.dropWhile isWhiteSpace).rdropWhile isWhiteSpace)

/-- A string that starts and ends with no white space. -/
def Trimmed (l : List Char) : Prop :=
  (∀ c ∈ l.head?, isWhiteSpace c = false) ∧ ∀ c ∈ l.getLast?, isWhiteSpace c = false

theorem trim_of_trimmed {s : String} (h : Trimmed s.toList) : trim s = s := by
  have hfront : s.toList.dropWhile isWhiteSpace = s.toList := by
    rw [List.dropWhile_eq_self_iff]
    intro hlen
    have := h.1 (s.toList[0]) (by simp [List.head?_eq_getElem?, hlen])
    simp [this]
  have hback : s.toList.rdropWhile isWhiteSpace = s.toList := by
    rw [List.rdropWhile_eq_self_iff]
    intro hne
    have := h.2 (s.toList.getLast hne) (by simp [List.getLast?_eq_some_getLast hne])
    simp [this]
  rw [trim, hfront, hback, String.ofList_toList]

theorem trimmed_of_all {l : List Char} (h : ∀ c ∈ l, isWhiteSpace c = false) : Trimmed l :=
  ⟨fun c hc => h c (List.mem_of_mem_head? hc), fun c hc => h c (List.mem_of_mem_getLast? hc)⟩

theorem trimmed_trim (s : String) : Trimmed (trim s).toList := by
  rw [trim, String.toList_ofList]
  generalize hm : s.toList.dropWhile isWhiteSpace = m
  constructor
  · -- the first character of what is left is the first one that `dropWhile` kept
    intro c hc
    have hpre : m.rdropWhile isWhiteSpace <+: m := List.rdropWhile_prefix _ _
    obtain ⟨rest, hrest⟩ := hpre
    have hmem : c ∈ m.head? := by
      rw [← hrest, List.head?_append, Option.mem_def.mp hc]
      rfl
    have hhead : m.head? = some c := hmem
    have hnot : ¬ isWhiteSpace c = true := by
      have hne : s.toList.dropWhile isWhiteSpace ≠ [] := by
        rw [hm]
        rintro rfl
        cases hhead
      have hfirst := List.head_dropWhile_not isWhiteSpace hne
      have hc' : (s.toList.dropWhile isWhiteSpace).head hne = c := by
        have : (s.toList.dropWhile isWhiteSpace).head? = some c := by rw [hm, hhead]
        rw [List.head?_eq_some_head hne] at this
        exact Option.some.inj this
      rw [hc'] at hfirst
      simp [hfirst]
    simpa using hnot
  · intro c hc
    have hne : m.rdropWhile isWhiteSpace ≠ [] := by
      intro h
      rw [h] at hc
      cases hc
    have hlast := List.rdropWhile_last_not isWhiteSpace m hne
    rw [List.getLast?_eq_some_getLast hne] at hc
    rw [Option.some.inj (Option.mem_def.mp hc)] at hlast
    simpa using hlast

@[simp] theorem trim_trim (s : String) : trim (trim s) = trim s := trim_of_trimmed (trimmed_trim s)

theorem trim_space (s : String) : trim (" " ++ s) = trim s := by
  rw [trim, trim, String.toList_append]
  rfl

/-- Trimming cuts white space at both ends. -/
theorem exists_append_trim (s : String) : ∃ front back : String, s = front ++ trim s ++ back ∧
    (∀ c ∈ front.toList, isWhiteSpace c = true) ∧ ∀ c ∈ back.toList, isWhiteSpace c = true := by
  refine ⟨String.ofList (s.toList.takeWhile isWhiteSpace),
    String.ofList ((s.toList.dropWhile isWhiteSpace).rtakeWhile isWhiteSpace), String.ext ?_, ?_, ?_⟩
  · rw [String.toList_append, String.toList_append, String.toList_ofList, String.toList_ofList, trim,
      String.toList_ofList, List.append_assoc, List.rdropWhile_append_rtakeWhile, List.takeWhile_append_dropWhile]
  · intro c hc
    rw [String.toList_ofList] at hc
    exact List.mem_takeWhile_imp hc
  · intro c hc
    rw [String.toList_ofList] at hc
    exact List.mem_rtakeWhile_imp hc

/-- Trimming takes away white space only. -/
theorem mem_trim {c : Char} {s : String} (hc : isWhiteSpace c = false) : c ∈ (trim s).toList ↔ c ∈ s.toList := by
  obtain ⟨front, back, hs, hfront, hback⟩ := exists_append_trim s
  constructor
  · intro hmem
    rw [hs, String.toList_append, String.toList_append]
    exact List.mem_append_left _ (List.mem_append_right _ hmem)
  · intro hmem
    rw [hs, String.toList_append, String.toList_append, List.mem_append, List.mem_append] at hmem
    rcases hmem with (hmem | hmem) | hmem
    · rw [hfront c hmem] at hc
      cases hc
    · exact hmem
    · rw [hback c hmem] at hc
      cases hc

/-- What trims to nothing is white space. -/
theorem isWhiteSpace_of_trim_eq_empty {s : String} (h : trim s = "") : ∀ c ∈ s.toList, isWhiteSpace c = true := by
  intro c hc
  by_contra hne
  have hmem := (mem_trim (eq_false_of_ne_true hne)).mpr hc
  rw [h] at hmem
  cases hmem

theorem rdropWhile_append_cons {p : Char → Bool} {c : Char} (hc : p c = false) (l r : List Char) :
    (l ++ c :: r).rdropWhile p = l ++ c :: r.rdropWhile p := by
  have hkept : (c :: l.reverse).dropWhile p = c :: l.reverse := List.dropWhile_cons_of_neg (by simp [hc])
  simp only [List.rdropWhile, List.reverse_append, List.reverse_cons, List.append_assoc, List.singleton_append,
    List.dropWhile_append, hkept]
  split_ifs with hempty
  · simp [List.isEmpty_iff.mp hempty]
  · simp

theorem length_asBytes_trim_le (s : String) : (asBytes (trim s)).length ≤ (asBytes s).length := by
  obtain ⟨front, back, hs, -⟩ := exists_append_trim s
  calc (asBytes (trim s)).length
      ≤ (asBytes front).length + (asBytes (trim s)).length + (asBytes back).length := by omega
    _ = (asBytes s).length := by
        conv_rhs => rw [hs]
        rw [asBytes_append, asBytes_append, List.length_append, List.length_append]

/-- `str::strip_prefix`. -/
def stripHead (head s : String) : Option String :=
  if head.toList.isPrefixOf s.toList then some (String.ofList (s.toList.drop head.toList.length)) else none

@[simp] theorem stripHead_append (head s : String) : stripHead head (head ++ s) = some s := by
  simp [stripHead]

theorem stripHead_eq_some {head s rest : String} : stripHead head s = some rest ↔ s = head ++ rest := by
  constructor
  · intro h
    unfold stripHead at h
    split_ifs at h with hhead
    obtain ⟨tail, htail⟩ := List.isPrefixOf_iff_prefix.mp hhead
    rw [← htail, List.drop_left, Option.some.injEq] at h
    rw [← h, ← String.ofList_toList (s := s), ← htail, String.ofList_append, String.ofList_toList]
  · rintro rfl
    exact stripHead_append head rest

/-- The first place where a separator starts, with what stands before and after it. -/
def splitChars (sep : List Char) : List Char → Option (List Char × List Char)
  | [] => if sep = [] then some ([], []) else none
  | c :: cs =>
      if sep.isPrefixOf (c :: cs) then some ([], (c :: cs).drop sep.length)
      else (splitChars sep cs).map fun parts => (c :: parts.1, parts.2)

/-- `str::split_once`. -/
def splitOnce (sep s : String) : Option (String × String) :=
  (splitChars sep.toList s.toList).map fun parts => (String.ofList parts.1, String.ofList parts.2)

theorem splitChars_append {c : Char} {sep key : List Char} (hkey : c ∉ key) (value : List Char) :
    splitChars (c :: sep) (key ++ (c :: sep) ++ value) = some (key, value) := by
  induction key with
  | nil => simp [splitChars]
  | cons k key ih =>
      have hk : (c == k) = false := by
        rw [beq_eq_false_iff_ne]
        rintro rfl
        exact hkey List.mem_cons_self
      have hnot : ¬ (c :: sep).isPrefixOf (k :: (key ++ (c :: sep) ++ value)) = true := by
        simp [List.isPrefixOf, hk]
      have hrest := ih (fun h => hkey (List.mem_cons_of_mem _ h))
      rw [List.cons_append, List.cons_append, splitChars, if_neg hnot, hrest]
      rfl

/-- A separator is found where it was put if its first character does not occur before. -/
theorem splitOnce_append {c : Char} {sep : List Char} {key sepStr : String} (hsep : sepStr.toList = c :: sep)
    (hkey : c ∉ key.toList) (value : String) : splitOnce sepStr (key ++ sepStr ++ value) = some (key, value) := by
  simp only [splitOnce, String.toList_append, hsep, splitChars_append hkey, Option.map_some,
    String.ofList_toList]

/-- Two runs of characters of one class, each followed by nothing or by a character outside of it, end in the same
place. -/
theorem append_inj_of_class {p : Char → Bool} {a a' b b' : List Char} (ha : ∀ c ∈ a, p c = true)
    (ha' : ∀ c ∈ a', p c = true) (hb : ∀ c ∈ b.head?, p c = false) (hb' : ∀ c ∈ b'.head?, p c = false)
    (h : a ++ b = a' ++ b') : a = a' ∧ b = b' := by
  have hcut : ∀ {l r : List Char}, (∀ c ∈ l, p c = true) → (∀ c ∈ r.head?, p c = false) → (l ++ r).takeWhile p = l := by
    intro l r hl hr
    have hstop : r.takeWhile p = [] := by
      cases r with
      | nil => rfl
      | cons c r => rw [List.takeWhile_cons_of_neg (by simp [hr c rfl])]
    rw [List.takeWhile_append_of_pos hl, hstop, List.append_nil]
  have hfirst : a = a' := by rw [← hcut ha hb, h, hcut ha' hb']
  rw [hfirst] at h
  exact ⟨hfirst, List.append_cancel_left h⟩

/-- No piece of a split has the separator. -/
theorem notMem_of_mem_splitOn {c : Char} {l piece : List Char} (h : piece ∈ l.splitOn c) : c ∉ piece := by
  induction l generalizing piece with
  | nil =>
      obtain rfl : piece = [] := by simpa using h
      exact List.not_mem_nil
  | cons d l ih =>
      rw [List.splitOn, List.splitOnP_cons_eq_if_modifyHead] at h
      obtain ⟨first, rest, hsplit⟩ := List.exists_cons_of_ne_nil (List.splitOn_ne_nil c l)
      rw [← List.splitOn, hsplit] at h
      rw [hsplit] at ih
      split_ifs at h with hd
      · rcases List.mem_cons.mp h with rfl | hpiece
        · exact List.not_mem_nil
        · exact ih hpiece
      · rcases List.mem_cons.mp h with rfl | hpiece
        · rw [List.mem_cons, not_or]
          refine ⟨fun hc => hd ?_, ih List.mem_cons_self⟩
          rw [hc, beq_self_eq_true]
        · exact ih (List.mem_cons_of_mem _ hpiece)

/-- `char::to_ascii_lowercase`. -/
def asciiLower (c : Char) : Char := if 65 ≤ c.toNat ∧ c.toNat ≤ 90 then Char.ofNat (c.toNat + 32) else c

/-- `str::to_ascii_lowercase`. -/
def toAsciiLowercase (s : String) : String := String.ofList (s.toList.map asciiLower)

theorem toNat_asciiLower (c : Char) :
    (asciiLower c).toNat = if 65 ≤ c.toNat ∧ c.toNat ≤ 90 then c.toNat + 32 else c.toNat := by
  unfold asciiLower
  split_ifs with h
  · rw [Char.toNat_ofNat, if_pos (Or.inl (by omega))]
  · rfl

theorem asciiLower_of_not {c : Char} (h : ¬ (65 ≤ c.toNat ∧ c.toNat ≤ 90)) : asciiLower c = c := if_neg h

@[simp] theorem asciiLower_asciiLower (c : Char) : asciiLower (asciiLower c) = asciiLower c := by
  apply asciiLower_of_not
  rw [toNat_asciiLower]
  split_ifs
  · omega
  · omega

/-- The digits of a `u32` literal, accumulated with overflow check. -/
def parseDigits : Nat → List Char → Option Nat
  | acc, [] => some acc
  | acc, c :: cs =>
      if 48 ≤ c.toNat ∧ c.toNat ≤ 57 then
        let next := acc * 10 + (c.toNat - 48)
        if next < 2 ^ 32 then parseDigits next cs else none
      else none

/-- `str::parse::<u32>`: an optional plus sign and at least one digit. -/
def parseU32 (s : String) : Option Nat :=
  match s.toList with
  | [] => none
  | ['+'] => none
  | '+' :: cs => parseDigits 0 cs
  | cs => parseDigits 0 cs

example : parseU32 "1" = some 1 := by decide

example : parseU32 "4294967296" = none := by decide

end Wire

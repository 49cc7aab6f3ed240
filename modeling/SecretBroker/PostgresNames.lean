import SecretBroker.LibSql
import SecretBroker.PostgresLease

/-! The names in the statements of a lease. A name of a caller is one token of the statement it is put into, whatever its
characters are. An application name is also cleaned, and there the cleaning can leave a space at either end. -/

open Wire

namespace SecretBroker.Postgres

theorem quoteIdentifier_eq (input : String) : quoteIdentifier input = Sql.quote .double input := by
  apply String.ext
  rw [quoteIdentifier, String.toList_append, String.toList_append, doubling, String.toList_ofList, Sql.quote,
    String.toList_ofList, String.toList_ofList]
  rfl

theorem quoteLiteral_eq (input : String) : quoteLiteral input = Sql.quote .single input := by
  apply String.ext
  rw [quoteLiteral, String.toList_append, String.toList_append, doubling, String.toList_ofList, Sql.quote,
    String.toList_ofList, String.toList_ofList]
  rfl

/-- The names in a privilege. -/
def Privilege.values : Privilege → List String
  | .connect database => [database]
  | .usage schema | .tables schema | .sequences schema => [schema]
  | .member role => [role]

/-- The names and strings in a statement. -/
def Statement.values (chrono : Chrono) : Statement → List String
  | .createRole username password validUntil => [username, password, chrono.toRfc3339 validUntil]
  | .grant privilege username => privilege.values ++ [username]
  | .setApplicationName username appName => [username, appName]
  | .dropRole username => [username]

def words (texts : List String) : List Sql.Token := texts.map .word

/-- The tokens of a privilege, its name being one of them. -/
def Privilege.tokens : Privilege → List Sql.Token
  | .connect database => words ["CONNECT", "ON", "DATABASE"] ++ [.identifier database]
  | .usage schema => words ["USAGE", "ON", "SCHEMA"] ++ [.identifier schema]
  | .tables schema => [.word "SELECT", .symbol ',', .word "INSERT", .symbol ',', .word "UPDATE", .symbol ','] ++
      words ["DELETE", "ON", "ALL", "TABLES", "IN", "SCHEMA"] ++ [.identifier schema]
  | .sequences schema => [.word "USAGE", .symbol ',', .word "SELECT", .symbol ','] ++
      words ["UPDATE", "ON", "ALL", "SEQUENCES", "IN", "SCHEMA"] ++ [.identifier schema]
  | .member role => [.identifier role]

/-- The tokens of a statement, each of its names and strings being one of them. -/
def Statement.tokens (chrono : Chrono) : Statement → List Sql.Token
  | .createRole username password validUntil => words ["CREATE", "ROLE"] ++ [.identifier username] ++
      words ["WITH", "LOGIN", "PASSWORD"] ++ [.literal password] ++ words ["VALID", "UNTIL"] ++
      [.literal (chrono.toRfc3339 validUntil)]
  | .grant privilege username => words ["GRANT"] ++ privilege.tokens ++ words ["TO"] ++ [.identifier username]
  | .setApplicationName username appName => words ["ALTER", "ROLE"] ++ [.identifier username] ++
      words ["SET", "application_name"] ++ [.symbol '='] ++ [.literal appName]
  | .dropRole username => words ["DROP", "ROLE", "IF", "EXISTS"] ++ [.identifier username]

theorem lex_identifier {name : String} (hname : Sql.NoNul name) : Sql.lex (quoteIdentifier name) = [.identifier name] := by
  rw [quoteIdentifier_eq, Sql.lex_quote hname]
  rfl

theorem lex_literal {value : String} (hvalue : Sql.NoNul value) : Sql.lex (quoteLiteral value) = [.literal value] := by
  rw [quoteLiteral_eq, Sql.lex_quote hvalue]
  rfl

/-- A name, and after it a text that starts with a blank. -/
theorem lex_identifier_append {name text : String} (hname : Sql.NoNul name) (htext : text.toList.head? = some ' ')
    (rest : String) : Sql.lex (quoteIdentifier name ++ (text ++ rest)) = .identifier name :: Sql.lex (text ++ rest) := by
  rw [quoteIdentifier_eq, (Sql.complete_quote hname).append htext, Sql.lex_quote hname]
  rfl

theorem lex_literal_append {value text : String} (hvalue : Sql.NoNul value) (htext : text.toList.head? = some ' ')
    (rest : String) : Sql.lex (quoteLiteral value ++ (text ++ rest)) = .literal value :: Sql.lex (text ++ rest) := by
  rw [quoteLiteral_eq, (Sql.complete_quote hvalue).append htext, Sql.lex_quote hvalue]
  rfl

theorem lex_privilege {privilege : Privilege} (hvalues : ∀ v ∈ privilege.values, Sql.NoNul v) :
    Sql.lex privilege.sql = privilege.tokens := by
  cases privilege with
  | connect database =>
      have hconnect : Sql.Spells "CONNECT ON DATABASE " (words ["CONNECT", "ON", "DATABASE"]) := by decide +kernel
      change Sql.lex ("CONNECT ON DATABASE " ++ quoteIdentifier database) = _
      rw [hconnect.append, lex_identifier (hvalues database List.mem_cons_self)]
      rfl
  | usage schema =>
      have husage : Sql.Spells "USAGE ON SCHEMA " (words ["USAGE", "ON", "SCHEMA"]) := by decide +kernel
      change Sql.lex ("USAGE ON SCHEMA " ++ quoteIdentifier schema) = _
      rw [husage.append, lex_identifier (hvalues schema List.mem_cons_self)]
      rfl
  | tables schema =>
      have htables : Sql.Spells "SELECT, INSERT, UPDATE, DELETE ON ALL TABLES IN SCHEMA "
          ([.word "SELECT", .symbol ',', .word "INSERT", .symbol ',', .word "UPDATE", .symbol ','] ++
            words ["DELETE", "ON", "ALL", "TABLES", "IN", "SCHEMA"]) := by decide +kernel
      change Sql.lex ("SELECT, INSERT, UPDATE, DELETE ON ALL TABLES IN SCHEMA " ++ quoteIdentifier schema) = _
      rw [htables.append, lex_identifier (hvalues schema List.mem_cons_self)]
      rfl
  | sequences schema =>
      have hsequences : Sql.Spells "USAGE, SELECT, UPDATE ON ALL SEQUENCES IN SCHEMA "
          ([.word "USAGE", .symbol ',', .word "SELECT", .symbol ','] ++
            words ["UPDATE", "ON", "ALL", "SEQUENCES", "IN", "SCHEMA"]) := by decide +kernel
      change Sql.lex ("USAGE, SELECT, UPDATE ON ALL SEQUENCES IN SCHEMA " ++ quoteIdentifier schema) = _
      rw [hsequences.append, lex_identifier (hvalues schema List.mem_cons_self)]
      rfl
  | member role => exact lex_identifier (hvalues role List.mem_cons_self)

theorem complete_privilege {privilege : Privilege} (hvalues : ∀ v ∈ privilege.values, Sql.NoNul v) :
    Sql.Complete privilege.sql := by
  rw [Sql.Complete, lex_privilege hvalues]
  cases privilege <;> rfl

/-- Every statement has the tokens of its template, with its names and strings in their places. -/
theorem lex_statement {chrono : Chrono} {statement : Statement} (hvalues : ∀ v ∈ statement.values chrono, Sql.NoNul v) :
    Sql.lex (statement.sql chrono) = statement.tokens chrono := by
  cases statement with
  | createRole username password validUntil =>
      have hcreate : Sql.Spells "CREATE ROLE " (words ["CREATE", "ROLE"]) := by decide +kernel
      have hlogin : Sql.Spells " WITH LOGIN PASSWORD " (words ["WITH", "LOGIN", "PASSWORD"]) := by decide +kernel
      have huntil : Sql.Spells " VALID UNTIL " (words ["VALID", "UNTIL"]) := by decide +kernel
      simp only [Statement.values, List.forall_mem_cons] at hvalues
      change Sql.lex ("CREATE ROLE " ++ quoteIdentifier username ++ " WITH LOGIN PASSWORD " ++ quoteLiteral password ++
        " VALID UNTIL " ++ quoteLiteral (chrono.toRfc3339 validUntil)) = _
      simp only [String.append_assoc]
      rw [hcreate.append, lex_identifier_append hvalues.1 (by decide), hlogin.append,
        lex_literal_append hvalues.2.1 (by decide), huntil.append, lex_literal hvalues.2.2.1]
      rfl
  | grant privilege username =>
      have hgrant : Sql.Spells "GRANT " (words ["GRANT"]) := by decide +kernel
      have hto : Sql.Spells " TO " (words ["TO"]) := by decide +kernel
      rw [Statement.values, List.forall_mem_append] at hvalues
      change Sql.lex ("GRANT " ++ privilege.sql ++ " TO " ++ quoteIdentifier username) = _
      simp only [String.append_assoc]
      rw [hgrant.append, (complete_privilege hvalues.1).append (by decide), lex_privilege hvalues.1, hto.append,
        lex_identifier (hvalues.2 username List.mem_cons_self)]
      simp only [Statement.tokens, List.append_assoc]
  | setApplicationName username appName =>
      have halter : Sql.Spells "ALTER ROLE " (words ["ALTER", "ROLE"]) := by decide +kernel
      have hset : Sql.Spells " SET application_name = " (words ["SET", "application_name"] ++ [.symbol '=']) := by
        decide +kernel
      simp only [Statement.values, List.forall_mem_cons] at hvalues
      change Sql.lex ("ALTER ROLE " ++ quoteIdentifier username ++ " SET application_name = " ++ quoteLiteral appName) = _
      simp only [String.append_assoc]
      rw [halter.append, lex_identifier_append hvalues.1 (by decide), hset.append, lex_literal hvalues.2.1]
      rfl
  | dropRole username =>
      have hdrop : Sql.Spells "DROP ROLE IF EXISTS " (words ["DROP", "ROLE", "IF", "EXISTS"]) := by decide +kernel
      change Sql.lex ("DROP ROLE IF EXISTS " ++ quoteIdentifier username) = _
      rw [hdrop.append, lex_identifier (hvalues username List.mem_cons_self)]
      rfl

/-- **Quoted values stay inside their quotes.** A quoted name or string is one token with that value, and what follows it
is read as if it stood alone, unless it starts with the same quote. So a statement of a lease has the tokens of its
template: no name in it can bring in a token of its own. -/
theorem quoted_values_stay_quoted :
    (∀ s t : String, Sql.NoNul s → t.toList.head? ≠ some '"' →
      Sql.lex (quoteIdentifier s ++ t) = .identifier s :: Sql.lex t) ∧
    (∀ s t : String, Sql.NoNul s → t.toList.head? ≠ some '\'' →
      Sql.lex (quoteLiteral s ++ t) = .literal s :: Sql.lex t) ∧
    ∀ (chrono : Chrono) (statement : Statement), (∀ v ∈ statement.values chrono, Sql.NoNul v) →
      Sql.lex (statement.sql chrono) = statement.tokens chrono := by
  refine ⟨fun s t hs ht => ?_, fun s t hs ht => ?_, fun chrono statement hvalues => lex_statement hvalues⟩
  · rw [quoteIdentifier_eq]
    exact Sql.lex_quote_append hs ht
  · rw [quoteLiteral_eq]
    exact Sql.lex_quote_append hs ht

/-- A scope that tries to end the statement and start another one is the name of a role. -/
theorem quoted_values_hostile :
    Sql.lex ((Statement.grant (.member "x\"; DROP ROLE admin; --") "lease_0").sql Chrono.packed) =
      [.word "GRANT", .identifier "x\"; DROP ROLE admin; --", .word "TO", .identifier "lease_0"] :=
  quoted_values_stay_quoted.2.2 Chrono.packed (.grant (.member "x\"; DROP ROLE admin; --") "lease_0") (by decide)

/-- What the cleaning leaves of an input, before it is cut. -/
def keptCharacters (input : String) : List Char := (trim input).toList.filter inAppName

theorem sanitizeApplicationName_eq_some {input r : String} :
    sanitizeApplicationName input = some r ↔ keptCharacters input ≠ [] ∧
    r = String.ofList ((keptCharacters input).take 63) := by
  unfold sanitizeApplicationName
  by_cases hempty : trim input = ""
  · have hkept : keptCharacters input = [] := by
      rw [keptCharacters, hempty]
      rfl
    simp [hempty, hkept]
  · rw [if_neg hempty]
    change (if (keptCharacters input).isEmpty then none else some
      (String.ofList ((keptCharacters input).take 63))) = some r ↔ _
    by_cases hkept : keptCharacters input = []
    · simp [hkept]
    · rw [if_neg (by simpa using hkept), Option.some_inj, and_iff_right hkept, eq_comm]

theorem toNat_of_inAppName {c : Char} (h : inAppName c = true) : c.toNat = 32 ∨ (45 ≤ c.toNat ∧ c.toNat < 128) := by
  simp only [inAppName, Char.isAlphanum, Char.isAlpha, Char.isUpper, Char.isLower, Char.isDigit, Bool.or_eq_true,
    Bool.and_eq_true, decide_eq_true_eq, List.contains_iff_mem, List.mem_cons, List.not_mem_nil, or_false, ge_iff_le,
    UInt32.le_iff_toNat_le] at h
  rcases h with ((hupper | hlower) | hdigit) | rfl | rfl | rfl | rfl | rfl
  · exact Or.inr ⟨le_trans (by decide) hupper.1, lt_of_le_of_lt hupper.2 (by decide)⟩
  · exact Or.inr ⟨le_trans (by decide) hlower.1, lt_of_le_of_lt hlower.2 (by decide)⟩
  · exact Or.inr ⟨le_trans (by decide) hdigit.1, lt_of_le_of_lt hdigit.2 (by decide)⟩
  all_goals decide

/-- Of all white space, only the space itself can be in a name. -/
theorem isWhiteSpace_of_inAppName {c : Char} (h : inAppName c = true) : isWhiteSpace c = false ↔ c ≠ ' ' := by
  rcases toNat_of_inAppName h with hspace | hother
  · obtain rfl : c = ' ' := Char.toNat_inj.mp hspace
    decide
  · refine iff_of_true ?_ ?_
    · simp only [isWhiteSpace, Bool.or_eq_false_iff, Bool.and_eq_false_iff, decide_eq_false_iff_not, beq_eq_false_iff_ne]
      omega
    · rintro rfl
      revert hother
      decide

theorem utf8Size_of_inAppName {c : Char} (h : inAppName c = true) : c.utf8Size = 1 := by
  have hlt : c.toNat < 128 := by
    rcases toNat_of_inAppName h with hspace | hother
    · omega
    · exact hother.2
  rw [Char.utf8Size_eq_one_iff, UInt32.le_iff_toNat_le]
  exact Nat.le_of_lt_succ hlt

/-- A name as it should be: not empty, short, of allowed characters, without spaces at its ends, and cleaned to itself. -/
structure NormalName (r : String) : Prop where
  ne_empty : r ≠ ""
  short : (asBytes r).length ≤ 63
  allowed : ∀ c ∈ r.toList, inAppName c = true
  front : r.toList.head? ≠ some ' '
  back : r.toList.getLast? ≠ some ' '
  stable : sanitizeApplicationName r = some r

/-- What holds of every cleaned name. -/
theorem sanitized_allowed {input r : String} (h : sanitizeApplicationName input = some r) :
    r ≠ "" ∧ r.toList.length ≤ 63 ∧ ∀ c ∈ r.toList, inAppName c = true := by
  obtain ⟨hne, rfl⟩ := sanitizeApplicationName_eq_some.mp h
  rw [String.toList_ofList]
  refine ⟨?_, List.length_take_le 63 _, fun c hc => ?_⟩
  · intro hempty
    have hnil : (keptCharacters input).take 63 = [] := by
      rw [← String.toList_ofList (l := (keptCharacters input).take 63), hempty]
      rfl
    rw [List.take_eq_nil_iff] at hnil
    exact hnil.elim (by decide) hne
  · exact (List.mem_filter.mp (List.mem_of_mem_take hc)).2

/-- A short text of allowed characters is cleaned to itself exactly if no space is at its ends. -/
theorem sanitize_self_iff {r : String} (hne : r ≠ "") (hshort : r.toList.length ≤ 63)
    (hallowed : ∀ c ∈ r.toList, inAppName c = true) :
    sanitizeApplicationName r = some r ↔ r.toList.head? ≠ some ' ' ∧ r.toList.getLast? ≠ some ' ' := by
  have hends : Trimmed r.toList ↔ r.toList.head? ≠ some ' ' ∧ r.toList.getLast? ≠ some ' ' := by
    refine and_congr ?_ ?_
    · constructor
      · intro h hspace
        exact absurd (h ' ' hspace) (by decide)
      · intro h c hc
        refine (isWhiteSpace_of_inAppName (hallowed c (List.mem_of_mem_head? hc))).mpr ?_
        rintro rfl
        exact h hc
    · constructor
      · intro h hspace
        exact absurd (h ' ' hspace) (by decide)
      · intro h c hc
        refine (isWhiteSpace_of_inAppName (hallowed c (List.mem_of_mem_getLast? hc))).mpr ?_
        rintro rfl
        exact h hc
  rw [← hends, sanitizeApplicationName_eq_some]
  constructor
  · rintro ⟨-, hself⟩
    -- had something been trimmed, the result would be shorter
    obtain ⟨front, back, hr, -⟩ := exists_append_trim r
    have hlength : r.toList.length ≤ (trim r).toList.length :=
      calc r.toList.length = ((keptCharacters r).take 63).length := by
            conv_lhs => rw [hself, String.toList_ofList]
        _ ≤ (keptCharacters r).length := List.length_take_le' 63 _
        _ ≤ (trim r).toList.length := List.length_filter_le _ _
    have hsum : r.toList.length = front.toList.length + (trim r).toList.length + back.toList.length := by
      conv_lhs => rw [hr]
      rw [String.toList_append, String.toList_append, List.length_append, List.length_append]
    have hfront : front = "" := String.toList_eq_nil_iff.mp (List.length_eq_zero_iff.mp (by omega))
    have hback : back = "" := String.toList_eq_nil_iff.mp (List.length_eq_zero_iff.mp (by omega))
    rw [hfront, hback, String.empty_append, String.append_empty] at hr
    rw [hr]
    exact trimmed_trim r
  · intro htrimmed
    have hkept : keptCharacters r = r.toList := by
      rw [keptCharacters, trim_of_trimmed htrimmed, List.filter_eq_self]
      exact hallowed
    rw [hkept, List.take_of_length_le hshort, String.ofList_toList]
    exact ⟨fun hnil => hne (String.toList_eq_nil_iff.mp hnil), rfl⟩

/-- A character at the front of what is kept has nothing before it that is kept. -/
theorem head?_filter_eq_some_iff {p : Char → Bool} {l : List Char} {c : Char} (hc : p c = true) :
    (l.filter p).head? = some c ↔ ∃ before after, l = before ++ c :: after ∧ ∀ x ∈ before, p x = false := by
  rw [List.head?_filter, List.find?_eq_some_iff_append, and_iff_right hc]
  simp only [Bool.not_eq_true']

/-- A character at the back of what is kept and cut at `n` is the last one before the cut, or has nothing after it that
is kept. -/
theorem getLast?_take_filter_eq_some_iff {p : Char → Bool} {l : List Char} {c : Char} (hc : p c = true) (n : ℕ) :
    ((l.filter p).take (n + 1)).getLast? = some c ↔ ∃ before after, l = before ++ c :: after ∧
      (before.countP p = n ∨ before.countP p < n ∧ ∀ x ∈ after, p x = false) := by
  constructor
  · intro hlast
    obtain ⟨kept, hkept⟩ := List.getLast?_eq_some_iff.mp hlast
    -- the places of the kept characters in the whole text
    have hsplit : l.filter p = kept ++ c :: (l.filter p).drop (n + 1) := by
      rw [← List.singleton_append, ← List.append_assoc, ← hkept, List.take_append_drop]
    obtain ⟨front, rest, hl, hfront, hrest⟩ := List.filter_eq_append_iff.mp hsplit
    obtain ⟨gap, after, rfl, hgap, -, hafter⟩ := List.filter_eq_cons_iff.mp hrest
    have hcount : (front ++ gap).countP p = kept.length := by
      rw [List.countP_append, List.countP_eq_length_filter, hfront, List.countP_eq_zero.mpr hgap, Nat.add_zero]
    refine ⟨front ++ gap, after, by rw [hl, List.append_assoc], ?_⟩
    have hlength : kept.length + 1 = min (n + 1) (l.filter p).length := by
      rw [← List.length_take, hkept, List.length_append, List.length_singleton]
    rw [hcount]
    rcases Nat.lt_or_ge n (l.filter p).length with hlong | hshort
    · exact Or.inl (by omega)
    · rcases Nat.lt_or_ge kept.length n with hlt | hge
      · refine Or.inr ⟨hlt, fun x hx => ?_⟩
        have hnil : after.filter p = [] := by
          rw [hafter, List.drop_eq_nil_iff]
          omega
        exact Bool.eq_false_iff.mpr (List.filter_eq_nil_iff.mp hnil x hx)
      · exact Or.inl (by omega)
  · rintro ⟨before, after, rfl, hwhere⟩
    rw [List.filter_append, List.filter_cons_of_pos hc]
    rw [List.countP_eq_length_filter] at hwhere
    rcases hwhere with hcut | ⟨hbefore, hafter⟩
    · rw [← List.singleton_append, ← List.append_assoc, List.take_left' (by simp [hcut]), List.getLast?_concat]
    · have hnil : after.filter p = [] := List.filter_eq_nil_iff.mpr fun x hx => Bool.eq_false_iff.mp (hafter x hx)
      rw [hnil, List.take_of_length_le (by simp; omega), List.getLast?_concat]

/-- The splits of a text at a character, by places. -/
theorem exists_split_iff {l : List Char} {c : Char} {P : List Char → List Char → Prop} :
    (∃ before after, l = before ++ c :: after ∧ P before after) ↔
      ∃ i < l.length, l[i]? = some c ∧ P (l.take i) (l.drop (i + 1)) := by
  constructor
  · rintro ⟨before, after, rfl, hP⟩
    refine ⟨before.length, by simp, by simp, ?_⟩
    rw [List.take_left, ← List.singleton_append, ← List.append_assoc, List.drop_left' (by simp)]
    exact hP
  · rintro ⟨i, hi, hc, hP⟩
    refine ⟨l.take i, l.drop (i + 1), ?_, hP⟩
    rw [← (List.getElem?_eq_some_iff.mp hc).2, List.getElem_cons_drop, List.take_append_drop]

/-- The character at a place of the trimmed input stays inside the name: an allowed character comes before it, it is not
the 63rd one itself, and if it is an earlier one, another comes after it. -/
def StaysInside (text : List Char) (i : ℕ) : Prop :=
  (text.take i).any inAppName = true ∧ (text.take i).countP inAppName ≠ 62 ∧
    ((text.take i).countP inAppName < 62 → (text.drop (i + 1)).any inAppName = true)

instance (text : List Char) (i : ℕ) : Decidable (StaysInside text i) :=
  inferInstanceAs (Decidable (_ ∧ _ ∧ (_ → _)))

/-- **Cleaning gives a normal form** exactly if every space of the trimmed input stays inside the name. The result is
always a short, non-empty text of allowed characters. -/
theorem sanitized_normal_iff {input r : String} (h : sanitizeApplicationName input = some r) :
    (r ≠ "" ∧ (asBytes r).length ≤ 63 ∧ ∀ c ∈ r.toList, inAppName c = true) ∧
    (NormalName r ↔
      ∀ i < (trim input).toList.length, (trim input).toList[i]? = some ' ' → StaysInside (trim input).toList i) ∧
    (sanitizeApplicationName r = some r ↔ NormalName r) := by
  obtain ⟨hne, hshort, hallowed⟩ := sanitized_allowed h
  have hbytes : (asBytes r).length ≤ 63 := by
    rw [← String.ofList_toList (s := r), length_asBytes_ofList fun c hc => utf8Size_of_inAppName (hallowed c hc)]
    exact hshort
  have hself := sanitize_self_iff hne hshort hallowed
  have hnormal : NormalName r ↔ r.toList.head? ≠ some ' ' ∧ r.toList.getLast? ≠ some ' ' :=
    ⟨fun hr => ⟨hr.front, hr.back⟩, fun hends => ⟨hne, hbytes, hallowed, hends.1, hends.2, hself.mpr hends⟩⟩
  refine ⟨⟨hne, hbytes, hallowed⟩, ?_, hself.trans hnormal.symm⟩
  obtain ⟨-, hr⟩ := sanitizeApplicationName_eq_some.mp h
  have hlist : r.toList = (keptCharacters input).take 63 := by rw [hr, String.toList_ofList]
  have hfront := head?_filter_eq_some_iff (p := inAppName) (l := (trim input).toList) (c := ' ') (by decide)
  have hback := getLast?_take_filter_eq_some_iff (p := inAppName) (l := (trim input).toList) (c := ' ') (by decide) 62
  rw [exists_split_iff] at hfront hback
  rw [hnormal, hlist, List.head?_take, if_neg (by decide), ne_eq, ne_eq, keptCharacters, hfront, hback]
  -- the two exceptions are the ways in which a space fails to stay inside
  constructor
  · rintro ⟨hnofront, hnoback⟩ i hi hspace
    refine ⟨?_, fun hcut => hnoback ⟨i, hi, hspace, Or.inl hcut⟩, fun hbefore => ?_⟩
    · by_contra hnone
      exact hnofront ⟨i, hi, hspace, by simpa using hnone⟩
    · by_contra hnone
      exact hnoback ⟨i, hi, hspace, Or.inr ⟨hbefore, by simpa using hnone⟩⟩
  · intro hinside
    constructor
    · rintro ⟨i, hi, hspace, hnone⟩
      obtain ⟨c, hc, hkept⟩ := List.any_eq_true.mp (hinside i hi hspace).1
      exact absurd hkept (Bool.eq_false_iff.mp (hnone c hc))
    · rintro ⟨i, hi, hspace, hcut | ⟨hbefore, hnone⟩⟩
      · exact (hinside i hi hspace).2.1 hcut
      · obtain ⟨c, hc, hkept⟩ := List.any_eq_true.mp ((hinside i hi hspace).2.2 hbefore)
        exact absurd hkept (Bool.eq_false_iff.mp (hnone c hc))

theorem sanitized_normal_plain : NormalName "compose verify / prod" := by
  have h : sanitizeApplicationName "  compose verify / prod! " = some "compose verify / prod" := by decide
  exact (sanitized_normal_iff h).2.1.mpr (by decide +kernel)

/-- A dropped character uncovers a space at the front; a name can consist of spaces only; the cut uncovers one at the
back. -/
theorem sanitized_not_normal :
    (sanitizeApplicationName "# a" = some " a" ∧ sanitizeApplicationName " a" = some "a") ∧
    (sanitizeApplicationName "# #" = some " " ∧ sanitizeApplicationName " " = none) ∧
    (sanitizeApplicationName (String.ofList (List.replicate 62 'a') ++ " b") =
        some (String.ofList (List.replicate 62 'a') ++ " ") ∧
      sanitizeApplicationName (String.ofList (List.replicate 62 'a') ++ " ") =
        some (String.ofList (List.replicate 62 'a'))) := by
  decide +kernel

end SecretBroker.Postgres

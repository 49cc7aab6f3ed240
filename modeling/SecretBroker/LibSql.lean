import Mathlib

/-! The tokens of an SQL text, by the rules of PostgreSQL with `standard_conforming_strings` on. The reader is a state
machine over the characters. It knows words, quoted identifiers, string literals, commas and equality signs; what starts
with anything else it leaves unread. A text ends at a NUL character, wherever it stands. -/

namespace Sql

inductive Token where
  | word (text : String)
  | identifier (name : String)
  | literal (value : String)
  | symbol (c : Char)
  | unread (rest : String)
  deriving DecidableEq, Repr

def Token.isRead : Token → Bool
  | .unread _ => false
  | _ => true

inductive Quote where
  | double
  | single
  deriving DecidableEq, Repr

def Quote.char : Quote → Char
  | .double => '"'
  | .single => '\''

/-- What stands between two quotes: the name of something, or a string. -/
def Quote.token : Quote → String → Token
  | .double => .identifier
  | .single => .literal

inductive Mode where
  | between
  | word (text : List Char)
  | quoted (q : Quote) (value : List Char)
  /-- A quote has been read inside of quotes: the end of the token, or the first half of a doubled quote. -/
  | closing (q : Quote) (value : List Char)
  deriving DecidableEq, Repr

def isBlank (c : Char) : Bool := [' ', '\t', '\n', '\r', '\x0c'].contains c

def startsWord (c : Char) : Bool := c.isAlpha || c == '_'

def continuesWord (c : Char) : Bool := c.isAlphanum || c == '_'

/-- A character between two tokens: the tokens that it completes, and how the reader goes on, if it does. -/
def opens (c : Char) : List Token × Option Mode :=
  if isBlank c then ([], some .between)
  else if startsWord c then ([], some (.word [c]))
  else if c = '"' then ([], some (.quoted .double []))
  else if c = '\'' then ([], some (.quoted .single []))
  else if c = ',' ∨ c = '=' then ([.symbol c], some .between)
  else ([], none)

def step : Mode → Char → List Token × Option Mode
  | .between, c => opens c
  | .word text, c =>
      if continuesWord c then ([], some (.word (text ++ [c])))
      -- the word may be the mark of another kind of string, with other rules
      else if c = '"' ∨ c = '\'' then ([.word (String.ofList text)], none)
      else (.word (String.ofList text) :: (opens c).1, (opens c).2)
  | .quoted q value, c =>
      if c = '\x00' then ([], none)
      else if c = q.char then ([], some (.closing q value))
      else ([], some (.quoted q (value ++ [c])))
  | .closing q value, c =>
      if c = q.char then ([], some (.quoted q (value ++ [c])))
      else (q.token (String.ofList value) :: (opens c).1, (opens c).2)

/-- What is left when the text ends. -/
def Mode.finish : Mode → List Token
  | .between => []
  | .word text => [.word (String.ofList text)]
  | .quoted q value => [.unread (String.ofList (q.char :: value))]
  | .closing q value => [q.token (String.ofList value)]

def lexFrom : Mode → List Char → List Token
  | m, [] => m.finish
  | m, c :: cs =>
      match step m c with
      | (tokens, some m') => tokens ++ lexFrom m' cs
      | (tokens, none) => tokens ++ [.unread (String.ofList (c :: cs))]

/-- The tokens of a text. -/
def lex (text : String) : List Token := lexFrom .between text.toList

theorem lexFrom_of_step {m m' : Mode} {c : Char} {tokens : List Token} (h : step m c = (tokens, some m'))
    (cs : List Char) : lexFrom m (c :: cs) = tokens ++ lexFrom m' cs := by
  rw [lexFrom, h]

theorem lexFrom_of_stop {m : Mode} {c : Char} {tokens : List Token} (h : step m c = (tokens, none)) (cs : List Char) :
    lexFrom m (c :: cs) = tokens ++ [.unread (String.ofList (c :: cs))] := by
  rw [lexFrom, h]

def NoNul (s : String) : Prop := '\x00' ∉ s.toList

instance (s : String) : Decidable (NoNul s) := inferInstanceAs (Decidable ('\x00' ∉ s.toList))

/-- A value with its quotes doubled. -/
def doubled (q : Quote) (value : List Char) : List Char :=
  value.flatMap fun c => if c = q.char then [q.char, q.char] else [c]

/-- A value between quotes. -/
def quote (q : Quote) (s : String) : String := String.ofList (q.char :: doubled q s.toList ++ [q.char])

theorem opens_char (q : Quote) : opens q.char = ([], some (.quoted q [])) := by
  cases q <;> rfl

theorem char_ne_nul (q : Quote) : q.char ≠ '\x00' := by
  cases q <;> decide

/-- A doubled quote is one quote of the value, and every other character is itself. -/
theorem lexFrom_doubled {q : Quote} {value : List Char} (hnul : '\x00' ∉ value) (before rest : List Char) :
    lexFrom (.quoted q before) (doubled q value ++ rest) = lexFrom (.quoted q (before ++ value)) rest := by
  induction value generalizing before with
  | nil => rw [doubled, List.flatMap_nil, List.nil_append, List.append_nil]
  | cons c value ih =>
      rw [List.mem_cons, not_or] at hnul
      have hrest := ih hnul.2 (before ++ [c])
      rw [List.append_assoc, List.singleton_append] at hrest
      rw [doubled, List.flatMap_cons, ← doubled, List.append_assoc]
      by_cases hquote : c = q.char
      · have hopen : step (.quoted q before) q.char = ([], some (.closing q before)) := by
          rw [step, if_neg (char_ne_nul q), if_pos rfl]
        have hagain : step (.closing q before) q.char = ([], some (.quoted q (before ++ [q.char]))) := if_pos rfl
        rw [if_pos hquote, List.cons_append, List.singleton_append, lexFrom_of_step hopen, lexFrom_of_step hagain,
          List.nil_append, List.nil_append, ← hquote, hrest]
      · have hplain : step (.quoted q before) c = ([], some (.quoted q (before ++ [c]))) := by
          rw [step, if_neg (Ne.symm hnul.1), if_neg hquote]
        rw [if_neg hquote, List.singleton_append, lexFrom_of_step hplain, List.nil_append, hrest]

/-- A quote that no other quote follows ends the token. -/
theorem lexFrom_closing {q : Quote} (value : List Char) {rest : List Char} (hrest : rest.head? ≠ some q.char) :
    lexFrom (.closing q value) rest = q.token (String.ofList value) :: lexFrom .between rest := by
  cases rest with
  | nil => rfl
  | cons c rest =>
      have hother : c ≠ q.char := fun h => hrest (congrArg some h)
      have hstep : step (.closing q value) c = (q.token (String.ofList value) :: (opens c).1, (opens c).2) := if_neg hother
      cases hopens : (opens c).2 with
      | some m =>
          have hbetween : step .between c = ((opens c).1, some m) := Prod.ext rfl hopens
          rw [hopens] at hstep
          rw [lexFrom_of_step hstep, lexFrom_of_step hbetween, List.cons_append]
      | none =>
          have hbetween : step .between c = ((opens c).1, none) := Prod.ext rfl hopens
          rw [hopens] at hstep
          rw [lexFrom_of_stop hstep, lexFrom_of_stop hbetween, List.cons_append]

/-- **A quoted value is one token**, whatever comes after it, unless that is the same quote once more. -/
theorem lex_quote_append {q : Quote} {s t : String} (hs : NoNul s) (ht : t.toList.head? ≠ some q.char) :
    lex (quote q s ++ t) = q.token s :: lex t := by
  have hopen : step .between q.char = ([], some (.quoted q [])) := opens_char q
  have hclose : step (.quoted q s.toList) q.char = ([], some (.closing q s.toList)) := by
    rw [step, if_neg (char_ne_nul q), if_pos rfl]
  rw [lex, quote, String.toList_append, String.toList_ofList, List.cons_append, List.cons_append, List.append_assoc,
    lexFrom_of_step hopen, List.nil_append, lexFrom_doubled hs, List.nil_append, List.singleton_append,
    lexFrom_of_step hclose, List.nil_append, lexFrom_closing _ ht, String.ofList_toList, lex]

theorem lex_quote {q : Quote} {s : String} (hs : NoNul s) : lex (quote q s) = [q.token s] := by
  have h := lex_quote_append (q := q) (t := "") hs (by simp)
  rwa [String.append_empty] at h

/-- A text that is read to its end. -/
def Complete (text : String) : Prop := (lex text).all Token.isRead = true

instance (text : String) : Decidable (Complete text) := inferInstanceAs (Decidable ((lex text).all Token.isRead = true))

theorem lexFrom_append_blank {m : Mode} {cs : List Char} (h : (lexFrom m cs).all Token.isRead = true) (rest : List Char) :
    lexFrom m (cs ++ ' ' :: rest) = lexFrom m cs ++ lexFrom .between rest := by
  induction cs generalizing m with
  | nil =>
      cases m with
      | between => rfl
      | word text => rfl
      | quoted q value => cases h
      | closing q value =>
          have hblank : (' ' :: rest).head? ≠ some q.char := by
            cases q <;> simp [Quote.char]
          rw [List.nil_append, lexFrom_closing _ hblank]
          rfl
  | cons c cs ih =>
      rcases hstep : step m c with ⟨tokens, _ | m'⟩
      · -- the reader does not get to the end
        rw [lexFrom_of_stop hstep, List.all_append] at h
        simp [Token.isRead] at h
      · rw [lexFrom_of_step hstep, List.all_append, Bool.and_eq_true] at h
        rw [List.cons_append, lexFrom_of_step hstep, lexFrom_of_step hstep, ih h.2, List.append_assoc]

/-- A blank after a complete text ends its last token. -/
theorem Complete.append {a t : String} (ha : Complete a) (ht : t.toList.head? = some ' ') (rest : String) :
    lex (a ++ (t ++ rest)) = lex a ++ lex (t ++ rest) := by
  obtain ⟨cs, hcs⟩ := List.head?_eq_some_iff.mp ht
  rw [lex, lex, lex, String.toList_append, String.toList_append, hcs, List.cons_append, lexFrom_append_blank ha]
  rfl

theorem complete_quote {q : Quote} {s : String} (hs : NoNul s) : Complete (quote q s) := by
  rw [Complete, lex_quote hs]
  cases q <;> rfl

/-- A text has these tokens, whatever comes after it: it ends with a blank. -/
def Spells (text : String) (tokens : List Token) : Prop :=
  lex text = tokens ∧ tokens.all Token.isRead = true ∧ text.toList.getLast? = some ' '

instance (text : String) (tokens : List Token) : Decidable (Spells text tokens) :=
  inferInstanceAs (Decidable (lex text = tokens ∧ tokens.all Token.isRead = true ∧ text.toList.getLast? = some ' '))

theorem isRead_of_blank {m : Mode} {cs : List Char} (h : (lexFrom m (cs ++ [' '])).all Token.isRead = true) :
    (lexFrom m cs).all Token.isRead = true := by
  induction cs generalizing m with
  | nil =>
      cases m with
      | between => rfl
      | word text => rfl
      | quoted q value => cases q <;> cases h
      | closing q value => cases q <;> rfl
  | cons c cs ih =>
      rcases hstep : step m c with ⟨tokens, _ | m'⟩
      · rw [List.cons_append, lexFrom_of_stop hstep, List.all_append] at h
        simp [Token.isRead] at h
      · rw [List.cons_append, lexFrom_of_step hstep, List.all_append, Bool.and_eq_true] at h
        rw [lexFrom_of_step hstep, List.all_append, Bool.and_eq_true]
        exact ⟨h.1, ih h.2⟩

theorem Spells.append {text : String} {tokens : List Token} (h : Spells text tokens) (rest : String) :
    lex (text ++ rest) = tokens ++ lex rest := by
  obtain ⟨rfl, hread, hlast⟩ := h
  obtain ⟨cs, hcs⟩ := List.getLast?_eq_some_iff.mp hlast
  rw [lex, hcs] at hread
  have hcomplete := isRead_of_blank hread
  rw [lex, lex, lex, String.toList_append, hcs, List.append_assoc, List.singleton_append,
    lexFrom_append_blank hcomplete rest.toList, lexFrom_append_blank hcomplete [], lexFrom, Mode.finish, List.append_nil]

end Sql

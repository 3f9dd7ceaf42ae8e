import NexusPilot.Drivers.ChangeSet
import NexusPilot.Scan.Template
import NexusPilot.Text.Utf8

/-!
# How MySQL reads a statement

The lexical rules of MySQL in its default mode, as far as the statements of a change set need them: a
specification, not a translation. A backslash in a string escapes the next character, and a doubled
quote is a quote; in a name between backticks only the doubling counts.

The statements are put together from the lexemes below. All of them are read as intended but the
string literals, whose backslashes are not escaped: a literal is read back as its value exactly when
each backslash stands directly before `%` or `_`, the two escapes that MySQL leaves as they are
(`backslashSafe`).
-/

namespace Mysql

open Scan Text Drivers

/-! ### Tokens -/

inductive Token
  | word (text : List Char)
  | number (text : List Char)
  | name (value : List Char)
  | string (value : List Char)
  | symbol (c : Char)
  deriving DecidableEq

/-- What a character stands for behind a backslash. -/
def unescape (c : Char) : List Char :=
  if c = '0' then ['\x00']
  else if c = 'b' then ['\x08']
  else if c = 'n' then ['\n']
  else if c = 'r' then ['\r']
  else if c = 't' then ['\t']
  else if c = 'Z' then ['\x1a']
  else if c = '%' ∨ c = '_' then ['\\', c]
  else [c]

/-- A quoted value from behind its opening quote on: the value and its length with the closing
quote. -/
def readQuoted (escapes : Bool) (q : Char) : List Char → Option (List Char × ℕ)
  | [] => none
  | [c] => if c = q then some ([], 1) else none
  | c :: x :: rest =>
    if escapes ∧ c = '\\' then
      (readQuoted escapes q rest).map fun r ↦ (unescape x ++ r.1, r.2 + 2)
    else if c = q then
      if x = q then (readQuoted escapes q rest).map fun r ↦ (q :: r.1, r.2 + 2) else some ([], 1)
    else (readQuoted escapes q (x :: rest)).map fun r ↦ (c :: r.1, r.2 + 1)

def isSpace (c : Char) : Bool :=
  c == ' ' || c == '\t' || c == '\n' || c == '\x0b' || c == '\x0c' || c == '\r'

/-- The characters of words and numbers. -/
def isNameChar (c : Char) : Bool :=
  isWordChar c || c == '$' || !isAscii c

/-- A token of its own for a quoted value, if it is closed. -/
def pushQuoted (found : List Token) (token : List Char → Token) :
    Option (List Char × ℕ) → Except Unit (List Token × ℕ)
  | none => .error ()
  | some (value, n) => .ok (found ++ [token value], 1 + n)

/-- One token, a space or a comment. The error is a value or a comment that is not closed. -/
def lexStep : Step (List Token) Unit Char := fun found _ c after ↦
  if isSpace c then .ok (found, 1)
  else if c = '\'' ∨ c = '"' then pushQuoted found .string (readQuoted true c after)
  else if c = '`' then pushQuoted found .name (readQuoted false '`' after)
  else if c = '#' then .ok (found, 1 + throughFirst (· == '\n') after)
  else if c = '-' ∧ after.head? = some '-' ∧ after[1]?.all isSpace then
    .ok (found, 2 + throughFirst (· == '\n') (after.drop 1))
  else if c = '/' ∧ after.head? = some '*' then
    match findSub ['*', '/'] (after.drop 1) with
    | none => .error ()
    | some close => .ok (found, 2 + (close + 2))
  else if c.isDigit then
    let run := after.takeWhile fun c ↦ isNameChar c || c == '.'
    .ok (found ++ [.number (c :: run)], 1 + run.length)
  else if isNameChar c then
    let run := after.takeWhile isNameChar
    .ok (found ++ [.word (c :: run)], 1 + run.length)
  else .ok (found ++ [.symbol c], 1)

/-- The tokens of a statement. -/
def tokens (sql : String) : Except Unit (List Token) :=
  scan lexStep [] [] sql.toList

/-- Every backslash stands directly before `%` or `_`. -/
def backslashSafe : List Char → Bool
  | [] => true
  | c :: rest =>
    (c != '\\' || rest.head?.any fun x ↦ x == '%' || x == '_') && backslashSafe rest

/-! ### Quoted values -/

@[simp]
theorem doubled_nil (q : Char) : doubled q [] = [] :=
  rfl

@[simp]
theorem doubled_cons_self (q : Char) (v : List Char) : doubled q (q :: v) = q :: q :: doubled q v := by
  simp [doubled]

theorem doubled_cons_of_ne {q c : Char} (h : c ≠ q) (v : List Char) :
    doubled q (c :: v) = c :: doubled q v := by
  simp [doubled, h]

section Reading

variable {escapes : Bool} {q : Char} {rest : List Char}

theorem readQuoted_doubled_quote (hq : q ≠ '\\') (l : List Char) :
    readQuoted escapes q (q :: q :: l) =
      (readQuoted escapes q l).map fun r ↦ (q :: r.1, r.2 + 2) := by
  rw [readQuoted, if_neg fun h ↦ hq h.2, if_pos rfl, if_pos rfl]

variable {c : Char}

theorem readQuoted_ordinary (hc : c ≠ q) (hb : ¬ (escapes ∧ c = '\\')) {l : List Char} (hl : l ≠ []) :
    readQuoted escapes q (c :: l) = (readQuoted escapes q l).map fun r ↦ (c :: r.1, r.2 + 1) := by
  obtain ⟨x, xs, rfl⟩ := List.exists_cons_of_ne_nil hl
  rw [readQuoted, if_neg hb, if_neg hc]

theorem readQuoted_close (hq : q ≠ '\\') (hrest : rest.head? ≠ some q) :
    readQuoted escapes q (q :: rest) = some ([], 1) := by
  cases rest with
  | nil => simp [readQuoted]
  | cons x rest =>
    have hx : x ≠ q := by simpa using hrest
    rw [readQuoted, if_neg fun h ↦ hq h.2, if_pos rfl, if_neg hx]

/-- Everything but a backslash that counts is read as it is. -/
theorem readQuoted_cons (hq : q ≠ '\\') (hb : ¬ (escapes ∧ c = '\\')) (v : List Char) :
    readQuoted escapes q (doubled q (c :: v) ++ q :: rest) =
      (readQuoted escapes q (doubled q v ++ q :: rest)).map fun r ↦
        (c :: r.1, r.2 + (doubled q [c]).length) := by
  by_cases hc : c = q
  · subst hc
    rw [doubled_cons_self, List.cons_append, List.cons_append, readQuoted_doubled_quote hq]
    simp
  · rw [doubled_cons_of_ne hc, List.cons_append, readQuoted_ordinary hc hb (by simp),
      doubled_cons_of_ne hc]
    rfl

theorem length_doubled_cons (c : Char) (v : List Char) :
    (doubled q (c :: v)).length = (doubled q [c]).length + (doubled q v).length := by
  simp [doubled]

/-- **A quoted value is read back**, if its backslashes are safe or do not count. -/
theorem readQuoted_doubled (hq : q ≠ '\\' ∧ q ≠ '%' ∧ q ≠ '_') (hrest : rest.head? ≠ some q) :
    ∀ v : List Char, (escapes → backslashSafe v) →
      readQuoted escapes q (doubled q v ++ q :: rest) = some (v, (doubled q v).length + 1)
  | [], _ => readQuoted_close hq.1 hrest
  | c :: v, hsafe => by
    have hsafe' : escapes → backslashSafe v := by
      intro he
      have := hsafe he
      rw [backslashSafe, Bool.and_eq_true] at this
      exact this.2
    by_cases hb : escapes ∧ c = '\\'
    · -- the backslash and the character behind it are read as they are
      obtain ⟨he, rfl⟩ := hb
      have hnext : v.head?.any fun x ↦ x == '%' || x == '_' := by
        have := hsafe he
        rw [backslashSafe, Bool.and_eq_true] at this
        simpa using this.1
      match v, hsafe', hnext with
      | x :: v, hsafe', hnext =>
        have hx : x = '%' ∨ x = '_' := by simpa using hnext
        have hxq : x ≠ q := by
          obtain rfl | rfl := hx
          · exact hq.2.1.symm
          · exact hq.2.2.symm
        have hsafe'' : escapes → backslashSafe v := by
          intro he
          have := hsafe' he
          rw [backslashSafe, Bool.and_eq_true] at this
          exact this.2
        have hun : unescape x = ['\\', x] := by obtain rfl | rfl := hx <;> rfl
        rw [doubled_cons_of_ne hq.1.symm, doubled_cons_of_ne hxq, List.cons_append, List.cons_append,
          readQuoted, if_pos ⟨he, rfl⟩, readQuoted_doubled hq hrest v hsafe'']
        simp [hun]
    · rw [readQuoted_cons hq.1 hb, readQuoted_doubled hq hrest v hsafe', length_doubled_cons c v,
        Nat.add_comm (doubled q [c]).length, Nat.add_right_comm]
      rfl

/-! ### Misread values -/

/-- A backslash takes the character behind it, whichever it is. -/
theorem exists_readQuoted_backslash (hq : q ≠ '\\') (rest v : List Char) :
    ∃ l, readQuoted true q (doubled q ('\\' :: v) ++ q :: rest) =
      (readQuoted true q l).map (fun r ↦ (unescape (v.head?.getD q) ++ r.1, r.2 + 2)) ∧
      ∀ x w, v = x :: w → x ≠ q → l = doubled q w ++ q :: rest := by
  rw [doubled_cons_of_ne hq.symm, List.cons_append]
  cases v with
  | nil => exact ⟨rest, by simp [readQuoted], fun x w hv ↦ (by cases hv)⟩
  | cons x w =>
    by_cases hx : x = q
    · subst hx
      refine ⟨x :: (doubled x w ++ x :: rest), by simp [readQuoted], ?_⟩
      rintro y u ⟨⟩ hne
      exact absurd rfl hne
    · rw [doubled_cons_of_ne hx]
      refine ⟨doubled q w ++ q :: rest, by simp [readQuoted], ?_⟩
      rintro y u ⟨⟩ _
      rfl

theorem unescape_cases (x : Char) :
    (x = '%' ∨ x = '_') ∧ unescape x = ['\\', x] ∨ x = '\\' ∧ unescape x = ['\\'] ∨
      ∃ e, unescape x = [e] ∧ e ≠ '\\' := by
  by_cases hx : x = '%' ∨ x = '_'
  · refine .inl ⟨hx, ?_⟩
    obtain rfl | rfl := hx <;> rfl
  by_cases hb : x = '\\'
  · exact .inr (.inl ⟨hb, by rw [hb]; rfl⟩)
  · refine .inr (.inr ?_)
    simp only [unescape, if_neg hx]
    split_ifs
    all_goals first
      | exact ⟨_, rfl, by decide⟩
      | exact ⟨x, rfl, hb⟩

/-- Nothing is read as itself with backslashes in front. -/
theorem readQuoted_ne_backslashes (hq : q ≠ '\\') :
    ∀ (v : List Char) (k n : ℕ),
      readQuoted true q (doubled q v ++ q :: rest) ≠ some (List.replicate (k + 1) '\\' ++ v, n)
  | [], k, n => by
    intro h
    rw [doubled_nil, List.nil_append] at h
    by_cases hrest : rest.head? = some q
    · obtain ⟨l, rfl⟩ := List.head?_eq_some_iff.1 hrest
      rw [readQuoted_doubled_quote hq] at h
      obtain ⟨r, -, hr⟩ := Option.map_eq_some_iff.1 h
      rw [List.replicate_succ, List.cons_append] at hr
      exact hq (List.cons.inj (Prod.mk.inj hr).1).1
    · rw [readQuoted_close hq hrest] at h
      simp [List.replicate_succ] at h
  | c :: v, k, n => by
    intro h
    rw [List.replicate_succ, List.cons_append] at h
    by_cases hb : c = '\\'
    · subst hb
      obtain ⟨l, hl, hrest⟩ := exists_readQuoted_backslash hq rest v
      rw [hl] at h
      obtain ⟨r, hr, hval⟩ := Option.map_eq_some_iff.1 h
      have hval' := (Prod.mk.inj hval).1
      rcases unescape_cases (v.head?.getD q) with ⟨hx, hun⟩ | ⟨hx, hun⟩ | ⟨e, hun, he⟩
      · -- the escapes that stay are not followed by a backslash
        rw [hun, List.cons_append, List.cons_append] at hval'
        have hnext := (List.cons.inj hval').2
        cases k with
        | zero =>
          have := (List.cons.inj hnext).1
          rw [this] at hx
          revert hx
          decide
        | succ k =>
          rw [List.replicate_succ, List.cons_append] at hnext
          have := (List.cons.inj hnext).1
          rw [this] at hx
          revert hx
          decide
      · -- two backslashes are one
        match v, hx, hrest with
        | [], hx, _ => exact hq hx
        | x :: w, hx, hrest =>
          obtain rfl : x = '\\' := hx
          rw [hrest '\\' w rfl hq.symm] at hr
          rw [hun] at hval'
          have hnext : r.1 = List.replicate (k + 1 + 1) '\\' ++ w := by
            have htail : r.1 = List.replicate k '\\' ++ '\\' :: '\\' :: w := (List.cons.inj hval').2
            rw [htail, List.replicate_succ', List.replicate_succ', List.append_assoc,
              List.append_assoc]
            rfl
          refine readQuoted_ne_backslashes hq w (k + 1) r.2 ?_
          rw [hr, ← hnext]
      · rw [hun] at hval'
        exact he (List.cons.inj hval').1
    · rw [readQuoted_cons hq fun hc ↦ hb hc.2] at h
      obtain ⟨r, -, hr⟩ := Option.map_eq_some_iff.1 h
      exact hb (List.cons.inj (Prod.mk.inj hr).1).1

/-- **Only safe values are read back.** -/
theorem backslashSafe_of_readQuoted (hq : q ≠ '\\' ∧ q ≠ '%' ∧ q ≠ '_') :
    ∀ (v : List Char) (n : ℕ),
      readQuoted true q (doubled q v ++ q :: rest) = some (v, n) → backslashSafe v
  | [], _, _ => rfl
  | c :: v, n, h => by
    by_cases hb : c = '\\'
    · subst hb
      obtain ⟨l, hl, hrest⟩ := exists_readQuoted_backslash hq.1 rest v
      rw [hl] at h
      obtain ⟨r, hr, hval⟩ := Option.map_eq_some_iff.1 h
      have hval' := (Prod.mk.inj hval).1
      rcases unescape_cases (v.head?.getD q) with ⟨hx, hun⟩ | ⟨hx, hun⟩ | ⟨e, hun, he⟩
      · rw [hun] at hval'
        match v, hx, hrest, hval' with
        | [], _, _, hval' => cases hval'
        | x :: w, hx, hrest, hval' =>
          have hx' : x = '%' ∨ x = '_' := hx
          have hxq : x ≠ q := by
            obtain rfl | rfl := hx'
            · exact hq.2.1.symm
            · exact hq.2.2.symm
          have hrw : r.1 = w := (List.cons.inj (List.cons.inj hval').2).2
          rw [hrest x w rfl hxq] at hr
          have ih := backslashSafe_of_readQuoted hq w r.2 (by rw [hr, ← hrw])
          obtain rfl | rfl := hx' <;> simp [backslashSafe, ih]
      · -- two backslashes are one, and the second is missing
        match v, hx, hrest, hval' with
        | [], hx, _, _ => exact absurd hx hq.1
        | x :: w, hx, hrest, hval' =>
          obtain rfl : x = '\\' := hx
          rw [hun] at hval'
          have htail : r.1 = List.replicate (0 + 1) '\\' ++ w := (List.cons.inj hval').2
          rw [hrest '\\' w rfl hq.1.symm] at hr
          exact absurd (by rw [hr, ← htail]) (readQuoted_ne_backslashes hq.1 w 0 r.2)
      · rw [hun] at hval'
        exact absurd (List.cons.inj hval').1 he
    · rw [readQuoted_cons hq.1 fun hc ↦ hb hc.2] at h
      obtain ⟨r, hr, hval⟩ := Option.map_eq_some_iff.1 h
      have hrv : r.1 = v := (List.cons.inj (Prod.mk.inj hval).1).2
      have ih := backslashSafe_of_readQuoted hq v r.2 (by rw [hr, ← hrv])
      simp [backslashSafe, hb, ih]

end Reading

/-! ### Lexemes -/

/-- What the statements are put together from. -/
inductive Lexeme
  | space
  | symbol (c : Char)
  | word (text : List Char)
  | number (negative : Bool) (text : List Char)
  | name (value : List Char)
  | literal (value : List Char)
  deriving DecidableEq

namespace Lexeme

def text : Lexeme → List Char
  | space => [' ']
  | symbol c => [c]
  | word text => text
  | number negative text => if negative then '-' :: text else text
  | name value => '`' :: (doubled '`' value ++ ['`'])
  | literal value => '\'' :: (doubled '\'' value ++ ['\''])

def tokens : Lexeme → List Token
  | space => []
  | symbol c => [.symbol c]
  | word text => [.word text]
  | number negative text => if negative then [.symbol '-', .number text] else [.number text]
  | name value => [.name value]
  | literal value => [.string value]

/-- Words and numbers are well formed and end before the next character, quotes are not doubled by
it. -/
def fits : Lexeme → Option Char → Prop
  | space, _ => True
  | symbol c, _ => c ∈ [',', '(', ')', '=', '.']
  | word text, next =>
    text.head?.any (fun c ↦ isNameChar c && !c.isDigit) ∧ text.all isNameChar ∧
      next.all fun c ↦ !isNameChar c
  | number _ text, next =>
    text.head?.any Char.isDigit ∧ (text.all fun c ↦ isNameChar c || c == '.') ∧
      next.all fun c ↦ !(isNameChar c || c == '.')
  | name _, next => next ≠ some '`'
  | literal _, next => next ≠ some '\''

instance (l : Lexeme) (next : Option Char) : Decidable (l.fits next) := by
  cases l <;> unfold fits <;> infer_instance

/-- Only string literals can be misread. -/
def good : Lexeme → Prop
  | literal value => backslashSafe value
  | _ => True

end Lexeme

section Steps

variable {found : List Token} {before rest : List Char}

variable {c : Char} {text : List Char} {found' : List Token}

theorem lexStep_symbol (hc : c ∈ [',', '(', ')', '=', '.']) (after : List Char) :
    lexStep found before c after = .ok (found ++ [.symbol c], 1) := by
  simp only [List.mem_cons, List.not_mem_nil, or_false] at hc
  obtain rfl | rfl | rfl | rfl | rfl := hc <;> rfl

theorem takeWhile_append_of_stop {p : Char → Bool} {run : List Char} (hrun : run.all p)
    (hrest : rest.head?.all fun c ↦ !p c) : (run ++ rest).takeWhile p = run := by
  rw [List.takeWhile_append_of_pos (by simpa using hrun)]
  cases rest with
  | nil => simp
  | cons c rest =>
    have hc : p c = false := by simpa using hrest
    rw [List.takeWhile_cons_of_neg (by simp [hc]), List.append_nil]

/-- Name characters are none of the characters that the lexer asks for. -/
theorem ne_of_isNameChar {x : Char} (hc : isNameChar c) (hx : isNameChar x = false) : c ≠ x := by
  rintro rfl
  rw [hc] at hx
  cases hx

theorem isNameChar_of_isDigit (hc : c.isDigit) : isNameChar c := by
  simp [isNameChar, isWordChar, Char.isAlphanum, hc]

theorem isSpace_eq_false (hc : isNameChar c) : isSpace c = false := by
  simp [isSpace, ne_of_isNameChar hc (show isNameChar ' ' = false from rfl),
    ne_of_isNameChar hc (show isNameChar '\t' = false from rfl),
    ne_of_isNameChar hc (show isNameChar '\n' = false from rfl),
    ne_of_isNameChar hc (show isNameChar '\x0b' = false from rfl),
    ne_of_isNameChar hc (show isNameChar '\x0c' = false from rfl),
    ne_of_isNameChar hc (show isNameChar '\r' = false from rfl)]

/-- A name character starts a number or a word. -/
theorem lexStep_of_isNameChar (hc : isNameChar c) (after : List Char) :
    lexStep found before c after =
      if c.isDigit then
        .ok (found ++ [.number (c :: after.takeWhile fun c ↦ isNameChar c || c == '.')],
          1 + (after.takeWhile fun c ↦ isNameChar c || c == '.').length)
      else .ok (found ++ [.word (c :: after.takeWhile isNameChar)],
        1 + (after.takeWhile isNameChar).length) := by
  have hne : ∀ x, isNameChar x = false → c ≠ x := fun x hx ↦ ne_of_isNameChar hc hx
  have hspace := isSpace_eq_false hc
  have hquote : ¬ (c = '\'' ∨ c = '"') := by
    rintro (h | h)
    · exact hne '\'' rfl h
    · exact hne '"' rfl h
  rw [lexStep, hspace, if_neg Bool.false_ne_true, if_neg hquote, if_neg (hne '`' rfl),
    if_neg (hne '#' rfl), if_neg fun h ↦ hne '-' rfl h.1, if_neg fun h ↦ hne '/' rfl h.1, if_pos hc]

theorem passes_word (h : (Lexeme.word text).fits rest.head?) :
    Passes lexStep found before (text ++ rest) text.length (found ++ [.word text]) := by
  obtain ⟨hhead, hall, hnext⟩ := h
  match text, hhead, hall with
  | c :: run, hhead, hall =>
    rw [List.all_cons, Bool.and_eq_true] at hall
    have hdigit : c.isDigit = false := by
      have : isNameChar c ∧ c.isDigit = false := by simpa using hhead
      exact this.2
    have hstep : lexStep found before c (run ++ rest) =
        .ok (found ++ [.word (c :: run)], (c :: run).length) := by
      rw [lexStep_of_isNameChar hall.1, hdigit, if_neg Bool.false_ne_true,
        takeWhile_append_of_stop hall.2 hnext, List.length_cons, Nat.add_comm]
    exact .of_step hstep (Nat.succ_pos _)

theorem passes_digits (h : (Lexeme.number false text).fits rest.head?) :
    Passes lexStep found before (text ++ rest) text.length (found ++ [.number text]) := by
  obtain ⟨hhead, hall, hnext⟩ := h
  match text, hhead, hall with
  | c :: run, hhead, hall =>
    have hdigit : c.isDigit := by simpa using hhead
    rw [List.all_cons, Bool.and_eq_true] at hall
    have hstep : lexStep found before c (run ++ rest) =
        .ok (found ++ [.number (c :: run)], (c :: run).length) := by
      rw [lexStep_of_isNameChar (isNameChar_of_isDigit hdigit), if_pos hdigit,
        takeWhile_append_of_stop hall.2 hnext, List.length_cons, Nat.add_comm]
    exact .of_step hstep (Nat.succ_pos _)

theorem passes_minus (h : text.head?.any Char.isDigit) :
    Passes lexStep found before ('-' :: (text ++ rest)) 1 (found ++ [.symbol '-']) := by
  match text, h with
  | c :: run, h =>
    have hc : c ≠ '-' := by
      rintro rfl
      cases h
    have hstep : lexStep found before '-' (c :: run ++ rest) = .ok (found ++ [.symbol '-'], 1) := by
      have hnot : ¬ ('-' = '-' ∧ (c :: run ++ rest).head? = some '-' ∧
          (c :: run ++ rest)[1]?.all isSpace) := fun hc' ↦ hc (Option.some.inj hc'.2.1)
      rw [lexStep, if_neg (by decide), if_neg (by decide), if_neg (by decide), if_neg (by decide),
        if_neg hnot, if_neg fun h' ↦ absurd h'.1 (by decide), if_neg (by decide), if_neg (by decide)]
    exact .of_step hstep Nat.one_pos

/-- The lexer only adds tokens. -/
theorem prefix_of_lexStep {after : List Char} {n : ℕ} (h : lexStep found before c after = .ok (found', n)) :
    found <+: found' ∧ 0 < n := by
  have hquoted : ∀ token r, pushQuoted found token r = .ok (found', n) → found <+: found' ∧ 0 < n := by
    rintro token (_ | ⟨value, m⟩) hr
    · cases hr
    · cases hr
      exact ⟨List.prefix_append _ _, by omega⟩
  simp only [lexStep, ite_eq_iff] at h
  obtain ⟨-, h⟩ | ⟨-, ⟨-, h⟩ | ⟨-, ⟨-, h⟩ | ⟨-, ⟨-, h⟩ | ⟨-, ⟨-, h⟩ | ⟨-, ⟨-, h⟩ | ⟨-, ⟨-, h⟩ | ⟨-, ⟨-, h⟩ |
    ⟨-, h⟩⟩⟩⟩⟩⟩⟩⟩ := h
  all_goals first
    | exact hquoted _ _ h
    | (cases h; exact ⟨List.prefix_rfl, by omega⟩)
    | (cases h; exact ⟨List.prefix_append _ _, by omega⟩)
    | skip
  rcases hf : findSub ['*', '/'] (after.drop 1) with _ | k <;> rw [hf] at h <;> cases h
  exact ⟨List.prefix_rfl, by omega⟩

theorem prefix_of_scan (h : scan lexStep found before rest = .ok found') :
    found <+: found' := by
  induction before, rest using cursorInduction generalizing found with
  | nil before =>
    cases h
    exact List.prefix_rfl
  | cons before c after ih =>
    obtain ⟨found₁, n, hstep⟩ := exists_step_of_scan_eq_ok h
    obtain ⟨hpre, hn⟩ := prefix_of_lexStep hstep
    rw [scan_cons_of_step hstep hn] at h
    exact hpre.trans (ih n hn h)

end Steps

/-- **The lexemes are read as intended**, string literals with unsafe backslashes apart. -/
def lexicon : Lexicon lexStep Lexeme where
  text := Lexeme.text
  tokens := Lexeme.tokens
  fits := Lexeme.fits
  good := Lexeme.good
  passes := by
    intro l rest found before hfit hgood
    cases l with
    | space =>
      have hstep : lexStep found before ' ' rest = .ok (found ++ [], 1) := by
        rw [List.append_nil, lexStep, if_pos (by decide)]
      exact .of_step hstep Nat.one_pos
    | symbol c => exact .of_step (lexStep_symbol hfit rest) Nat.one_pos
    | word text => exact passes_word hfit
    | number negative text =>
      cases negative with
      | false => exact passes_digits hfit
      | true =>
        have hminus : Passes lexStep found before ('-' :: (text ++ rest)) 1 _ := passes_minus hfit.1
        have hdigits := hminus.trans (passes_digits hfit)
        rw [Nat.add_comm, List.append_assoc] at hdigits
        exact hdigits
    | name value =>
      have hread : readQuoted false '`' (doubled '`' value ++ '`' :: rest) = _ :=
        readQuoted_doubled (by decide) hfit value fun h ↦ (by cases h)
      have hstep : lexStep found before '`' ((doubled '`' value ++ ['`']) ++ rest) =
          .ok (found ++ [.name value], (Lexeme.name value).text.length) := by
        rw [List.append_assoc, List.singleton_append]
        show pushQuoted found .name (readQuoted false '`' (doubled '`' value ++ '`' :: rest)) = _
        rw [hread]
        simp [pushQuoted, Lexeme.text, Nat.add_comm]
      exact .of_step hstep (Nat.succ_pos _)
    | literal value =>
      have hread : readQuoted true '\'' (doubled '\'' value ++ '\'' :: rest) = _ :=
        readQuoted_doubled (by decide) hfit value fun _ ↦ hgood
      have hstep : lexStep found before '\'' ((doubled '\'' value ++ ['\'']) ++ rest) =
          .ok (found ++ [.string value], (Lexeme.literal value).text.length) := by
        rw [List.append_assoc, List.singleton_append]
        show pushQuoted found .string (readQuoted true '\'' (doubled '\'' value ++ '\'' :: rest)) = _
        rw [hread]
        simp [pushQuoted, Lexeme.text, Nat.add_comm]
      exact .of_step hstep (Nat.succ_pos _)
  misread := by
    intro l rest found found' before hfit hgood hscan hpre
    cases l with
    | literal value =>
      -- the first token behind the opening quote is a string with another value
      have htext : (Lexeme.literal value).text ++ rest =
          '\'' :: (doubled '\'' value ++ '\'' :: rest) := by
        simp [Lexeme.text]
      rw [htext] at hscan
      obtain ⟨found₁, n, hstep⟩ := exists_step_of_scan_eq_ok hscan
      have hn := (prefix_of_lexStep hstep).2
      rw [scan_cons_of_step hstep hn] at hscan
      have hfound := prefix_of_scan hscan
      change pushQuoted found .string (readQuoted true '\'' (doubled '\'' value ++ '\'' :: rest)) = _
        at hstep
      rcases hread : readQuoted true '\'' (doubled '\'' value ++ '\'' :: rest) with _ | ⟨value', m⟩ <;>
        rw [hread] at hstep <;> cases hstep
      have hpre' : found ++ [Token.string value] <+: found' := hpre
      have hsame : found ++ [Token.string value'] = found ++ [Token.string value] :=
        (List.prefix_of_prefix_length_le hfound hpre' (by simp)).eq_of_length (by simp)
      obtain rfl : value' = value := by simpa using hsame
      exact hgood (backslashSafe_of_readQuoted (by decide) value' m hread)
    | space | symbol c | word text | number negative text | name value => exact hgood trivial

end Mysql

import SourceOutline.Proofs.Literal.Forms
import SourceOutline.Proofs.Text.Utf8

/-!
# The language of string literals

The scan of a string body keeps a flag for an escape, a count of open parentheses and a flag
for a nested string.  It accepts exactly a language that is given by a grammar of three
levels: the body, the code of its interpolations, and the strings in that code.

1.  A text of the grammar is passed over without a trace (`BodyText.closesFrom_append` and the
    lemmas of the other levels).
2.  What an accepting scan has still to read is, from every state, made of texts of the grammar
    (`awaited_of_closesFrom`): one piece of code for each open parenthesis, then a body.

Both together settle the body (`closesAtEnd_iff`).  A text in three quotes never starts like a
body in one quote, so the two kinds of string literals do not meet.
-/

namespace SourceOutline.Literal

/-- The text of a string that stands in an interpolation. -/
inductive NestedText : List Char → Prop where
  | nil : NestedText []
  | plain {c : Char} {n : List Char} : c ≠ '\\' → c ≠ '"' → NestedText n → NestedText (c :: n)
  | escape {d : Char} {n : List Char} : NestedText n → NestedText ('\\' :: d :: n)

/-- The code of an interpolation. -/
inductive CodeText : List Char → Prop where
  | nil : CodeText []
  | plain {c : Char} {i : List Char} : c ≠ '\\' → c ≠ '"' → c ≠ '(' → c ≠ ')' → CodeText i →
      CodeText (c :: i)
  | escape {d : Char} {i : List Char} : d ≠ '(' → CodeText i → CodeText ('\\' :: d :: i)
  | interpolation {j i : List Char} : CodeText j → CodeText i →
      CodeText ('\\' :: '(' :: (j ++ ')' :: i))
  | group {j i : List Char} : CodeText j → CodeText i → CodeText ('(' :: (j ++ ')' :: i))
  | string {n i : List Char} : NestedText n → CodeText i → CodeText ('"' :: (n ++ '"' :: i))

/-- The text between the quotes of a string literal. -/
inductive BodyText : List Char → Prop where
  | nil : BodyText []
  | plain {c : Char} {b : List Char} : c ≠ '\\' → c ≠ '"' → BodyText b → BodyText (c :: b)
  | escape {d : Char} {b : List Char} : d ≠ '(' → BodyText b → BodyText ('\\' :: d :: b)
  | interpolation {i b : List Char} : CodeText i → BodyText b →
      BodyText ('\\' :: '(' :: (i ++ ')' :: b))

/-! ## Texts of the grammar are passed over -/

/-- The scan passes over the text of a nested string. -/
theorem NestedText.closesFrom_append {n : List Char} (h : NestedText n) (k : Nat)
    (rest : List Char) :
    closesFrom ⟨false, k + 1, true⟩ (n ++ rest) = closesFrom ⟨false, k + 1, true⟩ rest := by
  induction h with
  | nil => rfl
  | plain hescape hquote _ ih => simpa [closesFrom, hescape, hquote] using ih
  | escape _ ih => simpa [closesFrom] using ih

/-- The scan passes over the code of an interpolation. -/
theorem CodeText.closesFrom_append {i : List Char} (h : CodeText i) (k : Nat)
    (rest : List Char) :
    closesFrom ⟨false, k + 1, false⟩ (i ++ rest) = closesFrom ⟨false, k + 1, false⟩ rest := by
  induction h generalizing k rest with
  | nil => rfl
  | plain hescape hquote hopen hclose _ ih =>
      simpa [closesFrom, hescape, hquote, hopen, hclose] using ih k rest
  | escape hopen _ ih => simpa [closesFrom, hopen] using ih k rest
  | interpolation _ _ ihj ihi => simp [closesFrom, ihj, ihi]
  | group _ _ ihj ihi => simp [closesFrom, ihj, ihi]
  | string hn _ ih => simp [closesFrom, hn.closesFrom_append, ih]

/-- The scan passes over the body of a string. -/
theorem BodyText.closesFrom_append {b : List Char} (h : BodyText b) (rest : List Char) :
    closesFrom {} (b ++ rest) = closesFrom {} rest := by
  induction h with
  | nil => rfl
  | plain hescape hquote _ ih => simpa [closesFrom, hescape, hquote] using ih
  | escape hopen _ ih => simpa [closesFrom, hopen] using ih
  | interpolation hi _ ih => simp [closesFrom, hi.closesFrom_append, ih]

/-! ## Accepted texts are in the grammar -/

/-- What follows in a body after `k` parentheses of interpolations have been opened. -/
inductive Unclosed : Nat → List Char → Prop where
  | body {b : List Char} : BodyText b → Unclosed 0 b
  | level {k : Nat} {i cs : List Char} : CodeText i → Unclosed k cs →
      Unclosed (k + 1) (i ++ ')' :: cs)

namespace Unclosed

variable {k : Nat} {c d : Char} {cs n : List Char}

/-- A character of no meaning keeps a text unclosed. -/
theorem plain (h : Unclosed k cs) (hescape : c ≠ '\\') (hquote : c ≠ '"')
    (hparen : 0 < k → c ≠ '(' ∧ c ≠ ')') : Unclosed k (c :: cs) := by
  cases h with
  | body hb => exact .body (.plain hescape hquote hb)
  | level hi hcs =>
      obtain ⟨hopen, hclose⟩ := hparen (Nat.succ_pos _)
      exact .level (.plain hescape hquote hopen hclose hi) hcs

/-- So does an escaped one. -/
theorem escape (h : Unclosed k cs) (hopen : d ≠ '(') : Unclosed k ('\\' :: d :: cs) := by
  cases h with
  | body hb => exact .body (.escape hopen hb)
  | level hi hcs => exact .level (.escape hopen hi) hcs

/-- A closing parenthesis ends the innermost group. -/
theorem close (h : Unclosed k cs) : Unclosed (k + 1) (')' :: cs) :=
  .level .nil h

/-- An interpolation opens a group. -/
theorem interpolation (h : Unclosed (k + 1) cs) : Unclosed k ('\\' :: '(' :: cs) := by
  cases h with
  | level hj hcs =>
      cases hcs with
      | body hb => exact .body (.interpolation hj hb)
      | level hi hcs => simpa using level (.interpolation hj hi) hcs

/-- A parenthesis in code opens a group. -/
theorem group (h : Unclosed (k + 2) cs) : Unclosed (k + 1) ('(' :: cs) := by
  cases h with
  | level hj hcs =>
      cases hcs with
      | level hi hcs => simpa using level (.group hj hi) hcs

/-- A nested string keeps the group open. -/
theorem string (hn : NestedText n) (h : Unclosed (k + 1) cs) :
    Unclosed (k + 1) ('"' :: (n ++ '"' :: cs)) := by
  cases h with
  | level hi hcs => simpa using level (.string hn hi) hcs

end Unclosed

/-- What an accepting scan has still to read, inside a nested string or not. -/
inductive Awaited : Bool → Nat → List Char → Prop where
  | code {k : Nat} {cs : List Char} : Unclosed k cs → Awaited false k cs
  | nested {k : Nat} {n cs : List Char} : NestedText n → Unclosed k cs →
      Awaited true k (n ++ '"' :: cs)

namespace Awaited

variable {nested : Bool} {k : Nat} {c d : Char} {cs : List Char}

/-- A character of no meaning leaves what is awaited. -/
theorem plain (h : Awaited nested k cs) (hescape : c ≠ '\\') (hquote : c ≠ '"')
    (hparen : 0 < k → nested = false → c ≠ '(' ∧ c ≠ ')') : Awaited nested k (c :: cs) := by
  cases h with
  | code hcs => exact .code (hcs.plain hescape hquote fun hlevel => hparen hlevel rfl)
  | nested hn hcs => exact .nested (.plain hescape hquote hn) hcs

/-- An escaped character does too, unless it opens an interpolation. -/
theorem escape (h : Awaited nested (if d = '(' ∧ nested = false then k + 1 else k) cs) :
    Awaited nested k ('\\' :: d :: cs) := by
  cases nested with
  | true =>
      simp only [Bool.true_eq_false, and_false, if_false] at h
      cases h with
      | nested hn hcs => exact .nested (.escape hn) hcs
  | false =>
      by_cases hopen : d = '('
      · subst hopen
        cases h with
        | code hcs => exact .code hcs.interpolation
      · simp only [hopen, false_and, if_false] at h
        cases h with
        | code hcs => exact .code (hcs.escape hopen)

/-- In code a quote begins or ends a nested string. -/
theorem quote (h : Awaited (!nested) (k + 1) cs) : Awaited nested (k + 1) ('"' :: cs) := by
  cases nested with
  | true =>
      cases h with
      | code hcs => exact .nested .nil hcs
  | false =>
      rw [Bool.not_false] at h
      cases h with
      | nested hn hcs => exact .code (hcs.string hn)

/-- A parenthesis in code awaits its partner first. -/
theorem group (h : Awaited false (k + 2) cs) : Awaited false (k + 1) ('(' :: cs) := by
  cases h with
  | code hcs => exact .code hcs.group

/-- The partner of a parenthesis is met. -/
theorem close (h : Awaited false k cs) : Awaited false (k + 1) (')' :: cs) := by
  cases h with
  | code hcs => exact .code hcs.close

end Awaited

/-- The text from the start of an escape on, of which the backslash has been read. -/
def Body.pending (st : Body) (cs : List Char) : List Char :=
  if st.escaped then '\\' :: cs else cs

/-- An accepting scan reads texts of the grammar.  The induction follows the scan: each step
puts the character that it reads in front of what is awaited after it. -/
theorem awaited_of_closesFrom {st : Body} {cs : List Char}
    (hst : st.nested = true → 0 < st.interpolation) (h : closesFrom st cs = true) :
    Awaited st.nested st.interpolation (st.pending cs) := by
  fun_induction closesFrom st cs with
  | case1 st =>
      obtain ⟨escaped, k, nested⟩ := st
      simp only [Bool.and_eq_true, Bool.not_eq_true', beq_iff_eq] at h
      obtain ⟨rfl, rfl⟩ := h
      cases nested with
      | false => exact .code (.body .nil)
      | true => exact absurd (hst rfl) (Nat.lt_irrefl 0)
  | case2 st c cs hescaped ih =>
      obtain ⟨escaped, k, nested⟩ := st
      obtain rfl : escaped = true := hescaped
      refine (ih ?_ h).escape
      intro hnested
      obtain rfl : nested = true := hnested
      simpa using hst
  | case3 st cs hescaped ih =>
      obtain ⟨escaped, k, nested⟩ := st
      obtain rfl : escaped = false := eq_false_of_ne_true hescaped
      exact ih hst h
  | case4 st cs hescaped hopen _ ih =>
      obtain ⟨escaped, k, nested⟩ := st
      obtain rfl : escaped = false := eq_false_of_ne_true hescaped
      obtain ⟨level, rfl⟩ : ∃ level, k = level + 1 := Nat.exists_eq_add_one.mpr hopen
      exact (ih (fun _ => hopen) h).quote
  | case5 => cases h
  | case6 st c cs hescaped _ _ hopen ih =>
      obtain ⟨escaped, k, nested⟩ := st
      obtain rfl : escaped = false := eq_false_of_ne_true hescaped
      obtain ⟨rfl, hopen, rfl⟩ := hopen
      obtain ⟨level, rfl⟩ : ∃ level, k = level + 1 := Nat.exists_eq_add_one.mpr hopen
      exact (ih (by simp) h).group
  | case7 st c cs hescaped _ _ _ hclose ih =>
      obtain ⟨escaped, k, nested⟩ := st
      obtain rfl : escaped = false := eq_false_of_ne_true hescaped
      obtain ⟨rfl, hopen, rfl⟩ := hclose
      obtain ⟨level, rfl⟩ : ∃ level, k = level + 1 := Nat.exists_eq_add_one.mpr hopen
      exact (ih (by simp) h).close
  | case8 st c cs hescaped hbackslash hquote hopen hclose ih =>
      obtain ⟨escaped, k, nested⟩ := st
      obtain rfl : escaped = false := eq_false_of_ne_true hescaped
      refine (ih hst h).plain hbackslash hquote ?_
      intro hlevel hcode
      exact ⟨fun hc => hopen ⟨hc, hlevel, hcode⟩, fun hc => hclose ⟨hc, hlevel, hcode⟩⟩

/-- **A string body is accepted exactly when the grammar gives it.** -/
theorem closesAtEnd_iff {b : List Char} : closesAtEnd b = true ↔ BodyText b := by
  constructor
  · intro h
    cases awaited_of_closesFrom (by simp) h with
    | code hbody =>
        cases hbody with
        | body hb => exact hb
  · intro h
    have hpassed := h.closesFrom_append []
    rw [List.append_nil] at hpassed
    exact hpassed

example : closesAtEnd "\\(f(\"a)\", b)) and \\\"".toList = true := by decide

/-! ## Both kinds of string literals -/

/-- The body of a string does not begin with a quote. -/
theorem BodyText.head_ne_quote {b : List Char} (h : BodyText b) : b.head? ≠ some '"' := by
  cases h with
  | nil => simp
  | plain _ hquote => simpa using hquote
  | escape => simp
  | interpolation => simp

/-- Between triple quotes stands a string when they do not occur inside. -/
theorem isString_tripleQuoted (inner : List Char) :
    isString (tripleQuote ++ (inner ++ tripleQuote)) = true ↔ ¬tripleQuote <:+: inner := by
  have hinner : between? tripleQuote tripleQuote (tripleQuote ++ (inner ++ tripleQuote)) =
      some inner := between?_eq_some_iff.mpr rfl
  rw [isString, hinner, ← Text.hasPart_iff]
  simp

/-- A literal in single quotes does not start with three quotes, unless a quote follows it. -/
theorem BodyText.not_tripleQuoted {b m rest : List Char} (h : BodyText b)
    (hm : m.head? ≠ some '"') : '"' :: (b ++ '"' :: m) ≠ tripleQuote ++ rest := by
  intro heq
  have hstart : b ++ '"' :: m = '"' :: '"' :: rest := (List.cons.inj heq).2
  cases b with
  | nil =>
      have hnext : m = '"' :: rest := (List.cons.inj hstart).2
      exact hm (by rw [hnext]; rfl)
  | cons c b =>
      have hfirst : c = '"' := (List.cons.inj hstart).1
      exact h.head_ne_quote (by rw [hfirst]; rfl)

/-- **The language of string literals.** -/
theorem isString_iff {e : List Char} :
    isString e = true ↔
      (∃ inner, e = tripleQuote ++ (inner ++ tripleQuote) ∧ ¬tripleQuote <:+: inner) ∨
      ∃ body, e = '"' :: (body ++ ['"']) ∧ BodyText body := by
  cases htriple : between? tripleQuote tripleQuote e with
  | some inner =>
      obtain rfl := between?_eq_some_iff.mp htriple
      rw [isString_tripleQuoted]
      constructor
      · intro h
        exact .inl ⟨inner, rfl, h⟩
      · intro h
        rcases h with ⟨inner', heq, h⟩ | ⟨body, heq, hbody⟩
        · rw [List.append_cancel_left_eq, List.append_cancel_right_eq] at heq
          rwa [heq]
        · exact absurd heq.symm (hbody.not_tripleQuoted (by simp))
  | none =>
      simp only [isString, htriple]
      constructor
      · intro h
        split at h
        · next body hbody =>
          exact .inr ⟨body, between?_eq_some_iff.mp hbody, closesAtEnd_iff.mp h⟩
        · cases h
      · intro h
        rcases h with ⟨inner, heq, _⟩ | ⟨body, heq, hbody⟩
        · rw [between?_eq_some_iff.mpr heq] at htriple
          cases htriple
        · have hbetween : between? ['"'] ['"'] e = some body := between?_eq_some_iff.mpr heq
          simp only [hbetween]
          exact closesAtEnd_iff.mpr hbody

/-- A string literal with more text after it is none, unless the text starts with a quote. -/
theorem not_isString_append {b m : List Char} (h : BodyText b) (hne : m ≠ [])
    (hm : m.head? ≠ some '"') : ¬isString ('"' :: (b ++ '"' :: m)) = true := by
  intro hstring
  rcases isString_iff.mp hstring with ⟨inner, heq, _⟩ | ⟨body, heq, hbody⟩
  · exact h.not_tripleQuoted hm heq
  · -- The body would go on behind the quote at which the scan stops.
    have hsame : b ++ '"' :: m = body ++ ['"'] := (List.cons.inj heq).2
    obtain ⟨more, last, rfl⟩ := (List.eq_nil_or_concat m).resolve_left hne
    rw [List.concat_eq_append, ← List.cons_append, ← List.append_assoc] at hsame
    have hlonger : b ++ '"' :: more = body := List.append_inj_left' hsame rfl
    rw [← hlonger, ← closesAtEnd_iff, closesAtEnd, h.closesFrom_append] at hbody
    simp [closesFrom] at hbody

/-! ## Three quotes in bytes -/

/-- Triple quotes have three bytes. -/
theorem length_encode_tripleQuote : (Utf8.encode tripleQuote).length = 3 := by
  decide

/-- Three quotes at the start and three at the end of a text are six quotes when the text has
at least six bytes. -/
theorem exists_inner_of_tripleQuotes {e : List Char} (hsize : 6 ≤ (Utf8.encode e).length)
    (hstart : tripleQuote <+: e) (hend : tripleQuote <:+ e) :
    ∃ inner, e = tripleQuote ++ (inner ++ tripleQuote) := by
  obtain ⟨rest, rfl⟩ := hstart
  have hrest : rest <:+ tripleQuote ++ rest := List.suffix_append _ _
  by_cases hlength : tripleQuote.length ≤ rest.length
  · obtain ⟨inner, rfl⟩ := List.suffix_of_suffix_length_le hend hrest hlength
    exact ⟨inner, rfl⟩
  · -- The rest would be a part of the three quotes and have two bytes at most.
    exfalso
    obtain ⟨overlap, hoverlap⟩ := List.suffix_of_suffix_length_le hrest hend (by omega)
    have hchars := congrArg List.length hoverlap
    have hbytes := congrArg (fun cs => (Utf8.encode cs).length) hoverlap
    have hleast := Utf8.length_le_length_encode overlap
    simp only [Utf8.encode_append, List.length_append, length_encode_tripleQuote]
      at hsize hchars hbytes
    omega

/-- The bytes between the quotes begin and end at characters, and are the text between them. -/
theorem tripleQuotes_bytes (inner : List Char) :
    let bytes := Utf8.encode (tripleQuote ++ (inner ++ tripleQuote))
    Utf8.IsBoundary bytes 3 ∧ Utf8.IsBoundary bytes (bytes.length - 3) ∧
      3 ≤ bytes.length - 3 ∧
      (bytes.drop 3).take (bytes.length - 3 - 3) = Utf8.encode inner := by
  intro bytes
  have hbytes : bytes =
      Utf8.encode tripleQuote ++ (Utf8.encode inner ++ Utf8.encode tripleQuote) := by
    rw [← Utf8.encode_append, ← Utf8.encode_append]
  have hlength : bytes.length = 3 + ((Utf8.encode inner).length + 3) := by
    rw [hbytes, List.length_append, List.length_append, length_encode_tripleQuote]
  refine ⟨⟨tripleQuote, inner ++ tripleQuote, Utf8.encode_append _ _, length_encode_tripleQuote⟩,
    ⟨tripleQuote ++ inner, tripleQuote, ?_, ?_⟩, by omega, ?_⟩
  · rw [← Utf8.encode_append, List.append_assoc]
  · rw [Utf8.encode_append, List.length_append, length_encode_tripleQuote]
    omega
  · have hinner : bytes.length - 3 - 3 = (Utf8.encode inner).length := by omega
    rw [hinner, hbytes, ← length_encode_tripleQuote, List.drop_left, List.take_left]

/-- **The string literals are those of the grammar.**  A literal in quotes with more text
after it is no string, so sums and comparisons of strings are none.  In a literal in three
quotes the text is cut out between characters. -/
theorem string_literals_by_grammar :
    (∀ e, isString e = true ↔
      (∃ inner, e = tripleQuote ++ (inner ++ tripleQuote) ∧ ¬tripleQuote <:+: inner) ∨
      ∃ body, e = '"' :: (body ++ ['"']) ∧ BodyText body) ∧
    (∀ body m, BodyText body → m ≠ [] → m.head? ≠ some '"' →
      tag? ('"' :: (body ++ '"' :: m)) ≠ some .string) ∧
    ∀ e, let bytes := Utf8.encode e
      6 ≤ bytes.length → tripleQuote <+: e → tripleQuote <:+ e →
      Utf8.IsBoundary bytes 3 ∧ Utf8.IsBoundary bytes (bytes.length - 3) ∧
      3 ≤ bytes.length - 3 ∧
      ∃ inner, (bytes.drop 3).take (bytes.length - 3 - 3) = Utf8.encode inner ∧
        (isString e = true ↔ ¬tripleQuote <:+: inner) := by
  refine ⟨fun e => isString_iff, ?_, ?_⟩
  · intro body m hbody hne hm
    rw [Ne, tag?_eq_string_iff]
    exact not_isString_append hbody hne hm
  · intro e bytes hsize hstart hend
    obtain ⟨inner, rfl⟩ := exists_inner_of_tripleQuotes hsize hstart hend
    obtain ⟨hfirst, hlast, horder, hslice⟩ := tripleQuotes_bytes inner
    exact ⟨hfirst, hlast, horder, inner, hslice, isString_tripleQuoted inner⟩

/-- A sum of strings is not tagged as one, and a block is cut out between characters. -/
theorem sum_and_block_by_grammar :
    let sum := "\"a\" + name + \"b\"".toList
    let block := tripleQuote ++ 'é' :: tripleQuote
    BodyText ['a'] ∧ tag? sum ≠ some .string ∧
    6 ≤ (Utf8.encode block).length ∧ tripleQuote <+: block ∧ tripleQuote <:+ block ∧
    Utf8.IsBoundary (Utf8.encode block) 3 ∧
    Utf8.IsBoundary (Utf8.encode block) ((Utf8.encode block).length - 3) := by
  intro sum block
  obtain ⟨-, hlonger, hbytes⟩ := string_literals_by_grammar
  have hbody : BodyText ['a'] := .plain (by decide) (by decide) .nil
  have hsum := hlonger ['a'] " + name + \"b\"".toList hbody (by decide) (by decide)
  have hsize : 6 ≤ (Utf8.encode block).length := by decide
  have hstart : tripleQuote <+: block := ⟨_, rfl⟩
  have hend : tripleQuote <:+ block := ⟨tripleQuote ++ ['é'], rfl⟩
  obtain ⟨hfirst, hlast, -⟩ := hbytes block hsize hstart hend
  exact ⟨hbody, hsum, hsize, hstart, hend, hfirst, hlast⟩

end SourceOutline.Literal

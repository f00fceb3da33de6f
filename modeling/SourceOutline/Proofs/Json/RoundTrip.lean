import SourceOutline.Json.Parser
import SourceOutline.Json.Printer

/-!
# Reading back what was written

A JSON value is read back from its text, in every layout that puts only blanks between the
tokens, by every reader with room for its lists and objects, and by no other reader
(`Json.parseWithin?_write`).  The parts of the text are taken in the order of the reader:
strings, numbers, then values by induction.

A number has no end of its own, so what follows a value must not go on with one; nor must
the fuel run out, and twice the length of the text is always enough.
-/

namespace SourceOutline.Json

/-- What holds of all values whose parts have it holds of every value. -/
@[elab_as_elim]
theorem partsInduction {motive : Json → Prop} (null : motive .null)
    (bool : ∀ b, motive (.bool b)) (number : ∀ n, motive (.number n))
    (string : ∀ s, motive (.string s))
    (array : ∀ items, (∀ item ∈ items, motive item) → motive (.array items))
    (object : ∀ fields, (∀ field ∈ fields, motive field.2) → motive (.object fields)) :
    (j : Json) → motive j
  | .null => null
  | .bool b => bool b
  | .number n => number n
  | .string s => string s
  | .array items =>
    array items fun item _ => partsInduction null bool number string array object item
  | .object fields =>
    object fields fun field _ => partsInduction null bool number string array object field.2
termination_by j => sizeOf j
decreasing_by
  · have := List.sizeOf_lt_of_mem ‹item ∈ items›
    simp
    omega
  · have := List.sizeOf_lt_of_mem ‹field ∈ fields›
    obtain ⟨key, value⟩ := field
    simp at this ⊢
    omega

namespace Parser

/-! ## Blanks -/

/-- The characters that may stand between tokens. -/
def IsBlank (c : Char) : Prop :=
  c = ' ' ∨ c = '\n' ∨ c = '\r' ∨ c = '\t'

instance (c : Char) : Decidable (IsBlank c) :=
  inferInstanceAs (Decidable (_ ∨ _))

/-- A character that is no blank stays. -/
theorem skipBlanks_cons {c : Char} (h : ¬IsBlank c) (cs : List Char) :
    skipBlanks (c :: cs) = c :: cs := by
  rw [skipBlanks]
  exact if_neg h

/-- Blanks in front are dropped. -/
theorem skipBlanks_append {blanks : List Char} (h : ∀ c ∈ blanks, IsBlank c) (cs : List Char) :
    skipBlanks (blanks ++ cs) = skipBlanks cs := by
  induction blanks with
  | nil => rfl
  | cons c blanks ih =>
      have hc : IsBlank c := h c List.mem_cons_self
      rw [List.cons_append, skipBlanks]
      exact (if_pos hc).trans (ih fun d hd => h d (List.mem_cons_of_mem c hd))

/-! ## Strings -/

/-- A hexadecimal digit has its value. -/
theorem hexDigit?_digitChar : ∀ n < 16, hexDigit? (Nat.digitChar n) = some n := by
  decide

/-- The four digits of an escaped control character give its number. -/
theorem hex4?_hexEscape {c : Char} (h : c.toNat < 0x20) :
    hex4? '0' '0' (Nat.digitChar (c.toNat / 16)) (Nat.digitChar (c.toNat % 16)) =
      some c.toNat := by
  have hhigh := hexDigit?_digitChar (c.toNat / 16) (by omega)
  have hlow := hexDigit?_digitChar (c.toNat % 16) (by omega)
  have hzero : hexDigit? '0' = some 0 := by decide
  simp only [hex4?, hzero, hhigh, hlow, Option.bind_eq_bind, Option.bind_some, Option.pure_def]
  congr 1
  omega

/-- A character that needs no escape stands for itself. -/
theorem stringBody?_plain {c : Char} (hquote : c ≠ '"') (hslash : c ≠ '\\')
    (hhigh : ¬c.toNat < 0x20) (rest : List Char) :
    stringBody? (c :: rest) = (stringBody? rest).map fun (cs, rest) => (c :: cs, rest) := by
  rw [stringBody?]
  · exact if_neg (by simp [hhigh, hslash])
  · exact hquote
  · exact fun _ _ _ _ _ hc => absurd hc hslash
  · exact fun _ _ hc => absurd hc hslash

/-- One escaped character is read back as itself. -/
theorem stringBody?_escapeChar (c : Char) (rest : List Char) :
    stringBody? (escapeChar c ++ rest) =
      (stringBody? rest).map fun (cs, rest) => (c :: cs, rest) := by
  unfold escapeChar
  split
  case h_8 hquote hslash hb hf hn hr ht =>
    split
    · next hlow =>
      simp only [hexEscape, List.cons_append, List.nil_append]
      rw [stringBody?, hex4?_hexEscape hlow]
      simp only
      rw [if_pos (by omega), Char.ofNat_toNat]
    · next hhigh => exact stringBody?_plain hquote hslash hhigh rest
  all_goals rfl

/-- The escaped characters of a string are read back up to the closing quote. -/
theorem stringBody?_escaped (cs rest : List Char) :
    stringBody? (cs.flatMap escapeChar ++ '"' :: rest) = some (cs, rest) := by
  induction cs with
  | nil => rfl
  | cons c cs ih =>
      rw [List.flatMap_cons, List.append_assoc, stringBody?_escapeChar, ih]
      rfl

/-- A quoted string does not begin with a blank. -/
theorem skipBlanks_quote (s : String) (cs : List Char) :
    skipBlanks (quote s ++ cs) = quote s ++ cs :=
  skipBlanks_cons (by decide) _

/-- A quoted string is read back. -/
theorem string?_quote (s : String) (rest : List Char) :
    string? (quote s ++ rest) = some (s, rest) := by
  simp only [quote, List.cons_append, List.append_assoc, List.nil_append, string?]
  rw [stringBody?_escaped, Option.map_some, String.ofList_toList]

/-! ## Numbers -/

/-- What follows a number must not go on with it. -/
def EndsNumber (rest : List Char) : Prop :=
  ∀ c ∈ rest.head?, isDigit c = false ∧ c ≠ '.' ∧ c ≠ 'e' ∧ c ≠ 'E'

/-- The end of the text ends a number. -/
theorem endsNumber_nil : EndsNumber [] :=
  nofun

/-- So does any character that cannot continue one. -/
theorem endsNumber_cons {c : Char} (h : isDigit c = false ∧ c ≠ '.' ∧ c ≠ 'e' ∧ c ≠ 'E')
    (rest : List Char) : EndsNumber (c :: rest) := by
  intro d hd
  cases hd
  exact h

/-- And so do blanks before such a character. -/
theorem endsNumber_blanks {blanks : List Char} (h : ∀ c ∈ blanks, IsBlank c) {c : Char}
    (hc : isDigit c = false ∧ c ≠ '.' ∧ c ≠ 'e' ∧ c ≠ 'E') (rest : List Char) :
    EndsNumber (blanks ++ c :: rest) := by
  cases blanks with
  | nil => exact endsNumber_cons hc rest
  | cons b blanks =>
      have hb : IsBlank b := h b List.mem_cons_self
      rcases hb with rfl | rfl | rfl | rfl <;> exact endsNumber_cons (by decide) _

/-- All digits are read, up to what is none. -/
theorem digits?_append {ds rest : List Char} (hne : ds ≠ []) (hds : ∀ c ∈ ds, isDigit c = true)
    (hrest : ∀ c ∈ rest.head?, isDigit c = false) :
    digits? (ds ++ rest) = some (ds, rest) := by
  have htake : (ds ++ rest).takeWhile isDigit = ds := by
    rw [List.takeWhile_append_of_pos hds]
    cases rest with
    | nil => simp
    | cons c rest => simp [hrest c rfl]
  have hdrop : (ds ++ rest).dropWhile isDigit = rest := by
    rw [List.dropWhile_append_of_pos hds]
    cases rest with
    | nil => rfl
    | cons c rest => simp [hrest c rfl]
  unfold digits?
  rw [htake, hdrop]
  split
  · contradiction
  · rfl

/-- A number is written in digits. -/
theorem isDigit_of_mem_digits {n : Nat} {c : Char} (h : c ∈ digits n) : isDigit c = true :=
  Nat.isDigit_of_mem_toDigits (by decide) (by decide) h

/-- A number has at least one digit. -/
theorem digits_ne_nil (n : Nat) : digits n ≠ [] :=
  Nat.toDigits_ne_nil

/-- The digits of a number have its value. -/
theorem valueOf_digits (n : Nat) : valueOf (digits n) = n :=
  Nat.ofDigitChars_ten_toDigits

/-- Only zero is written with a zero in front. -/
theorem head?_digits {n : Nat} (h : 0 < n) : (digits n).head? ≠ some '0' := by
  induction n using Nat.strongRecOn with
  | ind n ih =>
      unfold digits
      by_cases hn : n < 10
      · rw [Nat.toDigits_of_lt_base hn]
        have hall : ∀ m < 10, 0 < m → [Nat.digitChar m].head? ≠ some '0' := by decide
        exact hall n hn h
      · rw [Nat.toDigits_of_base_le (by decide) (by omega)]
        have hfirst := ih (n / 10) (by omega) (by omega)
        unfold digits at hfirst
        rw [List.head?_append]
        cases hhead : (Nat.toDigits 10 (n / 10)).head? with
        | none => exact absurd (List.head?_eq_none_iff.mp hhead) Nat.toDigits_ne_nil
        | some c => rwa [hhead] at hfirst

/-- The digits of a number are read as a whole part: none begins with a superfluous zero. -/
theorem wholePart?_digits (n : Nat) {rest : List Char}
    (hrest : ∀ c ∈ rest.head?, isDigit c = false) :
    wholePart? (digits n ++ rest) = some (digits n, rest) := by
  have hread := digits?_append (digits_ne_nil n) (fun c => isDigit_of_mem_digits) hrest
  rcases Nat.eq_zero_or_pos n with rfl | hpos
  · rfl
  · unfold wholePart?
    split
    · next rest' heq =>
      have hzero := head?_digits hpos
      cases hds : digits n with
      | nil => exact absurd hds (digits_ne_nil n)
      | cons c cs =>
          rw [hds] at heq hzero
          cases heq
          exact absurd rfl hzero
    · exact hread

/-- The digits of a number begin with one. -/
theorem exists_digit_cons (n : Nat) : ∃ c cs, digits n = c :: cs ∧ isDigit c = true := by
  obtain ⟨c, cs, hds⟩ := List.exists_cons_of_ne_nil (digits_ne_nil n)
  exact ⟨c, cs, hds, isDigit_of_mem_digits (by rw [hds]; exact List.mem_cons_self)⟩

/-- A digit is no other character. -/
theorem ne_of_isDigit {c d : Char} (hc : isDigit c = true) (hd : isDigit d = false) : c ≠ d := by
  rintro rfl
  rw [hc] at hd
  cases hd

/-- Digits have no sign. -/
theorem minus_digits (n : Nat) (rest : List Char) :
    minus (digits n ++ rest) = (false, digits n ++ rest) := by
  obtain ⟨c, cs, hds, hc⟩ := exists_digit_cons n
  have hminus : c ≠ '-' := ne_of_isDigit hc (by decide)
  rw [hds, List.cons_append, minus]
  exact fun _ heq => hminus (List.cons.inj heq).1

/-- Digits of an exponent need no sign. -/
theorem exponentSign_digits (n : Nat) (rest : List Char) :
    exponentSign (digits n ++ rest) = (false, digits n ++ rest) := by
  obtain ⟨c, cs, hds, hc⟩ := exists_digit_cons n
  have hplus : c ≠ '+' := ne_of_isDigit hc (by decide)
  rw [← minus_digits, hds, List.cons_append, exponentSign]
  exact fun _ heq => hplus (List.cons.inj heq).1

/-- An exponent is read back from its digits, with or without a sign. -/
theorem exponent?_integerText (e : Int) {rest : List Char}
    (hrest : ∀ c ∈ rest.head?, isDigit c = false) :
    exponent? ('e' :: (integerText e ++ rest)) = some (some e, rest) := by
  have hread (n : Nat) : digits? (digits n ++ rest) = some (digits n, rest) :=
    digits?_append (digits_ne_nil n) (fun c => isDigit_of_mem_digits) hrest
  unfold exponent?
  cases e with
  | ofNat n =>
      simp only [true_or, if_true, integerText, exponentSign_digits]
      rw [hread, Option.map_some, valueOf_digits]
      rfl
  | negSucc n =>
      have hsign : exponentSign ('-' :: digits (n + 1) ++ rest) = (true, digits (n + 1) ++ rest) :=
        rfl
      simp only [true_or, if_true, integerText, hsign]
      rw [hread, Option.map_some, valueOf_digits]
      rfl

/-- Without a point there is no fraction. -/
theorem fraction?_of_ne {c : Char} (h : c ≠ '.') (rest : List Char) :
    fraction? (c :: rest) = some ([], c :: rest) := by
  rw [fraction?]
  exact fun _ heq => h (List.cons.inj heq).1

/-- What ends a number is no fraction and no exponent. -/
theorem EndsNumber.parts {rest : List Char} (h : EndsNumber rest) :
    fraction? rest = some ([], rest) ∧ exponent? rest = some (none, rest) := by
  cases rest with
  | nil => exact ⟨rfl, rfl⟩
  | cons c rest =>
      obtain ⟨_, hpoint, he, hE⟩ := h c rfl
      refine ⟨fraction?_of_ne hpoint rest, ?_⟩
      unfold exponent?
      exact if_neg (not_or.mpr ⟨he, hE⟩)

/-- A number is its sign, its whole part and possibly an exponent. -/
theorem number?_signed {text rest : List Char} {negative : Bool} {n : Nat}
    {exponent : Option Int} (hsign : minus text = (negative, digits n ++ rest))
    (hrest : ∀ c ∈ rest.head?, isDigit c = false) {after : List Char}
    (hfraction : fraction? rest = some ([], rest))
    (hexponent : exponent? rest = some (exponent, after)) :
    number? text = some (assemble negative (digits n) [] exponent, after) := by
  unfold number?
  rw [hsign]
  simp only [wholePart?_digits n hrest, hfraction, hexponent, Option.bind_eq_bind,
    Option.bind_some, Option.pure_def]

/-- A number is read back from its text. -/
theorem number?_text (n : Number) {rest : List Char} (hrest : EndsNumber rest) :
    number? (n.text ++ rest) = some (n, rest) := by
  have hdigit : ∀ c ∈ rest.head?, isDigit c = false := fun c hc => (hrest c hc).1
  obtain ⟨hfraction, hexponent⟩ := hrest.parts
  cases n with
  | integer value =>
      cases value with
      | ofNat n =>
          have hread := number?_signed (minus_digits n rest) hdigit hfraction hexponent
          rw [Number.text, integerText, hread]
          simp [assemble, valueOf_digits]
      | negSucc n =>
          have hminus : minus ('-' :: digits (n + 1) ++ rest) = (true, digits (n + 1) ++ rest) :=
            rfl
          have hread := number?_signed hminus hdigit hfraction hexponent
          rw [Number.text, integerText, hread]
          simp [assemble, valueOf_digits]
          omega
  | decimal negative significand exponent =>
      have htail := exponent?_integerText exponent hdigit
      have hpoint := fraction?_of_ne (c := 'e') (by decide) (integerText exponent ++ rest)
      have he : ∀ c ∈ ('e' :: (integerText exponent ++ rest)).head?, isDigit c = false := by
        intro c hc
        cases hc
        decide
      have hsign : minus ((if negative then ['-'] else []) ++ digits significand ++
          'e' :: integerText exponent ++ rest) =
            (negative, digits significand ++ 'e' :: (integerText exponent ++ rest)) := by
        cases negative with
        | false => simpa using minus_digits significand _
        | true => simp [minus]
      rw [Number.text, number?_signed hsign he hpoint htail]
      simp [assemble, valueOf_digits]

/-- A number starts with a digit or a minus. -/
theorem exists_head_text (n : Number) :
    ∃ c cs, n.text = c :: cs ∧ (isDigit c = true ∨ c = '-') := by
  cases n with
  | integer value =>
      cases value with
      | ofNat n =>
          obtain ⟨c, cs, hds, hc⟩ := exists_digit_cons n
          exact ⟨c, cs, hds, .inl hc⟩
      | negSucc n => exact ⟨'-', digits (n + 1), rfl, .inr rfl⟩
  | decimal negative significand exponent =>
      cases negative with
      | false =>
          obtain ⟨c, cs, hds, hc⟩ := exists_digit_cons significand
          exact ⟨c, cs ++ 'e' :: integerText exponent, by simp [Number.text, hds], .inl hc⟩
      | true => exact ⟨'-', digits significand ++ 'e' :: integerText exponent, rfl, .inr rfl⟩

/-- The first character of a number is a digit or a minus sign and no other. -/
theorem ne_of_head {c d : Char} (hc : isDigit c = true ∨ c = '-') (hd : isDigit d = false)
    (hminus : d ≠ '-') : c ≠ d := by
  rcases hc with hc | rfl
  · exact ne_of_isDigit hc hd
  · exact hminus.symm

/-- A number does not begin with a blank. -/
theorem not_isBlank_of_head {c : Char} (hc : isDigit c = true ∨ c = '-') : ¬IsBlank c := by
  rintro (rfl | rfl | rfl | rfl) <;> exact ne_of_head hc (by decide) (by decide) rfl

end Parser

/-! ## Values -/

open SourceOutline.Json.Parser

/-- A layout that puts nothing but blanks between the tokens. -/
structure Layout.Readable (layout : Layout) : Prop where
  gap : ∀ level, ∀ c ∈ layout.gap level, IsBlank c
  colon : ∃ blanks, layout.colon = ':' :: blanks ∧ ∀ c ∈ blanks, IsBlank c

/-- The compact layout puts nothing between the parts. -/
theorem Layout.readable_compact : Layout.compact.Readable where
  gap _ _ hc := by cases hc
  colon := ⟨[], rfl, nofun⟩

/-- The pretty layout puts only blanks between them. -/
theorem Layout.readable_pretty : Layout.pretty.Readable where
  gap level c hc := by
    rcases List.mem_cons.mp hc with rfl | hc
    · exact .inr (.inl rfl)
    · exact .inl (List.eq_of_mem_replicate hc)
  colon := ⟨[' '], rfl, fun _ hc => .inl (List.mem_singleton.mp hc)⟩

/-- Blanks before a value change nothing. -/
theorem Parser.value?_blanks {blanks : List Char} (h : ∀ c ∈ blanks, IsBlank c) (fuel room : Nat)
    (cs : List Char) : value? fuel room (blanks ++ cs) = value? fuel room cs := by
  cases fuel with
  | zero => rfl
  | succ fuel => rw [value?, value?, skipBlanks_append h]

/-- Blanks before the first item change nothing. -/
theorem Parser.items?_blanks {blanks : List Char} (h : ∀ c ∈ blanks, IsBlank c) (fuel room : Nat)
    (cs : List Char) : items? fuel room (blanks ++ cs) = items? fuel room cs := by
  cases fuel with
  | zero => rfl
  | succ fuel => rw [items?, items?, value?_blanks h]

/-- Blanks before the first field change nothing. -/
theorem Parser.fields?_blanks {blanks : List Char} (h : ∀ c ∈ blanks, IsBlank c) (fuel room : Nat)
    (cs : List Char) : fields? fuel room (blanks ++ cs) = fields? fuel room cs := by
  cases fuel with
  | zero => rfl
  | succ fuel => rw [fields?, fields?, skipBlanks_append h]

section

variable {layout : Layout}

/-- A value does not start with a blank or with a closing bracket. -/
theorem exists_head_write (layout : Layout) (level : Nat) (j : Json) :
    ∃ c cs, write layout level j = c :: cs ∧ ¬IsBlank c ∧ c ≠ ']' := by
  cases j with
  | null => exact ⟨'n', "ull".toList, rfl, by decide, by decide⟩
  | bool b =>
      cases b with
      | false => exact ⟨'f', "alse".toList, rfl, by decide, by decide⟩
      | true => exact ⟨'t', "rue".toList, rfl, by decide, by decide⟩
  | number n =>
      obtain ⟨c, cs, htext, hc⟩ := exists_head_text n
      exact ⟨c, cs, htext, not_isBlank_of_head hc, ne_of_head hc (by decide) (by decide)⟩
  | string s => exact ⟨'"', _, rfl, by decide, by decide⟩
  | array items =>
      cases items with
      | nil => exact ⟨'[', _, rfl, by decide, by decide⟩
      | cons item items => exact ⟨'[', _, rfl, by decide, by decide⟩
  | object fields =>
      cases fields with
      | nil => exact ⟨'\x7b', _, rfl, by decide, by decide⟩
      | cons field fields => exact ⟨'\x7b', _, rfl, by decide, by decide⟩

/-- A reader with room for the value gives it back from its text, whatever follows that ends a
number, with fuel for twice the length of the text.  A reader without room gives nothing. -/
def Reads (layout : Layout) (j : Json) : Prop :=
  ∀ (level fuel room : Nat) (rest : List Char), 2 * (write layout level j).length ≤ fuel →
    EndsNumber rest →
    value? fuel room (write layout level j ++ rest) =
      if j.nesting ≤ room then some (j, rest) else none

/-- The text of a value is not empty, so fuel for it is not used up at once. -/
theorem exists_succ_of_fuel {level fuel : Nat} {j : Json}
    (h : 2 * (write layout level j).length ≤ fuel) : ∃ k, fuel = k + 1 := by
  obtain ⟨c, cs, hwrite, _⟩ := exists_head_write layout level j
  rw [hwrite, List.length_cons] at h
  exact ⟨fuel - 1, by omega⟩

/-- A value that opens no list and no object is read with any room. -/
theorem reads_of_nesting_eq_zero {j : Json} (hflat : j.nesting = 0)
    (h : ∀ (level fuel room : Nat) (rest : List Char),
      2 * (write layout level j).length ≤ fuel + 1 → EndsNumber rest →
      value? (fuel + 1) room (write layout level j ++ rest) = some (j, rest)) :
    Reads layout j := by
  intro level fuel room rest hfuel hrest
  obtain ⟨fuel, rfl⟩ := exists_succ_of_fuel hfuel
  rw [if_pos (by omega)]
  exact h level fuel room rest hfuel hrest

/-- The text of `null` is read back. -/
theorem reads_null : Reads layout .null :=
  reads_of_nesting_eq_zero rfl fun _ _ _ _ _ _ => rfl

/-- The text of a truth value is read back. -/
theorem reads_bool (b : Bool) : Reads layout (.bool b) :=
  reads_of_nesting_eq_zero rfl fun _ _ _ _ _ _ => by cases b <;> rfl

/-- The text of a number is read back, in front of what ends it. -/
theorem reads_number (n : Number) : Reads layout (.number n) := by
  apply reads_of_nesting_eq_zero rfl
  intro level fuel room rest _ hrest
  obtain ⟨c, cs, htext, hc⟩ := exists_head_text n
  have hnumber := number?_text n hrest
  rw [htext] at hnumber
  rw [write, htext, List.cons_append, value?, skipBlanks_cons (not_isBlank_of_head hc)]
  -- None of the six characters that the reader asks for first begins a number.
  simp only
  iterate 6 rw [if_neg (ne_of_head hc (by decide) (by decide))]
  rw [← List.cons_append, hnumber]
  rfl

/-- The text of a string is read back. -/
theorem reads_string (s : String) : Reads layout (.string s) := by
  apply reads_of_nesting_eq_zero rfl
  intro level fuel room rest _ _
  have hbody := stringBody?_escaped s.toList rest
  rw [write, quote, List.cons_append, List.cons_append, value?, skipBlanks_cons (by decide)]
  simp only [Char.reduceEq, if_false, if_true, List.append_assoc, List.singleton_append]
  rw [hbody, Option.map_some, String.ofList_toList]

/-- The items of a list are read one after the other up to the closing bracket, unless there is
no room for one of them. -/
theorem items?_write (hlayout : layout.Readable) (level fuel room : Nat) {item : Json}
    {items : List Json} (hitem : Reads layout item) (hitems : ∀ i ∈ items, Reads layout i)
    (hfuel : 2 * ((write layout level item).length + (writeItems layout level items).length) + 1 ≤
      fuel) {blanks : List Char} (hblanks : ∀ c ∈ blanks, IsBlank c) (rest : List Char) :
    items? fuel room (write layout level item ++
      (writeItems layout level items ++ (blanks ++ ']' :: rest))) =
        if nestingOfItems (item :: items) ≤ room then some (item :: items, rest) else none := by
  rw [nestingOfItems]
  induction items generalizing item fuel with
  | nil =>
      obtain ⟨fuel, rfl⟩ : ∃ k, fuel = k + 1 := ⟨fuel - 1, by omega⟩
      have hvalue := hitem level fuel room (blanks ++ ']' :: rest) (by omega)
        (endsNumber_blanks hblanks (by decide) rest)
      rw [items?, writeItems, List.nil_append, hvalue, nestingOfItems, Nat.max_zero]
      by_cases hroom : item.nesting ≤ room
      · rw [if_pos hroom, if_pos hroom]
        simp only [skipBlanks_append hblanks, skipBlanks_cons (c := ']') (by decide)]
      · rw [if_neg hroom, if_neg hroom]
  | cons next items ih =>
      obtain ⟨fuel, rfl⟩ : ∃ k, fuel = k + 1 := ⟨fuel - 1, by omega⟩
      simp only [writeItems, List.cons_append, List.length_cons, List.length_append] at hfuel
      have hothers := ih fuel (hitems next List.mem_cons_self)
        (fun i hi => hitems i (List.mem_cons_of_mem next hi)) (by omega)
      have hvalue := hitem level fuel room _ (by omega) (endsNumber_cons (c := ',') (by decide)
        (layout.gap level ++ (write layout level next ++
          (writeItems layout level items ++ (blanks ++ ']' :: rest)))))
      rw [items?, writeItems]
      simp only [List.cons_append, List.append_assoc]
      rw [hvalue, nestingOfItems]
      by_cases hroom : item.nesting ≤ room
      · rw [if_pos hroom]
        simp only [skipBlanks_cons (c := ',') (by decide)]
        rw [items?_blanks (hlayout.gap level), hothers]
        simp only [Nat.max_le, hroom, true_and]
        split <;> rfl
      · rw [if_neg hroom, if_neg (by omega)]

/-- A list is read when its items are; opening it takes room. -/
theorem reads_array (hlayout : layout.Readable) {items : List Json}
    (hitems : ∀ i ∈ items, Reads layout i) : Reads layout (.array items) := by
  intro level fuel room rest hfuel _
  obtain ⟨fuel, rfl⟩ := exists_succ_of_fuel hfuel
  rw [nesting]
  cases room with
  | zero =>
      rw [if_neg (by omega)]
      cases items <;> rfl
  | succ room =>
      cases items with
      | nil =>
          rw [nestingOfItems, if_pos (by omega)]
          rfl
      | cons item items =>
          simp only [write, List.cons_append, List.length_cons, List.length_append] at hfuel
          have hread := items?_write hlayout (level + 1) fuel room (hitems item List.mem_cons_self)
            (fun i hi => hitems i (List.mem_cons_of_mem item hi)) (by omega)
            (hlayout.gap level) rest
          obtain ⟨c, cs, hwrite, hblank, hclose⟩ := exists_head_write layout (level + 1) item
          rw [write]
          simp only [List.cons_append, List.append_assoc, List.nil_append]
          rw [value?, skipBlanks_cons (by decide)]
          simp only [Char.reduceEq, if_false, if_true, skipBlanks_append (hlayout.gap (level + 1)),
            Nat.add_le_add_iff_right]
          rw [hwrite] at hread ⊢
          rw [List.cons_append, skipBlanks_cons hblank]
          split
          · next heq => exact absurd (List.cons.inj heq).1 hclose
          · rw [← List.cons_append, hread]
            split <;> rfl

/-- One field is read up to what follows its value. -/
theorem value?_field (hlayout : layout.Readable) (level fuel room : Nat) {value : Json}
    (hvalue : Reads layout value) (hfuel : 2 * (write layout level value).length ≤ fuel)
    {rest : List Char} (hrest : EndsNumber rest) :
    ∃ text, layout.colon ++ (write layout level value ++ rest) = ':' :: text ∧
      value? fuel room text = if value.nesting ≤ room then some (value, rest) else none := by
  obtain ⟨blanks, hcolon, hblanks⟩ := hlayout.colon
  refine ⟨blanks ++ (write layout level value ++ rest), by rw [hcolon, List.cons_append], ?_⟩
  rw [value?_blanks hblanks]
  exact hvalue level fuel room rest hfuel hrest

/-- The fields of an object are read one after the other up to the closing bracket, unless
there is no room for one of them. -/
theorem fields?_write (hlayout : layout.Readable) (level fuel room : Nat) (key : String)
    (value : Json) {fields : List (String × Json)} (hvalue : Reads layout value)
    (hfields : ∀ f ∈ fields, Reads layout f.2)
    (hfuel : 2 * ((write layout level value).length + (writeFields layout level fields).length) +
      1 ≤ fuel) {blanks : List Char} (hblanks : ∀ c ∈ blanks, IsBlank c) (rest : List Char) :
    fields? fuel room (quote key ++ (layout.colon ++ (write layout level value ++
      (writeFields layout level fields ++ (blanks ++ '\x7d' :: rest))))) =
        if nestingOfFields ((key, value) :: fields) ≤ room
        then some ((key, value) :: fields, rest) else none := by
  rw [nestingOfFields]
  induction fields generalizing key value fuel with
  | nil =>
      obtain ⟨fuel, rfl⟩ : ∃ k, fuel = k + 1 := ⟨fuel - 1, by omega⟩
      obtain ⟨text, htext, hread⟩ := value?_field hlayout level fuel room hvalue (by omega)
        (endsNumber_blanks (c := '\x7d') hblanks (by decide) rest)
      rw [writeFields, List.nil_append, htext, fields?, skipBlanks_quote, string?_quote,
        nestingOfFields, Nat.max_zero]
      simp only [skipBlanks_cons (c := ':') (by decide), hread]
      by_cases hroom : value.nesting ≤ room
      · rw [if_pos hroom, if_pos hroom]
        simp only [skipBlanks_append hblanks, skipBlanks_cons (c := '\x7d') (by decide)]
      · rw [if_neg hroom, if_neg hroom]
  | cons next fields ih =>
      obtain ⟨fuel, rfl⟩ : ∃ k, fuel = k + 1 := ⟨fuel - 1, by omega⟩
      obtain ⟨key', value'⟩ := next
      simp only [writeFields, List.cons_append, List.length_cons, List.length_append] at hfuel
      have hothers := ih fuel key' value' (hfields (key', value') List.mem_cons_self)
        (fun f hf => hfields f (List.mem_cons_of_mem _ hf)) (by omega)
      obtain ⟨text, htext, hread⟩ := value?_field hlayout level fuel room hvalue (by omega)
        (endsNumber_cons (c := ',') (by decide) (layout.gap level ++
          (quote key' ++ (layout.colon ++ (write layout level value' ++
            (writeFields layout level fields ++ (blanks ++ '\x7d' :: rest)))))))
      rw [writeFields]
      simp only [List.cons_append, List.append_assoc]
      rw [htext, fields?, skipBlanks_quote, string?_quote, nestingOfFields]
      simp only [skipBlanks_cons (c := ':') (by decide), hread]
      by_cases hroom : value.nesting ≤ room
      · rw [if_pos hroom]
        simp only [skipBlanks_cons (c := ',') (by decide)]
        rw [fields?_blanks (hlayout.gap level), hothers]
        simp only [Nat.max_le, hroom, true_and]
        split <;> rfl
      · rw [if_neg hroom, if_neg (by omega)]

/-- An object is read when its values are; opening it takes room. -/
theorem reads_object (hlayout : layout.Readable) {fields : List (String × Json)}
    (hfields : ∀ f ∈ fields, Reads layout f.2) : Reads layout (.object fields) := by
  intro level fuel room rest hfuel _
  obtain ⟨fuel, rfl⟩ := exists_succ_of_fuel hfuel
  rw [nesting]
  cases room with
  | zero =>
      rw [if_neg (by omega)]
      cases fields <;> rfl
  | succ room =>
      cases fields with
      | nil =>
          rw [nestingOfFields, if_pos (by omega)]
          rfl
      | cons field fields =>
          obtain ⟨key, value⟩ := field
          simp only [write, List.cons_append, List.length_cons, List.length_append] at hfuel
          have hread := fields?_write hlayout (level + 1) fuel room key value
            (hfields (key, value) List.mem_cons_self)
            (fun f hf => hfields f (List.mem_cons_of_mem _ hf)) (by omega) (hlayout.gap level) rest
          rw [write]
          simp only [List.cons_append, List.append_assoc, List.nil_append]
          rw [value?, skipBlanks_cons (by decide)]
          simp only [Char.reduceEq, if_false, if_true, skipBlanks_append (hlayout.gap (level + 1)),
            Nat.add_le_add_iff_right]
          rw [skipBlanks_quote]
          split
          · next heq => exact absurd (List.cons.inj heq).1 (by decide)
          · rw [hread]
            split <;> rfl

/-- Every value is read back from its text, by readers with room for it. -/
theorem reads_of_readable (hlayout : layout.Readable) (j : Json) : Reads layout j := by
  induction j using partsInduction with
  | null => exact reads_null
  | bool b => exact reads_bool b
  | number n => exact reads_number n
  | string s => exact reads_string s
  | array items ih => exact reads_array hlayout ih
  | object fields ih => exact reads_object hlayout ih

end

/-- **A written value is read back**, in every layout that puts only blanks between the tokens,
by the readers whose limit it keeps; the others refuse its text. -/
theorem parseWithin?_write {layout : Layout} (hlayout : layout.Readable) (limit : Nat) (j : Json) :
    parseWithin? limit (String.ofList (write layout 0 j)) =
      if j.nesting ≤ limit then some j else none := by
  have hread := reads_of_readable hlayout j 0 (2 * (write layout 0 j).length + 2) limit []
    (by omega) endsNumber_nil
  rw [List.append_nil] at hread
  unfold parseWithin?
  simp only [String.toList_ofList, hread]
  by_cases hroom : j.nesting ≤ limit
  · rw [if_pos hroom, if_pos hroom]
    rfl
  · rw [if_neg hroom, if_neg hroom]

/-- The compact text of a value is read back where there is room for it. -/
theorem parseWithin?_compact (limit : Nat) (j : Json) :
    parseWithin? limit j.compact = if j.nesting ≤ limit then some j else none :=
  parseWithin?_write Layout.readable_compact limit j

/-- The pretty text of a value is read back where there is room for it. -/
theorem parseWithin?_pretty (limit : Nat) (j : Json) :
    parseWithin? limit j.pretty = if j.nesting ≤ limit then some j else none :=
  parseWithin?_write Layout.readable_pretty limit j

end SourceOutline.Json

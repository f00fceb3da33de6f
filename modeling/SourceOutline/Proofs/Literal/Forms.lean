import Mathlib.Data.List.TakeWhile
import SourceOutline.Literal

/-!
# The languages of the literal forms

The five forms of literals are five languages, each given here by its grammar.  A first
character belongs to one form only, apart from signs and digits, which start integers and
decimals; those are told apart by the point.  So no text has two forms (`Form.eq_of_accepts`).

The type of a literal is found by trying the forms one after the other.  As at most one of
them accepts, the order of the trials is of no consequence (`findSome?_eq_some_iff`).
-/

namespace SourceOutline.Literal

/-! ## Integers and decimals -/

/-- An optional sign. -/
inductive Sign : List Char → Prop where
  | absent : Sign []
  | plus : Sign ['+']
  | minus : Sign ['-']

/-- An optional sign and a digit, then digits and `_`. -/
inductive IntegerText : List Char → Prop where
  | mk {sign rest : List Char} {d : Char} : Sign sign → isDigit d = true →
      (∀ c ∈ rest, isDigit c = true ∨ c = '_') → IntegerText (sign ++ d :: rest)

/-- An optional exponent of at least one digit. -/
inductive ExponentText : List Char → Prop where
  | absent : ExponentText []
  | mk {mark : Char} {sign digits : List Char} : mark = 'e' ∨ mark = 'E' → Sign sign →
      digits ≠ [] → (∀ c ∈ digits, isDigit c = true) → ExponentText (mark :: (sign ++ digits))

/-- An optional sign, digits with one point, at least one of them, and an optional exponent. -/
inductive DecimalText : List Char → Prop where
  | mk {sign whole fraction exponent : List Char} : Sign sign →
      (∀ c ∈ whole, isDigit c = true) → (∀ c ∈ fraction, isDigit c = true) →
      whole ≠ [] ∨ fraction ≠ [] → ExponentText exponent →
      DecimalText (sign ++ (whole ++ '.' :: (fraction ++ exponent)))

/-- An integer has no point. -/
theorem IntegerText.no_point {e : List Char} (h : IntegerText e) : '.' ∉ e := by
  cases h with
  | @mk sign rest d hsign hd hrest =>
      have hsigned : '.' ∉ sign := by cases hsign <;> decide
      intro hpoint
      rcases List.mem_append.mp hpoint with hpoint | hpoint
      · exact hsigned hpoint
      · rcases List.mem_cons.mp hpoint with rfl | hpoint
        · cases hd
        · rcases hrest _ hpoint with hdigit | hmark
          · cases hdigit
          · cases hmark

/-- A decimal has one. -/
theorem DecimalText.point_mem {e : List Char} (h : DecimalText e) : '.' ∈ e := by
  cases h
  simp

/-- A digit is no other character. -/
theorem ne_of_isDigit {c d : Char} (hc : isDigit c = true) (hd : isDigit d = false) : c ≠ d := by
  intro h
  rw [← h, hc] at hd
  cases hd

/-- A text is its sign and what is left without it. -/
theorem exists_sign (e : List Char) : ∃ sign, Sign sign ∧ e = sign ++ unsigned e := by
  cases e with
  | nil => exact ⟨[], .absent, rfl⟩
  | cons c cs =>
      by_cases hsign : c = '-' ∨ c = '+'
      · refine ⟨[c], ?_, by simp [unsigned, hsign]⟩
        rcases hsign with rfl | rfl
        · exact .minus
        · exact .plus
      · exact ⟨[], .absent, by simp [unsigned, hsign]⟩

/-- A sign is read off a text that does not start with another one. -/
theorem unsigned_append {sign rest : List Char} (h : Sign sign)
    (hrest : ∀ c ∈ rest.head?, c ≠ '-' ∧ c ≠ '+') : unsigned (sign ++ rest) = rest := by
  cases h with
  | plus => simp [unsigned]
  | minus => simp [unsigned]
  | absent =>
      cases rest with
      | nil => rfl
      | cons c cs =>
          obtain ⟨hminus, hplus⟩ := hrest c rfl
          simp [unsigned, hminus, hplus]

/-- Only the sign is taken off the digits. -/
theorem unsigned_append_digits {sign digits : List Char} (h : Sign sign)
    (hdigits : ∀ c ∈ digits, isDigit c = true) (rest : List Char)
    (hrest : ∀ c ∈ rest.head?, c ≠ '-' ∧ c ≠ '+') :
    unsigned (sign ++ (digits ++ rest)) = digits ++ rest := by
  apply unsigned_append h
  intro c hc
  cases digits with
  | nil => exact hrest c hc
  | cons d digits =>
      obtain rfl : d = c := Option.some.inj hc
      have hd := hdigits d List.mem_cons_self
      exact ⟨ne_of_isDigit hd rfl, ne_of_isDigit hd rfl⟩

/-- Integers are recognised by their grammar. -/
theorem isInteger_iff {e : List Char} : isInteger e = true ↔ IntegerText e := by
  constructor
  · intro h
    obtain ⟨sign, hsign, he⟩ := exists_sign e
    unfold isInteger at h
    split at h
    · next d rest hunsigned =>
      rw [Bool.and_eq_true, List.all_eq_true] at h
      rw [he, hunsigned]
      refine .mk hsign h.1 ?_
      intro c hc
      simpa using h.2 c hc
    · cases h
  · intro h
    cases h with
    | @mk sign rest d hsign hd hrest =>
        have hunsigned : unsigned (sign ++ d :: rest) = d :: rest := by
          apply unsigned_append hsign
          intro c hc
          obtain rfl : d = c := Option.some.inj hc
          exact ⟨ne_of_isDigit hd rfl, ne_of_isDigit hd rfl⟩
        rw [isInteger, hunsigned]
        simpa [hd] using hrest

/-- Exponents are recognised by their grammar. -/
theorem isExponent_iff {e : List Char} : isExponent e = true ↔ ExponentText e := by
  constructor
  · intro h
    cases e with
    | nil => exact .absent
    | cons mark cs =>
        obtain ⟨sign, hsign, hcs⟩ := exists_sign cs
        unfold isExponent at h
        rw [Bool.and_eq_true] at h
        obtain ⟨hmark, hdigits⟩ := h
        split at hdigits
        · cases hdigits
        · next digits hne =>
          rw [hcs]
          refine .mk (by simpa using hmark) hsign (fun hnil => hne hnil) ?_
          simpa using hdigits
  · intro h
    cases h with
    | absent => rfl
    | @mk mark sign digits hmark hsign hne hdigits =>
        have hunsigned := unsigned_append_digits hsign hdigits [] (by simp)
        rw [List.append_nil] at hunsigned
        simp only [isExponent, hunsigned, Bool.and_eq_true]
        exact ⟨by simpa using hmark, by simpa using hdigits⟩

/-- The digits in front are taken, up to what is none. -/
theorem takeWhile_digits {digits : List Char} (h : ∀ c ∈ digits, isDigit c = true)
    (rest : List Char) (hrest : ∀ c ∈ rest.head?, isDigit c = false) :
    (digits ++ rest).takeWhile isDigit = digits ∧ (digits ++ rest).dropWhile isDigit = rest := by
  rw [List.takeWhile_append_of_pos h, List.dropWhile_append_of_pos h]
  cases rest with
  | nil => simp
  | cons c rest => simp [hrest c rfl]

/-- An exponent does not begin with a digit. -/
theorem ExponentText.head_not_digit {e : List Char} (h : ExponentText e) :
    ∀ c ∈ e.head?, isDigit c = false := by
  cases h with
  | absent => simp
  | @mk mark _ _ hmark =>
      intro c hc
      obtain rfl : mark = c := Option.some.inj hc
      rcases hmark with rfl | rfl
      · rfl
      · rfl

/-- Decimals are recognised by their grammar. -/
theorem isDecimal_iff {e : List Char} : isDecimal e = true ↔ DecimalText e := by
  constructor
  · intro h
    obtain ⟨sign, hsign, he⟩ := exists_sign e
    unfold isDecimal at h
    simp only at h
    split at h
    · next rest hpoint =>
      rw [Bool.and_eq_true] at h
      have hwhole : unsigned e = (unsigned e).takeWhile isDigit ++ '.' :: rest := by
        rw [← hpoint, List.takeWhile_append_dropWhile]
      rw [he, hwhole, ← List.takeWhile_append_dropWhile (p := isDigit) (l := rest)]
      refine .mk hsign ?_ ?_ ?_ (isExponent_iff.mp h.2)
      · exact fun c hc => List.mem_takeWhile_imp hc
      · exact fun c hc => List.mem_takeWhile_imp hc
      · simpa using h.1
    · cases h
  · intro h
    cases h with
    | @mk sign whole fraction exponent hsign hwhole hfraction hsome hexponent =>
        have hunsigned := unsigned_append_digits hsign hwhole ('.' :: (fraction ++ exponent))
          (by simp)
        obtain ⟨htake, hdrop⟩ := takeWhile_digits hwhole ('.' :: (fraction ++ exponent))
          (by simp [isDigit])
        obtain ⟨htake', hdrop'⟩ := takeWhile_digits hfraction exponent hexponent.head_not_digit
        simp only [isDecimal, hunsigned, htake, hdrop, htake', hdrop', isExponent_iff.mpr hexponent]
        simpa using hsome

/-! ## Collections -/

/-- What stands in square brackets is a collection, by its colons. -/
theorem collection?_bracketed (inner : List Char) :
    collection? ('[' :: (inner ++ [']'])) =
      some (if hasTopLevelColon inner then .dictionary else .array) := by
  have hinner : between? ['['] [']'] ('[' :: (inner ++ [']'])) = some inner :=
    between?_eq_some_iff.mpr rfl
  rw [collection?, hinner]
  rfl

/-- The brackets at the ends of a text are two characters. -/
theorem exists_inner_iff {e : List Char} :
    (∃ inner, e = '[' :: (inner ++ [']'])) ↔
      e.head? = some '[' ∧ e.getLast? = some ']' ∧ 2 ≤ e.length := by
  constructor
  · intro ⟨inner, he⟩
    subst he
    refine ⟨rfl, ?_, by simp⟩
    rw [← List.cons_append, List.getLast?_concat]
  · intro ⟨hfirst, hlast, hlength⟩
    cases e with
    | nil => cases hfirst
    | cons c rest =>
        obtain rfl : c = '[' := Option.some.inj hfirst
        have hrest : rest ≠ [] := by
          intro hnil
          simp [hnil] at hlength
        rw [List.getLast?_cons_of_ne_nil hrest] at hlast
        obtain ⟨inner, rfl⟩ := List.getLast?_eq_some_iff.mp hlast
        exact ⟨inner, rfl⟩

/-! ## Forms -/

/-- The forms of literals. -/
inductive Form where
  | string
  | bool
  | int
  | double
  | collection
  deriving DecidableEq, Repr

namespace Form

/-- The language of a form. -/
def Accepts (e : List Char) : Form → Prop
  | .string => isString e = true
  | .bool => e = "true".toList ∨ e = "false".toList
  | .int => IntegerText e
  | .double => '.' ∈ e ∧ DecimalText e
  | .collection => e.head? = some '[' ∧ e.getLast? = some ']' ∧ 2 ≤ e.length

/-- The type that a form gives to the texts of its language. -/
def read? (e : List Char) : Form → Option Tag
  | .string => if isString e then some .string else none
  | .bool => if e = "true".toList ∨ e = "false".toList then some .bool else none
  | .int => if isInteger e then some .int else none
  | .double => if isDecimal e then some .double else none
  | .collection => collection? e

/-- All forms. -/
def all : List Form :=
  [.string, .bool, .int, .double, .collection]

/-- Every form is tried. -/
theorem mem_all (form : Form) : form ∈ all := by
  cases form <;> decide

/-- A form reads what it accepts. -/
theorem isSome_read?_iff {e : List Char} (form : Form) :
    (form.read? e).isSome = true ↔ form.Accepts e := by
  cases form with
  | string => rw [read?, Accepts, Option.isSome_ite]
  | bool => rw [read?, Accepts, Option.isSome_ite]
  | int => rw [read?, Accepts, Option.isSome_ite, isInteger_iff]
  | double =>
      rw [read?, Accepts, Option.isSome_ite, isDecimal_iff]
      exact (and_iff_right_of_imp DecimalText.point_mem).symm
  | collection =>
      rw [Accepts, ← exists_inner_iff, Option.isSome_iff_exists]
      constructor
      · intro ⟨tag, htag⟩
        obtain ⟨inner, hinner, -⟩ := Option.map_eq_some_iff.mp htag
        exact ⟨inner, between?_eq_some_iff.mp hinner⟩
      · intro ⟨inner, he⟩
        subst he
        exact ⟨_, collection?_bracketed inner⟩

/-- What a form reads it accepts. -/
theorem accepts_of_read? {e : List Char} {form : Form} {tag : Tag}
    (h : form.read? e = some tag) : form.Accepts e := by
  rw [← isSome_read?_iff, h]
  rfl

/-- The characters that a form can start with. -/
def Starts (c : Char) : Form → Prop
  | .string => c = '"'
  | .bool => c = 't' ∨ c = 'f'
  | .int => c = '-' ∨ c = '+' ∨ isDigit c = true
  | .double => c = '-' ∨ c = '+' ∨ isDigit c = true ∨ c = '.'
  | .collection => c = '['

/-- What a form accepts begins with one of its characters. -/
theorem Accepts.exists_start {e : List Char} {form : Form} (h : form.Accepts e) :
    ∃ c, e.head? = some c ∧ form.Starts c := by
  cases form with
  | string =>
      refine ⟨'"', ?_, rfl⟩
      simp only [Accepts, isString] at h
      split at h
      · next inner hinner =>
        rw [between?_eq_some_iff.mp hinner]
        rfl
      · split at h
        · next inner hinner =>
          rw [between?_eq_some_iff.mp hinner]
          rfl
        · cases h
  | bool =>
      rcases h with rfl | rfl
      · exact ⟨'t', rfl, .inl rfl⟩
      · exact ⟨'f', rfl, .inr rfl⟩
  | int =>
      cases h with
      | mk hsign hd _ =>
          cases hsign with
          | absent => exact ⟨_, rfl, .inr (.inr hd)⟩
          | plus => exact ⟨'+', rfl, .inr (.inl rfl)⟩
          | minus => exact ⟨'-', rfl, .inl rfl⟩
  | double =>
      cases h.2 with
      | @mk _ whole _ _ hsign hwhole =>
          cases hsign with
          | absent =>
              cases whole with
              | nil => exact ⟨'.', rfl, .inr (.inr (.inr rfl))⟩
              | cons d whole =>
                  exact ⟨d, rfl, .inr (.inr (.inl (hwhole d List.mem_cons_self)))⟩
          | plus => exact ⟨'+', rfl, .inr (.inl rfl)⟩
          | minus => exact ⟨'-', rfl, .inl rfl⟩
  | collection => exact ⟨'[', h.1, rfl⟩

/-- Forms with a common first character are those of numbers. -/
theorem eq_or_number_of_starts {c : Char} {f g : Form} (hf : f.Starts c) (hg : g.Starts c) :
    f = g ∨ f = .int ∧ g = .double ∨ f = .double ∧ g = .int := by
  have hdigits : ∀ c, isDigit c = true → c ≠ '"' ∧ c ≠ 't' ∧ c ≠ 'f' ∧ c ≠ '[' :=
    fun c hc => ⟨ne_of_isDigit hc rfl, ne_of_isDigit hc rfl, ne_of_isDigit hc rfl,
      ne_of_isDigit hc rfl⟩
  cases f <;> cases g <;> simp only [Starts] at hf hg <;> grind

/-- **No text has two forms.** -/
theorem eq_of_accepts {e : List Char} {f g : Form} (hf : f.Accepts e) (hg : g.Accepts e) :
    f = g := by
  obtain ⟨c, hc, hfc⟩ := hf.exists_start
  obtain ⟨d, hd, hgd⟩ := hg.exists_start
  obtain rfl : c = d := Option.some.inj (hc.symm.trans hd)
  rcases eq_or_number_of_starts hfc hgd with heq | ⟨rfl, rfl⟩ | ⟨rfl, rfl⟩
  · exact heq
  · exact absurd hg.1 (IntegerText.no_point hf)
  · exact absurd hf.1 (IntegerText.no_point hg)

/-- Whatever the order of the trials, some form of the list decides and it alone. -/
theorem findSome?_eq_some_iff {e : List Char} {order : List Form} {tag : Tag} :
    order.findSome? (read? e) = some tag ↔ ∃ form ∈ order, form.read? e = some tag := by
  constructor
  · exact List.exists_of_findSome?_eq_some
  · intro ⟨form, hmem, hread⟩
    have hsome : (order.findSome? (read? e)).isSome = true := by
      rw [List.findSome?_isSome_iff]
      exact ⟨form, hmem, by rw [hread]; rfl⟩
    obtain ⟨first, hfirst⟩ := Option.isSome_iff_exists.mp hsome
    obtain ⟨other, -, hother⟩ := List.exists_of_findSome?_eq_some hfirst
    obtain rfl := eq_of_accepts (accepts_of_read? hread) (accepts_of_read? hother)
    rw [hfirst, ← hother, hread]

end Form

/-- The type of a literal comes from trying the forms in turn: the tests for a point make no
difference to the trials of integers and decimals. -/
theorem tag?_eq_findSome? (e : List Char) : tag? e = Form.all.findSome? (Form.read? e) := by
  have hint : '.' ∉ e ∧ isInteger e = true ↔ isInteger e = true := by
    rw [isInteger_iff]
    exact and_iff_right_of_imp IntegerText.no_point
  have hdouble : '.' ∈ e ∧ isDecimal e = true ↔ isDecimal e = true := by
    rw [isDecimal_iff]
    exact and_iff_right_of_imp DecimalText.point_mem
  unfold tag? Form.all
  rw [List.findSome?_cons, List.findSome?_cons, List.findSome?_cons, List.findSome?_cons,
    List.findSome?_singleton]
  simp only [hint, hdouble, Form.read?]
  split_ifs <;> rfl

/-- A literal has a tag when some form gives it. -/
theorem tag?_eq_some_iff {e : List Char} {tag : Tag} :
    tag? e = some tag ↔ ∃ form : Form, form.read? e = some tag := by
  rw [tag?_eq_findSome?, Form.findSome?_eq_some_iff]
  constructor
  · intro ⟨form, _, hform⟩
    exact ⟨form, hform⟩
  · intro ⟨form, hform⟩
    exact ⟨form, form.mem_all, hform⟩

/-- The form of the literals of a type. -/
def Tag.form : Tag → Form
  | .string => .string
  | .bool => .bool
  | .int => .int
  | .double => .double
  | .array | .dictionary => .collection

/-- A form gives only tags of its own. -/
theorem Form.form_of_read? {e : List Char} {form : Form} {tag : Tag}
    (h : form.read? e = some tag) : tag.form = form := by
  cases form with
  | collection =>
      obtain ⟨inner, -, rfl⟩ := Option.map_eq_some_iff.mp h
      split <;> rfl
  | _ =>
      obtain ⟨-, h⟩ := Option.ite_none_right_eq_some.mp h
      cases h
      rfl

/-- A literal with a tag is accepted by the form of the tag. -/
theorem accepts_of_tag? {e : List Char} {tag : Tag} (h : tag? e = some tag) :
    tag.form.Accepts e := by
  obtain ⟨form, hread⟩ := tag?_eq_some_iff.mp h
  rw [Form.form_of_read? hread]
  exact Form.accepts_of_read? hread

/-- What a form accepts has a tag of that form. -/
theorem exists_tag?_of_accepts {e : List Char} (form : Form) (h : form.Accepts e) :
    ∃ tag : Tag, tag.form = form ∧ tag? e = some tag := by
  obtain ⟨tag, hread⟩ := Option.isSome_iff_exists.mp ((form.isSome_read?_iff).mpr h)
  exact ⟨tag, Form.form_of_read? hread, tag?_eq_some_iff.mpr ⟨form, hread⟩⟩

/-- All forms but the collections have one type each. -/
theorem Tag.eq_of_form_eq {tag other : Tag} (hown : tag.form ≠ .collection)
    (h : other.form = tag.form) : other = tag := by
  cases tag <;> cases other <;> simp_all [Tag.form]

/-- A tag that is the only one of its form is given where the form accepts. -/
theorem tag?_eq_some_iff_accepts {e : List Char} (tag : Tag) (hown : tag.form ≠ .collection) :
    tag? e = some tag ↔ tag.form.Accepts e := by
  constructor
  · exact accepts_of_tag?
  · intro h
    obtain ⟨other, hform, hother⟩ := exists_tag?_of_accepts tag.form h
    rw [hother, Tag.eq_of_form_eq hown hform]

/-- Strings are tagged as such, and nothing else is. -/
theorem tag?_eq_string_iff {e : List Char} : tag? e = some .string ↔ isString e = true :=
  tag?_eq_some_iff_accepts .string (by decide)

/-- **The type of a literal decides five languages that have no text in common**, and the
order in which the forms are tried does not matter. -/
theorem literals_decided_by_form (e : List Char) :
    (tag? e = some .string ↔ isString e = true) ∧
    (tag? e = some .bool ↔ e = "true".toList ∨ e = "false".toList) ∧
    (tag? e = some .int ↔ IntegerText e) ∧
    (tag? e = some .double ↔ '.' ∈ e ∧ DecimalText e) ∧
    (tag? e = some .array ∨ tag? e = some .dictionary ↔
      e.head? = some '[' ∧ e.getLast? = some ']' ∧ 2 ≤ e.length) ∧
    (tag? e = none ↔ ∀ form : Form, ¬form.Accepts e) ∧
    (∀ f g : Form, f.Accepts e → g.Accepts e → f = g) ∧
    ∀ order : List Form, order.Perm Form.all → order.findSome? (Form.read? e) = tag? e := by
  refine ⟨tag?_eq_string_iff, ?_, ?_, ?_, ?_, ?_, fun f g => Form.eq_of_accepts, ?_⟩
  · exact tag?_eq_some_iff_accepts .bool (by decide)
  · exact tag?_eq_some_iff_accepts .int (by decide)
  · exact tag?_eq_some_iff_accepts .double (by decide)
  · constructor
    · intro h
      rcases h with harray | hdictionary
      · exact accepts_of_tag? harray
      · exact accepts_of_tag? hdictionary
    · intro h
      obtain ⟨tag, hform, htag⟩ := exists_tag?_of_accepts .collection h
      cases tag with
      | array => exact .inl htag
      | dictionary => exact .inr htag
      | _ => cases hform
  · rw [Option.eq_none_iff_forall_not_mem]
    constructor
    · intro hnone form haccepts
      obtain ⟨tag, -, htag⟩ := exists_tag?_of_accepts form haccepts
      exact hnone tag htag
    · intro hnone tag htag
      exact hnone _ (accepts_of_tag? htag)
  · intro order hperm
    apply Option.ext
    intro tag
    rw [Form.findSome?_eq_some_iff, tag?_eq_findSome?, Form.findSome?_eq_some_iff]
    constructor
    · intro ⟨form, hmem, hread⟩
      exact ⟨form, hperm.mem_iff.mp hmem, hread⟩
    · intro ⟨form, hmem, hread⟩
      exact ⟨form, hperm.mem_iff.mpr hmem, hread⟩

/-- A decimal with a sign and an exponent, with the forms tried backwards. -/
theorem decimal_decided_in_any_order :
    let e := "-12.5e+3".toList
    tag? e = some .double ∧ DecimalText e ∧
    [Form.collection, .double, .int, .bool, .string].findSome? (Form.read? e) = some .double := by
  intro e
  obtain ⟨-, -, -, hdouble, -, -, -, horder⟩ := literals_decided_by_form e
  have htag : tag? e = some .double := by decide
  have hreversed := horder [.collection, .double, .int, .bool, .string] (by decide)
  exact ⟨htag, (hdouble.mp htag).2, hreversed.trans htag⟩

end SourceOutline.Literal

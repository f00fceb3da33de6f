import Mathlib.Data.List.Basic
import SourceOutline.Text.Utf8

/-!
# UTF-8 is read back from its encoding

The reader is a machine that remembers one unfinished sequence.  `Sequence` is the table of
the well-formed sequences with the characters that they stand for; it agrees with the
encoding of characters, and the machine gives a character exactly on the sequences of the
table.

1.  A byte string is accepted exactly when it is the encoding of a text
    (`Utf8.decode_eq_ok_iff`).
2.  Any other byte string is refused with the length of its longest valid part
    (`Utf8.decode_error_validUpTo`).
3.  What lies between two boundaries of a text is a text (`Utf8.IsBoundary.exists_text`).
-/

namespace SourceOutline

namespace Utf8

/-- A byte that continues a sequence. -/
def Continues (b : UInt8) : Prop :=
  0x80 ≤ b.toNat ∧ b.toNat ≤ 0xBF

/-- The least second byte after a lead byte of a longer sequence; a smaller one would make the
sequence overlong. -/
def secondLow (lead : UInt8) : Nat :=
  if lead.toNat = 0xE0 then 0xA0 else if lead.toNat = 0xF0 then 0x90 else 0x80

/-- The greatest second byte after a lead byte of a longer sequence; a greater one would give
a surrogate or a value above `U+10FFFF`. -/
def secondHigh (lead : UInt8) : Nat :=
  if lead.toNat = 0xED then 0x9F else if lead.toNat = 0xF4 then 0x8F else 0xBF

/-- The table of well-formed sequences with the characters that they stand for. -/
inductive Sequence : Char → Bytes → Prop where
  | one {a : UInt8} : a.toNat < 0x80 → Sequence (Char.ofNat a.toNat) [a]
  | two {a b : UInt8} : 0xC2 ≤ a.toNat → a.toNat < 0xE0 → Continues b →
      Sequence (Char.ofNat ((a.toNat - 0xC0) * 64 + (b.toNat - 0x80))) [a, b]
  | three {a b c : UInt8} : 0xE0 ≤ a.toNat → a.toNat < 0xF0 →
      secondLow a ≤ b.toNat → b.toNat ≤ secondHigh a → Continues c →
      Sequence (Char.ofNat (((a.toNat - 0xE0) * 64 + (b.toNat - 0x80)) * 64 + (c.toNat - 0x80)))
        [a, b, c]
  | four {a b c d : UInt8} : 0xF0 ≤ a.toNat → a.toNat ≤ 0xF4 →
      secondLow a ≤ b.toNat → b.toNat ≤ secondHigh a → Continues c → Continues d →
      Sequence
        (Char.ofNat ((((a.toNat - 0xF0) * 64 + (b.toNat - 0x80)) * 64 + (c.toNat - 0x80)) * 64 +
          (d.toNat - 0x80)))
        [a, b, c, d]

theorem toNat_val_ofNat {n : Nat} (h : n.isValidChar) : (Char.ofNat n).val.toNat = n := by
  rw [Char.ofNat, dif_pos h]
  rfl

/-- A second byte in the range of its lead is a continuation byte, and outside the overlong,
surrogate and too large forms. -/
theorem second_bounds {a b : UInt8} (hlow : secondLow a ≤ b.toNat)
    (hhigh : b.toNat ≤ secondHigh a) :
    Continues b ∧ (a.toNat = 0xE0 → 0xA0 ≤ b.toNat) ∧ (a.toNat = 0xF0 → 0x90 ≤ b.toNat) ∧
      (a.toNat = 0xED → b.toNat ≤ 0x9F) ∧ (a.toNat = 0xF4 → b.toNat ≤ 0x8F) := by
  unfold secondLow at hlow
  unfold secondHigh at hhigh
  unfold Continues
  grind

/-- The table agrees with the encoding. -/
theorem Sequence.encodeChar {c : Char} {bs : Bytes} (h : Sequence c bs) :
    String.utf8EncodeChar c = bs := by
  cases h with
  | @one a ha =>
      have hvalue := toNat_val_ofNat (n := a.toNat) (by left; omega)
      unfold String.utf8EncodeChar
      simp only [hvalue]
      rw [if_pos (by omega), UInt8.ofNat_toNat]
  | @two a b ha ha' hb =>
      unfold Continues at hb
      have hvalue := toNat_val_ofNat (n := (a.toNat - 0xC0) * 64 + (b.toNat - 0x80))
        (by left; omega)
      unfold String.utf8EncodeChar
      simp only [hvalue]
      rw [if_neg (by omega), if_pos (by omega)]
      simp only [List.cons.injEq, and_true, ← UInt8.toNat_inj, UInt8.toNat_ofNat']
      omega
  | @three a b c ha ha' hlow hhigh hc =>
      obtain ⟨hb, hover, -, hsurrogate, -⟩ := second_bounds hlow hhigh
      unfold Continues at hb hc
      have hvalue := toNat_val_ofNat
        (n := ((a.toNat - 0xE0) * 64 + (b.toNat - 0x80)) * 64 + (c.toNat - 0x80))
        (by unfold Nat.isValidChar; omega)
      unfold String.utf8EncodeChar
      simp only [hvalue]
      rw [if_neg (by omega), if_neg (by omega), if_pos (by omega)]
      simp only [List.cons.injEq, and_true, ← UInt8.toNat_inj, UInt8.toNat_ofNat']
      omega
  | @four a b c d ha ha' hlow hhigh hc hd =>
      obtain ⟨hb, -, hover, -, hlarge⟩ := second_bounds hlow hhigh
      unfold Continues at hb hc hd
      have hvalue := toNat_val_ofNat
        (n := (((a.toNat - 0xF0) * 64 + (b.toNat - 0x80)) * 64 + (c.toNat - 0x80)) * 64 +
          (d.toNat - 0x80))
        (by unfold Nat.isValidChar; omega)
      unfold String.utf8EncodeChar
      simp only [hvalue]
      rw [if_neg (by omega), if_neg (by omega), if_neg (by omega)]
      simp only [List.cons.injEq, and_true, ← UInt8.toNat_inj, UInt8.toNat_ofNat']
      omega

theorem exists_byte {n : Nat} (h : n < 256) : ∃ b : UInt8, b.toNat = n :=
  ⟨UInt8.ofNat n, by rw [UInt8.toNat_ofNat']; omega⟩

/-- Every character has a sequence in the table. -/
theorem exists_sequence (c : Char) : ∃ bs, Sequence c bs := by
  have hvalid : c.val.toNat < 0xD800 ∨ 0xDFFF < c.val.toNat ∧ c.val.toNat < 0x110000 := c.valid
  have hself : Char.ofNat c.val.toNat = c := Char.ofNat_toNat c
  generalize c.val.toNat = v at hvalid hself
  subst hself
  by_cases hone : v < 0x80
  · obtain ⟨a, rfl⟩ := exists_byte (n := v) (by omega)
    exact ⟨_, .one hone⟩
  by_cases htwo : v < 0x800
  · obtain ⟨a, ha⟩ := exists_byte (n := v / 64 + 0xC0) (by omega)
    obtain ⟨b, hb⟩ := exists_byte (n := v % 64 + 0x80) (by omega)
    have hvalue : (a.toNat - 0xC0) * 64 + (b.toNat - 0x80) = v := by omega
    have hsequence := Sequence.two (a := a) (b := b) (by omega) (by omega)
      (by constructor <;> omega)
    rw [hvalue] at hsequence
    exact ⟨_, hsequence⟩
  obtain ⟨d, hd⟩ := exists_byte (n := v % 64 + 0x80) (by omega)
  obtain ⟨c, hc⟩ := exists_byte (n := v / 64 % 64 + 0x80) (by omega)
  by_cases hthree : v < 0x10000
  · obtain ⟨a, ha⟩ := exists_byte (n := v / 4096 + 0xE0) (by omega)
    have hvalue : ((a.toNat - 0xE0) * 64 + (c.toNat - 0x80)) * 64 + (d.toNat - 0x80) = v := by
      omega
    have hsequence := Sequence.three (a := a) (b := c) (c := d) (by omega) (by omega)
      (by unfold secondLow; grind) (by unfold secondHigh; grind) (by constructor <;> omega)
    rw [hvalue] at hsequence
    exact ⟨_, hsequence⟩
  · obtain ⟨a, ha⟩ := exists_byte (n := v / 262144 + 0xF0) (by omega)
    obtain ⟨b, hb⟩ := exists_byte (n := v / 4096 % 64 + 0x80) (by omega)
    have hvalue : (((a.toNat - 0xF0) * 64 + (b.toNat - 0x80)) * 64 + (c.toNat - 0x80)) * 64 +
        (d.toNat - 0x80) = v := by
      omega
    have hsequence := Sequence.four (a := a) (b := b) (c := c) (d := d) (by omega) (by omega)
      (by unfold secondLow; grind) (by unfold secondHigh; grind) (by constructor <;> omega)
      (by constructor <;> omega)
    rw [hvalue] at hsequence
    exact ⟨_, hsequence⟩

/-- The encoding of a character is a sequence of the table. -/
theorem sequence_encodeChar (c : Char) : Sequence c (String.utf8EncodeChar c) := by
  obtain ⟨bs, hbs⟩ := exists_sequence c
  rw [hbs.encodeChar]
  exact hbs

section

variable {a : UInt8}

/-- A byte below 0x80 is a character by itself. -/
theorem lead_one (h : a.toNat < 0x80) : lead a = ([.char (Char.ofNat a.toNat)], none) := by
  simp [lead, h]

/-- A lead of two bytes waits for one more. -/
theorem lead_two (h : 0xC2 ≤ a.toNat) (h' : a.toNat < 0xE0) :
    lead a = ([], some ⟨1, 1, 0x80, 0xBF, a.toNat - 0xC0⟩) := by
  unfold lead
  grind

/-- A lead of three bytes waits for two more, the first in a range of its own. -/
theorem lead_three (h : 0xE0 ≤ a.toNat) (h' : a.toNat < 0xF0) :
    lead a = ([], some ⟨1, 2, secondLow a, secondHigh a, a.toNat - 0xE0⟩) := by
  unfold lead secondLow secondHigh
  grind

/-- A lead of four bytes waits for three more, the first in a range of its own. -/
theorem lead_four (h : 0xF0 ≤ a.toNat) (h' : a.toNat ≤ 0xF4) :
    lead a = ([], some ⟨1, 3, secondLow a, secondHigh a, a.toNat - 0xF0⟩) := by
  unfold lead secondLow secondHigh
  grind

/-- A byte that leads nothing is a broken piece of one byte. -/
theorem lead_broken (h : 0x80 ≤ a.toNat ∧ a.toNat < 0xC2 ∨ 0xF4 < a.toNat) :
    lead a = ([.broken 1], none) := by
  unfold lead
  grind

end

section

variable {seen missing low high value : Nat} {b : UInt8} {bs : Bytes}

/-- The last missing byte completes a character. -/
theorem piecesFrom_last (hlow : low ≤ b.toNat) (hhigh : b.toNat ≤ high) :
    piecesFrom (some ⟨seen, 1, low, high, value⟩) (b :: bs) =
      .char (Char.ofNat (value * 64 + (b.toNat - 0x80))) :: pieces bs := by
  simp only [piecesFrom, step, hlow, hhigh, and_self, if_true]
  rfl

/-- Any byte before it leaves the sequence open, with the general range for the next one. -/
theorem piecesFrom_more (hlow : low ≤ b.toNat) (hhigh : b.toNat ≤ high) :
    piecesFrom (some ⟨seen, missing + 2, low, high, value⟩) (b :: bs) =
      piecesFrom (some ⟨seen + 1, missing + 1, 0x80, 0xBF, value * 64 + (b.toNat - 0x80)⟩) bs := by
  have hmore : ¬missing + 2 ≤ 1 := by omega
  simp only [piecesFrom, step, hlow, hhigh, hmore, and_self, if_true, if_false]
  rfl

/-- A character comes out of an open sequence only when the next byte is in its range. -/
theorem exists_of_piecesFrom_open {c : Char} {ps : List Piece}
    (h : piecesFrom (some ⟨seen, missing, low, high, value⟩) bs = .char c :: ps) :
    ∃ b rest, bs = b :: rest ∧ low ≤ b.toNat ∧ b.toNat ≤ high := by
  cases bs with
  | nil => simp [piecesFrom] at h
  | cons b rest =>
      by_cases hrange : low ≤ b.toNat ∧ b.toNat ≤ high
      · exact ⟨b, rest, rfl, hrange⟩
      · simp [piecesFrom, step, hrange] at h

end

/-- The pieces of a source are those its first byte completes and those it opens. -/
theorem pieces_cons (a : UInt8) (bs : Bytes) :
    pieces (a :: bs) = (lead a).1 ++ piecesFrom (lead a).2 bs :=
  rfl

/-- A sequence of the table is read as its character, whatever follows. -/
theorem Sequence.pieces_append {c : Char} {bs : Bytes} (h : Sequence c bs) (rest : Bytes) :
    pieces (bs ++ rest) = .char c :: pieces rest := by
  cases h with
  | one ha =>
      rw [List.cons_append, pieces_cons, lead_one ha]
      rfl
  | two ha ha' hb =>
      rw [List.cons_append, pieces_cons, lead_two ha ha']
      exact piecesFrom_last hb.1 hb.2
  | three ha ha' hlow hhigh hc =>
      rw [List.cons_append, pieces_cons, lead_three ha ha']
      exact (piecesFrom_more hlow hhigh).trans (piecesFrom_last hc.1 hc.2)
  | four ha ha' hlow hhigh hc hd =>
      rw [List.cons_append, pieces_cons, lead_four ha ha']
      exact (piecesFrom_more hlow hhigh).trans
        ((piecesFrom_more hc.1 hc.2).trans (piecesFrom_last hd.1 hd.2))

/-- What is read as a character starts with a sequence of the table. -/
theorem exists_sequence_of_pieces {bs : Bytes} {c : Char} {ps : List Piece}
    (h : pieces bs = .char c :: ps) :
    ∃ sequence rest, Sequence c sequence ∧ bs = sequence ++ rest ∧ ps = pieces rest := by
  cases bs with
  | nil => cases h
  | cons a bs =>
      rw [pieces_cons] at h
      rcases Nat.lt_or_ge a.toNat 0x80 with hone | hone
      · rw [lead_one hone] at h
        obtain ⟨hchar, hrest⟩ := List.cons.inj h
        obtain rfl := Piece.char.inj hchar
        exact ⟨[a], bs, .one hone, rfl, hrest.symm⟩
      by_cases hbroken : a.toNat < 0xC2 ∨ 0xF4 < a.toNat
      · rw [lead_broken (by omega)] at h
        cases h
      rcases Nat.lt_or_ge a.toNat 0xE0 with htwo | htwo
      · have ha : 0xC2 ≤ a.toNat := by omega
        rw [lead_two ha htwo, List.nil_append] at h
        obtain ⟨b, rest, rfl, hb⟩ := exists_of_piecesFrom_open h
        rw [piecesFrom_last hb.1 hb.2] at h
        obtain ⟨hchar, hrest⟩ := List.cons.inj h
        obtain rfl := Piece.char.inj hchar
        exact ⟨[a, b], rest, .two ha htwo hb, rfl, hrest.symm⟩
      rcases Nat.lt_or_ge a.toNat 0xF0 with hthree | hthree
      · rw [lead_three htwo hthree, List.nil_append] at h
        obtain ⟨b, rest, rfl, hb⟩ := exists_of_piecesFrom_open h
        rw [piecesFrom_more hb.1 hb.2] at h
        obtain ⟨c, rest, rfl, hc⟩ := exists_of_piecesFrom_open h
        rw [piecesFrom_last hc.1 hc.2] at h
        obtain ⟨hchar, hrest⟩ := List.cons.inj h
        obtain rfl := Piece.char.inj hchar
        exact ⟨[a, b, c], rest, .three htwo hthree hb.1 hb.2 hc, rfl, hrest.symm⟩
      · have ha : a.toNat ≤ 0xF4 := by omega
        rw [lead_four hthree ha, List.nil_append] at h
        obtain ⟨b, rest, rfl, hb⟩ := exists_of_piecesFrom_open h
        rw [piecesFrom_more hb.1 hb.2] at h
        obtain ⟨c, rest, rfl, hc⟩ := exists_of_piecesFrom_open h
        rw [piecesFrom_more hc.1 hc.2] at h
        obtain ⟨d, rest, rfl, hd⟩ := exists_of_piecesFrom_open h
        rw [piecesFrom_last hd.1 hd.2] at h
        obtain ⟨hchar, hrest⟩ := List.cons.inj h
        obtain rfl := Piece.char.inj hchar
        exact ⟨[a, b, c, d], rest, .four hthree ha hb.1 hb.2 hc hd, rfl, hrest.symm⟩

/-- An open sequence ends in some piece, a broken one at the end of the source. -/
theorem piecesFrom_open_ne_nil (p : Pending) (bs : Bytes) : piecesFrom (some p) bs ≠ [] := by
  induction bs generalizing p with
  | nil => exact List.cons_ne_nil _ _
  | cons b bs ih =>
      simp only [piecesFrom, step]
      split
      · split
        · exact List.cons_ne_nil _ _
        · exact ih _
      · exact List.cons_ne_nil _ _

/-- Every byte leaves a trace in the pieces. -/
theorem pieces_eq_nil {bs : Bytes} (h : pieces bs = []) : bs = [] := by
  cases bs with
  | nil => rfl
  | cons a bs =>
      rw [pieces_cons, List.append_eq_nil_iff] at h
      obtain ⟨hdone, hopen⟩ := h
      cases hlead : (lead a).2 with
      | some p =>
          rw [hlead] at hopen
          exact absurd hopen (piecesFrom_open_ne_nil p bs)
      | none =>
          unfold lead at hdone hlead
          grind

theorem encode_append (cs ds : List Char) : encode (cs ++ ds) = encode cs ++ encode ds :=
  List.flatMap_append

theorem encode_isInfix {cs ds : List Char} (h : cs <:+: ds) : encode cs <:+: encode ds := by
  obtain ⟨before, after, rfl⟩ := h
  refine ⟨encode before, encode after, ?_⟩
  rw [encode_append, encode_append]

theorem encode_cons (c : Char) (cs : List Char) :
    encode (c :: cs) = String.utf8EncodeChar c ++ encode cs :=
  List.flatMap_cons

/-- A text has no more characters than bytes. -/
theorem length_le_length_encode (cs : List Char) : cs.length ≤ (encode cs).length := by
  induction cs with
  | nil => exact Nat.le_refl _
  | cons c cs ih =>
      have hpos := c.utf8Size_pos
      rw [encode_cons, List.length_append, String.length_utf8EncodeChar, List.length_cons]
      omega

/-- Reading takes the characters of an encoded text off the front. -/
theorem pieces_encode (cs : List Char) (bs : Bytes) :
    pieces (encode cs ++ bs) = cs.map .char ++ pieces bs := by
  induction cs with
  | nil => rfl
  | cons c cs ih =>
      have hfirst := (sequence_encodeChar c).pieces_append (encode cs ++ bs)
      rw [encode_cons, List.append_assoc, hfirst, ih]
      rfl

/-- Characters that are read off the front have been encoded there. -/
theorem exists_of_pieces_chars {bs : Bytes} {cs : List Char} {ps : List Piece}
    (h : pieces bs = cs.map .char ++ ps) : ∃ rest, bs = encode cs ++ rest ∧ ps = pieces rest := by
  induction cs generalizing bs with
  | nil => exact ⟨bs, rfl, h.symm⟩
  | cons c cs ih =>
      obtain ⟨sequence, after, hsequence, rfl, hafter⟩ := exists_sequence_of_pieces h
      obtain ⟨rest, rfl, hps⟩ := ih hafter.symm
      refine ⟨rest, ?_, hps⟩
      rw [encode_cons, hsequence.encodeChar, List.append_assoc]

/-- A byte string whose pieces are all characters is their encoding. -/
theorem eq_encode_of_pieces {bs : Bytes} {cs : List Char} (h : pieces bs = cs.map .char) :
    bs = encode cs := by
  obtain ⟨rest, rfl, hrest⟩ := exists_of_pieces_chars (h.trans (List.append_nil _).symm)
  rw [pieces_eq_nil hrest.symm, List.append_nil]

/-- An encoded text falls into its own characters. -/
theorem pieces_encode_self (cs : List Char) : pieces (encode cs) = cs.map .char := by
  have hpieces := pieces_encode cs []
  rw [List.append_nil] at hpieces
  exact hpieces.trans (List.append_nil _)

/-- Pieces that are all characters are read as the text. -/
theorem charsOfPieces_chars (offset : Nat) (cs : List Char) :
    charsOfPieces offset (cs.map .char) = .ok cs := by
  induction cs generalizing offset with
  | nil => rfl
  | cons c cs ih =>
      rw [List.map_cons, charsOfPieces, ih]
      rfl

/-- Pieces are the characters that they give, or have a first one that is none; the flaw
says where that one begins. -/
theorem charsOfPieces_cases (offset : Nat) (ps : List Piece) :
    (∃ cs : List Char, ps = cs.map .char) ∨
      ∃ (cs : List Char) (p : Piece) (rest : List Piece) (flaw : Flaw),
        ps = cs.map .char ++ p :: rest ∧ (∀ c, p ≠ .char c) ∧
        charsOfPieces offset ps = .error flaw ∧
        flaw.validUpTo = offset + (encode cs).length := by
  induction ps generalizing offset with
  | nil => exact .inl ⟨[], rfl⟩
  | cons p ps ih =>
      cases p with
      | char c =>
          rcases ih (offset + c.utf8Size) with
            ⟨cs, rfl⟩ | ⟨cs, p, rest, flaw, rfl, hp, hflaw, hvalid⟩
          · exact .inl ⟨c :: cs, rfl⟩
          · refine .inr ⟨c :: cs, p, rest, flaw, rfl, hp, ?_, ?_⟩
            · rw [charsOfPieces, hflaw]
              rfl
            · rw [hvalid, encode_cons, List.length_append, String.length_utf8EncodeChar,
                Nat.add_assoc]
      | broken width =>
          exact .inr ⟨[], .broken width, ps, ⟨offset, some width⟩, rfl, by simp, rfl, rfl⟩
      | cut width =>
          exact .inr ⟨[], .cut width, ps, ⟨offset, none⟩, rfl, by simp, rfl, rfl⟩

/-- A text that is read ends before the first piece that is no character. -/
theorem prefix_of_chars {cs ds : List Char} {p : Piece} {ps rest : List Piece}
    (hp : ∀ c, p ≠ .char c) (h : ds.map .char ++ ps = cs.map .char ++ p :: rest) : ds <+: cs := by
  induction ds generalizing cs with
  | nil => exact List.nil_prefix
  | cons d ds ih =>
      cases cs with
      | nil => exact absurd (List.cons.inj h).1.symm (hp d)
      | cons c cs =>
          obtain ⟨hchar, hmore⟩ := List.cons.inj h
          obtain rfl := Piece.char.inj hchar
          exact List.cons_prefix_cons.mpr ⟨rfl, ih hmore⟩

/-- **Reading accepts exactly what encoding gives.** -/
theorem decode_eq_ok_iff {bs : Bytes} {cs : List Char} : decode bs = .ok cs ↔ bs = encode cs := by
  constructor
  · intro h
    rcases charsOfPieces_cases 0 (pieces bs) with ⟨ds, hds⟩ | ⟨_, _, _, flaw, _, _, hflaw, _⟩
    · rw [decode, hds, charsOfPieces_chars] at h
      cases h
      exact eq_encode_of_pieces hds
    · rw [decode, hflaw] at h
      cases h
  · rintro rfl
    rw [decode, pieces_encode_self, charsOfPieces_chars]

/-- Lossy decoding loses nothing of a text. -/
theorem decodeLossy_encode (cs : List Char) : decodeLossy (encode cs) = cs :=
  decodeLossy_eq_of_decode (decode_eq_ok_iff.mpr rfl)

/-- A byte string that is refused is flawed after its longest part that is UTF-8. -/
theorem decode_error_validUpTo {bs : Bytes} (h : ¬∃ cs, bs = encode cs) :
    ∃ flaw, decode bs = .error flaw ∧ (∃ cs, bs.take flaw.validUpTo = encode cs) ∧
      ∀ cs, encode cs <+: bs → (encode cs).length ≤ flaw.validUpTo := by
  rcases charsOfPieces_cases 0 (pieces bs) with
    ⟨cs, hcs⟩ | ⟨cs, p, rest, flaw, hps, hp, hflaw, hvalid⟩
  · refine absurd ⟨cs, decode_eq_ok_iff.mp ?_⟩ h
    rw [decode, hcs, charsOfPieces_chars]
  · obtain ⟨tail, hbs, -⟩ := exists_of_pieces_chars hps
    rw [Nat.zero_add] at hvalid
    refine ⟨flaw, hflaw, ⟨cs, ?_⟩, ?_⟩
    · rw [hbs, hvalid, List.take_left]
    · rintro ds ⟨after, rfl⟩
      -- A longer part would have a character where the first broken piece is.
      rw [pieces_encode] at hps
      obtain ⟨more, rfl⟩ := prefix_of_chars hp hps
      rw [hvalid, encode_append, List.length_append]
      omega

/-- What remains of a text after another one is a text. -/
theorem exists_text_of_append {cs ds : List Char} {bs : Bytes}
    (h : encode cs ++ bs = encode ds) : ∃ es, bs = encode es := by
  have hpieces := congrArg pieces h
  rw [pieces_encode, pieces_encode_self] at hpieces
  obtain ⟨_, es, _, _, hes⟩ := List.map_eq_append_iff.mp hpieces.symm
  exact ⟨es, eq_encode_of_pieces hes.symm⟩

/-- A place between two characters of a text. -/
def IsBoundary (source : Bytes) (offset : Nat) : Prop :=
  ∃ before after, source = encode before ++ encode after ∧ (encode before).length = offset

/-- What lies between two boundaries is a text. -/
theorem IsBoundary.exists_text {source : Bytes} {start stop : Nat}
    (hstart : IsBoundary source start) (hstop : IsBoundary source stop) (h : start ≤ stop) :
    ∃ cs, (source.drop start).take (stop - start) = encode cs := by
  obtain ⟨before, after, hsource, rfl⟩ := hstart
  obtain ⟨upTo, beyond, hsource', rfl⟩ := hstop
  have hbefore : encode before <+: source := ⟨_, hsource.symm⟩
  have hupTo : encode upTo <+: source := ⟨_, hsource'.symm⟩
  -- The bytes up to the second boundary begin with those up to the first.
  obtain ⟨middle, hmiddle⟩ := List.prefix_of_prefix_length_le hbefore hupTo h
  obtain ⟨cs, rfl⟩ := exists_text_of_append hmiddle
  refine ⟨cs, ?_⟩
  rw [hsource', ← hmiddle, List.append_assoc, List.drop_left, List.length_append,
    Nat.add_sub_cancel_left, List.take_left]

end Utf8

end SourceOutline

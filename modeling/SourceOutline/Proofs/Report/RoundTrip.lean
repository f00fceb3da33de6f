import Mathlib.Data.List.Basic
import SourceOutline.Proofs.Json.RoundTrip
import SourceOutline.Proofs.Symbol.Reading
import SourceOutline.Report

/-!
# Reading reports back

A report is read in one of two ways: as entries of files, or as the bare symbols of one
file.  Each way gives back what was reported in it, and a text that both ways accept
belongs to a report without any symbols: the first key of an entry is not the first key
of a symbol.

Readers bound how many lists and objects may be open at once.  A symbol opens two, its own
object and the list of its members, and so do the symbols inside it
(`Symbol.nesting_toJson`); the list of a single file opens one more, and a list of entries
three.  With the default limit of 127 this is room for 63 levels of symbols in a single file
and for 62 in an entry; deeper reports are JSON as well, but only readers with a higher limit
take them.
-/

namespace SourceOutline

/-! ## Levels -/

namespace Symbol

mutual

/-- How many symbols stand inside each other, from a symbol to its innermost members. -/
def levels : Symbol → Nat
  | ⟨_, _, _, _, _, members⟩ => levelsOf members + 1

/-- How many stand inside each other among several symbols, at most. -/
def levelsOf : List Symbol → Nat
  | [] => 0
  | s :: ss => max s.levels (levelsOf ss)

end

/-- A bound on a forest is a bound on each of its trees. -/
theorem levelsOf_le_iff {symbols : List Symbol} {n : Nat} :
    levelsOf symbols ≤ n ↔ ∀ s ∈ symbols, s.levels ≤ n := by
  induction symbols with
  | nil => simp [levelsOf]
  | cons s ss ih => rw [levelsOf, Nat.max_le, ih, List.forall_mem_cons]

/-- Several JSON forms open twice as much as there are levels, when each of them does. -/
theorem nestingOfItems_toJsons {symbols : List Symbol}
    (h : ∀ s ∈ symbols, s.toJson.nesting = 2 * s.levels) :
    Json.nestingOfItems (toJsons symbols) = 2 * levelsOf symbols := by
  induction symbols with
  | nil => rfl
  | cons s ss ih =>
      have hothers := ih fun r hr => h r (List.mem_cons_of_mem s hr)
      rw [toJsons, Json.nestingOfItems, h s List.mem_cons_self, hothers, levelsOf]
      omega

/-- **Each level of symbols opens an object and a list** in the JSON form. -/
theorem nesting_toJson (s : Symbol) : s.toJson.nesting = 2 * s.levels := by
  induction s using membersInduction with
  | step s ih =>
      have hmembers := nestingOfItems_toJsons ih
      obtain ⟨kind, name, startLine, endLine, typeLabel, members⟩ := s
      rw [levels]
      unfold toJson
      cases typeLabel <;>
        simp only [Json.ofNat, Json.nesting, Json.nestingOfFields, List.cons_append,
          List.nil_append, hmembers] <;> omega

theorem levelsOf_singleton (s : Symbol) : levelsOf [s] = s.levels := by
  rw [levelsOf, levelsOf, Nat.max_zero]

/-- Each level of symbols opens two containers, an object and its list of members. -/
theorem nestingOfItems_eq (symbols : List Symbol) :
    Json.nestingOfItems (toJsons symbols) = 2 * levelsOf symbols :=
  nestingOfItems_toJsons fun s _ => s.nesting_toJson

end Symbol

/-! ## Reading back -/

/-- Readers with the default limit refuse the text of a symbol with more than 63 levels. -/
theorem Symbol.parse?_of_lt_levels {s : Symbol} (h : 63 < s.levels) :
    Json.parse? s.toJson.compact = none ∧ Json.parse? s.toJson.pretty = none := by
  have hlimit : Json.nestingLimit = 127 := rfl
  have hnesting := s.nesting_toJson
  rw [Json.parse?, Json.parse?, Json.parseWithin?_compact, Json.parseWithin?_pretty,
    if_neg (by omega)]
  exact ⟨rfl, rfl⟩

/-- The entry of one file, from its JSON form. -/
def FileOutline.ofJson (j : Json) : Except Symbol.ReadError FileOutline := do
  let file ← Symbol.require "file" (j.field? "file")
  let symbols ← Symbol.require "symbols" (j.field? "symbols")
  return ⟨← Symbol.readText file, ← Symbol.readMembers symbols⟩

namespace Report

/-- The entries of a report on several files. -/
def readEntries : Json → Except Symbol.ReadError (List FileOutline)
  | .array items => items.mapM FileOutline.ofJson
  | j => .error (.wrongType j .symbols)

/-- The symbols of a report on a single file. -/
def readSymbols : Json → Except Symbol.ReadError (List Symbol) :=
  Symbol.readMembers

/-- The text of a report is the text of its JSON form, for readers with room for it. -/
theorem parseWithin?_render (limit : Nat) (results : List FileOutline) :
    Json.parseWithin? limit (render results) =
      if (toJson results).nesting ≤ limit then some (toJson results) else none :=
  Json.parseWithin?_pretty limit _

/-- The report of a single file opens one list around its symbols. -/
theorem nesting_single (f : FileOutline) :
    (toJson [f]).nesting = 2 * Symbol.levelsOf f.symbols + 1 := by
  rw [toJson, Json.nesting, Symbol.nestingOfItems_eq]

/-- A report on more or fewer files than one is the list of its entries. -/
theorem toJson_of_length_ne_one {results : List FileOutline} (h : results.length ≠ 1) :
    toJson results = .array (results.map FileOutline.toJson) := by
  unfold toJson
  split
  · exact absurd rfl h
  · rfl

/-- They refuse the report of a single file with such a symbol, too. -/
theorem parse?_render_single {f : FileOutline} (h : 63 < Symbol.levelsOf f.symbols) :
    Json.parse? (render [f]) = none := by
  have hlimit : Json.nestingLimit = 127 := rfl
  have hnesting := nesting_single f
  rw [Json.parse?, parseWithin?_render, if_neg (by omega)]

/-- A report of entries opens three lists and objects around the symbols. -/
theorem nesting_entries {results : List FileOutline} (hlength : results.length ≠ 1) {n : Nat}
    (h : ∀ f ∈ results, ∀ s ∈ f.symbols, s.levels ≤ n) :
    (toJson results).nesting ≤ 2 * n + 3 := by
  rw [toJson_of_length_ne_one hlength, Json.nesting]
  clear hlength
  induction results with
  | nil => simp [Json.nestingOfItems]
  | cons f fs ih =>
      have hothers := ih fun g hg => h g (List.mem_cons_of_mem f hg)
      have hlevels := Symbol.levelsOf_le_iff.mpr (h f List.mem_cons_self)
      simp only [List.map_cons, FileOutline.toJson, Json.nestingOfItems, Json.nesting,
        Json.nestingOfFields, Symbol.nestingOfItems_eq]
      omega

/-- The symbols of a file are read back when their lines fit. -/
theorem readSymbols_toJson {symbols : List Symbol} (h : ∀ s ∈ symbols, s.LinesFit) :
    Symbol.readMembers (.array (Symbol.toJsons symbols)) = .ok symbols := by
  rw [Symbol.readMembers]
  exact Symbol.ofJsons_toJsons fun s hs => Symbol.ofJson_toJson (h s hs)

/-- The entry of a file is read back when the lines of its symbols fit. -/
theorem ofJson_toJson {f : FileOutline} (h : ∀ s ∈ f.symbols, s.LinesFit) :
    FileOutline.ofJson f.toJson = .ok f := by
  have hsymbols := readSymbols_toJson h
  have hread : FileOutline.ofJson f.toJson =
      (Symbol.readMembers (.array (Symbol.toJsons f.symbols))).map (⟨f.file, ·⟩) := rfl
  rw [hread, hsymbols]
  rfl

/-- The entries of a report on several files or none are read back. -/
theorem readEntries_toJson {results : List FileOutline} (hlength : results.length ≠ 1)
    (h : ∀ f ∈ results, ∀ s ∈ f.symbols, s.LinesFit) :
    readEntries (toJson results) = .ok results := by
  rw [toJson_of_length_ne_one hlength, readEntries]
  clear hlength
  induction results with
  | nil => rfl
  | cons f fs ih =>
      have hothers := ih fun g hg => h g (List.mem_cons_of_mem f hg)
      rw [List.map_cons, List.mapM_cons, ofJson_toJson (h f List.mem_cons_self), hothers]
      rfl

/-! ## Which reports have the same text -/

/-- A reader with room for both reports tells them apart by their texts. -/
theorem render_eq_iff {results others : List FileOutline} :
    render results = render others ↔ toJson results = toJson others := by
  constructor
  · intro htext
    let limit := max (toJson results).nesting (toJson others).nesting
    have hvalue := parseWithin?_render limit results
    rw [htext, parseWithin?_render limit others, if_pos (Nat.le_max_right _ _),
      if_pos (Nat.le_max_left _ _)] at hvalue
    exact (Option.some.inj hvalue).symm
  · intro hvalue
    unfold render
    rw [hvalue]

/-- Files with one entry are the same file. -/
theorem entry_injective {f g : FileOutline} (h : f.toJson = g.toJson) : f = g := by
  obtain ⟨file, symbols⟩ := f
  obtain ⟨file', symbols'⟩ := g
  simp only [FileOutline.toJson, Json.object.injEq, List.cons.injEq, Prod.mk.injEq,
    Json.string.injEq, Json.array.injEq, true_and, and_true] at h
  obtain ⟨rfl, hsymbols⟩ := h
  rw [Symbol.toJsons_injective hsymbols]

/-- An entry of a file is never a symbol: their first keys differ. -/
theorem entry_ne_symbol (f : FileOutline) (s : Symbol) : f.toJson ≠ s.toJson := by
  obtain ⟨kind, name, startLine, endLine, typeLabel, members⟩ := s
  simp [FileOutline.toJson, Symbol.toJson]

/-- Only a report without files looks like the report of a single file. -/
theorem eq_nil_of_toJson_single {f : FileOutline} {results : List FileOutline}
    (hlength : results.length ≠ 1) (h : toJson [f] = toJson results) :
    results = [] ∧ f.symbols = [] := by
  rw [toJson_of_length_ne_one hlength] at h
  have hitems : Symbol.toJsons f.symbols = results.map FileOutline.toJson := Json.array.inj h
  cases results with
  | nil =>
      have hempty : Symbol.toJsons f.symbols = Symbol.toJsons [] := hitems
      exact ⟨rfl, Symbol.toJsons_injective hempty⟩
  | cons g gs =>
      cases hsymbols : f.symbols with
      | nil =>
          rw [hsymbols] at hitems
          cases hitems
      | cons s ss =>
          rw [hsymbols] at hitems
          exact absurd (List.cons.inj hitems).1.symm (entry_ne_symbol g s)

/-- Two reports have the same JSON form exactly when they are equal, are on single files
with the same symbols, or one has no file and the other a single file without symbols. -/
theorem toJson_eq_iff {results others : List FileOutline} :
    toJson results = toJson others ↔
      results = others ∨
        (∃ f g, results = [f] ∧ others = [g] ∧ f.symbols = g.symbols) ∨
        (results = [] ∧ ∃ g, others = [g] ∧ g.symbols = []) ∨
        (others = [] ∧ ∃ f, results = [f] ∧ f.symbols = []) := by
  constructor
  · intro h
    by_cases hresults : results.length = 1
    · obtain ⟨f, rfl⟩ := List.length_eq_one_iff.mp hresults
      by_cases hothers : others.length = 1
      · obtain ⟨g, rfl⟩ := List.length_eq_one_iff.mp hothers
        have hsymbols := Symbol.toJsons_injective (Json.array.inj h)
        exact .inr (.inl ⟨f, g, rfl, rfl, hsymbols⟩)
      · obtain ⟨hnil, hsymbols⟩ := eq_nil_of_toJson_single hothers h
        exact .inr (.inr (.inr ⟨hnil, f, rfl, hsymbols⟩))
    · by_cases hothers : others.length = 1
      · obtain ⟨g, rfl⟩ := List.length_eq_one_iff.mp hothers
        obtain ⟨hnil, hsymbols⟩ := eq_nil_of_toJson_single hresults h.symm
        exact .inr (.inr (.inl ⟨hnil, g, rfl, hsymbols⟩))
      · rw [toJson_of_length_ne_one hresults, toJson_of_length_ne_one hothers] at h
        have hinjective : Function.Injective FileOutline.toJson := fun f g => entry_injective
        exact .inl (List.map_injective_iff.mpr hinjective (Json.array.inj h))
  · rintro (rfl | ⟨f, g, rfl, rfl, hsymbols⟩ | ⟨rfl, g, rfl, hsymbols⟩ | ⟨rfl, f, rfl, hsymbols⟩)
    · rfl
    · simp only [toJson, hsymbols]
    · simp [toJson, hsymbols, Symbol.toJsons]
    · simp [toJson, hsymbols, Symbol.toJsons]

end Report

/-- **Reports lose nothing.**  A symbol is read back from its JSON text in either layout, as long
as it has at most 63 levels; readers with the default limit refuse the text of a deeper one.

The text of a report is JSON, for every reader with room for it.  A reader with the default
limit has room for 62 levels of symbols in the entries of files, and for 63 in the report of a
single file.  What is read gives back the entries, or the symbols of the single file.

Reports have the same text only when they are equal, are on single files with the same symbols,
or are both without files or symbols. -/
theorem report_reads_back :
    (∀ s : Symbol,
      (s.LinesFit → s.levels ≤ 63 →
        (Json.parse? s.toJson.compact).map Symbol.ofJson = some (.ok s) ∧
        (Json.parse? s.toJson.pretty).map Symbol.ofJson = some (.ok s)) ∧
      (63 < s.levels → Json.parse? s.toJson.compact = none ∧ Json.parse? s.toJson.pretty = none)) ∧
    (∀ results : List FileOutline, ∃ j,
      (∀ limit, Json.parseWithin? limit (Report.render results) =
        if j.nesting ≤ limit then some j else none) ∧
      (results.length ≠ 1 → (∀ f ∈ results, ∀ s ∈ f.symbols, s.levels ≤ 62) →
        Json.parse? (Report.render results) = some j) ∧
      (∀ f, results = [f] → (∀ s ∈ f.symbols, s.levels ≤ 63) →
        Json.parse? (Report.render results) = some j) ∧
      ((∀ f ∈ results, ∀ s ∈ f.symbols, s.LinesFit) →
        (results.length ≠ 1 → Report.readEntries j = .ok results) ∧
        ∀ f, results = [f] → Report.readSymbols j = .ok f.symbols)) ∧
    (∀ results others : List FileOutline, Report.render results = Report.render others ↔
      results = others ∨
        (∃ f g, results = [f] ∧ others = [g] ∧ f.symbols = g.symbols) ∨
        (results = [] ∧ ∃ g, others = [g] ∧ g.symbols = []) ∨
        (others = [] ∧ ∃ f, results = [f] ∧ f.symbols = [])) := by
  have hlimit : Json.nestingLimit = 127 := rfl
  refine ⟨?_, ?_, ?_⟩
  · intro s
    refine ⟨fun hlines hlevels => ?_, Symbol.parse?_of_lt_levels⟩
    have hnesting := s.nesting_toJson
    rw [Json.parse?, Json.parse?, Json.parseWithin?_compact, Json.parseWithin?_pretty,
      if_pos (by omega), Option.map_some, Symbol.ofJson_toJson hlines]
    exact ⟨rfl, rfl⟩
  · intro results
    refine ⟨Report.toJson results, fun limit => Report.parseWithin?_render limit results, ?_, ?_,
      fun hlines => ⟨?_, ?_⟩⟩
    · intro hlength hlevels
      have hnesting := Report.nesting_entries hlength hlevels
      rw [Json.parse?, Report.parseWithin?_render, if_pos (by omega)]
    · intro f hf hlevels
      subst hf
      have hnesting := Report.nesting_single f
      have hsymbols := Symbol.levelsOf_le_iff.mpr hlevels
      rw [Json.parse?, Report.parseWithin?_render, if_pos (by omega)]
    · exact fun hlength => Report.readEntries_toJson hlength hlines
    · intro f hf
      subst hf
      exact Report.readSymbols_toJson (hlines f List.mem_cons_self)
  · intro results others
    rw [← Report.toJson_eq_iff, Report.render_eq_iff]

/-- A symbol with characters that have to be escaped and the greatest line number. -/
def escapedSample : Symbol where
  kind := .classDecl
  name := "say \"\\\x01\" to é"
  startLine := 1
  endLine := 18446744073709551615
  members :=
    [{ kind := .varDecl, name := "x\ty", startLine := 2, endLine := 2, typeLabel := some "" }]

/-- The symbol is read back alone and in a report on two files. -/
theorem escapedSample_reads_back :
    let results : List FileOutline := [⟨"A.swift", [escapedSample]⟩, ⟨"B.swift", []⟩]
    escapedSample.LinesFit ∧ escapedSample.levels ≤ 63 ∧
      (Json.parse? escapedSample.toJson.compact).map Symbol.ofJson = some (.ok escapedSample) ∧
      ∃ j, Json.parse? (Report.render results) = some j ∧ Report.readEntries j = .ok results := by
  intro results
  have hlines : escapedSample.LinesFit := by
    unfold Symbol.LinesFit
    rw [Symbol.descendants_eq_listing]
    decide
  have hlevels : escapedSample.levels ≤ 62 := by decide
  have hsample := (report_reads_back.1 escapedSample).1 hlines (by omega)
  refine ⟨hlines, by omega, hsample.1, ?_⟩
  obtain ⟨j, -, hentries, -, hread⟩ := report_reads_back.2.1 results
  have hall : ∀ f ∈ results, ∀ s ∈ f.symbols, s.LinesFit ∧ s.levels ≤ 62 := by
    intro f hf s hs
    simp only [results, List.mem_cons, List.not_mem_nil, or_false] at hf
    rcases hf with rfl | rfl
    · cases List.mem_singleton.mp hs
      exact ⟨hlines, hlevels⟩
    · cases hs
  refine ⟨j, hentries (by decide) fun f hf s hs => (hall f hf s hs).2, ?_⟩
  exact (hread fun f hf s hs => (hall f hf s hs).1).1 (by decide)

/-- Classes inside each other, each the only member of the one around it. -/
def Symbol.tower : Nat → Symbol
  | 0 => { kind := .classDecl, name := "C", startLine := 1, endLine := 1 }
  | n + 1 =>
    { kind := .classDecl, name := "C", startLine := 1, endLine := 1, members := [tower n] }

/-- A tower has one level more than its height. -/
theorem Symbol.levels_tower (n : Nat) : (tower n).levels = n + 1 := by
  induction n with
  | zero => rfl
  | succ n ih => rw [tower, levels, levelsOf, levelsOf, ih, Nat.max_zero]

/-- The lines of a tower fit at every level. -/
theorem Symbol.linesFit_tower (n : Nat) : (tower n).LinesFit := by
  have hfits : 1 < Json.unsignedLimit ∧ 1 < Json.unsignedLimit := by decide
  intro d hd
  rw [descendants_eq_listing] at hd
  induction n with
  | zero =>
      cases List.mem_singleton.mp hd
      exact hfits
  | succ n ih =>
      rw [listing_eq] at hd
      rcases List.mem_cons.mp hd with rfl | hd
      · exact hfits
      · exact ih (by rwa [tower, listings_singleton] at hd)

/-- A symbol of 64 levels is written, but its text is refused, alone and in a report. -/
theorem tower_refused :
    (Symbol.tower 63).LinesFit ∧ (Symbol.tower 63).levels = 64 ∧
      (Json.parse? (Symbol.tower 63).toJson.compact).map Symbol.ofJson = none ∧
      Json.parse? (Report.render [⟨"A.swift", [Symbol.tower 63]⟩]) = none := by
  have hlevels : (Symbol.tower 63).levels = 64 := Symbol.levels_tower 63
  have hdeep : 63 < (Symbol.tower 63).levels := by omega
  refine ⟨Symbol.linesFit_tower 63, hlevels, ?_, Report.parse?_render_single ?_⟩
  · rw [(Symbol.parse?_of_lt_levels hdeep).1]
    rfl
  · rw [Symbol.levelsOf_singleton]
    exact hdeep

end SourceOutline

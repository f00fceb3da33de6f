import Mathlib.Algebra.GroupWithZero.Nat
import Mathlib.Data.List.Basic
import SourceOutline.Proofs.Places

/-!
# Descendants one call at a time

The descendants of a symbol can be asked for one at a time.  Between two calls only the
symbols still to be listed are kept, the next one last; a call hands that one out and puts its
members in its place, last member first.

1.  What is kept lists all that is still to come, and a call takes off the first of it
    (`Symbol.drain_of_next?`).
2.  So call number `n` answers with entry `n` of the listing, and calls after the last entry
    answer with nothing (`Symbol.answer?_eq_getElem?`).
3.  The listing visits every place of the tree, and each of them once (`Symbol.mem_located`).
-/

namespace SourceOutline

namespace Symbol

/-! ## Calls -/

/-- One call: the symbol that is handed out, and what is pending after it. -/
def next? (pending : List Symbol) : Option (Symbol × List Symbol) :=
  pending.getLast?.map fun s => (s, pending.dropLast ++ s.members.reverse)

/-- What is pending after a call; an iteration at its end stays there. -/
def afterCall (pending : List Symbol) : List Symbol :=
  match next? pending with
  | some (_, rest) => rest
  | none => pending

/-- The answer of call number `n`, the first one being call number zero. -/
def answer? (pending : List Symbol) : Nat → Option Symbol
  | 0 => (next? pending).map Prod.fst
  | n + 1 => answer? (afterCall pending) n

/-- The symbol on top is handed out and its members take its place, the first on top. -/
theorem next?_concat (pending : List Symbol) (s : Symbol) :
    next? (pending ++ [s]) = some (s, pending ++ s.members.reverse) := by
  simp [next?]

/-- A call answers as long as something is pending. -/
theorem next?_eq_none_iff {pending : List Symbol} : next? pending = none ↔ pending = [] := by
  simp [next?]

/-- **A call takes off the first symbol still to come** and leaves the others. -/
theorem drain_of_next? {pending rest : List Symbol} {s : Symbol}
    (h : next? pending = some (s, rest)) : drain pending.reverse = s :: drain rest.reverse := by
  obtain rfl | ⟨before, last, rfl⟩ := List.eq_nil_or_concat' pending
  · cases h
  · rw [next?_concat] at h
    cases h
    rw [List.reverse_concat, drain, List.reverse_append, List.reverse_reverse]

/-- **Call number `n` answers with entry `n` of what is still to come**, and with nothing when
there are fewer entries. -/
theorem answer?_eq_getElem? (pending : List Symbol) (n : Nat) :
    answer? pending n = (drain pending.reverse)[n]? := by
  induction n generalizing pending with
  | zero =>
      cases hnext : next? pending with
      | none =>
          rw [answer?, hnext, next?_eq_none_iff.mp hnext, List.reverse_nil, drain]
          rfl
      | some answer =>
          rw [answer?, hnext, drain_of_next? hnext]
          rfl
  | succ n ih =>
      rw [answer?, ih]
      cases hnext : next? pending with
      | none =>
          rw [afterCall, hnext, next?_eq_none_iff.mp hnext, List.reverse_nil, drain]
          rfl
      | some answer =>
          rw [afterCall, hnext, drain_of_next? hnext, List.getElem?_cons_succ]

/-! ## Places -/

/-- The symbol at a place below a symbol. -/
def at? : Place → Symbol → Option Symbol
  | [], s => some s
  | i :: p, s => s.members[i]?.bind (at? p)

/-- A symbol is listed with a place exactly when it stands there. -/
theorem mem_located {p : Place} {s m : Symbol} : (p, m) ∈ s.located ↔ at? p s = some m := by
  induction p generalizing s with
  | nil =>
      rw [located_eq, mem_root_shelve_nil, at?, Option.some.injEq]
      exact eq_comm
  | cons i p ih =>
      rw [located_eq, mem_root_shelve_cons, at?, Option.bind_eq_some_iff]
      exact exists_congr fun c => and_congr_right fun _ => ih

/-- No place is listed twice. -/
theorem nodup_places (s : Symbol) : (s.located.map Prod.fst).Nodup := by
  refine List.Pairwise.imp ?_ s.pairwise_located
  intro p q hlt heq
  rw [heq] at hlt
  exact List.lt_irrefl q hlt

/-- The listed places are those with a symbol. -/
theorem mem_places {p : Place} {s : Symbol} :
    p ∈ s.located.map Prod.fst ↔ (at? p s).isSome = true := by
  rw [List.mem_map, Option.isSome_iff_exists]
  constructor
  · intro hplace
    obtain ⟨⟨_, m⟩, hspot, rfl⟩ := hplace
    exact ⟨m, mem_located.mp hspot⟩
  · intro hsymbol
    obtain ⟨m, hm⟩ := hsymbol
    exact ⟨(p, m), mem_located.mpr hm, rfl⟩

/-- The descendants are what stands at the places of the tree, in their order. -/
theorem map_at?_places (s : Symbol) :
    (s.located.map Prod.fst).map (at? · s) = s.descendants.map some := by
  rw [descendants_eq_listing, ← map_snd_located, List.map_map, List.map_map]
  exact List.map_congr_left fun spot hspot => mem_located.mp hspot

/-- A symbol comes first among its descendants, then those of each member in order. -/
theorem descendants_eq_cons (s : Symbol) :
    s.descendants = s :: s.members.flatMap descendants := by
  rw [descendants_eq_listing, listing_eq, flatMap_descendants]

/-- **Descendants are handed out once each.**  Asked again and again, the iteration over a
symbol answers with the entries of its listing and then with nothing any more.  The listing is
the symbol itself and then the listing of each member in order, so its length is one more than
theirs together, and it visits every place below the symbol exactly once. -/
theorem descendants_handed_out_once (s : Symbol) :
    (∀ n, answer? [s] n = s.descendants[n]?) ∧
    s.descendants = s :: s.members.flatMap descendants ∧
    s.descendants = s.listing ∧
    s.descendants.length = 1 + (s.members.map fun m => m.descendants.length).sum ∧
    ∃ places : List Place, places.Nodup ∧ (∀ p, p ∈ places ↔ (at? p s).isSome = true) ∧
      s.descendants.map some = places.map (at? · s) := by
  refine ⟨?_, s.descendants_eq_cons, s.descendants_eq_listing, ?_, ?_⟩
  · intro n
    rw [answer?_eq_getElem?, List.reverse_singleton, descendants]
  · rw [descendants_eq_cons, List.length_cons, List.length_flatMap, Nat.add_comm]
  · exact ⟨s.located.map Prod.fst, s.nodup_places, fun p => mem_places, s.map_at?_places.symm⟩

end Symbol

end SourceOutline

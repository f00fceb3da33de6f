import SourceOutline.Symbol.Basic

/-!
# Listings of symbols

`Symbol.listing` lists a symbol and everything below it by recursion, and
`Symbol.descendants` does it with an explicit stack.  The stack always holds exactly the
symbols whose listings are still to come, so the two agree.
-/

namespace SourceOutline

namespace Symbol

/-- A symbol is listed before its members. -/
theorem listing_eq (s : Symbol) : s.listing = s :: listings s.members := by
  cases s
  rfl

theorem listings_eq_flatMap (symbols : List Symbol) :
    listings symbols = symbols.flatMap listing := by
  induction symbols with
  | nil => rfl
  | cons s ss ih => rw [listings, ih, List.flatMap_cons]

theorem listings_singleton (s : Symbol) : listings [s] = s.listing := by
  rw [listings, listings, List.append_nil]

theorem listings_append (xs ys : List Symbol) :
    listings (xs ++ ys) = listings xs ++ listings ys := by
  simp only [listings_eq_flatMap, List.flatMap_append]

theorem subset_listings (symbols : List Symbol) : symbols ⊆ listings symbols := by
  intro s hs
  rw [listings_eq_flatMap, List.mem_flatMap]
  exact ⟨s, hs, by rw [listing_eq]; exact List.mem_cons_self⟩

/-- The listing of gathered forests is the gathering of their listings. -/
theorem listings_flatMap {α : Type} (xs : List α) (symbols : α → List Symbol) :
    listings (xs.flatMap symbols) = xs.flatMap fun x => listings (symbols x) := by
  simp only [listings_eq_flatMap, List.flatMap_assoc]

/-- A symbol of gathered forests is a symbol of one of them. -/
theorem mem_listings_flatMap {α : Type} {xs : List α} {symbols : α → List Symbol} {s : Symbol} :
    s ∈ listings (xs.flatMap symbols) ↔ ∃ x ∈ xs, s ∈ listings (symbols x) := by
  rw [listings_flatMap, List.mem_flatMap]

/-- The stack is emptied in the order of the listings. -/
theorem drain_eq_listings (stack : List Symbol) : drain stack = listings stack := by
  fun_induction drain stack with
  | case1 => rfl
  | case2 s stack ih => rw [ih, listings_append, listings, listing_eq, List.cons_append]

/-- The descendants are handed out in pre-order. -/
theorem descendants_eq_listing (s : Symbol) : s.descendants = s.listing := by
  unfold descendants
  rw [drain_eq_listings, listings_singleton]

/-- Listing the descendants of the roots lists the whole forest. -/
theorem flatMap_descendants (roots : List Symbol) :
    roots.flatMap descendants = listings roots := by
  have hsame : descendants = listing := funext descendants_eq_listing
  rw [hsame, listings_eq_flatMap]

theorem encloses_self (s : Symbol) : s.encloses s = true := by
  simp [encloses]

end Symbol

end SourceOutline

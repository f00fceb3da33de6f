import Mathlib.Data.List.Basic
import SourceOutline.Discovery

/-!
# Sorted paths

`sortPaths` gives the increasing list with the paths of a list, in the order of their
bytes.  An increasing list is determined by its members, so what is found depends on the
inputs as a set only (`Discovery.sortPaths_congr`).
-/

namespace SourceOutline

/-- Texts are told apart by their bytes. -/
theorem Utf8.encode_injective {cs ds : List Char} (h : encode cs = encode ds) : cs = ds := by
  have hbytes : cs.utf8Encode = ds.utf8Encode := congrArg List.toByteArray h
  have htext : String.ofList cs = String.ofList ds := String.toByteArray_inj.mp hbytes
  exact String.ofList_inj.mp htext

namespace Discovery

/-- The order of paths: byte by byte. -/
def PathBefore (p q : String) : Prop :=
  Utf8.encode p.toList < Utf8.encode q.toList

instance (p q : String) : Decidable (PathBefore p q) :=
  inferInstanceAs (Decidable (_ < _))

/-- No path comes before itself. -/
theorem PathBefore.irrefl (p : String) : ¬PathBefore p p :=
  List.lt_irrefl _

/-- The order of paths is transitive. -/
theorem PathBefore.trans {p q r : String} (hpq : PathBefore p q) (hqr : PathBefore q r) :
    PathBefore p r :=
  List.lt_trans hpq hqr

/-- Of two different paths one comes before the other. -/
theorem PathBefore.of_not {p q : String} (hne : p ≠ q) (h : ¬PathBefore p q) :
    PathBefore q p := by
  rcases List.le_iff_lt_or_eq.mp (List.not_lt.mp h) with hlt | heq
  · exact hlt
  · exact absurd (String.toList_inj.mp (Utf8.encode_injective heq)).symm hne

/-- Inserting adds the path and takes none away. -/
theorem mem_insertPath {p q : String} {paths : List String} :
    q ∈ insertPath p paths ↔ q = p ∨ q ∈ paths := by
  induction paths with
  | nil => simp [insertPath]
  | cons r paths ih =>
      unfold insertPath
      split
      · next heq =>
        subst heq
        simp
      · split
        · simp
        · rw [List.mem_cons, ih, List.mem_cons]
          tauto

/-- Inserting keeps a list increasing. -/
theorem pairwise_insertPath {p : String} {paths : List String} (h : paths.Pairwise PathBefore) :
    (insertPath p paths).Pairwise PathBefore := by
  induction paths with
  | nil => simp [insertPath]
  | cons q paths ih =>
      obtain ⟨hq, hpaths⟩ := List.pairwise_cons.mp h
      unfold insertPath
      split
      · exact h
      · next hne =>
        split
        · next hlt =>
          refine List.pairwise_cons.mpr ⟨?_, h⟩
          intro r hr
          rcases List.mem_cons.mp hr with rfl | hr
          · exact hlt
          · exact PathBefore.trans hlt (hq r hr)
        · next hnot =>
          refine List.pairwise_cons.mpr ⟨?_, ih hpaths⟩
          intro r hr
          rcases mem_insertPath.mp hr with rfl | hr
          · exact PathBefore.of_not hne hnot
          · exact hq r hr

/-- Sorting keeps the members of a list. -/
theorem mem_sortPaths {q : String} {paths : List String} : q ∈ sortPaths paths ↔ q ∈ paths := by
  induction paths with
  | nil => rfl
  | cons p paths ih =>
      show q ∈ insertPath p (sortPaths paths) ↔ q ∈ p :: paths
      rw [mem_insertPath, ih, List.mem_cons]

/-- A sorted list is increasing. -/
theorem pairwise_sortPaths (paths : List String) : (sortPaths paths).Pairwise PathBefore := by
  induction paths with
  | nil => exact .nil
  | cons p paths ih => exact pairwise_insertPath ih

/-- An increasing list holds no path twice. -/
theorem nodup_of_pairwise {paths : List String} (h : paths.Pairwise PathBefore) :
    paths.Nodup := by
  apply h.imp
  rintro p q hpq rfl
  exact PathBefore.irrefl p hpq

/-- Increasing lists with the same members are equal. -/
theorem eq_of_pairwise {xs ys : List String} (hxs : xs.Pairwise PathBefore)
    (hys : ys.Pairwise PathBefore) (h : ∀ p, p ∈ xs ↔ p ∈ ys) : xs = ys := by
  have hperm : xs.Perm ys :=
    (List.perm_ext_iff_of_nodup (nodup_of_pairwise hxs) (nodup_of_pairwise hys)).mpr h
  refine hperm.eq_of_pairwise ?_ hxs hys
  intro p q _ _ hpq hqp
  exact absurd (PathBefore.trans hpq hqp) (PathBefore.irrefl p)

/-- The sorted list depends on the members only. -/
theorem sortPaths_congr {xs ys : List String} (h : ∀ p, p ∈ xs ↔ p ∈ ys) :
    sortPaths xs = sortPaths ys := by
  apply eq_of_pairwise (pairwise_sortPaths xs) (pairwise_sortPaths ys)
  intro p
  rw [mem_sortPaths, mem_sortPaths, h]

/-- What a function gives on an increasing list depends only on the members on which it gives
something. -/
theorem filterMap_eq_of_pairwise {α : Type} {g : String → Option α} {xs ys : List String}
    (hxs : xs.Pairwise PathBefore) (hys : ys.Pairwise PathBefore)
    (h : ∀ p, g p ≠ none → (p ∈ xs ↔ p ∈ ys)) : xs.filterMap g = ys.filterMap g := by
  have hfilter (zs : List String) :
      zs.filterMap g = (zs.filter fun p => (g p).isSome).filterMap g := by
    rw [List.filterMap_filter]
    apply List.filterMap_congr
    intro p _
    cases g p <;> rfl
  have hsame : (xs.filter fun p => (g p).isSome) = ys.filter fun p => (g p).isSome := by
    apply eq_of_pairwise (hxs.filter _) (hys.filter _)
    intro p
    rw [List.mem_filter, List.mem_filter]
    constructor
    · rintro ⟨hp, hsome⟩
      exact ⟨(h p (Option.isSome_iff_ne_none.mp hsome)).mp hp, hsome⟩
    · rintro ⟨hp, hsome⟩
      exact ⟨(h p (Option.isSome_iff_ne_none.mp hsome)).mpr hp, hsome⟩
  rw [hfilter xs, hfilter ys, hsame]

/-- What is found for some inputs: an increasing list. -/
def found (t : FileTree) (search : Search) (inputs : List String) : List String :=
  sortPaths (inputs.flatMap (filesOf t search))

section

variable {t : FileTree} {search : Search} {inputs : List String}

/-- What is found is what some input stands for. -/
theorem mem_found {p : String} :
    p ∈ found t search inputs ↔ ∃ input ∈ inputs, p ∈ filesOf t search input := by
  rw [found, mem_sortPaths, List.mem_flatMap]

/-- Nothing is found when no input stands for a file. -/
theorem found_eq_nil_iff :
    found t search inputs = [] ↔ ∀ input ∈ inputs, filesOf t search input = [] := by
  simp only [List.eq_nil_iff_forall_not_mem, mem_found, not_exists, not_and]
  exact ⟨fun h input hinput p => h p input hinput, fun h p input hinput => h input hinput p⟩

/-- What is found is an increasing list. -/
theorem pairwise_found : (found t search inputs).Pairwise PathBefore :=
  pairwise_sortPaths _

/-- A search that finds nothing fails. -/
theorem discover_of_found_eq_nil (h : found t search inputs = []) :
    (discover t search inputs).result = .error (nothingFound inputs) := by
  unfold found at h
  unfold discover
  rw [h]

/-- A search that finds something gives all of it. -/
theorem discover_of_found_ne_nil (h : found t search inputs ≠ []) :
    (discover t search inputs).result = .ok (found t search inputs) := by
  unfold found at h ⊢
  unfold discover
  dsimp only
  split
  · next hnil => exact absurd hnil h
  · rfl

/-- A search succeeds when something is found, and gives all of it. -/
theorem discover_eq_ok_iff {files : List String} :
    (discover t search inputs).result = .ok files ↔
      found t search inputs ≠ [] ∧ files = found t search inputs := by
  by_cases h : found t search inputs = []
  · rw [discover_of_found_eq_nil h]
    exact ⟨nofun, fun hfiles => absurd h hfiles.1⟩
  · rw [discover_of_found_ne_nil h]
    exact ⟨fun heq => ⟨h, (Except.ok.inj heq).symm⟩, fun hfiles => by rw [hfiles.2]⟩

end

end Discovery

end SourceOutline

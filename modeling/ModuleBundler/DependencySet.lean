import ModuleBundler.Json.Record
import ModuleBundler.Path

/-!
# Dependency sets

The paths that a bundle is made of, in the order in which they were first put in. Two spellings of one
path are one member, and the first spelling is kept. The member put in first is the entry.

Two sets are equal as sets when they have the same members, whatever their order.
-/

namespace ModuleBundler

/-- Paths without repetition, in the order of insertion. -/
structure DependencySet where
  paths : List Path
  distinct : paths.Pairwise fun p q => p.parts ≠ q.parts

namespace DependencySet

/-- The set without members. -/
def empty : DependencySet := ⟨[], .nil⟩

instance : Inhabited DependencySet := ⟨empty⟩

/-- Whether `p` is a member, in whatever spelling. -/
def contains (set : DependencySet) (p : Path) : Bool :=
  set.paths.any fun q => decide (q.parts = p.parts)

theorem contains_eq_true_iff {set : DependencySet} {p : Path} :
    set.contains p = true ↔ ∃ q ∈ set.paths, q.parts = p.parts := by
  simp [contains]

/-- The set with `p` as its last member, unless `p` is a member already. -/
def insert (set : DependencySet) (p : Path) : DependencySet :=
  if h : set.contains p = true then set
  else
    { paths := set.paths ++ [p]
      distinct := by
        refine List.pairwise_append.mpr ⟨set.distinct, List.pairwise_singleton _ _, ?_⟩
        intro q hq r hr e
        rw [List.mem_singleton] at hr
        exact h (contains_eq_true_iff.mpr ⟨q, hq, hr ▸ e⟩) }

/-- The set of the paths of a list. -/
def ofList (ps : List Path) : DependencySet := ps.foldl insert empty

/-- The number of members. -/
def size (set : DependencySet) : Nat := set.paths.length

/-- The member put in first. -/
def entry? (set : DependencySet) : Option Path := set.paths.head?

/-- Whether two sets have the same members. -/
def sameMembers (a b : DependencySet) : Bool :=
  a.size == b.size && a.paths.all b.contains

theorem paths_insert (set : DependencySet) (p : Path) :
    (set.insert p).paths = if set.contains p then set.paths else set.paths ++ [p] := by
  unfold insert
  split <;> simp_all

/-- The members as an array of texts. -/
def toJson (set : DependencySet) : Json := Json.ofList (fun p => Json.ofText p.text) set.paths

/-- The set of the paths in an array of texts. -/
def ofJson? (v : Json) : Option DependencySet :=
  (v.asList? Json.asText?).map fun texts => ofList (texts.map Path.mk)

end DependencySet

end ModuleBundler

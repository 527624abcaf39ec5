import ModuleBundler.Bundle.Basic
import ModuleBundler.Proofs.Json.Record
import ModuleBundler.Proofs.Json.RoundTrip

/-!
# Bundles are read back

A bundle is what its text in a cache spells (`decode?_encode`): the code, the modules in their order, the
digest, and the script or its absence.
-/

namespace ModuleBundler

namespace DependencySet

theorem eq_of_paths {a b : DependencySet} (h : a.paths = b.paths) : a = b := by
  cases a
  cases b
  exact (mk.injEq ..).mpr h

/-- Paths that are no members yet and differ from one another are all put in. -/
theorem paths_foldl_insert (ps : List Path) : ∀ set : DependencySet,
    (set.paths ++ ps).Pairwise (fun p q => p.parts ≠ q.parts) →
      (ps.foldl insert set).paths = set.paths ++ ps := by
  induction ps with
  | nil => intro set _; simp
  | cons p ps ih =>
    intro set h
    have hp : (set.insert p).paths = set.paths ++ [p] := by
      rw [paths_insert, if_neg]
      intro hc
      obtain ⟨q, hq, he⟩ := contains_eq_true_iff.mp hc
      exact (List.pairwise_append.mp h).2.2 q hq p List.mem_cons_self he
    rw [List.foldl_cons, ih _ (by simpa [hp] using h), hp, List.append_assoc, List.singleton_append]

/-- A set is made of its members. -/
theorem ofList_paths (set : DependencySet) : ofList set.paths = set :=
  eq_of_paths (paths_foldl_insert set.paths empty set.distinct)

theorem ofJson?_toJson (set : DependencySet) : ofJson? set.toJson = some set := by
  have htexts : set.toJson = Json.ofList Json.ofText (set.paths.map Path.text) := by
    rw [toJson, Json.ofList, Json.ofList, List.map_map]
    rfl
  have hpaths : (set.paths.map Path.text).map Path.mk = set.paths := by
    rw [List.map_map]
    exact List.map_id _
  rw [ofJson?, htexts, Json.asList?_ofList fun s _ => Json.asText?_ofText s, Option.map_some, hpaths,
    ofList_paths]

end DependencySet

namespace Bundle

theorem ofJson?_toJson (bundle : Bundle) : ofJson? bundle.toJson = some bundle := by
  obtain ⟨code, dependencies, hash, hydration⟩ := bundle
  cases hydration with
  | none =>
    rw [ofJson?, toJson, Json.fields?_ofMembers 3 (by simp) (by simp)]
    simp [Json.field?, Json.fieldOr?, List.lookup_cons, Json.asText?_ofText, DependencySet.ofJson?_toJson]
  | some script =>
    rw [ofJson?, toJson, Json.fields?_ofMembers 3 (by simp) (by simp)]
    simp [Json.field?, Json.fieldOr?, List.lookup_cons, Json.asText?_ofText, DependencySet.ofJson?_toJson,
      Json.asNullable?_ofText (Json.asText?_ofText script)]

/-- **A bundle is read back** from its text in a cache. -/
theorem decode?_encode (bundle : Bundle) : decode? bundle.encode = some bundle := by
  rw [decode?, encode, Json.parse?_print, Option.bind_some, ofJson?_toJson]

end Bundle

end ModuleBundler

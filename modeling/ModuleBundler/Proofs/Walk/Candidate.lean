import ModuleBundler.Proofs.Path.Place
import ModuleBundler.Resolve

/-!
# What is tried for a reference

A reference is seen from the directory of the file it stands in: from there it goes up, as far as there is something
above, and then down along names (`candidatePath_eq_along`). What is tried for the candidate is the candidate itself, if
it ends in an extension, and else every extension after the candidate and after the index file in it (`probes_eq`). So a
reference leads to the first of these that is a file (`resolve_eq_find?`).
-/

namespace ModuleBundler

open ModuleBundler.Path

/-! ### Joined paths -/

/-- An ending is written after the path that is joined to a directory. -/
theorem join_append (p : Path) {q : Path} (hq : q.text ≠ "") (ending : String) :
    p.join (q.append ending) = (p.join q).append ending := by
  have habs : (q.append ending).isAbsolute = q.isAbsolute := by
    obtain ⟨c, cs, hc⟩ := List.exists_cons_of_ne_nil fun h => hq (String.toList_eq_nil_iff.mp h)
    simp [isAbsolute, Path.append, hc]
  unfold join
  rw [habs]
  by_cases h : q.isAbsolute = true
  · rw [if_pos h, if_pos h]
  · rw [if_neg h, if_neg h]
    split_ifs <;> simp [Path.append, String.append_assoc]

/-- An ending belongs to the last name of a path. -/
theorem append_along (ns : List String) (s ext : String) :
    (along (ns ++ [s])).append ext = along (ns ++ [s ++ ext]) := by
  obtain ⟨before, htext⟩ := toList_along_last ns
  have h : (along (ns ++ [s])).text ++ ext = (along (ns ++ [s ++ ext])).text :=
    String.toList_inj.mp (by simp [htext])
  exact congrArg Path.mk h

/-- What a relative path comes down to below a directory. -/
theorem clean_join_along {ns : List String} (hn : Names ns) {p : Path} (hp : p.isAbsolute = false) :
    ((along ns).join p).clean =
        along (ns.take (ns.length - (way p.body).ups) ++ (way p.body).down) ∧
      (((along ns).join p).Climbs ↔ ns.length < (way p.body).ups) := by
  have htext : (along ns).text ≠ "" := fun h => by
    have := toList_along ns
    rw [h] at this
    cases this
  have hparts : ((along ns).join p).parts = .root :: (ns.map .name ++ p.body) := by
    rw [parts_join, if_neg (by simp [hp, htext]), parts_along hn, List.cons_append]
  have habs : ((along ns).join p).isAbsolute = true :=
    isAbsolute_eq_true_iff.mpr (by rw [hparts]; exact List.mem_cons_self)
  have hbody : ((along ns).join p).body = ns.map .name ++ p.body := by
    rw [parts_of_isAbsolute habs] at hparts
    exact (List.cons.inj hparts).2
  constructor
  · rw [clean_of_isAbsolute habs, hbody, way_names_append]
  · rw [climbs_iff, hbody, way_names_append]
    exact Nat.sub_pos_iff_lt

/-! ### Candidates -/

/-- The names of the candidate of a reference in a file of this directory. A relative reference goes up from the
directory and then down; above the root of the file system there is nothing to go up to. An absolute reference names
the same in every directory. -/
def candidateNames (directory : List String) (specifier : String) : List String :=
  let w := way (⟨specifier⟩ : Path).body
  if (⟨specifier⟩ : Path).isAbsolute then w.down
  else directory.take (directory.length - w.ups) ++ w.down

theorem names_candidateNames {directory : List String} (hn : Names directory) (specifier : String) :
    Names (candidateNames directory specifier) := by
  have hdown := names_way_body ⟨specifier⟩
  unfold candidateNames
  split_ifs
  · exact hdown
  · exact names_append.mpr ⟨hn.of_subset (List.take_subset _ _), hdown⟩

/-- **A candidate is seen from the directory of the file** that the reference stands in. -/
theorem candidatePath_eq_along {directory : List String} {file : String} (hn : Names (directory ++ [file]))
    (specifier : String) :
    candidatePath (along (directory ++ [file])) specifier = along (candidateNames directory specifier) := by
  unfold candidatePath candidateNames
  rw [parent?_along hn, Option.getD_some]
  by_cases habs : (⟨specifier⟩ : Path).isAbsolute = true
  · rw [if_pos habs, join, if_pos habs, clean_of_isAbsolute habs]
  · rw [if_neg habs, (clean_join_along (names_append.mp hn).1 (Bool.eq_false_iff.mpr habs)).1]

example : candidateNames ["app", "src"] "../..//lib/./a" = ["lib", "a"] := by decide

/-! ### Probes -/

/-- **What is tried for a candidate**: the candidate itself, if it ends in an extension; else each extension after the
candidate, and then each extension after `index` below the candidate. -/
theorem probes_eq {ns : List String} (hn : Names ns) (exts : List String) :
    probes exts (along ns) = if (along ns).endsInOneOf exts then [along ns]
      else exts.map (along ns).append ++ exts.map (along (ns ++ ["index"])).append := by
  have hname : Names ["index"] := by decide
  have hindex : (along ns).join ⟨"index"⟩ = along (ns ++ ["index"]) :=
    along_join_ofParts hn hname (List.cons_ne_nil _ _)
  have hjoin : ∀ ext, (along ns).join ⟨"index" ++ ext⟩ = (along (ns ++ ["index"])).append ext := by
    intro ext
    have hne : (⟨"index"⟩ : Path).text ≠ "" := by decide
    rw [← hindex, ← join_append (along ns) hne ext]
    rfl
  unfold probes
  rw [List.map_congr_left fun ext _ => hjoin ext]

/-! ### References -/

/-- **What a path reference leads to**, in a file of this directory: the first file among what is tried for the names
that the reference comes down to. -/
theorem resolve_eq_find? (files : Files) (options : Options) {directory : List String} {file : String}
    (hn : Names (directory ++ [file])) {specifier : String} (hpath : isPathSpecifier specifier = true)
    {ns : List String} (hns : candidateNames directory specifier = ns) :
    resolve files options (along (directory ++ [file])) specifier =
      (if (along ns).endsInOneOf options.extensions then [along ns]
        else options.extensions.map (along ns).append ++
          options.extensions.map (along (ns ++ ["index"])).append).find? files.isFile := by
  have hnames : Names ns := hns ▸ names_candidateNames (names_append.mp hn).1 specifier
  rw [resolve, if_pos hpath, candidatePath_eq_along hn, hns, probes_eq hnames]

end ModuleBundler

import ModuleBundler.Proofs.Path.Anchor

/-!
# Looking for files in memory

A store keeps its files under clean paths, so a question about a path is a question about its clean form as seen from
the working directory (`isFile_eq`), and a clean absolute path is its own clean form (`locate_of_isPlace`).
-/

namespace ModuleBundler

namespace FileStore

/-- A clean absolute path is the key under which its file is kept. -/
theorem locate_of_isPlace (store : FileStore) {p : Path} (hp : p.IsPlace) : store.locate p = p := by
  unfold locate Path.join
  rw [if_pos hp.absolute, hp.clean]

theorem contentAt_of_isPlace (store : FileStore) {p : Path} (hp : p.IsPlace) :
    store.contentAt p =
      if store.unreadable.contains p then .error (.io ("Failed to read " ++ p.text ++ ": permission denied"))
      else match store.files.get? p with
        | some content => .ok content
        | none => .error (.notFound p) := by
  unfold contentAt
  generalize hq : store.locate p = q
  obtain rfl : q = p := hq.symm.trans (store.locate_of_isPlace hp)
  rfl

/-- A file stands at a path when one is kept under its clean form, whether or not it can be read. -/
theorem isFile_eq (store : FileStore) (p : Path) : store.isFile p = (store.files.get? (store.locate p)).isSome := by
  simp only [isFile, exists?, info, Table.has]
  cases store.files.get? (store.locate p) with
  | some content => rfl
  | none => cases store.hasBelow (store.locate p) <;> rfl

theorem isFile_of_isPlace (store : FileStore) {p : Path} (hp : p.IsPlace) :
    store.isFile p = (store.files.get? p).isSome := by
  rw [isFile_eq, store.locate_of_isPlace hp]

end FileStore

end ModuleBundler

import ModuleBundler.Files.Basic
import ModuleBundler.Table

/-!
# Files in memory

A store keeps files under clean paths, whatever spelling they are put in with. A directory is there
when a file lies below it. A file can be marked as unreadable: it is there, but it cannot be read.
Every read is counted, in all and for each path, and a read that fails counts too.
-/

namespace ModuleBundler

/-- Files in memory. -/
structure FileStore where
  /-- What relative paths are relative to. -/
  workingDirectory : Path
  files : Table Path ByteArray := []
  /-- The files that cannot be read. -/
  unreadable : List Path := []
  /-- How many reads there were. -/
  reads : Nat := 0
  /-- How many reads there were of each path. -/
  readsByPath : Table Path Nat := []
  deriving Inhabited

namespace FileStore

/-- A store without files. -/
def empty (workingDirectory : Path) : FileStore := { workingDirectory := workingDirectory.clean }

/-- The clean form of a path, as seen from the working directory. -/
def locate (store : FileStore) (p : Path) : Path := (store.workingDirectory.join p).clean

/-! ### Changing files -/

/-- The store with a file at `p`, in place of what stood there. -/
def insert (store : FileStore) (p : Path) (content : ByteArray) : FileStore :=
  let p := store.locate p
  { store with
    files := store.files.put p content
    unreadable := store.unreadable.filter (· ≠ p) }

/-- The store with a file at `p` that cannot be read. -/
def insertUnreadable (store : FileStore) (p : Path) : FileStore :=
  let p := store.locate p
  { store with
    files := store.files.put p ByteArray.empty
    unreadable := if store.unreadable.contains p then store.unreadable else p :: store.unreadable }

/-- Whether a file stands at `p`, and the store without it. -/
def remove (store : FileStore) (p : Path) : Bool × FileStore :=
  let p := store.locate p
  (store.files.has p,
    { store with
      files := store.files.drop p
      unreadable := store.unreadable.filter (· ≠ p) })

/-! ### Reading -/

/-- What a read of `p` gives. -/
def contentAt (store : FileStore) (p : Path) : Except FileError ByteArray :=
  let p := store.locate p
  if store.unreadable.contains p then
    .error (.io ("Failed to read " ++ p.text ++ ": permission denied"))
  else match store.files.get? p with
    | some content => .ok content
    | none => .error (.notFound p)

/-- The store with one more read of `p` counted. -/
def countRead (store : FileStore) (p : Path) : FileStore :=
  let p := store.locate p
  { store with
    reads := store.reads + 1
    readsByPath := store.readsByPath.put p ((store.readsByPath.get? p).getD 0 + 1) }

/-- The store with these reads counted. -/
def countReads (store : FileStore) (ps : List Path) : FileStore := ps.foldl countRead store

/-- Reads `p` and counts the read. -/
def read (store : FileStore) (p : Path) : Except FileError ByteArray × FileStore :=
  (store.contentAt p, store.countRead p)

/-- How often `p` was read. -/
def readsOf (store : FileStore) (p : Path) : Nat :=
  (store.readsByPath.get? (store.locate p)).getD 0

/-- The store with all counts at zero. -/
def resetReads (store : FileStore) : FileStore := { store with reads := 0, readsByPath := [] }

/-! ### Asking -/

/-- Whether a file lies strictly below the clean path `p`. -/
def hasBelow (store : FileStore) (p : Path) : Bool :=
  store.files.any fun entry => decide (entry.1 ≠ p) && entry.1.isWithin p

/-- What stands at `p`. -/
def info (store : FileStore) (p : Path) : Except FileError FileInfo :=
  let p := store.locate p
  match store.files.get? p with
  | some content => .ok (.file content.size)
  | none => if store.hasBelow p then .ok .directory else .error (.notFound p)

/-- Whether something stands at `p`. -/
def exists? (store : FileStore) (p : Path) : Bool :=
  let p := store.locate p
  store.files.has p || store.hasBelow p

/-- Whether a file stands at `p`. -/
def isFile (store : FileStore) (p : Path) : Bool :=
  store.exists? p && match store.info p with
    | .ok (.file _) => true
    | _ => false

/-- The answers that the store gives. -/
def view (store : FileStore) : Files where
  workingDirectory := .ok store.workingDirectory
  read := store.contentAt
  isFile := store.isFile

end FileStore

end ModuleBundler

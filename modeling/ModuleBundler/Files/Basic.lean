import ModuleBundler.Path

/-!
# What a bundler asks of files

Following references and reading modules needs three answers only: the working directory, the content
of a file, and whether a path leads to a file. `Files` is a table of these answers at one moment, so
everything that is built on it is a function of the files as they are then. The files kept in memory
and the files on a disk both give such a table.
-/

namespace ModuleBundler

/-- Why a question about files has no answer. -/
inductive FileError where
  /-- Nothing is there. -/
  | notFound (path : Path)
  /-- Something is there, but the system refuses. -/
  | io (reason : String)
  /-- Any other fault of whoever keeps the files. -/
  | other (reason : String)
  deriving DecidableEq, Repr

/-- The text of a fault. -/
def FileError.message : FileError → String
  | .notFound p => "File not found: " ++ p.text
  | .io s => "I/O error: " ++ s
  | .other s => "Runtime error: " ++ s

/-- What stands at a path. -/
inductive FileInfo where
  /-- A file of `size` bytes. -/
  | file (size : Nat)
  | directory
  deriving DecidableEq, Repr

/-- The answers about files at one moment. -/
structure Files where
  workingDirectory : Except FileError Path
  read : Path → Except FileError ByteArray
  isFile : Path → Bool

/-- Why a module has no source. -/
inductive SourceError where
  | unreadable (cause : FileError)
  /-- The bytes of the file are no UTF-8 text. -/
  | notText
  deriving DecidableEq, Repr

namespace Files

/-- The text of the file at `p`. -/
def source (files : Files) (p : Path) : Except SourceError String :=
  match files.read p with
  | .error e => .error (.unreadable e)
  | .ok bytes =>
    match String.fromUTF8? bytes with
    | some s => .ok s
    | none => .error .notText

end Files

end ModuleBundler

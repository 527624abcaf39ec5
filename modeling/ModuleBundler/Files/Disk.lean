import ModuleBundler.Files.Basic

/-!
# Files on a disk

A tree of directories and files without links, and the way a POSIX system follows a path through it:
segment by segment from the root or from the working directory, where each segment, be it empty or a
`.`, asks for a directory to stand in.

Nothing is changed in the tree, so it is given by what is in it. The directories that lead to a file or
to a listed directory are there without being listed.
-/

namespace ModuleBundler

/-- Why a path leads nowhere, or why what is there cannot be read. -/
inductive DiskFault where
  | missing
  | notDirectory
  | isDirectory
  | nameTooLong
  | zeroByte
  deriving DecidableEq, Repr

/-- The words of the system for a fault. -/
def DiskFault.message : DiskFault → String
  | .missing => "No such file or directory (os error 2)"
  | .notDirectory => "Not a directory (os error 20)"
  | .isDirectory => "Is a directory (os error 21)"
  | .nameTooLong => "File name too long (os error 36)"
  | .zeroByte => "file name contained an unexpected NUL byte"

/-- What stands at a place of a disk. -/
inductive Place where
  | file (content : ByteArray)
  | directory

/-- A disk. Places are named by the names on the way to them from the root. -/
structure Disk where
  /-- What relative paths are followed from. -/
  workingDirectory : List String
  directories : List (List String) := []
  files : List (List String × ByteArray) := []

namespace Disk

/-- What stands at the place called `names`. -/
def at? (disk : Disk) (names : List String) : Option Place :=
  match disk.files.lookup names with
  | some content => some (.file content)
  | none =>
    if names.isPrefixOf disk.workingDirectory
        || disk.directories.any names.isPrefixOf
        || disk.files.any (fun file => names.isPrefixOf file.1)
    then some .directory
    else none

/-- One segment further than the place called `names`. -/
def step (disk : Disk) (names : List String) (segment : List Char) : Except DiskFault (List String) :=
  match disk.at? names with
  | none => .error .missing
  | some (.file _) => .error .notDirectory
  | some .directory =>
    if segment = [] ∨ segment = ['.'] then .ok names
    else if segment = ['.', '.'] then .ok names.dropLast
    else
      let name := String.ofList segment
      if 255 < name.utf8ByteSize then .error .nameTooLong
      else
        let child := names ++ [name]
        if (disk.at? child).isSome then .ok child else .error .missing

/-- The place that a path leads to. A path of more than 4095 bytes is refused as a whole. -/
def follow (disk : Disk) (p : Path) : Except DiskFault (List String) :=
  let cs := p.text.toList
  if cs.contains '\x00' then .error .zeroByte
  else if cs.isEmpty then .error .missing
  else if 4095 < p.text.utf8ByteSize then .error .nameTooLong
  else (segments cs).foldlM disk.step (if p.isAbsolute then [] else disk.workingDirectory)

/-- What stands at the end of a path. -/
def find (disk : Disk) (p : Path) : Except DiskFault Place := do
  match disk.at? (← disk.follow p) with
  | some place => .ok place
  | none => .error .missing

/-- The fault as it is told of `p`, `attempt` being what was tried. -/
def refuse (attempt : String) (p : Path) : DiskFault → FileError
  | .missing => .notFound p
  | fault => .io (attempt ++ " " ++ p.text ++ ": " ++ fault.message)

/-- The content of the file at `p`. -/
def read (disk : Disk) (p : Path) : Except FileError ByteArray :=
  match disk.find p with
  | .ok (.file content) => .ok content
  | .ok .directory => .error (refuse "Failed to read" p .isDirectory)
  | .error fault => .error (refuse "Failed to read" p fault)

/-- What stands at `p`. -/
def info (disk : Disk) (p : Path) : Except FileError FileInfo :=
  match disk.find p with
  | .ok (.file content) => .ok (.file content.size)
  | .ok .directory => .ok .directory
  | .error fault => .error (refuse "Failed to get metadata for" p fault)

/-- Whether something stands at `p`. -/
def exists? (disk : Disk) (p : Path) : Bool := (disk.find p).isOk

/-- Whether a file stands at `p`. -/
def isFile (disk : Disk) (p : Path) : Bool :=
  disk.exists? p && match disk.info p with
    | .ok (.file _) => true
    | _ => false

/-- The path of the working directory. -/
def workingPath (disk : Disk) : Path := Path.ofParts (.root :: disk.workingDirectory.map .name)

/-- The answers that the disk gives, to a bundler that takes `directory` for its working directory, or
the working directory of the disk when none is given. -/
def view (disk : Disk) (directory : Option Path) : Files where
  workingDirectory := .ok (directory.getD disk.workingPath)
  read := disk.read
  isFile := disk.isFile

end Disk

end ModuleBundler

import ModuleBundler.Bundle.Basic
import ModuleBundler.Bundle.Error
import ModuleBundler.Bundle.Script
import ModuleBundler.Digest
import ModuleBundler.Minify

/-!
# Assembling a bundle

The modules of a dependency set become one text, in the order of the set: as they are for a server, and
wrapped in registrations for any other target. The files are read anew, and the first module that has
no source ends the reading.
-/

namespace ModuleBundler

/-- The digest of a text that identifies a bundle: the first sixteen bytes of its digest. -/
def contentHash (text : String) : String :=
  Digest.hex ((Digest.bytes (Digest.utf8 text)).take 16)

/-- The sources of modules in order, and the files that were read for them. -/
def readModules (files : Files) : List Path → Except BundleError (List String) × List Path
  | [] => (.ok [], [])
  | p :: rest =>
    match files.source p with
    | .error e => (.error (.ofSource p e), [p])
    | .ok source =>
      let (sources, reads) := readModules files rest
      (sources.map (source :: ·), p :: reads)

/-- One module of a bundle. -/
def moduleText (options : Options) (root p : Path) (source : String) : String :=
  let name := moduleName p root
  let body := if options.target.wrapsModules then registration name source else source
  if options.comments then "// File: " ++ name ++ "\n" ++ body else body

/-- The parts of a bundle, one below the other in the text. -/
def bundleParts (options : Options) (root entry : Path) (modules : List (Path × String)) : List String :=
  let texts := modules.map fun m => moduleText options root m.1 m.2
  if options.target.wrapsModules then
    prelude options.extensions (rootName root) :: texts ++ [entryCall (moduleName entry root)]
  else texts

/-- A text of the bundle as the options want it. -/
def finish (options : Options) (text : String) : String :=
  if options.minify then minify text else text

/-- The bundle of modules with these sources. -/
def bundleOf (options : Options) (root entry : Path) (dependencies : DependencySet)
    (sources : List String) : Bundle :=
  let parts := bundleParts options root entry (dependencies.paths.zip sources)
  let code := finish options ("\n".intercalate parts)
  { code
    dependencies
    hash := contentHash code
    hydration :=
      if options.hydrate then some (finish options (hydrationScript (moduleName entry root)))
      else none }

/-- The bundle of a dependency set, and the files that were read for it. -/
def assemble (files : Files) (options : Options) (entry : Path) (dependencies : DependencySet) :
    Except BundleError Bundle × List Path :=
  match projectRoot files options with
  | .error cause => (.error (.noRoot cause), [])
  | .ok root =>
    let (sources, reads) := readModules files dependencies.paths
    (sources.map (bundleOf options root entry dependencies), reads)

end ModuleBundler

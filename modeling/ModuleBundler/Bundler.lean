import ModuleBundler.Bundle.Assemble
import ModuleBundler.Cache.Basic
import ModuleBundler.Cache.Key

/-!
# Building bundles with a cache

A bundle that is in the cache is given back without a look at the files. Else the files are walked, the
modules are assembled, and the text of the bundle is stored. A text in the cache that spells no bundle is
thrown away. A build that fails stores nothing.
-/

namespace ModuleBundler

/-- The texts of bundles by cache key. -/
abbrev BundleCache := Cache String String

/-- The end of a build: the bundle or the fault, the cache, and the files that were read. -/
structure Build where
  result : Except BundleError Bundle
  cache : BundleCache
  reads : List Path

/-- The bundle of `entry` from the files, and the files that were read. -/
def buildFresh (files : Files) (entry : Path) (options : Options) : Except BundleError Bundle × List Path :=
  match explore files options entry with
  | (report, some e) => (.error (.walk e), report.reads)
  | (report, none) =>
    match report.dependencies.entry? with
    | none => (.error (.noDependencies entry), report.reads)
    | some first =>
      let (result, reads) := assemble files options first report.dependencies
      (result, report.reads ++ reads)

/-- The bundle stored under `key`, and the cache after the look-up, without a text that spells none. -/
def fetch (cache : BundleCache) (key : String) : Option Bundle × BundleCache :=
  match cache.get key with
  | (none, cache) => (none, cache)
  | (some text, cache) =>
    match Bundle.decode? text with
    | some bundle => (some bundle, cache)
    | none => (none, (cache.remove key).2)

/-- The bundle of `entry`, from the cache or from the files. -/
def generateBundle (files : Files) (cache : BundleCache) (entry : Path) (options : Options) : Build :=
  let key := cacheKey entry options
  match fetch cache key with
  | (some bundle, cache) => { result := .ok bundle, cache, reads := [] }
  | (none, cache) =>
    match buildFresh files entry options with
    | (.error e, reads) => { result := .error (.generate entry e), cache, reads }
    | (.ok bundle, reads) =>
      { result := .ok bundle, cache := cache.insert key bundle.encode, reads }

end ModuleBundler

import ModuleBundler.Digest
import ModuleBundler.Options.Json

/-!
# Cache keys

A bundle is cached under a digest of the entry, as it was asked for, and of all options. A zero byte
stands between the two.
-/

namespace ModuleBundler

/-- The bytes that a cache key is the digest of. -/
def keyBytes (entry : Path) (options : Options) : List UInt8 :=
  Digest.utf8 entry.text ++ 0 :: Digest.utf8 options.jsonText

/-- The key of the bundle of `entry` with these options. -/
def cacheKey (entry : Path) (options : Options) : String :=
  Digest.hex (Digest.bytes (keyBytes entry options))

end ModuleBundler

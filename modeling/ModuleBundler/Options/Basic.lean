import ModuleBundler.Options.Target
import ModuleBundler.Path
import ModuleBundler.Text.Search

/-!
# Options

What a bundle request can be told, with a default for everything, and overrides, which give values to
some of the options and leave the others as they are.
-/

namespace ModuleBundler

/-- The options of one bundle request. -/
structure Options where
  /-- The endings that are tried on a reference, in this order, each with its dot. -/
  extensions : List String := [".js", ".jsx", ".ts", ".tsx", ".mjs", ".json"]
  /-- How many references away from the entry a module may lie. -/
  maxDepth : UInt64 := 50
  /-- Texts that keep every path they occur in out of the bundle. -/
  ignorePatterns : List String := ["node_modules"]
  /-- Whether comments and needless blanks are taken out of the bundle. -/
  minify : Bool := false
  /-- Whether a line that names the file stands before each module. -/
  comments : Bool := false
  target : Target := .browser
  /-- Whether a script that starts the entry in a browser comes with the bundle. -/
  hydrate : Bool := false
  /-- The project root that module names are taken from; the working directory when there is none. -/
  root : Option Path := none
  deriving DecidableEq, Repr, Inhabited

/-- Values for some of the options. -/
structure Overrides where
  extensions : Option (List String) := none
  maxDepth : Option UInt64 := none
  ignorePatterns : Option (List String) := none
  minify : Option Bool := none
  comments : Option Bool := none
  target : Option Target := none
  hydrate : Option Bool := none
  root : Option Path := none
  deriving DecidableEq, Repr, Inhabited

namespace Options

/-- Whether one of the ignore patterns occurs in a path. -/
def ignores (options : Options) (p : Path) : Bool :=
  options.ignorePatterns.any fun pattern => Text.occursIn pattern.toList p.text.toList

/-- Whether two options say the same: the spelling of the root does not count. -/
def same (a b : Options) : Bool :=
  decide ({ a with root := none } = { b with root := none })
    && decide (a.root.map Path.parts = b.root.map Path.parts)

/-- The options with the overrides in place of the values they give. -/
def merge (options : Options) (overrides : Overrides) : Options where
  extensions := overrides.extensions.getD options.extensions
  maxDepth := overrides.maxDepth.getD options.maxDepth
  ignorePatterns := overrides.ignorePatterns.getD options.ignorePatterns
  minify := overrides.minify.getD options.minify
  comments := overrides.comments.getD options.comments
  target := overrides.target.getD options.target
  hydrate := overrides.hydrate.getD options.hydrate
  root := overrides.root <|> options.root

/-- The default options with the overrides in place. -/
def merged (overrides : Overrides) : Options := merge {} overrides

end Options

end ModuleBundler

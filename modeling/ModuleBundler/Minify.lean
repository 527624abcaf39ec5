import ModuleBundler.Minify.Gap

/-!
# Minifying

Comments and needless blanks are taken out of a source; literals stay as they are. Literals are masked
first, so that nothing in them is taken for a comment or a gap, and put back last.

This does not parse the source: the text of a regular expression is read as code.
-/

namespace ModuleBundler

open Minify

/-- The characters of a source without its comments and needless blanks. -/
def minifyChars (cs : List Char) : List Char :=
  if cs.all Text.isBlank then []
  else
    let ps := pieces cs
    restore (literals ps) (tighten none (collapse .code none false (mask ps)))

/-- A source without its comments and needless blanks. -/
def minify (source : String) : String := String.ofList (minifyChars source.toList)

end ModuleBundler

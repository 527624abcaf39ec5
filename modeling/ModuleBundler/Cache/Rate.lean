import ModuleBundler.Cache.Basic

/-!
# Hit rates

The share of look-ups that found something, as a decimal number with six places. The quotient is first
rounded to 53 binary places, and the result to six decimal places; both times a half goes to the even
neighbour.
-/

namespace ModuleBundler

/-- The whole number nearest to `n / d`; of two nearest ones the even one. -/
def roundDiv (n d : Nat) : Nat :=
  let q := n / d
  let r := n % d
  if 2 * r < d then q
  else if d < 2 * r then q + 1
  else q + q % 2

/-- How many binary places the quotient `n / d` needs after the point to have 53 of them in all; `n` is
positive and not above `d`. -/
def binaryPlaces (n d : Nat) : Nat :=
  let e := 52 + d.log2 - n.log2
  if n <<< e < d <<< 52 then e + 1 else e

/-- The number of millionths in `n / d`, for `n` not above `d`. -/
def millionths (n d : Nat) : Nat :=
  if n = 0 then 0
  else
    let e := binaryPlaces n d
    roundDiv (roundDiv (n <<< e) d * 1000000) (1 <<< e)

/-- The share of look-ups that found something; zero when there were none. -/
def CacheStats.hitRate (stats : CacheStats) : String :=
  let m := millionths stats.hits (stats.hits + stats.misses)
  let places := toString (m % 1000000)
  toString (m / 1000000) ++ "." ++ String.ofList (List.replicate (6 - places.length) '0') ++ places

end ModuleBundler

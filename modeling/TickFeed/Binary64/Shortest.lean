import TickFeed.Binary64.Basic

/-! # Shortest decimal text of a double

Every real number strictly between the midpoints to the two neighbouring
doubles is read back as the same double, and so are the midpoints when the
significand is even. `shortest` finds the fewest digits in that interval; of
several candidates with as few digits it takes the one nearest to the value.
`plainText` and `jsonText` are the two ways to write those digits. -/

namespace TickFeed.Binary64

/-- `digits * 10 ^ exponent`. -/
structure Digits where
  digits : Nat
  exponent : Int
deriving DecidableEq, Repr

/-- `num * 10 ^ e` over `den`, as a numerator and a denominator. -/
def scaleTen (num den : Nat) (e : Int) : Nat × Nat :=
  if 0 ≤ e then (num * 10 ^ e.toNat, den) else (num, den * 10 ^ (-e).toNat)

/-- The number `e` with `10 ^ (e - 1) ≤ u * 2 ^ -1074 < 10 ^ e`, for `0 < u`. -/
def magnitude (u : Nat) : Int :=
  (Nat.toDigits 10 (u * 10 ^ 400 / unitsPerOne)).length - (400 : Int)

/-- Whether `digits * 10 ^ exponent` is read back as `u` units. -/
def readsBack (u : Nat) (d : Digits) : Bool :=
  let (n, m) := scaleTen (2 * d.digits * unitsPerOne) 1 d.exponent
  let s := spacing u
  let below := if u = 2 ^ 52 * s ∧ 1 < s then s / 2 else s
  let low := (2 * u - below) * m
  let high := (2 * u + s) * m
  if u / s % 2 = 0 then low ≤ n && n ≤ high else low < n && n < high

/-- The candidate with `count` digits: the neighbour of `u` units on that
decimal grid that is read back, the nearer one when both are. `up` settles an
exact tie. -/
def candidate? (up : Bool) (u count : Nat) : Option Digits :=
  let e := magnitude u - count
  let (n, m) := scaleTen u unitsPerOne (-e)
  let floor : Digits := ⟨n / m, e⟩
  let ceil : Digits := ⟨n / m + 1, e⟩
  let r := 2 * (n % m)
  let nearest := if r < m then floor else if m < r then ceil
    else if up || n / m % 2 = 1 then ceil else floor
  let other := if nearest = floor then ceil else floor
  if readsBack u nearest then some nearest
  else if readsBack u other then some other else none

def Digits.trimZeros : (fuel : Nat) → Digits → Digits
  | 0, d => d
  | fuel + 1, d =>
    if d.digits ≠ 0 ∧ d.digits % 10 = 0 then trimZeros fuel ⟨d.digits / 10, d.exponent + 1⟩
    else d

/-- The shortest digits for `u` units, `0 < u`. Seventeen digits always do. -/
def shortest (up : Bool) (u : Nat) : Digits :=
  let tries := (List.range 17).map (· + 1)
  ((tries.findSome? (candidate? up u)).getD ⟨0, 0⟩).trimZeros 17

/-- The digits of `d` with a point in the right place, and zeros up to it. At
least `places` digits follow the point, which is left out when none do. -/
def positional (places : Nat) (d : Digits) : String :=
  let ds := Nat.toDigits 10 d.digits
  let zeros := fun n => List.replicate n '0'
  let whole := if 0 ≤ d.exponent then ds ++ zeros d.exponent.toNat
    else ds.take (ds.length - (-d.exponent).toNat)
  let fraction := if 0 ≤ d.exponent then []
    else
      let n := (-d.exponent).toNat
      zeros (n - ds.length) ++ ds.drop (ds.length - n)
  let whole := if whole = [] then ['0'] else whole
  let fraction := fraction ++ zeros (places - fraction.length)
  String.ofList (if fraction = [] then whole else whole ++ '.' :: fraction)

/-- One digit, the point and the rest, and a signed power of ten. -/
def scientific (d : Digits) : String :=
  let ds := Nat.toDigits 10 d.digits
  let e := d.exponent + (ds.length - 1 : Nat)
  let mantissa := match ds with
    | [c] => [c]
    | c :: cs => c :: '.' :: cs
    | [] => []
  let sign := if e < 0 then '-' else '+'
  String.ofList (mantissa ++ 'e' :: sign :: Nat.toDigits 10 e.natAbs)

def signText (neg : Bool) : String := if neg then "-" else ""

/-- Positional text of any length, without a point for a whole number. -/
def plainText : Binary64 → String
  | .nan => "NaN"
  | .infinite neg => signText neg ++ "inf"
  | .finite neg u _ =>
    signText neg ++ if u = 0 then "0" else positional 0 (shortest true u)

/-- The text of a number in a document: positional with a decimal from `1e-5`
up to `1e16`, with a signed exponent outside. An infinity and what is not a
number have none. -/
def jsonText : Binary64 → Option String
  | .nan | .infinite _ => none
  | .finite neg u _ =>
    if u = 0 then some (signText neg ++ "0.0")
    else
      let d := shortest false u
      let e := magnitude u
      some (signText neg ++ if -4 ≤ e ∧ e ≤ 16 then positional 1 d else scientific d)

end TickFeed.Binary64

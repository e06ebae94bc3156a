namespace LineBasic.Double

structure Parts where
  negative : Bool
  significand : Nat
  exponent : Int
  deriving DecidableEq, Repr

inductive View
  | finite (p : Parts)
  | infinite (negative : Bool)
  | nan
  deriving DecidableEq, Repr

def view (x : Float) : View :=
  let word := x.toBits.toNat
  let fraction := word % Nat.pow 2 52
  let biased : Nat := word / Nat.pow 2 52 % Nat.pow 2 11
  let negative := word / Nat.pow 2 63 == 1
  if biased = 2047 then if fraction = 0 then .infinite negative else .nan
  else if biased = 0 then .finite ⟨negative, fraction, -1074⟩
  else .finite ⟨negative, Nat.pow 2 52 + fraction, (biased : Int) - 1075⟩

def isNegative (x : Float) : Bool := x.toBits.toNat / Nat.pow 2 63 == 1

def ofWord (negative : Bool) (word : Nat) : Float :=
  Float.ofBits (UInt64.ofNat ((if negative then Nat.pow 2 63 else 0) + word))

def infinity (negative : Bool) : Float := ofWord negative (2047 * Nat.pow 2 52)

def zero (negative : Bool) : Float := ofWord negative 0

def nan : Float := ofWord false (2047 * Nat.pow 2 52 + Nat.pow 2 51)

/-- The double `± significand · 2 ^ exponent`, for a significand of at most 53 bits that has all
of them unless the exponent is least. What is too large is infinite. -/
def encode (negative : Bool) (significand : Nat) (exponent : Int) : Float :=
  if significand < Nat.pow 2 52 then ofWord negative significand
  else
    let biased := (exponent + 1075).toNat
    if 2047 ≤ biased then infinity negative
    else ofWord negative (biased * Nat.pow 2 52 + (significand - Nat.pow 2 52))

def divNearest (n d : Nat) : Nat :=
  let q := n / d
  let twice := 2 * (n % d)
  if twice < d then q
  else if d < twice then q + 1
  else q + q % 2

def scaled (n d : Nat) (e : Int) : Nat × Nat := (n * Nat.pow 2 (-e).toNat, d * Nat.pow 2 e.toNat)

def ofRatio (negative : Bool) (n d : Nat) : Float :=
  if n = 0 then zero negative
  else
    let guess := max ((n.log2 : Int) - d.log2 - 52) (-1074)
    let (a, b) := scaled n d guess
    let unit := if a < b * Nat.pow 2 52 then max (guess - 1) (-1074) else guess
    let (a, b) := scaled n d unit
    let m := divNearest a b
    if m = Nat.pow 2 53 then encode negative (Nat.pow 2 52) (unit + 1) else encode negative m unit

def ofInt (n : Int) : Float := ofRatio (n < 0) n.natAbs 1

def isFinite (x : Float) : Bool :=
  match view x with
  | .finite _ => true
  | _ => false

def isInfinite (x : Float) : Bool :=
  match view x with
  | .infinite _ => true
  | _ => false

def isNan (x : Float) : Bool :=
  match view x with
  | .nan => true
  | _ => false

namespace Parts

def ratio (p : Parts) : Nat × Nat :=
  (p.significand * Nat.pow 2 p.exponent.toNat, Nat.pow 2 (-p.exponent).toNat)

def signed (p : Parts) (n : Nat) : Int := if p.negative then -(n : Int) else n

def truncate (p : Parts) : Int := p.signed (p.ratio.1 / p.ratio.2)

def isIntegral (p : Parts) : Bool := p.ratio.1 % p.ratio.2 == 0

def floor (p : Parts) : Int :=
  if p.negative && !p.isIntegral then p.truncate - 1 else p.truncate

def round (p : Parts) : Int := p.signed (divNearest p.ratio.1 p.ratio.2)

def compareInt (p : Parts) (n : Int) : Ordering :=
  compare (p.signed p.ratio.1) (n * p.ratio.2)

end Parts

/-- How a real stands to an integer. The order is exact, and there is none for a NaN. -/
def compareInt (x : Float) (n : Int) : Option Ordering :=
  match view x with
  | .finite p => some (p.compareInt n)
  | .infinite negative => some (if negative then .lt else .gt)
  | .nan => none

def compareReal (x y : Float) : Option Ordering :=
  if x < y then some .lt else if x == y then some .eq else if x > y then some .gt else none

def remainder (x y : Float) : Float :=
  match view x, view y with
  | .finite p, .finite q =>
      if q.significand = 0 then nan
      else
        let least := min p.exponent q.exponent
        let a := p.significand * Nat.pow 2 (p.exponent - least).toNat
        let b := q.significand * Nat.pow 2 (q.exponent - least).toNat
        let r := a % b
        ofRatio p.negative (r * Nat.pow 2 least.toNat) (Nat.pow 2 (-least).toNat)
  | .finite _, .infinite _ => x
  | _, _ => nan

def modulo (x y : Float) : Float :=
  let r := remainder x y
  if r == 0 then zero (isNegative y)
  else if (y < 0) != (r < 0) then r + y
  else r

end LineBasic.Double

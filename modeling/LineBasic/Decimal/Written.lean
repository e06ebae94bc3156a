import LineBasic.Double.Parts
import LineBasic.Text.Quoted

namespace LineBasic.Decimal

def digitCount (n : Nat) : Nat := (Nat.toDigits 10 n).length

def leadingExponent (n d : Nat) : Int :=
  if d ≤ n then (digitCount (n / d) : Int) - 1 else -(digitCount ((d - 1) / n) : Int)

def scaledRatio (n d : Nat) (e : Int) : Nat × Nat :=
  (n * Nat.pow 10 (-e).toNat, d * Nat.pow 10 e.toNat)

structure Number where
  digits : Nat
  exponent : Int
  deriving DecidableEq, Repr

/-- The decimals that read back as `significand · 2 ^ exponent` lie between the midpoints to its
two neighbours. Below a power of two the neighbour is half as far away. An even significand owns
the midpoints as well. Ends are in units of `2 ^ (exponent - 2)`. -/
structure Basin where
  low : Nat
  high : Nat
  closed : Bool

def basin (p : Double.Parts) : Basin :=
  { low := 4 * p.significand -
      (if p.significand = Nat.pow 2 52 ∧ -1074 < p.exponent then 1 else 2)
    high := 4 * p.significand + 2
    closed := p.significand % 2 = 0 }

def inBasin (p : Double.Parts) (k : Nat) (e : Int) : Bool :=
  let b := basin p
  let unit := p.exponent - 2
  let left := k * Nat.pow 10 e.toNat * Nat.pow 2 (-unit).toNat
  let scale := Nat.pow 10 (-e).toNat * Nat.pow 2 unit.toNat
  if b.closed then b.low * scale ≤ left && left ≤ b.high * scale
  else b.low * scale < left && left < b.high * scale

/-- The multiple of `10 ^ e` in the basin that is nearest to the value, if there is any. -/
def onGrid? (p : Double.Parts) (e : Int) : Option Number :=
  let (a, b) := scaledRatio p.ratio.1 p.ratio.2 e
  let below := a / b
  let near := Double.divNearest a b
  let far := if near = below then below + 1 else below
  if inBasin p near e then some ⟨near, e⟩
  else if inBasin p far e then some ⟨far, e⟩
  else none

def trimZeros : Nat → Number → Number
  | 0, x => x
  | fuel + 1, x =>
      if x.digits % 10 = 0 ∧ x.digits ≠ 0 then trimZeros fuel ⟨x.digits / 10, x.exponent + 1⟩ else x

/-- The decimal with the fewest digits that reads back as the magnitude of `p`, nearest to it
among those. Seventeen digits always do. -/
def shortest (p : Double.Parts) : Number :=
  if p.significand = 0 then ⟨0, 0⟩
  else
    let lead := leadingExponent p.ratio.1 p.ratio.2
    let grids := (List.range 17).map fun (i : Nat) => lead - (i : Int)
    trimZeros 20 ((grids.findSome? (onGrid? p)).getD ⟨0, 0⟩)

open Text

def exponentText (e : Int) : List Char :=
  (if e < 0 then '-' else '+') :: padLeft 2 '0' (Nat.toDigits 10 e.natAbs)

def positional (digits : List Char) (lead : Int) : List Char :=
  if lead < 0 then
    '0' :: '.' :: List.replicate (-lead - 1).toNat '0' ++ digits
  else
    let whole := digits.take (lead.toNat + 1)
    let rest := digits.drop (lead.toNat + 1)
    whole ++ List.replicate (lead.toNat + 1 - whole.length) '0' ++
      '.' :: (if rest = [] then ['0'] else rest)

def scientific (digits : List Char) (lead : Int) : List Char :=
  digits.take 1 ++ (if digits.length ≤ 1 then [] else '.' :: digits.drop 1) ++
    'e' :: exponentText lead

def magnitudeText (x : Number) : List Char :=
  let digits := Nat.toDigits 10 x.digits
  let lead := x.exponent + digits.length - 1
  if -4 ≤ lead ∧ lead < 16 then positional digits lead else scientific digits lead

def realText (x : Float) : String :=
  match Double.view x with
  | .nan => "nan"
  | .infinite negative => if negative then "-inf" else "inf"
  | .finite p =>
      String.ofList ((if p.negative then ['-'] else []) ++ magnitudeText (shortest p))

def intText (n : Int) : String :=
  String.ofList ((if n < 0 then ['-'] else []) ++ Nat.toDigits 10 n.natAbs)

end LineBasic.Decimal

import LineBasic.Decimal.Written

namespace LineBasic.Decimal

open Text

inductive Layout
  | fixed | exponential | general
  deriving DecidableEq, Repr

def withPoint (alternate : Bool) (whole fraction : List Char) : List Char :=
  if fraction = [] then (if alternate then whole ++ ['.'] else whole)
  else whole ++ '.' :: fraction

def fixedParts (n d places : Nat) : List Char × List Char :=
  let digits := padLeft (places + 1) '0'
    (Nat.toDigits 10 (Double.divNearest (n * Nat.pow 10 places) d))
  (digits.take (digits.length - places), digits.drop (digits.length - places))

def leadingDigits (n d places : Nat) : List Char × Int :=
  if n = 0 then (List.replicate (places + 1) '0', 0)
  else
    let lead := leadingExponent n d
    let (a, b) := scaledRatio n d (lead - places)
    let m := Double.divNearest a b
    if m = Nat.pow 10 (places + 1) then (Nat.toDigits 10 (Nat.pow 10 places), lead + 1)
    else (Nat.toDigits 10 m, lead)

def exponentialText (alternate : Bool) (digits : List Char) (lead : Int) : List Char :=
  withPoint alternate (digits.take 1) (digits.drop 1) ++ 'e' :: exponentText lead

def dropZeros (s : List Char) : List Char := (s.reverse.dropWhile (· == '0')).reverse

def generalText (alternate : Bool) (n d precision : Nat) : List Char :=
  let precision := max precision 1
  let keep (s : List Char) := if alternate then s else dropZeros s
  let (digits, lead) := leadingDigits n d (precision - 1)
  if -4 ≤ lead ∧ lead < precision then
    let (whole, fraction) := fixedParts n d (precision - 1 - lead).toNat
    withPoint alternate whole (keep fraction)
  else exponentialText alternate (digits.take 1 ++ keep (digits.drop 1)) lead

def formatted (form : Layout) (alternate : Bool) (precision : Nat) (x : Float) : List Char :=
  match Double.view x with
  | .nan => "nan".toList
  | .infinite negative => (if negative then "-inf" else "inf").toList
  | .finite p =>
      let (n, d) := p.ratio
      let magnitude := match form with
        | .fixed =>
            let (whole, fraction) := fixedParts n d precision
            withPoint alternate whole fraction
        | .exponential =>
            let (digits, lead) := leadingDigits n d precision
            exponentialText alternate digits lead
        | .general => generalText alternate n d precision
      (if p.negative then ['-'] else []) ++ magnitude

end LineBasic.Decimal

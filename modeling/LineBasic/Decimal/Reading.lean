import LineBasic.Double.Parts
import LineBasic.Fault
import LineBasic.Text.Case
import LineBasic.Text.Quoted
import LineBasic.Text.Ranges

namespace LineBasic.Decimal

open Text

/-- Digits of any script become ASCII digits, white space beyond ASCII becomes a blank. -/
def plainChar (c : Char) : Char :=
  if c.toNat < 127 then c
  else if isBlank c then ' '
  else match decimalValue? c with
    | some d => Char.ofNat (48 + d)
    | none => '?'

def isSpace (c : Char) : Bool := c == ' ' || (9 ≤ c.toNat && c.toNat ≤ 13)

def isPlainDigit (c : Char) : Bool := '0' ≤ c && c ≤ '9'

def stripSpaces (s : List Char) : List Char :=
  ((s.dropWhile isSpace).reverse.dropWhile isSpace).reverse

def natOfDigits (s : List Char) : Nat := s.foldl (fun n c => 10 * n + (c.toNat - 48)) 0

def takeSign : List Char → Bool × List Char
  | '-' :: s => (true, s)
  | '+' :: s => (false, s)
  | s => (false, s)

def underscoresFit : List Char → Bool
  | [] => true
  | '_' :: _ => false
  | c :: '_' :: d :: s => isPlainDigit c && isPlainDigit d && underscoresFit (d :: s)
  | [_, '_'] => false
  | _ :: s => underscoresFit s

def dropUnderscores (s : List Char) : List Char := s.filter (· != '_')

/-- At most this many digits are read into an integer or written for one. -/
def digitLimit : Nat := 4300

/-- The integer that a text denotes: a sign, then digits with single underscores between them,
white space around. -/
def readInt (s : List Char) : Except Fault Int :=
  let bad : Fault := .badInteger (String.ofList ((quoted s).take 200))
  let (negative, body) := takeSign ((s.map plainChar).dropWhile isSpace)
  let run := body.takeWhile fun c => isPlainDigit c || c == '_'
  let digits := dropUnderscores run
  if digits = [] ∨ !underscoresFit run then throw bad
  else if digitLimit < digits.length then throw (.digitsFromText digits.length)
  else if (body.drop run.length).all isSpace then
    let n : Int := natOfDigits digits
    pure (if negative then -n else n)
  else throw bad

def ofDecimal (negative : Bool) (digits : Nat) (exponent : Int) : Float :=
  let lead := exponent + (Nat.toDigits 10 digits).length
  if digits = 0 ∨ lead < -400 then Double.zero negative
  else if 400 < lead then Double.infinity negative
  else Double.ofRatio negative (digits * Nat.pow 10 exponent.toNat) (Nat.pow 10 (-exponent).toNat)

def readExponent? : List Char → Option Int
  | [] => some 0
  | c :: s =>
      if c == 'e' || c == 'E' then
        let (negative, digits) := takeSign s
        if digits ≠ [] ∧ digits.all isPlainDigit then
          let n : Int := natOfDigits digits
          some (if negative then -n else n)
        else none
      else none

def readUnsigned? (negative : Bool) (s : List Char) : Option Float :=
  let whole := s.takeWhile isPlainDigit
  let (fraction, rest) := match s.dropWhile isPlainDigit with
    | '.' :: t => (t.takeWhile isPlainDigit, t.dropWhile isPlainDigit)
    | t => ([], t)
  if whole = [] ∧ fraction = [] then
    let word := lower s
    if word = "inf".toList ∨ word = "infinity".toList then some (Double.infinity negative)
    else if word = "nan".toList then some Double.nan
    else none
  else do
    let e ← readExponent? rest
    some (ofDecimal negative (natOfDigits (whole ++ fraction)) (e - fraction.length))

def readReal? (s : List Char) : Option Float :=
  let body := stripSpaces (s.map plainChar)
  if underscoresFit body then
    let (negative, rest) := takeSign (dropUnderscores body)
    readUnsigned? negative rest
  else none

end LineBasic.Decimal

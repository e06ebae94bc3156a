import LineBasic.Decimal.Fixed
import LineBasic.Value
import LineBasic.Value.Arith

namespace LineBasic.Value

open Decimal

structure Spec where
  left : Bool := false
  plus : Bool := false
  blank : Bool := false
  alternate : Bool := false
  zero : Bool := false
  width : Nat := 0
  precision : Option Nat := none

namespace Spec

def flag? (spec : Spec) : Char → Option Spec
  | '-' => some { spec with left := true }
  | '+' => some { spec with plus := true }
  | ' ' => some { spec with blank := true }
  | '#' => some { spec with alternate := true }
  | '0' => some { spec with zero := true }
  | _ => none

def readFlags (spec : Spec) : List Char → Spec × List Char
  | [] => (spec, [])
  | c :: s =>
      match spec.flag? c with
      | some spec => readFlags spec s
      | none => (spec, c :: s)

end Spec

def takeArgument (argument : Option Value) : Except Fault Value :=
  match argument with
  | some v => pure v
  | none => throw .formatArguments

def starValue (v : Value) : Except Fault Int :=
  match v.integer? with
  | some n => pure n
  | none => throw .formatStar

def readWidth (spec : Spec) (argument : Option Value) (s : List Char) :
    Except Fault (Spec × Option Value × List Char) :=
  match s with
  | '*' :: s => do
      let n ← starValue (← takeArgument argument)
      if Nat.pow 2 63 ≤ n ∨ n < -Nat.pow 2 63 then throw .indexCode
      pure ({ spec with width := n.natAbs, left := spec.left || n < 0 }, none, s)
  | s =>
      let n := natOfDigits (s.takeWhile isPlainDigit)
      if Nat.pow 2 63 ≤ n then throw .widthTooBig
      else pure ({ spec with width := n }, argument, s.dropWhile isPlainDigit)

def readPrecision (spec : Spec) (argument : Option Value) (s : List Char) :
    Except Fault (Spec × Option Value × List Char) :=
  match s with
  | '.' :: '*' :: s => do
      let n ← starValue (← takeArgument argument)
      if Nat.pow 2 31 ≤ n ∨ n < -Nat.pow 2 31 then throw .characterCode
      pure ({ spec with precision := some n.toNat }, none, s)
  | '.' :: s =>
      let n := natOfDigits (s.takeWhile isPlainDigit)
      if Nat.pow 2 31 ≤ n then throw .precisionTooBig
      else pure ({ spec with precision := some n }, argument, s.dropWhile isPlainDigit)
  | s => pure (spec, argument, s)

def skipLength : List Char → List Char
  | 'h' :: s => s
  | 'l' :: s => s
  | 'L' :: s => s
  | s => s

structure Piece where
  sign : List Char
  mark : List Char
  body : List Char
  numeric : Bool

def Piece.fill (p : Piece) (spec : Spec) : List Char :=
  let room := spec.width - (p.sign.length + p.mark.length + p.body.length)
  if spec.left then p.sign ++ p.mark ++ p.body ++ List.replicate room ' '
  else if spec.zero && p.numeric then p.sign ++ p.mark ++ List.replicate room '0' ++ p.body
  else List.replicate room ' ' ++ p.sign ++ p.mark ++ p.body

def signFor (spec : Spec) (negative : Bool) : List Char :=
  if negative then ['-'] else if spec.plus then ['+'] else if spec.blank then [' '] else []

def plainPiece (spec : Spec) (s : List Char) : Piece :=
  ⟨[], [], (match spec.precision with | some n => s.take n | none => s), false⟩

def charPiece (v : Value) : Except Fault Piece :=
  match v with
  | text s => if s.length = 1 then pure ⟨[], [], s.toList, false⟩ else throw .formatCharNeeded
  | real _ => throw .formatCharNeeded
  | v =>
      let n := v.integer?.getD 0
      if n < 0 ∨ 0x10FFFF < n ∨ !(n.toNat.isValidChar) then throw .formatCharRange
      else pure ⟨[], [], [Char.ofNat n.toNat], false⟩

def integerPiece (spec : Spec) (negative : Bool) (mark digits : List Char) :
    Except Fault Piece :=
  if Nat.pow 2 31 - 4 < spec.precision.getD 0 then throw .precisionTooLarge
  else pure ⟨signFor spec negative, if spec.alternate then mark else [],
    Text.padLeft (spec.precision.getD 0) '0' digits, true⟩

def decimalPiece (spec : Spec) (conversion : Char) (v : Value) : Except Fault Piece := do
  let n ← match v with
    | text _ => throw (.formatReal conversion v.kind)
    | real x => truncateReal x
    | v => pure (v.integer?.getD 0)
  if n.natAbs < tooWide then integerPiece spec (n < 0) [] (Nat.toDigits 10 n.natAbs)
  else throw .digitsToText

/-- The lowest `2 ^ k` digits of a number in a base, in front of others. Each half is written by
itself, so that long numbers are cut few times. -/
def writeDigits (base : Nat) : Nat → Nat → List Char → List Char
  | 0, n, rest => Nat.digitChar (n % base) :: rest
  | k + 1, n, rest =>
      let unit := Nat.pow base (Nat.pow 2 k)
      writeDigits base k (n / unit) (writeDigits base k (n % unit) rest)

def digitsIn (base n : Nat) : List Char :=
  match (writeDigits base (n.log2.log2 + 1) n []).dropWhile (· == '0') with
  | [] => ['0']
  | ds => ds

def basedPiece (spec : Spec) (conversion : Char) (v : Value) : Except Fault Piece :=
  match v.integer? with
  | none => throw (.formatInteger conversion v.kind)
  | some n =>
      let digits := digitsIn (if conversion = 'o' then 8 else 16) n.natAbs
      integerPiece spec (n < 0) ['0', conversion]
        (if conversion = 'X' then digits.map Char.toUpper else digits)

def realPiece (spec : Spec) (conversion : Char) (v : Value) : Except Fault Piece := do
  let x ← v.toReal
  let form := match conversion.toLower with
    | 'f' => Layout.fixed
    | 'e' => Layout.exponential
    | _ => Layout.general
  let s := formatted form spec.alternate (spec.precision.getD 6) x
  let s := if conversion.isUpper then s.map Char.toUpper else s
  match s with
  | '-' :: body => pure ⟨signFor spec true, [], body, true⟩
  | body => pure ⟨signFor spec false, [], body, true⟩

def convert (spec : Spec) (conversion : Char) (index : Nat) (v : Value) : Except Fault Piece :=
  match conversion with
  | 's' => return plainPiece spec (← v.written).toList
  | 'r' => return plainPiece spec (← v.quoted).toList
  | 'a' => return plainPiece spec (Text.asciiOnly (← v.quoted).toList)
  | 'c' => charPiece v
  | 'd' | 'i' | 'u' => decimalPiece spec conversion v
  | 'o' | 'x' | 'X' => basedPiece spec conversion v
  | 'e' | 'E' | 'f' | 'F' | 'g' | 'G' => realPiece spec conversion v
  | c =>
      throw (.formatCharacter (if 31 ≤ c.toNat ∧ c.toNat ≤ 126 then c else '?')
        (String.ofList (Text.hexDigits c.toNat)) index)

/-- The conversion after a percent sign: what it gives, what is left of the argument and of the
format. `size` is the length of the whole format. -/
def formatOne (size : Nat) (argument : Option Value) (s : List Char) :
    Except Fault (List Char × Option Value × List Char) :=
  match s with
  | [] => throw .formatEnds
  | '%' :: s => pure (['%'], argument, s)
  | '(' :: _ => throw .formatMapping
  | s => do
      let (spec, s) := Spec.readFlags {} s
      let (spec, argument, s) ← readWidth spec argument s
      let (spec, argument, s) ← readPrecision spec argument s
      match skipLength s with
      | [] => throw .formatEnds
      | c :: s => do
          let v ← takeArgument argument
          let piece ← convert spec c (size - s.length - 1) v
          if memoryLimit < spec.width then throw .outOfMemory
          pure (piece.fill spec, none, s)

def formatFrom (size : Nat) : Nat → Option Value → List Char → Except Fault (List Char)
  | 0, _, _ => pure []
  | _, argument, [] => if argument.isSome then throw .formatLeftover else pure []
  | fuel + 1, argument, c :: s =>
      if c = '%' then do
        let (out, argument, s) ← formatOne size argument s
        let rest ← formatFrom size fuel argument s
        pure (out ++ rest)
      else do
        let rest ← formatFrom size fuel argument s
        pure (c :: rest)

def format (fmt : String) (v : Value) : Except Fault Value := do
  let s := fmt.toList
  let out ← formatFrom s.length (s.length + 1) (some v) s
  pure (text (String.ofList out))

def percent (l r : Value) : Except Fault Value :=
  match l with
  | text s => format s r
  | l => modulo l r

end LineBasic.Value

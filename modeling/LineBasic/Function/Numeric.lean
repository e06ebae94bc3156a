import LineBasic.Decimal.Reading
import LineBasic.Value.Order

namespace LineBasic.Function

open Value

def piValue : Float := Double.ofWord false 0x400921FB54442D18

/-- A function on reals. A result that is no number, for an argument that is one, shows an
argument outside the domain. -/
def onReal (name line : String) (f : Float → Float) (v : Value) : Except Fault Value := do
  let x ← v.toReal
  let y := f x
  if Double.isNan y && !Double.isNan x then throw (.badArgument name line)
  else if Double.isInfinite y && Double.isFinite x then throw .mathRange
  else pure (real y)

def squareRoot (line : String) : Value → Except Fault Value := onReal "SQR" line Float.sqrt

def arctangent (line : String) : Value → Except Fault Value := onReal "ATN" line Float.atan

def cosine (line : String) : Value → Except Fault Value := onReal "COS" line Float.cos

def sine (line : String) : Value → Except Fault Value := onReal "SIN" line Float.sin

def tangent (line : String) : Value → Except Fault Value := onReal "TAN" line Float.tan

def exponential (line : String) : Value → Except Fault Value := onReal "EXP" line Float.exp

/-- An integer too large for a real is split into a fraction and a power of two. -/
def logarithmOfInteger (n : Nat) : Float :=
  let x := Double.ofInt n
  if Double.isInfinite x then
    let fraction := Double.ofRatio false n (Nat.pow 2 (n.log2 + 1))
    let (fraction, power) :=
      if fraction == 1 then (Double.ofRatio false 1 2, n.log2 + 2) else (fraction, n.log2 + 1)
    Float.log fraction + Float.log 2 * Double.ofInt power
  else Float.log x

def logarithm (line : String) (v : Value) : Except Fault Value :=
  match v.integer? with
  | some n =>
      if n ≤ 0 then throw (.badArgument "LOG" line) else pure (real (logarithmOfInteger n.toNat))
  | none => do
      let x ← v.toReal
      if x ≤ 0 then throw (.badArgument "LOG" line) else pure (real (Float.log x))

def power (line : String) (base exponent : Value) : Except Fault Value := do
  let x ← base.toReal
  let y ← exponent.toReal
  let z := Float.pow x y
  if Double.isFinite x && Double.isFinite y && !Double.isFinite z then
    if Double.isNan z || x == 0 then throw (.badArgument "POW" line) else throw .mathRange
  else pure (real z)

def magnitude : Value → Except Fault Value
  | text _ => throw (.absolute "str")
  | real x => pure (real x.abs)
  | v => pure (int ((v.integer?.getD 0).natAbs))

def floor (line : String) : Value → Except Fault Value
  | text _ => throw (.realNeeded "str")
  | real x =>
      match Double.view x with
      | .finite p => pure (int p.floor)
      | .infinite _ => throw .infinityToInteger
      | .nan => throw (.badArgument "INT" line)
  | v => pure (int (v.integer?.getD 0))

def round (line : String) : Value → Except Fault Value
  | text _ => throw (.badArgumentKind "LEN" line)
  | real x =>
      match Double.view x with
      | .finite p => pure (int p.round)
      | .infinite _ => throw .infinityToInteger
      | .nan => throw .nanToInteger
  | v => pure (int (v.integer?.getD 0))

def wholeOrReal (x : Float) : Value :=
  match Double.view x with
  | .finite p => if p.isIntegral then int p.truncate else real x
  | _ => real x

def numberOf (v : Value) : Except Fault Value :=
  match v with
  | text s =>
      match Decimal.readReal? s.toList with
      | some x => pure (wholeOrReal x)
      | none => pure (int 0)
  | v => do
      let x ← v.toReal
      pure (wholeOrReal x)

def extreme (name sequence line : String) (rel : Relation) (vs : List Value) :
    Except Fault Value :=
  match vs with
  | [text s] =>
      match s.toList.map (fun c => text c.toString) with
      | [] => throw (.emptySequence sequence)
      | c :: cs => best rel c cs
  | v :: w :: ws =>
      match best rel v (w :: ws) with
      | .ok b => pure b
      | .error _ => throw (.badArgumentKind name line)
  | _ => throw (.badArgumentKind name line)

def wholeBound (line : String) (v : Value) : Except Fault Int :=
  match v with
  | text _ => throw (.badArgument "RNDINT" line)
  | real x =>
      match Double.view x with
      | .finite p =>
          if p.isIntegral then pure p.truncate else throw (.badArgument "RNDINT" line)
      | .infinite _ => throw .infinityToInteger
      | .nan => throw (.badArgument "RNDINT" line)
  | v => pure (v.integer?.getD 0)

end LineBasic.Function

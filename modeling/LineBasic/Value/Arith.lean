import LineBasic.Double.Parts
import LineBasic.Fault
import LineBasic.Value

namespace LineBasic.Value

/-- A truth value counts as 0 or 1. -/
def integer? : Value → Option Int
  | int n => some n
  | truth b => some (ofBool b)
  | _ => none

def toReal : Value → Except Fault Float
  | int n =>
      let x := Double.ofInt n
      if Double.isInfinite x then throw .integerTooLarge else pure x
  | truth b => pure (Double.ofInt (ofBool b))
  | real x => pure x
  | text _ => throw (.realNeeded "str")

def truncateReal (x : Float) : Except Fault Int :=
  match Double.view x with
  | .finite p => pure p.truncate
  | .infinite _ => throw .infinityToInteger
  | .nan => throw .nanToInteger

def arithmetic (symbol : String) (onIntegers : Int → Int → Except Fault Value)
    (onReals : Float → Float → Except Fault Float) (l r : Value) : Except Fault Value :=
  match l.integer?, r.integer? with
  | some a, some b => onIntegers a b
  | _, _ =>
      if l.isText || r.isText then throw (.operands symbol l.kind r.kind)
      else do
        let x ← l.toReal
        let y ← r.toReal
        let z ← onReals x y
        pure (real z)

def add (l r : Value) : Except Fault Value :=
  match l, r with
  | text a, text b => pure (text (a ++ b))
  | text _, _ => throw (.concatenation r.kind)
  | _, _ => arithmetic "+" (fun a b => pure (int (a + b))) (fun x y => pure (x + y)) l r

def sub : Value → Value → Except Fault Value :=
  arithmetic "-" (fun a b => pure (int (a - b))) (fun x y => pure (x - y))

/-- Texts longer than this do not fit: the host has no more memory than that. -/
def memoryLimit : Nat := Nat.pow 2 32

def repeated (s : String) (n : Int) : Except Fault Value :=
  if Nat.pow 2 63 ≤ n ∨ n < -Nat.pow 2 63 then throw .repeatTooOften
  else if n ≤ 0 ∨ s = "" then pure (text "")
  else if Nat.pow 2 63 ≤ s.length * n then throw .repeatTooLong
  else if memoryLimit < s.length * n.toNat then throw .outOfMemory
  else pure (text (String.join (List.replicate n.toNat s)))

def mul (l r : Value) : Except Fault Value :=
  match l, r with
  | text s, _ =>
      match r.integer? with
      | some n => repeated s n
      | none => throw (.repetition r.kind)
  | _, text s =>
      match l.integer? with
      | some n => repeated s n
      | none => throw (.repetition l.kind)
  | _, _ => arithmetic "*" (fun a b => pure (int (a * b))) (fun x y => pure (x * y)) l r

def quotient (a b : Int) : Except Fault Value :=
  if b = 0 then throw .divisionByZero
  else
    let x := Double.ofRatio (decide (a < 0) != decide (b < 0)) a.natAbs b.natAbs
    if Double.isInfinite x then throw .quotientTooLarge else pure (real x)

def div : Value → Value → Except Fault Value :=
  arithmetic "/" quotient fun x y => if y == 0 then throw .realDivisionByZero else pure (x / y)

def modulo : Value → Value → Except Fault Value :=
  arithmetic "%" (fun a b => if b = 0 then throw .moduloByZero else pure (int (a.fmod b)))
    fun x y => if y == 0 then throw .realModuloByZero else pure (Double.modulo x y)

def neg : Value → Except Fault Value
  | int n => pure (int (-n))
  | real x => pure (real (-x))
  | truth b => pure (int (-ofBool b))
  | text _ => throw (.negation "str")

/-- A value under the sign in front of it. A text under a minus vanishes. -/
def signed (negative : Bool) : Value → Value
  | int n => int (if negative then -n else n)
  | real x => real (if negative then -x else x)
  | truth b => int (if negative then -ofBool b else ofBool b)
  | text s => text (if negative then "" else s)

end LineBasic.Value

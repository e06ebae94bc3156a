import LineBasic.Text.Case
import LineBasic.Value.Order

namespace LineBasic

namespace Text

/-- A position as counted from the start: a negative one counts from the end. All positions
outside are moved to the nearer end. -/
def position (length : Nat) (i : Int) : Nat :=
  if i < 0 then (i + length).toNat else min i.toNat length

def slice (s : List Char) (start stop : Int) : List Char :=
  (s.take (position s.length stop)).drop (position s.length start)

def indexFrom? (needle : List Char) (i : Nat) : List Char → Option Nat
  | [] => if needle.isEmpty then some i else none
  | c :: s =>
      if needle.isPrefixOf (c :: s) then some i else indexFrom? needle (i + 1) s

def find? (s needle : List Char) (start stop : Int) : Option Nat :=
  let first := if start < 0 then (start + s.length).toNat else start.toNat
  let last := position s.length stop
  if last < first then none else indexFrom? needle first ((s.take last).drop first)

end Text

namespace Function

open Value

def ofChars (s : List Char) : Value := text (String.ofList s)

/-- The character of a code. The codes of surrogates, which are no characters, have none. -/
def character (line : String) (v : Value) : Except Fault Value :=
  match v.integer? with
  | none => throw (.badArgumentKind "CHR$" line)
  | some n =>
      if n < -Nat.pow 2 31 ∨ Nat.pow 2 31 ≤ n then throw .characterCode
      else if 0 ≤ n ∧ n.toNat.isValidChar then pure (ofChars [Char.ofNat n.toNat])
      else throw (.badArgument "CHR$" line)

def codeOf (line : String) : Value → Except Fault Value
  | text s =>
      match s.toList with
      | [c] => pure (int c.toNat)
      | _ => throw (.badArgumentKind "ASC" line)
  | _ => throw (.badArgumentKind "ASC" line)

def length (line : String) : Value → Except Fault Value
  | text s => pure (int s.length)
  | _ => throw (.badArgumentKind "LEN" line)

def upperCase (line : String) : Value → Except Fault Value
  | text s => pure (ofChars (Text.upper s.toList))
  | _ => throw (.badArgumentKind "UPPER$" line)

def lowerCase (line : String) : Value → Except Fault Value
  | text s => pure (ofChars (Text.lower s.toList))
  | _ => throw (.badArgumentKind "LOWER$" line)

def blanks (line : String) (v : Value) : Except Fault Value :=
  match v.integer? with
  | some n => repeated " " n
  | none => throw (.badArgumentKind "TAB" line)

/-- The first characters. A negative count leaves off as many at the end. -/
def leftPart (line : String) (s count : Value) : Except Fault Value :=
  match s, count.integer? with
  | text s, some n => pure (ofChars (Text.slice s.toList 0 n))
  | _, _ => throw (.badArgumentKind "LEFT$" line)

/-- The last characters. A count of zero gives all of them. -/
def rightPart (line : String) (s count : Value) : Except Fault Value :=
  match s, count.integer? with
  | text s, some n => pure (ofChars (Text.slice s.toList (-n) s.length))
  | _, _ => throw (.badArgumentKind "RIGHT$" line)

/-- Characters from `start`, counted from zero. A count that is zero, or none, gives the rest. -/
def middlePart (line : String) (s start : Value) (count : Option Value) : Except Fault Value :=
  let bad : Fault := .badArgumentKind "MID$" line
  match count.filter Value.holds with
  | none =>
      match s, start.integer? with
      | text s, some i => pure (ofChars (Text.slice s.toList i s.length))
      | _, _ => throw bad
  | some n =>
      match Value.add start n with
      | .error f => throw (if f.kind = .type then bad else f)
      | .ok stop =>
          match s, start.integer?, stop.integer? with
          | text s, some i, some j => pure (ofChars (Text.slice s.toList i j))
          | _, _, _ => throw bad

def placeOf (line : String) (s : String) (needle : Value) (start stop : Option Value) :
    Except Fault Value :=
  match needle, (start.getD (int 0)).integer?, (stop.getD (int s.length)).integer? with
  | text t, some i, some j =>
      match Text.find? s.toList t.toList i j with
      | some k => pure (int (k + 1))
      | none => pure (int 0)
  | _, _, _ => throw (.badArgumentKind "INSTR" line)

end Function

end LineBasic

import LineBasic.Assoc
import LineBasic.Token
import LineBasic.Value
import LineBasic.Value.Order

namespace LineBasic

/-- The DATA lines, and the line that was read last. Zero stands for none. -/
structure DataStore where
  ledger : Ledger (List Token)
  pointer : Int

inductive LineKey
  | number (n : Int)
  | sequence
  | mapping

namespace DataStore

def empty : DataStore := ⟨[], 0⟩

def lines (d : DataStore) : Lines (List Token) := d.ledger.sorted

def add (d : DataStore) (n : Int) (tokens : List Token) : DataStore :=
  { d with ledger := d.ledger.put n tokens }

def addAt (d : DataStore) (key : LineKey) (tokens : List Token) : Except Fault DataStore :=
  match key with
  | .number n => pure (d.add n tokens)
  | .sequence => throw (.unhashable "list")
  | .mapping => throw (.unhashable "dict")

def remove (d : DataStore) (n : Int) : DataStore := { d with ledger := d.ledger.erase n }

def tokens? (d : DataStore) (n : Int) : Option (List Token) := d.ledger.get? n

def isForeign (c : Char) : Bool := 128 ≤ c.toNat

def hasLeadingZeros (s : List Char) : Bool :=
  s.head? == some '0' && s.any (· != '0') && !s.contains '.'

/-- A real as it stands in a DATA line. Its digits have to be ASCII digits. Those before a foreign
one are taken for a whole number if no point is among them. -/
def literal (s : List Char) : Except Fault Float :=
  match s.find? isForeign with
  | some c =>
      if hasLeadingZeros (s.takeWhile fun c => !isForeign c) then throw .leadingZeros
      else throw (.foreignDigit (String.ofList (Text.quoted [c]))
        (String.ofList ((Text.padLeft 4 '0' (Text.hexDigits c.toNat)).map Char.toUpper)))
  | none =>
      match Decimal.readReal? s with
      | some x => pure x
      | none => throw (.badReal (String.ofList (Text.quoted s)))

/-- The values among the tokens. A minus holds until the next comma. -/
def values : Bool → List Token → Except Fault (List Value)
  | _, [] => pure []
  | negative, t :: ts =>
      match t.category with
      | some (.mark .comma) => values false ts
      | some (.mark .minus) => values true ts
      | some .text => do
          let vs ← values negative ts
          pure (.text t.lexeme :: vs)
      | some .integer => do
          let n ← Decimal.readInt t.lexeme.toList
          let vs ← values negative ts
          pure ((Value.int n).signed negative :: vs)
      | some .decimal => do
          let x ← literal t.lexeme.toList
          let vs ← values negative ts
          pure ((Value.real x).signed negative :: vs)
      | _ => values negative ts

def after? : Lines (List Token) → Int → Option (Option Int)
  | [], _ => none
  | (m, _) :: ls, n => if m = n then some (Lines.numbers ls).head? else after? ls n

def nextLine (d : DataStore) (line : String) : Except Fault Int :=
  match d.lines with
  | [] => throw (.noData line)
  | (first, _) :: _ =>
      if d.pointer = 0 then pure first
      else match after? d.lines d.pointer with
        | none => throw (.lostPointer (Decimal.intText d.pointer))
        | some none => throw (.noData line)
        | some (some n) => pure n

def read (line : String) : EStateM Fault DataStore (List Value) := fun d =>
  match d.nextLine line with
  | .error f => .error f d
  | .ok n =>
      match values false ((d.tokens? n).getD []).tail with
      | .error f => .error f { d with pointer := n }
      | .ok vs => .ok vs { d with pointer := n }

def before (previous : Int) : Lines (List Token) → Int → Option Int
  | [], _ => none
  | (m, _) :: ls, n => if m = n then some previous else before m ls n

def lineOf? (ls : List Int) (v : Value) : Option Int := ls.find? fun n => v.same (.int n)

/-- Makes the given line the next one; zero means the first. -/
def restore (d : DataStore) (target : Value) : Except Fault DataStore :=
  if target.isZero then pure { d with pointer := 0 }
  else match lineOf? d.lines.numbers target with
    | some n => pure { d with pointer := (before 0 d.lines n).getD 0 }
    | none => do throw (.noDataAt (← target.written))

def restoreFrom (d : DataStore) (target : Option Value) : Except Fault DataStore :=
  match target with
  | some v => d.restore v
  | none => do throw (.noDataAt (← Value.writtenIf none))

end DataStore

end LineBasic

import LineBasic.Statement
import LineBasic.Token.Lexer

namespace LineBasic

/-- A stored program and the machine it runs on. `returns` are the lines to come back to, the
latest first; they outlast a run. `next` is the line at which the program stands. -/
structure Program where
  ledger : Ledger (List Token)
  returns : List Int
  next : Value
  machine : Machine

namespace Program

def fresh (machine : Machine) : Program := ⟨[], [], .int 0, machine⟩

def lines (p : Program) : Lines (List Token) := p.ledger.sorted

def numbers (p : Program) : List Int := p.lines.numbers

/-- Stores a statement under its line number, the first token. The values of a DATA statement go
to the DATA store, and the program keeps only the keyword. -/
def add (p : Program) (tokens : List Token) : Except Fault Program :=
  match tokens with
  | [] => throw .emptyStatement
  | number :: body => do
      let n ← Decimal.readInt number.lexeme.toList
      match body with
      | [] => throw .emptyStatement
      | first :: _ =>
          if first.lexeme = "DATA" then
            pure { p with
              ledger := p.ledger.put n [first]
              machine := { p.machine.forget n with data := p.machine.data.add n body } }
          else pure { p with ledger := p.ledger.put n body, machine := p.machine.forget n }

def withdraw (n : Int) : EStateM Fault Program Unit := fun p =>
  let p := { p with machine := { p.machine with data := p.machine.data.remove n } }
  match p.ledger.get? n with
  | none => .error .noSuchLine p
  | some _ => .ok () { p with ledger := p.ledger.erase n, machine := p.machine.forget n }

def remove (p : Program) (n : Int) : Except Fault Program :=
  match withdraw n p with
  | .ok _ p => pure p
  | .error f _ => throw f

def clear (p : Program) : Program :=
  { p with ledger := [], machine := { p.machine with data := DataStore.empty, compared := [] } }

def shownTokens (p : Program) (n : Int) (tokens : List Token) : List Token :=
  match tokens with
  | t :: _ => if t.isKeyword .DATA then (p.machine.data.tokens? n).getD [] else tokens
  | [] => []

def lineText (p : Program) (n : Int) (tokens : List Token) : String :=
  Decimal.intText n ++ " " ++ String.join ((p.shownTokens n tokens).map Token.listed)

def listLine (p : Program) (n : Int) : Except Fault String := do
  let number ← (Value.int n).written
  match p.ledger.get? n with
  | none => throw (.noListedLine number)
  | some [] => throw .emptyStatement
  | some (t :: ts) =>
      if t.isKeyword .DATA ∧ (p.machine.data.tokens? n).isNone then throw .noEntry
      else pure (p.lineText n (t :: ts))

def listAll (p : Program) : Except Fault String := do
  let texts ← p.numbers.mapM p.listLine
  pure (String.join (texts.map (· ++ "\n")))

def text (p : Program) : String :=
  String.join (p.lines.map fun (n, tokens) => p.lineText n tokens ++ "\n")

def onDisk (p : Program) (d : Disk) : Program := { p with machine := { p.machine with disk := d } }

def filePath (path : String) : String :=
  if ".bas".toList.isSuffixOf (Text.lower path.toList) then path else path ++ ".bas"

def save (p : Program) (path : String) : Except Fault Program :=
  match p.machine.disk.resolve? (filePath path) with
  | none => throw (if Disk.hasNull path then .nullInPath else .cannotSave)
  | some plain => pure (p.onDisk (p.machine.disk.write plain (Text.encode p.text.toList)))

def addText (p : Program) (text : List Char) : Except Fault Program := do
  p.add (← Token.scanAll 0 text)

/-- Adds the lines of a file, at most `n`. What was added before a fault stays. -/
def loadLines : Nat → Channel → Program → Option Fault × Program
  | 0, _, p => (none, p)
  | n + 1, c, p =>
      match Channel.readLine (c, p.machine.disk) with
      | .error f _ => (some f, p)
      | .ok [] _ => (none, p)
      | .ok line (c, _) =>
          match p.addText (Text.trim (line.filter fun ch => ch != '\n' && ch != '\r')) with
          | .error f => (some f, p)
          | .ok p => loadLines n c p

/-- Takes the program of a file in place of the old one, which is lost in any case. -/
def load (p : Program) (path : String) : Option Fault × Program :=
  let p := p.clear
  match Channel.open? p.machine.disk (filePath path) .input with
  | none => (some (if Disk.hasNull path then .nullInPath else .cannotRead), p)
  | some (c, _) =>
      loadLines (((p.machine.disk.read? c.path).getD []).length + 1) c p

end Program

end LineBasic

import LineBasic.Program
import LineBasic.Program.Run

namespace LineBasic

namespace Session

abbrev Command := EStateM Fault Program

inductive Answer
  | goOn
  | leave
  deriving DecidableEq

def onTerminal {α : Type} (act : Terminal.Act α) : Command α := fun p =>
  match act p.machine.terminal with
  | .ok a t => .ok a { p with machine := { p.machine with terminal := t } }
  | .error f t => .error f { p with machine := { p.machine with terminal := t } }

def print (s : String) : Command Unit := onTerminal (Terminal.print s)

def change (f : Program → Except Fault Program) : Command Unit := fun p =>
  match f p with
  | .ok p => .ok () p
  | .error f => .error f p

def ofExcept {α : Type} : Except Fault α → Command α
  | .ok a => pure a
  | .error f => throw f

def number (t : Token) : Command Int := ofExcept (Decimal.readInt t.lexeme.toList)

def run : Command Unit := fun p =>
  match p.run with
  | (.finished, p) => .ok () p
  | (.failed .interrupted, p) => print "Program terminated" p
  | (.failed f, p) => .error f p
  | (.unfinished, p) => print "Program terminated" p

/-- The bounds of a listing as they were asked for. Zero counts as no bound. -/
def listRange : List Token → Command (Option Int × Option Int)
  | [a] => do
      let n ← number a
      pure (some n, some n)
  | [a, b] =>
      if a.lexeme = "-" then return (none, some (← number b))
      else if b.lexeme = "-" then return (some (← number a), none)
      else do
        let n ← number a
        let m ← number b
        pure (some n, some m)
  | [a, _, b] => do
      let n ← number a
      let m ← number b
      pure (some n, some m)
  | _ => pure (none, none)

def orElseBound (bound : Option Int) (other : Int) : Int :=
  match bound with
  | some n => if n = 0 then other else n
  | none => other

def list (first last : Option Int) : Command Unit := do
  let p ← get
  match p.numbers.head?, p.numbers.getLast? with
  | some low, some high =>
      let low := orElseBound first low
      let high := orElseBound last high
      (p.numbers.filter fun n => low ≤ n && n ≤ high).forM fun n => do
        print (← ofExcept (p.listLine n))
  | _, _ => pure ()

def programPath (tokens : List Token) : Command String :=
  match tokens with
  | [] => throw .emptyStatement
  | t :: _ => pure (if t.lexeme.contains '/' then t.lexeme else "BAS/" ++ t.lexeme)

def load (path : String) : Command Unit := fun p =>
  match p.load path with
  | (none, p) => .ok () p
  | (some f, p) => .error f p

def renew (p : Program) : Program :=
  let m := p.machine
  Program.fresh
    { m with
      symbols := []
      pending := []
      data := DataStore.empty
      channels := []
      disk := m.channels.flushAll m.disk
      lastFlow := none
      compared := [] }

def unrecognised (tokens : List Token) : Command Unit := do
  print "Unrecognised input"
  tokens.forM fun t => print t.lexeme

def perform (first : Token) (rest : List Token) : Command Answer := do
  match first.category with
  | some (.keyword .EXIT) => pure .leave
  | some .integer =>
      if rest.isEmpty then
        let n ← number first
        Program.withdraw n
      else change (·.add (first :: rest))
      pure .goOn
  | some (.keyword .RUN) => do run; pure .goOn
  | some (.keyword .LIST) => do
      let (low, high) ← listRange rest
      list low high
      pure .goOn
  | some (.keyword .SAVE) => do
      let path ← programPath rest
      change (·.save path)
      print "Program written to file"
      pure .goOn
  | some (.keyword .LOAD) => do
      let path ← programPath rest
      load path
      print "Program read from file"
      pure .goOn
  | some (.keyword .NEW) => do modify renew; pure .goOn
  | some (.keyword .CLEAR) => do onTerminal Terminal.clear; pure .goOn
  | _ => do unrecognised (first :: rest); pure .goOn

def enter (line : String) : Command Answer := do
  match ← ofExcept (tokenize line) with
  | [] => pure .goOn
  | t :: ts => perform t ts

inductive Ending
  | left
  | endOfInput (f : Fault)
  | failed (f : Fault)

/-- Asks for entries and carries them out, at most `n`. A fault is shown, unless the conversation
is strict: then it ends it. -/
def converse (strict : Bool) : Nat → Program → Ending × Program
  | 0, p => (.left, p)
  | n + 1, p =>
      match (do onTerminal (Terminal.write "> "); onTerminal Terminal.input : Command String) p with
      | .error f p => (.endOfInput f, p)
      | .ok line p =>
          match enter line p with
          | .ok .leave p => (.left, p)
          | .ok .goOn p => converse strict n p
          | .error f p =>
              if strict then (.failed f, p)
              else match print f.message p with
                | .ok _ p => converse strict n p
                | .error f p => (.failed f, p)

def start (strict : Bool) (p : Program) : Ending × Program :=
  converse strict (p.machine.terminal.supply + 1) p

def banner : String :=
  "\n  ___   _   ___ ___ ___ ___ __  _ _   __\n" ++
  " | _ ) /_\\ / __|_ _/ __|_  )  \\| | | /  \\\n" ++
  " | _ \\/ _ \\\\__ \\| | (__ / / () |_  _| () |\n" ++
  " |___/_/ \\_\\___/___\\___/___\\__/  |_| \\__/\n" ++
  "              "

def welcome (strict : Bool) (p : Program) : Ending × Program :=
  match print banner p with
  | .ok _ p => start strict p
  | .error f p => (.failed f, p)

end Session

namespace ScriptTest

structure Result where
  code : Int
  program : Program

def say (s : String) (p : Program) : Program :=
  { p with machine := { p.machine with terminal := p.machine.terminal.emit (s ++ "\n") } }

def lastLine (p : Program) : String := p.machine.terminal.heldLine

def failed (f : Fault) (p : Program) : Result :=
  ⟨-1, say (lastLine p) (say "Last line output:" (say f.message p))⟩

def run (path : String) (machine : Machine) : Result :=
  match (say "+++++++++ TESTS STARTING +++++" (Program.fresh machine)).load path with
  | (some f, p) => failed f p
  | (none, p) =>
      match p.run with
      | (.finished, p) => ⟨0, say "+++++++++ TESTS COMPLETE +++++" p⟩
      | (.failed f, p) => failed f p
      | (.unfinished, p) => failed .interrupted p

end ScriptTest

end LineBasic

import LineBasic.Channel
import LineBasic.DataStore
import LineBasic.Expression
import LineBasic.Flow
import LineBasic.Terminal

namespace LineBasic

/-- Where a statement stands: the label of its line in messages, the number of the line if it is a
stored one, and how many statements of the line come after it. -/
structure Site where
  label : String
  line : Option Int
  after : Nat

instance : Coe String Site := ⟨fun label => ⟨label, none, 0⟩⟩

/-- An equals sign of a stored line: the statements after its own, and its place in that one. -/
structure Sign where
  line : Int
  after : Nat
  place : Nat
  deriving DecidableEq

def Site.signs (site : Site) (places : List Nat) : List Sign :=
  match site.line with
  | none => []
  | some n => places.map fun place => ⟨n, site.after, place⟩

/-- What the clock shows whenever it is looked at, from now on. -/
structure Clock where
  readings : Nat → Nat

namespace Clock

instance (n : Nat) : OfNat Clock n := ⟨⟨fun _ => n⟩⟩

def now (c : Clock) : Nat := c.readings 0

def later (c : Clock) : Clock := ⟨fun i => c.readings (i + 1)⟩

end Clock

/-- All that statements act on. `pending` are the values of the DATA line read last that were not
handed out yet; `clock` is what an unseeded generator starts from; `compared` are the equals signs
of stored lines that were read as comparisons. -/
structure Machine where
  symbols : Symbols
  pending : List Value
  data : DataStore
  channels : Channels
  disk : Disk
  terminal : Terminal
  generator : Generator
  lastFlow : Option Flow
  clock : Clock
  compared : List Sign

namespace Machine

def evaluated (m : Machine) (site : Site) (s : Scan) : Machine :=
  { m with
    generator := s.generator
    compared := (site.signs s.compared).foldr List.insert m.compared }

/-- A line that is stored anew has signs of its own. -/
def forget (m : Machine) (n : Int) : Machine :=
  { m with compared := m.compared.filter fun s => s.line != n }

end Machine

structure Job where
  cursor : Cursor
  machine : Machine

abbrev Exec := ReaderT Site (EStateM Fault Job)

namespace Exec

def machine : Exec Machine := return (← get).machine

def modifyMachine (f : Machine → Machine) : Exec Unit :=
  modify fun j => { j with machine := f j.machine }

def line : Exec String := return (← read).label

def ofExcept {α : Type} : Except Fault α → Exec α
  | .ok a => pure a
  | .error f => throw f

/-- Evaluates at the cursor. Only the cursor, the random numbers and the signs that count as
comparisons can change. -/
def evaluate {α : Type} (e : Eval α) : Exec α := fun site j =>
  match e ⟨j.machine.symbols, site.label⟩ ⟨j.cursor, false, j.machine.generator, []⟩ with
  | .ok a s => .ok a ⟨s.cursor, j.machine.evaluated site s⟩
  | .error f s => .error f ⟨s.cursor, j.machine.evaluated site s⟩

def onTerminal {α : Type} (act : Terminal.Act α) : Exec α := fun _ j =>
  match act j.machine.terminal with
  | .ok a t => .ok a { j with machine := { j.machine with terminal := t } }
  | .error f t => .error f { j with machine := { j.machine with terminal := t } }

def onData {α : Type} (act : EStateM Fault DataStore α) : Exec α := fun _ j =>
  match act j.machine.data with
  | .ok a d => .ok a { j with machine := { j.machine with data := d } }
  | .error f d => .error f { j with machine := { j.machine with data := d } }

def onChannel {α : Type} (number : Value) (c : Channel)
    (act : EStateM Fault (Channel × Disk) α) : Exec α := fun _ j =>
  let m := j.machine
  match act (c, m.disk) with
  | .ok a (c, d) =>
      .ok a { j with machine := { m with channels := m.channels.put number c, disk := d } }
  | .error f (c, d) =>
      .error f { j with machine := { m with channels := m.channels.put number c, disk := d } }

def current : Exec Token := return (← get).cursor.current

def lexeme : Exec String := return (← current).lexeme

def advance : Exec Unit := modify fun j => { j with cursor := j.cursor.advance }

def atEnd : Exec Bool := return (← get).cursor.atEnd

def remaining : Exec Nat := return (← get).cursor.rest.length

def isKeyword (k : Keyword) : Exec Bool := return (← current).isKeyword k

def isMark (m : Mark) : Exec Bool := return (← current).isMark m

def expect (c : Category) : Exec Unit := do
  if (← current).category = some c then advance else throw (.expecting c (← line))

def expectMark (m : Mark) : Exec Unit := expect (.mark m)

def isCompared : Exec Bool := do
  let signs := (← read).signs [(← get).cursor.place]
  return signs.any (← machine).compared.contains

def expectKeyword (k : Keyword) : Exec Unit := expect (.keyword k)

def skipKeyword (k : Keyword) : Exec Unit := do if ← isKeyword k then advance

def value : Exec Value := evaluate Eval.value

def arithmetic : Exec Value := evaluate Eval.arithmeticValue

def written (v : Value) : Exec String := ofExcept v.written

def assign (name : String) (v : Value) : Exec Unit :=
  modifyMachine fun m => { m with symbols := m.symbols.insert name v }

/-- The names between commas that follow. A list that ends in a comma never ends. -/
def moreNames : Nat → Exec (List String)
  | 0 => pure []
  | n + 1 => do
      if ← isMark .comma then
        advance
        if ← atEnd then throw .endlessNames
        let name ← lexeme
        advance
        let names ← moreNames n
        pure (name :: names)
      else pure []

def nameList : Exec (List String) := do
  let name ← lexeme
  advance
  let n ← remaining
  let names ← moreNames (n + 1)
  pure (name :: names)

def openChannel (verb : String) : Exec (Value × Channel) := do
  expectMark .hash
  let number ← arithmetic
  match (← machine).channels.get? number with
  | some c => pure (number, c)
  | none => throw (.notOpened verb (← written number) (← line))

end Exec

end LineBasic

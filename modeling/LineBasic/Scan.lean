import LineBasic.Generator
import LineBasic.Grid
import LineBasic.Token

namespace LineBasic

/-- A reading position in a statement. `rest` starts with the current token. When it runs out the
current token stays the last one, and `overrun` counts the steps beyond the end. -/
structure Cursor where
  last : Token
  rest : List Token
  overrun : Nat
  deriving DecidableEq, Repr

namespace Cursor

def start? : List Token → Option Cursor
  | [] => none
  | t :: ts => some ⟨t, t :: ts, 0⟩

def current (c : Cursor) : Token := c.rest.headD c.last

def advance (c : Cursor) : Cursor :=
  match c.rest with
  | [] => { c with overrun := c.overrun + 1 }
  | t :: ts => ⟨t, ts, c.overrun⟩

def atEnd (c : Cursor) : Bool := c.rest.isEmpty

def place (c : Cursor) : Nat := max 1 c.rest.length

theorem length_advance (c : Cursor) : c.advance.rest.length = c.rest.length - 1 := by
  unfold advance
  split <;> simp_all

end Cursor

structure Scope where
  symbols : Symbols
  line : String

/-- What the evaluation of an expression moves: the reading position, the sign in front of the
factor to come, and the random numbers. `compared` are the places of the equals signs that were
read as comparisons. -/
structure Scan where
  cursor : Cursor
  negative : Bool
  generator : Generator
  compared : List Nat

abbrev Eval := ReaderT Scope (EStateM Fault Scan)

namespace Eval

def ofExcept {α : Type} : Except Fault α → Eval α
  | .ok a => pure a
  | .error f => throw f

def current : Eval Token := return (← get).cursor.current

def category : Eval (Option Category) := return (← current).category

def advance : Eval Unit := modify fun s => { s with cursor := s.cursor.advance }

def remaining : Eval Nat := return (← get).cursor.rest.length

def atEnd : Eval Bool := return (← get).cursor.atEnd

def line : Eval String := return (← read).line

def setSign (negative : Bool) : Eval Unit := modify fun s => { s with negative := negative }

def flipSign : Eval Unit := modify fun s => { s with negative := !s.negative }

def sign : Eval Bool := return (← get).negative

def isMark (m : Mark) : Eval Bool := return (← current).isMark m

def isKeyword (k : Keyword) : Eval Bool := return (← current).isKeyword k

def noteComparison : Eval Unit :=
  modify fun s =>
    if s.cursor.current.isMark .equals then { s with compared := s.cursor.place :: s.compared }
    else s

def expect (c : Category) : Eval Unit := do
  if (← category) = some c then advance else throw (.expecting c (← line))

def expectMark (m : Mark) : Eval Unit := expect (.mark m)

def draw {α : Type} (f : Generator → α × Generator) : Eval α :=
  modifyGet fun s =>
    match f s.generator with
    | (a, g) => (a, { s with generator := g })

def replaceRuntime {α : Type} (f : Fault) (x : Eval α) : Eval α := fun scope s =>
  match x scope s with
  | .ok a s => .ok a s
  | .error e s => .error (if e.isRuntime then f else e) s

def afterCommas (operand : Eval Value) : Nat → Eval (List Value)
  | 0 => pure []
  | n + 1 => do
      if ← isMark .comma then
        advance
        let v ← operand
        let vs ← afterCommas operand n
        pure (v :: vs)
      else pure []

/-- One value or more, with commas between them. Each takes a token at least. -/
def commaList (operand : Eval Value) : Eval (List Value) := do
  let v ← operand
  let n ← remaining
  let vs ← afterCommas operand (n + 1)
  pure (v :: vs)

def indexList (operand : Eval Value) : Eval (List Value) := do
  if ← atEnd then pure [] else commaList operand

end Eval

end LineBasic

import LineBasic.Machine

namespace LineBasic.Exec

/-- A name that ends in `$` takes texts only, any other name takes no texts. -/
def checkKind (name : String) (v : Value) (text number : String → Fault) : Exec Unit := do
  if Symbols.isTextName name && !v.isText then throw (text (← line))
  if !Symbols.isTextName name && v.isText then throw (number (← line))

/-- The equals sign after a cell. With other arrays in front of it, it may have been read as a
comparison before, and then it stays one. The sign after a plain name never is. -/
def cellSign : Exec Unit := do
  if ← isCompared then throw (.expecting (.mark .equals) (← line)) else expectMark .equals

def assignCell (name : String) : Exec Unit := do
  expectMark .opening
  let indices ← evaluate (Eval.indexList Eval.arithmeticValue)
  let key := Symbols.arrayKey name
  match (← machine).symbols.get? key with
  | none => throw (.unknownArray (← line))
  | some (.scalar v) => throw (.notAnArray v.kind)
  | some (.grid g) => do
      ofExcept (g.checkCount (← line) indices)
      expectMark .closing
      cellSign
      let v ← value
      checkKind name v .textCellNeeded .numberCellNeeded
      let g ← ofExcept (g.set (← line) indices v)
      modifyMachine fun m => { m with symbols := m.symbols.insertGrid key g }

def assignment : Exec Unit := do
  let name ← lexeme
  advance
  if ← isMark .opening then assignCell name
  else
    expectMark .equals
    let v ← value
    checkKind name v .textNeeded .numberNeeded
    assign name v

def justEnded : Exec Bool := do
  let c := (← get).cursor
  pure (c.atEnd && c.overrun == 0)

def dimension : Nat → Exec Unit
  | 0 => pure ()
  | n + 1 => do
      let key := Symbols.arrayKey (← lexeme)
      advance
      expectMark .opening
      let bounds ← evaluate (Eval.indexList Eval.arithmeticValue)
      expectMark .closing
      if 3 < bounds.length then throw (.manyDimensions (← line))
      let g ← ofExcept (Grid.make bounds)
      modifyMachine fun m => { m with symbols := m.symbols.insertGrid key g }
      if ← justEnded then pure ()
      else
        expectMark .comma
        dimension n

def dimensions : Exec Unit := do
  advance
  let n ← remaining
  dimension (n + 2)

def stepped (name : String) (step : Value) : Exec Value := do
  match (← machine).symbols.get? name with
  | some (.scalar v) => ofExcept (v.add step)
  | some (.grid _) => throw (.operands "+=" "BASICArray" step.kind)
  | none => throw (.lostVariable (String.ofList (Text.quoted name.toList)))

def loopStep : Exec (Value × Bool) := do
  if ← atEnd then pure (.int 1, true)
  else
    expectKeyword .STEP
    let step ← arithmetic
    if step.isZero then throw (.zeroStep (← line))
    let down ← ofExcept (step.relate .less (.int 0))
    pure (step, !down)

/-- The head of a loop. It is reached anew for each pass, and steps its variable if it is reached
from the end of the loop. -/
def loopHead : Exec Flow := do
  advance
  let name ← lexeme
  if Symbols.isTextName name then throw (.loopOverText (← line))
  advance
  expectMark .equals
  let first ← arithmetic
  expectKeyword .TO
  let last ← arithmetic
  let (step, up) ← loopStep
  let v ← if (← machine).lastFlow = some .loopRepeat then stepped name step else pure first
  assign name v
  let past ← ofExcept (v.relate (if up then .greater else .less) last)
  pure (if past then .loopSkip (.text name) else .loopBegin)

end LineBasic.Exec

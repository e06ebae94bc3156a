import LineBasic.Machine

namespace LineBasic.Exec

def cutCommas : Nat → List Char → List (List Char)
  | 0, s => [s]
  | n + 1, s =>
      match s.dropWhile (· != ',') with
      | [] => [s]
      | _ :: rest => s.takeWhile (· != ',') :: cutCommas n rest

def fieldNumber? (field : List Char) : Option Value :=
  if field.contains '.' then (Decimal.readReal? field).map .real
  else (Decimal.readInt field).toOption.map .int

def redoNumber : String := "Non-numeric input provided to a numeric variable - redo from start"

def redoCount : String := "Not enough values input - redo from start"

/-- Gives the fields to the variables in turn. Stops with a message at the first that cannot be
given; those before it stay. -/
def takeFields : List String → List (List Char) → Exec Bool
  | [], _ => pure true
  | _ :: _, [] => do
      onTerminal (Terminal.print redoCount)
      pure false
  | name :: names, field :: fields => do
      if Symbols.isTextName name then
        assign name (.text (String.ofList field))
        takeFields names fields
      else
        match fieldNumber? field with
        | some v => do
            assign name v
            takeFields names fields
        | none => do
            onTerminal (Terminal.print redoNumber)
            pure false

def fieldsOf (names : List String) (s : List Char) : List (List Char) :=
  cutCommas (if names.isEmpty then s.length else names.length - 1) s

/-- Asks until a line has a value for each variable. Without variables no line will do. -/
def inputLines (prompt : String) (names : List String) : Nat → Exec Unit
  | 0 => pure ()
  | n + 1 => do
      onTerminal (Terminal.write prompt)
      let s ← onTerminal Terminal.input
      let done ← takeFields names (fieldsOf names s.toList)
      if done && !names.isEmpty then pure () else inputLines prompt names n

def inputFile (number : Value) (names : List String) : Exec Unit := do
  match (← machine).channels.get? number with
  | none => pure ()
  | some c => do
      let s ← onChannel number c Channel.readLine
      let _ ← takeFields names (fieldsOf names (s.filter fun ch => ch != '\n' && ch != '\r'))

def inputSource : Exec (Option Value) := do
  if ← isMark .hash then
    let (number, _) ← openChannel "INPUT"
    expectMark .comma
    pure (some number)
  else pure none

def inputPrompt (source : Option Value) : Exec Value := do
  if (← current).category = some .text then
    if source.isSome then throw (.promptForFile (← line))
    let v ← value
    expectMark .semicolon
    pure v
  else pure (.text "? ")

def inputNames : Exec (List String) := do
  if ← atEnd then pure []
  else if (← current).category = some .name then nameList
  else throw (.expectingInputName (← line))

def input : Exec Unit := do
  advance
  let source ← inputSource
  let prompt ← inputPrompt source
  let names ← inputNames
  match source with
  | some number => inputFile number names
  | none => do
      let prompt ← written prompt
      inputLines prompt names ((← machine).terminal.supply + 1)

def takePending : Exec Value := do
  match (← machine).pending with
  | [] => throw .noValue
  | v :: vs => do
      modifyMachine fun m => { m with pending := vs }
      pure v

def nextDatum : Exec Value := do
  if (← machine).pending.isEmpty then
    let vs ← onData (DataStore.read (← line))
    modifyMachine fun m => { m with pending := vs }
  takePending

/-- A value as a variable takes it. A text variable takes all but integers, a number variable what
reads as a number. -/
def asDatum (name line : String) (v : Value) : Except Fault Value :=
  if Symbols.isTextName name then
    match v with
    | .int _ => throw (.numberRead line)
    | v => pure v
  else
    match v with
    | .text s =>
        match Decimal.readReal? s.toList with
        | some x => pure (Function.wholeOrReal x)
        | none => throw (.textRead line)
    | v => return Function.wholeOrReal (← v.toReal)

def readAll : List String → Exec Unit
  | [] => pure ()
  | name :: names => do
      let v ← nextDatum
      let v ← ofExcept (asDatum name (← line) v)
      assign name v
      readAll names

def readData : Exec Unit := do
  advance
  let names ← if ← atEnd then pure [] else nameList
  readAll names

def restore : Exec Unit := do
  advance
  let v ← arithmetic
  modifyMachine fun m => { m with pending := [] }
  let d ← ofExcept ((← machine).data.restore v)
  modifyMachine fun m => { m with data := d }

end LineBasic.Exec

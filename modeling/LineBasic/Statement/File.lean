import LineBasic.Machine

namespace LineBasic.Exec

def access : Exec Access := do
  match (← current).category with
  | some (.keyword .INPUT) => pure .input
  | some (.keyword .APPEND) => pure .append
  | some (.keyword .OUTPUT) => pure .output
  | _ => throw (.accessMode (← line))

def elseTarget : Exec (Option Value) := do
  if ← isKeyword .ELSE then
    advance
    skipKeyword .GOTO
    return some (← arithmetic)
  else pure none

def openFault (path : Value) : Exec Fault := do
  match path with
  | .text s => pure (.cannotOpen s (← line))
  | v => pure (.concatenation v.kind)

/-- Opens a file by its name. A number would name a descriptor of the host, and none is open. -/
def tryOpen (path : Value) (mode : Access) : Exec (Option (Channel × Disk)) := do
  match path with
  | .text s => pure (Channel.open? (← machine).disk s mode)
  | _ => pure none

def openFile : Exec (Option Flow) := do
  advance
  let path ← value
  expectKeyword .FOR
  let mode ← access
  advance
  if (← lexeme) ≠ "AS" then throw (.expectingAs (← line))
  advance
  expectMark .hash
  let number ← arithmetic
  let target ← elseTarget
  if ((← machine).channels.get? number).isSome then
    match target with
    | some v => pure (some (.jump v))
    | none => throw (.alreadyOpened (← ofExcept number.quoted) (← line))
  else
    match ← tryOpen path mode, target with
    | none, some v => pure (some (.jump v))
    | none, none => throw (← openFault path)
    | some (c, d), _ => do
        modifyMachine fun m => { m with channels := m.channels.put number c, disk := d }
        if mode = .append then onChannel number c Channel.seekEnd
        pure none

def closeFile : Exec Unit := do
  advance
  let (number, c) ← openChannel "CLOSE"
  modifyMachine fun m =>
    { m with channels := m.channels.remove number, disk := (c.flush m.disk).2 }

def seekFile : Exec Unit := do
  advance
  let (number, c) ← openChannel "FSEEK"
  expectMark .comma
  let target ← arithmetic
  onChannel number c (Channel.seek target)

def stop : Exec Flow := do
  advance
  modifyMachine fun m => { m with channels := [], disk := m.channels.flushAll m.disk }
  pure .stop

end LineBasic.Exec

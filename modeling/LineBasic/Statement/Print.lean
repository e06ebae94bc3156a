import LineBasic.Machine

namespace LineBasic.Exec

abbrev Sink := Option Value

def put (sink : Sink) (s : String) : Exec Unit := do
  match sink with
  | none => onTerminal (Terminal.write s)
  | some number =>
      match (← machine).channels.get? number with
      | none => pure ()
      | some c => onChannel number c (Channel.write s)

def putLine (sink : Sink) : Exec Unit :=
  match sink with
  | none => onTerminal Terminal.enter
  | some _ => put sink "\n"

def printMore (sink : Sink) : Nat → Exec Unit
  | 0 => pure ()
  | n + 1 => do
      if ← isMark .semicolon then
        if (← remaining) = 1 then pure ()
        else
          advance
          let v ← value
          put sink (← written v)
          printMore sink n
      else putLine sink

def printSink : Exec Sink := do
  if ← isMark .hash then
    let (number, _) ← openChannel "PRINT"
    if !(← atEnd) then expectMark .comma
    pure (some number)
  else pure none

def print : Exec Unit := do
  advance
  let sink ← printSink
  if ← atEnd then putLine sink
  else
    let v ← value
    put sink (← written v)
    let n ← remaining
    printMore sink (n + 2)

def moveCursor : Exec Unit := do
  advance
  if (← remaining) < 2 then throw (.expectingPosition (← line))
  let x ← value
  expectMark .comma
  let y ← value
  onTerminal (Terminal.cursor (some x) (some y))

end LineBasic.Exec

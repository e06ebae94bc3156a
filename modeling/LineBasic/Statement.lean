import LineBasic.Statement.Assign
import LineBasic.Statement.File
import LineBasic.Statement.Input
import LineBasic.Statement.Print

namespace LineBasic

namespace Exec

def jump : Exec Flow := do
  advance
  return .jump (← arithmetic)

def callSubroutine : Exec Flow := do
  advance
  return .call (← arithmetic)

def branch : Exec (Option Flow) := do
  advance
  let condition ← value
  expectKeyword .THEN
  skipKeyword .GOTO
  let target ← arithmetic
  if condition.holds then pure (some (.jump target))
  else if ← isKeyword .ELSE then
    advance
    skipKeyword .GOTO
    return some (.jump (← arithmetic))
  else pure none

def selected (number : Value) (targets : List Value) : Except Fault (Option Value) := do
  let below ← number.relate .less (.int 1)
  let above ← if below then pure true else number.relate .greater (.int targets.length)
  if below || above || targets.isEmpty then pure none
  else
    match number.integer? with
    | some i => pure targets[(i - 1).toNat]?
    | none => throw (.indexKind number.kind)

def multiway : Exec (Option Flow) := do
  advance
  let number ← arithmetic
  let jumps ← isKeyword .GOTO
  expectKeyword (if jumps then .GOTO else .GOSUB)
  let targets ← evaluate (Eval.indexList Eval.arithmeticValue)
  let target ← ofExcept (selected number targets)
  pure (target.map fun v => if jumps then .jump v else .call v)

def randomize : Exec Unit := do
  advance
  if ← atEnd then
    modifyMachine fun m =>
      { m with generator := Generator.seed m.clock.now, clock := m.clock.later }
  else
    let v ← arithmetic
    modifyMachine fun m => { m with generator := Eval.reseed v }

def statement : Exec (Option Flow) := do
  match (← current).category with
  | some (.keyword .FOR) => return some (← loopHead)
  | some (.keyword .NEXT) => do advance; pure (some .loopRepeat)
  | some (.keyword .IF) => branch
  | some (.keyword .ON) => multiway
  | some .name => do assignment; pure none
  | some (.keyword .PRINT) => do print; pure none
  | some (.keyword .LET) => do advance; assignment; pure none
  | some (.keyword .GOTO) => return some (← jump)
  | some (.keyword .GOSUB) => return some (← callSubroutine)
  | some (.keyword .RETURN) => do advance; pure (some .giveBack)
  | some (.keyword .STOP) => return some (← stop)
  | some (.keyword .INPUT) => do input; pure none
  | some (.keyword .DIM) => do dimensions; pure none
  | some (.keyword .RANDOMIZE) => do randomize; pure none
  | some (.keyword .DATA) => pure none
  | some (.keyword .READ) => do readData; pure none
  | some (.keyword .RESTORE) => do restore; pure none
  | some (.keyword .OPEN) => openFile
  | some (.keyword .CLOSE) => do closeFile; pure none
  | some (.keyword .FSEEK) => do seekFile; pure none
  | some (.keyword .CLEAR) => do onTerminal Terminal.clear; pure none
  | some (.keyword .CURSOR) => do moveCursor; pure none
  | some (.keyword .REM) => pure none
  | _ => throw (.expectingStatement (← line))

end Exec

def splitColons : List Token → List (List Token)
  | [] => [[]]
  | t :: ts =>
      if t.isMark .colon then [] :: splitColons ts
      else match splitColons ts with
        | [] => [[t]]
        | part :: parts => (t :: part) :: parts

namespace Machine

def runPart (site : Site) (tokens : List Token) : EStateM Fault Machine (Option Flow) := fun m =>
  match Cursor.start? tokens with
  | none => .error .emptyStatement m
  | some c =>
      match Exec.statement site ⟨c, m⟩ with
      | .ok flow j => .ok flow j.machine
      | .error f j => .error f j.machine

def runParts (site : Site) : List (List Token) → EStateM Fault Machine (Option Flow)
  | [] => pure none
  | part :: parts => do
      match ← runPart { site with after := parts.length } part with
      | some flow => pure (some flow)
      | none => runParts site parts

def runLine (site : Site) (tokens : List Token) : EStateM Fault Machine (Option Flow) :=
  runParts site (splitColons tokens)

def fresh (data : DataStore) (disk : Disk) (terminal : Terminal) (generator : Generator)
    (clock : Clock) : Machine :=
  ⟨[], [], data, [], disk, terminal, generator, none, clock, []⟩

end Machine

end LineBasic

import LineBasic.Session

namespace LineBasic.Shell

def textAfter (before : Nat) (t : Terminal) : String :=
  String.join ((Terminal.pieces { t with events := t.events.take (t.events.length - before) }))

def withTyped (typed : List String) (p : Program) : Program :=
  { p with machine := { p.machine with terminal := { p.machine.terminal with typed := typed } } }

def atTime (seconds : Nat) (p : Program) : Program :=
  { p with machine := { p.machine with clock := ⟨fun _ => seconds⟩ } }

def readFiles (start : String) (entries : Array IO.FS.DirEntry) :
    IO (List (String × List UInt8)) := do
  let mut files := []
  for e in entries do
    unless ← e.path.isDir do
      files := (start ++ e.fileName, (← IO.FS.readBinFile e.path).toList) :: files
  pure files

def readDisk : IO Disk := do
  let here ← IO.currentDir
  let top ← readFiles "" (← here.readDir)
  let programs := here / "BAS"
  let below ← if ← programs.isDir then readFiles "BAS/" (← programs.readDir) else pure []
  pure (Disk.ofFiles (top ++ below))

def writeDisk (old new : Disk) : IO Unit := do
  for (path, bytes) in new.listing do
    if old.read? path != some bytes then
      IO.FS.writeBinFile path (ByteArray.mk bytes.toArray)

def nextLine (stdin : IO.FS.Stream) : IO (Option String) := do
  let line ← stdin.getLine
  pure (if line.isEmpty then none else some (String.ofList (line.toList.filter (· != '\n'))))

def say (s : String) : IO Unit := do
  let stdout ← IO.getStdout
  stdout.putStr s
  stdout.flush

/-- Carries out an entry. When the program asks for a line that was not typed yet, the entry is
carried out once more with that line; what was shown is not shown again. -/
partial def attend (stdin : IO.FS.Stream) (p : Program) (entry : String) (typed : List String)
    (shown : Nat) : IO (Session.Answer × Program) := do
  let before := p.machine.terminal.events.length
  let reveal (q : Program) : IO Nat := do
    let text := textAfter before q.machine.terminal
    say (String.ofList (text.toList.drop shown))
    pure text.length
  match Session.enter entry (withTyped typed p) with
  | .ok answer q => do
      let _ ← reveal q
      pure (answer, withTyped [] q)
  | .error f q => do
      let shown ← reveal q
      let more ← if f.kind = .endOfInput then nextLine stdin else pure none
      match more with
      | some line => attend stdin p entry (typed ++ [line]) shown
      | none => do
          say (f.message ++ "\n")
          pure (.goOn, withTyped [] q)

def close (p : Program) : IO Unit :=
  writeDisk p.machine.disk (p.machine.channels.flushAll p.machine.disk)

partial def converse (stdin : IO.FS.Stream) (p : Program) : IO Unit := do
  say "> "
  match ← nextLine stdin with
  | none => close p
  | some entry => do
      let seconds := (← IO.monoMsNow) / 1000
      let (answer, q) ← attend stdin (atTime seconds p) entry [] 0
      writeDisk p.machine.disk q.machine.disk
      match answer with
      | .leave => close q
      | .goOn => converse stdin q

def machine (device : Device) : IO Machine := do
  pure (Machine.fresh DataStore.empty (← readDisk) (Terminal.ofDevice device [] none)
    (Generator.seed (← IO.monoMsNow)) 0)

def test : IO UInt32 := do
  let m ← machine (.checker Checker.empty)
  let r := ScriptTest.run "BAS/tests.bas" m
  say r.program.machine.terminal.output
  writeDisk m.disk r.program.machine.disk
  close r.program
  pure (if r.code = 0 then 0 else 255)

end LineBasic.Shell

def main (args : List String) : IO UInt32 := do
  if args = ["test"] then LineBasic.Shell.test
  else
    LineBasic.Shell.say (LineBasic.Session.banner ++ "\n")
    LineBasic.Shell.converse (← IO.getStdin)
      (LineBasic.Program.fresh (← LineBasic.Shell.machine .teletype))
    pure 0

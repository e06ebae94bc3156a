import LineBasic.Session
import LineBasic.Workload.Screens
import LineBasic.Workload.SelfTest

namespace LineBasic.Workload

def enteredStatement (n i : Nat) : String :=
  let k := toString i
  if i = 0 then "LET T = 0 : LET U = 1"
  else if i + 1 = n then "STOP"
  else if i % 11 = 0 then "DATA " ++ k ++ ", \"s\""
  else "LET T = T + " ++ k ++ " * 2 - (" ++ k ++ " + 1) / 2 + ABS(" ++ k ++ " - 3) : LET U = U + 1"

def entries (n : Nat) : List String :=
  numbered ((List.range n).map (enteredStatement n)) ++
  ["LIST", "LIST 10", "LIST 10 40", "LIST -40", "LIST 20-", "LIST 10-40", "RUN", "SAVE \"KEPT\"",
   "10", "NEW", "LOAD \"KEPT\"", "FOOBAR", "CLEAR", "", "NEW", "LET X =", "EXIT"]

def conversing (n : Nat) : Workload where
  prepare := pure ⟨[], []⟩
  perform e :=
    let typed := entries n
    let (_, p) := Session.welcome false (Program.fresh (machine typed none))
    let tape := pieces p.machine
    pure (.row [Report.count tape.length,
        Report.count (typed.length - p.machine.terminal.typed.length)],
      ⟨e.tapes ++ [tape], e.screens⟩)

def tapedSession (strict banner : Bool) (patience : Option Nat) (typed : List String) :
    Session.Ending × List String :=
  let p := Program.fresh (machine typed patience)
  let (ending, p) := if banner then Session.welcome strict p else Session.start strict p
  (ending, pieces p.machine)

def edgeSessions : List (Session.Ending × List String) :=
  [tapedSession true false none ["PRINT \"X"],
   tapedSession false false none ["PRINT \"X", "EXIT"],
   tapedSession false false (some 3) ["10 GOTO 10", "RUN", "EXIT"],
   tapedSession false true none
     ["10 LET A = 1", "20 STOP", "SAVE \"KEPT\"", "NEW", "LOAD \"KEPT\"", "RUN", "EXIT"]]

def squares (n : Nat) : List String :=
  numbered
    ["LET S = 0", "FOR I = 1 TO " ++ toString n, "LET S = S + 2 * I - 1", "NEXT I", "PRINT S"]

def diskOf (path : String) (lines : List String) : Disk :=
  Disk.ofFiles [(path, Text.encode (String.join (lines.map (· ++ "\n"))).toList)]

def scriptCode (d : Disk) : Int :=
  let t := Terminal.ofDevice (.checker Checker.empty) [] none
  (ScriptTest.run "BAS/tests.bas"
    (Machine.fresh DataStore.empty d t (Generator.seed 1) 1)).code

def leftScreen : String :=
  let t := Terminal.ofDevice (.editor (Editor.ofKeys (keysOf "EXIT" ++ [10]))) [] none
  let m := Machine.fresh DataStore.empty (Disk.ofFiles []) t (Generator.seed 1) 1
  let (_, p) := Session.welcome false (Program.fresh m)
  (screenOf p.machine.terminal).textShown "<CLR>"

def fileFault (f : Option Fault) : String :=
  match f with
  | some f => if f.kind = .storage then "ferr" else f.message
  | none => ""

def strictEnding (e : Option Session.Ending) : String :=
  match e with
  | some (.failed _) => "dbg"
  | _ => ""

def typedInput : Except Fault (String × Int) :=
  let t := Terminal.ofDevice .teletype ["EXIT", "EXIT"] none
  match (do
      let line ← Terminal.input
      let key ← Terminal.getKey
      pure (line, key) : Terminal.Act (String × Int)) t with
  | .ok r _ => pure r
  | .error f _ => throw f

def scriptWork (n : Nat) (e : Exhibits) : Except Fault (Report × Exhibits) := do
  let squared ← finish (← programOf (squares n) (machine [] none))
  let tape := pieces squared.machine
  let stopped := (← programOf ["10 GOTO 10"] (machine [] (some 0))).run.2
  let p := Program.fresh (machine [] none)
  let unsaved := match p.save "NOWHERE/FILE" with
    | .ok _ => none
    | .error f => some f
  let (unread, q) := p.load "MISSING"
  let (line, key) ← typedInput
  pure (.row [Report.text (tape.headD ""),
      .value (.int (scriptCode (diskOf "BAS/tests.bas" selfTest))),
      .value (.int (scriptCode (Disk.ofFiles []))),
      .value stopped.next,
      Report.text (strictEnding (edgeSessions.head?.map (·.1))),
      Report.count edgeSessions.length,
      Report.text line,
      .value (.int key),
      Report.text (fileFault unsaved),
      Report.text (fileFault unread)],
    ⟨e.tapes ++ [tape, pieces stopped.machine, pieces p.machine, pieces q.machine],
      e.screens ++ [leftScreen, leftScreen]⟩)

def scripts (n : Nat) : Workload where
  prepare := pure ⟨edgeSessions.map (·.2), []⟩
  perform := scriptWork n

end LineBasic.Workload

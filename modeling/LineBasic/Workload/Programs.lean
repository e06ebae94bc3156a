import LineBasic.Program
import LineBasic.Workload

namespace LineBasic.Workload

def listedStatement (i : Nat) : String :=
  let n := toString i
  if i % 7 = 0 then "DATA " ++ n ++ ", " ++ n ++ ".5, \"s" ++ n ++ "\""
  else if i % 7 = 1 then "PRINT \"line " ++ n ++ "\""
  else "LET V" ++ toString (i % 5) ++ " = " ++ n ++ " + 1"

def listing (n : Nat) : Workload :=
  onNewTape fun m => do
    let p ← programOf (numbered ((List.range n).map listedStatement)) m
    let p ← p.save "LISTED"
    match p.load "LISTED" with
    | (some f, _) => throw f
    | (none, p) =>
        match p.numbers.getLast? with
        | none => throw .nothingFirst
        | some last => do
            let text ← p.listLine last
            pure (.row [Report.count p.text.length, Report.count p.numbers.length,
              Report.text text], p.machine)

def additions (n : Nat) : List String :=
  numbered
    ["CLEAR",
     "LET S = 0",
     "FOR I = 1 TO " ++ toString n,
     "LET S = S + I",
     "NEXT I",
     "FOR J = 8 TO 1 STEP -1",
     "LET S = S + J * J",
     "NEXT J",
     "LET P = 1",
     "LET K = 0",
     "LET P = P * 2",
     "LET K = K + 1",
     "IF K < 5 THEN 110 ELSE 140",
     "GOSUB 220",
     "DIM G(2, 2)",
     "LET G(1, 2) = S : LET G(2, 1) = G(1, 2)",
     "ON 2 GOTO 190, 180",
     "LET T = G(2, 1)",
     "IF T = S THEN 290",
     "PRINT \"WRONG\"",
     "STOP",
     "REM ADDS THE POWER",
     "GOSUB 260",
     "LET S = S + P",
     "RETURN",
     "REM DOES NOTHING",
     "LET Q = 0",
     "RETURN",
     "PRINT T",
     "STOP"]

def adding (n : Nat) : Workload :=
  onNewTape fun m => do
    let p ← finish (← programOf (additions n) m)
    pure (.row [.row ((pieces p.machine).map Report.text), .value p.next], p.machine)

def dataStatement (i : Nat) : String :=
  let n := toString i
  "DATA " ++ n ++ ", " ++ n ++ ".5, \"s" ++ n ++ "\""

def readings (n : Nat) (first : String) : List String :=
  ["FOR I = 1 TO " ++ toString n,
   "READ A, B, C$",
   "NEXT I",
   "RESTORE " ++ first,
   "FOR I = 1 TO " ++ toString n,
   "READ A, B",
   "READ C$",
   "NEXT I",
   "STOP"]

def reading (n : Nat) : Workload :=
  onNewTape fun m => do
    let stored := (List.range n).map dataStatement
    match (numbered stored).head? with
    | none => throw .nothingFirst
    | some _ => do
        let p ← finish (← programOf (numbered (stored ++ readings n "10")) m)
        pure (.row [.value p.next, Report.count p.numbers.length], p.machine)

def records (n : Nat) : List String :=
  numbered
    ["OPEN \"RECORDS\" FOR OUTPUT AS #1",
     "FOR I = 1 TO " ++ toString n,
     "PRINT #1, \"rec \"; I",
     "NEXT I",
     "PRINT #1, \"done\"",
     "CLOSE #1",
     "OPEN \"RECORDS\" FOR INPUT AS #2",
     "FOR I = 1 TO " ++ toString n,
     "INPUT #2, R$",
     "NEXT I",
     "INPUT #2, L$",
     "FSEEK #2, 0",
     "INPUT #2, F$",
     "CLOSE #2",
     "IF L$ = \"done\" THEN 170",
     "PRINT \"WRONG\"",
     "OPEN \"MISSING\" FOR INPUT AS #3 ELSE 200",
     "PRINT \"WRONG\"",
     "STOP",
     "LET L = LEN(F$)",
     "STOP"]

def filing (n : Nat) : Workload :=
  onNewTape fun m => do
    let p ← finish (← programOf (records n) m)
    let bytes := (p.machine.disk.read? "RECORDS").getD []
    pure (.row [.value p.next, Report.count bytes.length], p.machine)

def failingEnds : List String :=
  ["GOTO 5", "GOSUB 5", "RETURN", "NEXT I", "GOSUB 10000", "FOR I = 1 TO 2", "PRINT UNKNOWN",
   "READ A", "RESTORE 5", "LET A = 1 / 0", "LET A$ = 1", "DIM A(1, 1, 1, 1)", "PRINT A(1)",
   "CLOSE #1", "FSEEK #1, 0", "OPEN \"MISSING\" FOR INPUT AS #1"]

def failingProgram (n : Nat) (last : String) : List String :=
  numbered ((List.range n).map fun i => "LET PASSED = " ++ toString (i + 1)) ++ ["10000 " ++ last]

def failure (n : Nat) (last : String) (m : Machine) : Except Fault (Nat × Nat) := do
  match (← programOf (failingProgram n last) m).run with
  | (.failed _, p) =>
      match p.machine.symbols.get? "PASSED" with
      | some (.scalar (.int k)) => pure (1, k.toNat)
      | _ => pure (1, 0)
  | _ => pure (0, 0)

def emptyFailures (p : Program) : Nat :=
  let failed {α : Type} (r : Except Fault α) : Nat :=
    match r with
    | .ok _ => 0
    | .error _ => 1
  let run := match p.run with
    | (.failed _, _) => 1
    | _ => 0
  let load := match p.load "MISSING" with
    | (some _, _) => 1
    | _ => 0
  run + load + failed (p.remove 10) + failed (p.save "NOWHERE/FILE")

def failing (n : Nat) : Workload :=
  onNewTape fun m => do
    let results ← failingEnds.mapM fun last => failure n last m
    let faults := Report.total (results.map (·.1)) + emptyFailures (Program.fresh m)
    pure (.row [Report.count faults, Report.count (Report.total (results.map (·.2)))], m)

end LineBasic.Workload

import LineBasic.Workload

namespace LineBasic.Workload

def carryOut (statement : String) (m : Machine) : Option Fault × Machine :=
  match tokenize statement with
  | .error f => (some f, m)
  | .ok tokens =>
      match m.runLine "10" tokens with
      | .ok flow m => (none, { m with lastFlow := flow })
      | .error f m => (some f, m)

def cycle {α : Type} (statements : List α) (n : Nat) : List α :=
  (List.range n).filterMap fun i => statements[i % statements.length]?

def functionStatements : List String :=
  ["LET A = ABS(-3) + SQR(16)",
   "LET B = ATN(1) + COS(0)",
   "LET C = EXP(1) + LOG(2)",
   "LET D = SIN(1) + TAN(1)",
   "LET E = INT(3.7) + ROUND(2.5)",
   "LET F = POW(2, 10)",
   "LET G = MAX(1, 2, 3) + MIN(4, 5, 6)",
   "LET H = PI * 2",
   "LET I = RND(1)",
   "LET J = RNDINT(1, 6)",
   "LET A$ = CHR$(65) + STR$(12)",
   "LET K = ASC(\"B\") + VAL(\"3.5\")",
   "LET L = LEN(\"HELLO\")",
   "LET B$ = UPPER$(\"abc\") + LOWER$(\"DEF\")",
   "LET C$ = MID$(\"HELLO\", 2, 3)",
   "LET D$ = LEFT$(\"HELLO\", 2) + RIGHT$(\"HELLO\", 2)",
   "LET M = INSTR(\"HELLO\", \"L\")",
   "LET E$ = IFF(A > 1, \"YES\", \"NO\")",
   "DIM T(3, 3)",
   "LET T(1, 2) = 7 MOD 4",
   "LET N = T(1, 2) * -(2 + 3) / 4",
   "PRINT \"a\"; 1; 2",
   "PRINT",
   "PRINT \"trail\";",
   "LET O = NOT A > 1 AND B < 2 OR C = 3"]

def carryOutAll : List String → Machine → Except Fault Machine
  | [], m => pure m
  | s :: statements, m =>
      match carryOut s m with
      | (none, m) => carryOutAll statements m
      | (some f, _) => throw f

def functions (n : Nat) : Workload where
  prepare := pure ⟨[[]], []⟩
  perform e := do
    let statements := cycle functionStatements n
    let m ← carryOutAll statements (machine [] none)
    let tape := e.tapes.flatten ++ pieces m
    pure (.row [Report.count statements.length, Report.count tape.length], ⟨[tape], []⟩)

/-- Statements with a mistake. The second one is right once there is an array `Q`, which a faulty
`DIM` makes before it fails. -/
def faultyStatements : List String :=
  ["PRINT UNKNOWN", "LET Q(1) = 2", "LET A$ = 5", "LET A = \"FIVE\"", "LET A 5", "LET A = 5 /",
   "LET A = (5", "LET A = 1 / 0", "LET A = 1 MOD 0", "LET A = SQR(-1)", "LET A = LOG(0)",
   "LET A = CHR$(\"A\")", "LET A = SIN(\"X\")", "LET A = LEN(5)", "LET A = 1 + \"X\"",
   "LET A = \"X\" < 1", "GOTO", "GOSUB \"X\" +", "IF 1 > 0 GOTO 10", "IF \"A\" > 1 THEN 10",
   "ON 1 RETURN 10", "FOR I$ = 1 TO 2", "FOR I = 1 STEP 2", "FOR I = 1 TO 2 STEP 0", "FOR I 1 TO 2",
   "DIM A(1, 2, 3, 4)", "DIM A(-1)", "DIM Q(3), R", "PRINT Z(1)", "READ A", "RESTORE 10",
   "OPEN \"MISSING\" FOR INPUT AS #1", "OPEN \"F\" FOR READING AS #1", "CLOSE #4", "FSEEK #4, 1",
   "PRINT #4, 1", "CURSOR 1", "THEN 10"]

def otherFaults : List (Option Fault) :=
  let fault? {α : Type} (r : Except Fault α) : Option Fault :=
    match r with
    | .ok _ => none
    | .error f => some f
  [fault? (tokenize "PRINT \"X"), fault? (tokenize "LET A = 1 ! 2"), fault? (Grid.make []),
   fault? (Grid.make [.int (-1)]), fault? (Grid.make [.real 0.5]),
   fault? (Flow.make none 99), fault? (Flow.make none 0), fault? (Flow.make (some (.int 1)) 3),
   fault? (DataStore.empty.restore (.int 10))]

def faultCount : List String → Machine → Nat × Machine
  | [], m => (0, m)
  | s :: statements, m =>
      match carryOut s m with
      | (none, m) => faultCount statements m
      | (some _, m) =>
          let (n, m) := faultCount statements m
          (n + 1, m)

def mistakes (n : Nat) : Workload :=
  onNewTape fun m =>
    let (count, m) := faultCount (cycle faultyStatements n) m
    pure (Report.count ((otherFaults.filter Option.isSome).length + count), m)

def questions : List (String × List String) :=
  [("INPUT \"n? \"; N", ["42"]),
   ("INPUT \"f? \"; F", ["3.25"]),
   ("INPUT A$", ["some text"]),
   ("INPUT \"two? \"; X, B$", ["7,seven"]),
   ("INPUT \"bad? \"; N", ["none", "5"]),
   ("INPUT \"short? \"; X, Y", ["1", "1,2"])]

def askEach : List (String × List String) → Except Fault (List (List String))
  | [] => pure []
  | (statement, typed) :: rest =>
      match carryOut statement (machine typed none) with
      | (some f, _) => throw f
      | (none, m) => do
          let tapes ← askEach rest
          pure (pieces m :: tapes)

def asking (n : Nat) : Workload where
  prepare := pure ⟨[], []⟩
  perform e := do
    let tapes ← askEach (cycle questions n)
    pure (.row [Report.count (Report.total (tapes.map List.length)), Report.count tapes.length],
      ⟨e.tapes ++ tapes, e.screens⟩)

end LineBasic.Workload

import LineBasic.Grid
import LineBasic.Workload

namespace LineBasic.Workload

def sampleStatements : List String :=
  ["LET A = 1",
   "PRINT \"TOTAL \"; A",
   "IF A <> 10 THEN 100 ELSE 200",
   "FOR I = 1 TO 20 STEP 2",
   "LET X = 1.5 + 2.25",
   "LET S$ = \"HELLO\"",
   "REM A REMARK",
   "LET C = (A + B) * 2 - 3 / 4 MOD 5",
   "IF A >= B AND C <= D OR NOT E <> F THEN 100",
   "DIM G(3, 4, 5)",
   "LET B$ = MID$(\"HELLO\", 1, 3)",
   "DATA 1, -2, 3.5, \"TEXT\", 4"]

def sampleLine (i : Nat) : String :=
  toString (10 * (i + 1)) ++ " " ++
    sampleStatements.getD (i % sampleStatements.length) ""

def categoryCode (t : Token) : Report :=
  Report.count ((t.category.map (·.code)).getD 0)

def tokenizing (n : Nat) : Workload :=
  silent do
    let lines ← (List.range n).mapM fun i => tokenize (sampleLine i)
    match lines.getLast? with
    | none => throw .nothingLast
    | some last =>
        pure (.row [Report.count (Report.total (lines.map List.length)),
          .row (last.map categoryCode)])

def describedLine (i : Nat) : String :=
  toString (10 * (i + 1)) ++ " LET V = " ++ toString i ++ " * 2 + 1 : PRINT V"

def describing (i : Nat) : Except Fault Nat := do
  let tokens ← tokenize (describedLine i)
  let grids ← [[2], [2, 2], [2, 2, 1]].mapM fun bounds => Grid.make (bounds.map Value.int)
  let described := tokens.filterMap Token.describe?
  pure (described.length + Report.total (grids.map fun g => g.sizes.foldl (· * ·) 1))

def describingAll (n : Nat) : Workload :=
  silent do
    let counts ← (List.range n).mapM describing
    pure (Report.count (Report.total counts))

end LineBasic.Workload

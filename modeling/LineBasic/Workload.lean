import LineBasic.Program.Run

namespace LineBasic

inductive Report
  | value (v : Value)
  | row (parts : List Report)

namespace Report

def count (n : Nat) : Report := .value (.int n)

def total (ns : List Nat) : Nat := ns.foldl (· + ·) 0

def text (s : String) : Report := .value (.text s)

end Report

/-- What was written meanwhile: the pieces of each tape and the text of each screen, the oldest
first. -/
structure Exhibits where
  tapes : List (List String)
  screens : List String

structure Workload where
  prepare : Except Fault Exhibits
  perform : Exhibits → Except Fault (Report × Exhibits)

namespace Workload

def performances (w : Workload) : Nat → Exhibits → Except Fault (List (Report × Exhibits))
  | 0, _ => pure []
  | n + 1, e => do
      let (report, e) ← w.perform e
      let later ← w.performances n e
      pure ((report, e) :: later)

def run (w : Workload) (n : Nat) : Except Fault (List (Report × Exhibits)) := do
  w.performances n (← w.prepare)

def machine (typed : List String) (patience : Option Nat) : Machine :=
  Machine.fresh DataStore.empty (Disk.ofFiles [])
    (Terminal.ofDevice (.tape "<CLR>") typed patience) (Generator.seed 1) 1

def pieces (m : Machine) : List String := m.terminal.pieces

def onNewTape (work : Machine → Except Fault (Report × Machine)) : Workload where
  prepare := pure ⟨[[]], []⟩
  perform _ := do
    let (report, m) ← work (machine [] none)
    pure (report, ⟨[pieces m], []⟩)

def silent (work : Except Fault Report) : Workload where
  prepare := pure ⟨[], []⟩
  perform e := do
    let report ← work
    pure (report, e)

def numbered (statements : List String) : List String :=
  statements.mapIdx fun i s => toString (10 * (i + 1)) ++ " " ++ s

def programOf (lines : List String) (m : Machine) : Except Fault Program :=
  lines.foldlM
    (fun p line => do
      let tokens ← tokenize line
      p.add tokens)
    (Program.fresh m)

def finish (p : Program) : Except Fault Program :=
  match p.run with
  | (.finished, p) => pure p
  | (.failed f, _) => throw f
  | (.unfinished, _) => throw .interrupted

end Workload

end LineBasic

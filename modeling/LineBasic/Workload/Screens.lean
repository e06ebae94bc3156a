import LineBasic.Workload

namespace LineBasic.Workload

def checkedCase (i : Nat) : Nat :=
  let n := toString i
  let script : Terminal.Act Unit := do
    Terminal.write ("*case " ++ n)
    Terminal.enter
    Terminal.write (":" ++ n)
    Terminal.enter
    Terminal.write n
    Terminal.enter
  match script (Terminal.ofDevice (.checker Checker.empty) [] none) with
  | .ok _ t => if t.heldLine = "" then 1 else 0
  | .error _ _ => 0

def refusals : List (Device × Terminal.Act Unit) :=
  [(.teletype, Terminal.clear),
   (.teletype, Terminal.home),
   (.teletype, Terminal.cursor (some (.int 1)) (some (.int 1))),
   (.checker Checker.empty, do Terminal.write ":5"; Terminal.enter),
   (.checker Checker.empty, do Terminal.write "5"; Terminal.enter)]

def refused (r : Device × Terminal.Act Unit) : Bool :=
  match r.2 (Terminal.ofDevice r.1 [] none) with
  | .ok _ _ => false
  | .error _ _ => true

def checking (n : Nat) : Workload :=
  silent (pure (Report.count
    (Report.total ((List.range n).map checkedCase) + (refusals.filter refused).length)))

def keysOf (s : String) : List Int := s.toList.map fun c => (c.toNat : Int)

def editedLines (n : Nat) : List (List Int) :=
  [keysOf "ab" ++ [127] ++ keysOf "c",
   keysOf "x",
   [Editor.keyUp, Editor.keyUp, Editor.keyUp, Editor.keyDown, Editor.keyDown, Editor.keyDown],
   keysOf "z" ++ [Editor.keyLeft],
   [127],
   [1] ++ keysOf "k" ++ [200]] ++
  List.replicate 25 (keysOf "h") ++
  [(List.range n).map fun i => ((97 + i % 26 : Nat) : Int)]

def enterLines : Nat → Terminal.Act (List String)
  | 0 => pure []
  | n + 1 => do
      let line ← Terminal.input
      let lines ← enterLines n
      pure (line :: lines)

def screenWork (n : Nat) : Terminal.Act (List String) := do
  Terminal.print "hello"
  Terminal.write "w"
  Terminal.enter
  Terminal.clear
  Terminal.home
  Terminal.cursor (some (.int 3)) (some (.int 4))
  let lines ← enterLines n
  Terminal.backspace
  pure lines

def screenOf (t : Terminal) : Editor :=
  match t.device with
  | .editor e => e
  | _ => Editor.ofKeys []

def isMove : Display → Bool
  | .move _ _ => true
  | _ => false

def typing (n : Nat) : Workload where
  prepare := pure ⟨[], []⟩
  perform e :=
    let lines := editedLines n
    let keys := lines.flatMap (· ++ [10])
    match screenWork lines.length (Terminal.ofDevice (.editor (Editor.ofKeys keys)) [] none) with
    | .error f _ => throw f
    | .ok entered t =>
        let screen := screenOf t
        pure (.row [Report.count entered.length,
            Report.count (Report.total (entered.map String.length)),
            Report.count (screen.shown.filter isMove).length],
          ⟨e.tapes, e.screens ++ [screen.textShown "<CLR>"]⟩)

end LineBasic.Workload

import LineBasic.Program

namespace LineBasic.Program

/-- What is left after one line of a run: the position of the next line, or how the run ended. -/
inductive Step
  | more (index : Nat) (p : Program)
  | done (p : Program)
  | failed (f : Fault) (p : Program)

def indexOf? (numbers : List Int) (v : Value) : Option Nat :=
  numbers.findIdx? fun n => v.same (.int n)

def goTo (numbers : List Int) (index : Nat) (p : Program) : Step :=
  match numbers[index]? with
  | some n => .more index { p with next := .int n }
  | none => .done p

def goToTarget (numbers : List Int) (target : Value) (bad : String → Fault) (p : Program) :
    Step :=
  match indexOf? numbers target with
  | some i => .more i { p with next := target }
  | none =>
      match target.written with
      | .ok s => .failed (bad s) p
      | .error f => .failed f p

def comeBack (numbers : List Int) (stray lost : String → Fault) (p : Program) : Step :=
  match p.returns with
  | [] => .failed (stray p.next.label) p
  | n :: returns =>
      let p := { p with returns := returns }
      match numbers.findIdx? (· = n) with
      | some i => goTo numbers i p
      | none => .failed (lost p.next.label) p

/-- The position after the end of a loop, among the lines from `index` on: the first line that
starts with NEXT and the loop's variable ends it. -/
def afterLoop (target : Value) : Nat → Lines (List Token) → Nat
  | index, [] => index
  | index, (_, tokens) :: ls =>
      match tokens with
      | t :: v :: _ =>
          if t.isKeyword .NEXT ∧ Value.text v.lexeme = target then index + 1
          else afterLoop target (index + 1) ls
      | _ => afterLoop target (index + 1) ls

def follow (numbers : List Int) (index : Nat) (flow : Option Flow) (p : Program) : Step :=
  match flow with
  | none => goTo numbers (index + 1) p
  | some (.jump target) => goToTarget numbers target .badJump p
  | some (.call target) =>
      match numbers[index + 1]? with
      | none => .failed .callAtEnd p
      | some n => goToTarget numbers target .badCall { p with returns := n :: p.returns }
  | some .giveBack => comeBack numbers .strayReturn .badReturn p
  | some .stop => .done p
  | some .loopBegin =>
      let p := { p with returns := (numbers[index]?.toList) ++ p.returns }
      match numbers[index + 1]? with
      | some n => .more (index + 1) { p with next := .int n }
      | none => .failed .loopAtEnd p
  | some (.loopSkip target) =>
      goTo numbers (afterLoop target (index + 1) (p.lines.drop (index + 1))) p
  | some .loopRepeat => comeBack numbers .strayNext .badLoopExit p

def reported (f : Fault) : Fault :=
  match f with
  | .endlessNesting => .endlessLine
  | f => f

def standing? (p : Program) : Option (Int × List Token) :=
  (indexOf? p.numbers p.next).bind fun i => p.lines[i]?

def standing (p : Program) : List Token := (p.standing?.map (·.2)).getD []

def site (p : Program) : Site := ⟨p.next.label, p.standing?.map (·.1), 0⟩

def step (numbers : List Int) (index : Nat) (p : Program) : Step :=
  match Terminal.escaped p.machine.terminal with
  | .error f t => .failed f { p with machine := { p.machine with terminal := t } }
  | .ok true t => .failed .interrupted { p with machine := { p.machine with terminal := t } }
  | .ok false t =>
      let m := { p.machine with terminal := t }
      if p.standing?.isNone then .failed (.missingLine p.next.kind) { p with machine := m }
      else match Machine.runLine p.site p.standing m with
        | .error f m => .failed (reported f) { p with machine := m }
        | .ok flow m =>
            follow numbers index flow { p with machine := { m with lastFlow := flow } }

inductive Ending
  | finished
  | failed (f : Fault)
  | unfinished
  deriving DecidableEq

def runFor (numbers : List Int) : Nat → Nat → Program → Ending × Program
  | 0, _, p => (.unfinished, p)
  | n + 1, index, p =>
      match step numbers index p with
      | .more index p => runFor numbers n index p
      | .done p => (.finished, p)
      | .failed f p => (.failed f, p)

/-- A new run has no variables, no open files, and reads DATA from the start. -/
def prepare (p : Program) : Program :=
  let m := p.machine
  { p with
    machine := { m with
      symbols := []
      pending := []
      data := { m.data with pointer := 0 }
      channels := []
      disk := m.channels.flushAll m.disk
      lastFlow := none } }

def patience : Nat := Nat.pow 10 9

def runWithin (n : Nat) (p : Program) : Ending × Program :=
  let p := p.prepare
  match p.numbers with
  | [] => (.failed .noStatements, p)
  | first :: _ => runFor p.numbers n 0 { p with next := .int first }

def run (p : Program) : Ending × Program := p.runWithin patience

end LineBasic.Program

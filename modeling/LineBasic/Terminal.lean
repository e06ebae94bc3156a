import LineBasic.Checker
import LineBasic.Editor
import LineBasic.Value

namespace LineBasic

/-- What a terminal does with output. A teletype only prints. A board can also be cleared and
writes marks for it. A tape keeps what it gets in pieces, and a line as a piece without its end. -/
inductive Device
  | teletype
  | board (cleared : String)
  | tape (cleared : String)
  | checker (c : Checker)
  | editor (e : Editor)

inductive Event
  | wrote (s : String)
  | asked
  deriving DecidableEq

/-- A terminal with the lines still to be typed, and all that happened, the latest first. Escape
is pressed once `patience` is used up. -/
structure Terminal where
  device : Device
  typed : List String
  patience : Option Nat
  events : List Event

namespace Terminal

def ofDevice (device : Device) (typed : List String) (patience : Option Nat) : Terminal :=
  ⟨device, typed, patience, []⟩

def emit (s : String) (t : Terminal) : Terminal := { t with events := .wrote s :: t.events }

abbrev Act := EStateM Fault Terminal

def finishLine (c : Checker) : Act Unit := do
  match c.finishLine with
  | .ok (c, out) => modify fun t => { t.emit out with device := .checker c }
  | .error (f, out) => do
      modify fun t => { t.emit out with device := .checker c }
      throw f

def write (s : String) : Act Unit := do
  match (← get).device with
  | .checker c => modify fun t => { t with device := .checker (c.append s) }
  | .editor e => modify fun t => { t with device := .editor (e.write s) }
  | _ => modify (emit s)

/-- A line of its own. The checker takes off the last character. -/
def print (s : String) : Act Unit := do
  match (← get).device with
  | .checker c => finishLine (c.append (String.ofList s.toList.dropLast))
  | .editor e => modify fun t => { t with device := .editor (e.write (s ++ "\n")) }
  | .tape _ => modify (emit s)
  | _ => modify (emit (s ++ "\n"))

def enter : Act Unit := do
  match (← get).device with
  | .checker c => finishLine c
  | .editor e => modify fun t => { t with device := .editor e.enter }
  | _ => modify (emit "\n")

def clear : Act Unit := do
  match (← get).device with
  | .board cleared | .tape cleared => modify (emit cleared)
  | .editor e => modify fun t => { t with device := .editor (e.tell [.erase, .refresh]) }
  | _ => throw .notImplemented

def home : Act Unit := do
  match (← get).device with
  | .editor e =>
      modify fun t => { t with device := .editor (e.tell [.move (.int 0) (.int 0)]) }
  | _ => throw .notImplemented

def cursor (x y : Option Value) : Act Unit := do
  match (← get).device with
  | .board _ =>
      match Value.writtenIf x, Value.writtenIf y with
      | .ok x, .ok y => modify (emit ("<CURSOR " ++ x ++ " " ++ y ++ ">"))
      | .error f, _ => throw f
      | _, .error f => throw f
  | .editor e =>
      match e.moveTo x y with
      | .ok e => modify fun t => { t with device := .editor e }
      | .error f => throw f
  | _ => throw .notImplemented

def input : Act String := do
  let t ← get
  match t.device with
  | .editor e =>
      match e.input with
      | (.ok line, e) => do
          set { t with device := .editor e }
          pure line
      | (.error f, e) => do
          set { t with device := .editor e }
          throw f
  | _ =>
      let t := { t with events := .asked :: t.events }
      match t.typed with
      | [] => do
          set t
          throw .endOfInput
      | line :: typed => do
          set { t with typed := typed }
          pure line

def getKey : Act Int := do
  match (← get).device with
  | .editor e =>
      match e.getKey with
      | (.ok key, e) => do
          modify fun t => { t with device := .editor e }
          pure key
      | (.error f, _) => throw f
  | _ => do
      match (← input).toList with
      | [] => throw .emptyText
      | c :: _ => pure c.toNat

/-- Whether escape is pressed. Asking uses up patience. -/
def escaped : Act Bool := do
  let t ← get
  match t.patience with
  | none => pure false
  | some 0 => pure true
  | some (n + 1) => do
      set { t with patience := some n }
      pure false

def backspace : Act Unit := do
  match (← get).device with
  | .editor e => modify fun t => { t with device := .editor e.backspace }
  | _ => pure ()

def heldLine (t : Terminal) : String :=
  match t.device with
  | .checker c => c.line
  | _ => ""

def supply (t : Terminal) : Nat :=
  match t.device with
  | .editor e => e.keys.length
  | _ => t.typed.length

def pieces (t : Terminal) : List String :=
  t.events.reverse.filterMap fun
    | .wrote s => some s
    | .asked => none

def output (t : Terminal) : String := String.join t.pieces

def portions (events : List Event) : List String :=
  let cut := events.foldr
    (fun e (acc : String × List String) => match e with
      | .wrote s => (s ++ acc.1, acc.2)
      | .asked => ("", acc.1 :: acc.2))
    ("", [])
  cut.1 :: cut.2

def transcript (t : Terminal) : List String := portions t.events.reverse

end Terminal

end LineBasic

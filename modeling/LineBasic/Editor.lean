import LineBasic.Value.Arith

namespace LineBasic

inductive Display
  | echoOff
  | rawKeys
  | cursorShape (n : Nat)
  | keypad (on : Bool)
  | scrolling (on : Bool)
  | text (s : String)
  | echo (s : String)
  | move (row column : Value)
  | erase
  | refresh
  | beep

/-- A screen with a keyboard: the keys still to come, the lines entered before, and what the screen
was told, the latest first. -/
structure Editor where
  keys : List Int
  history : List String
  shown : List Display

namespace Editor

def keyDown : Int := 258

def keyUp : Int := 259

def keyLeft : Int := 260

def tell (e : Editor) (ds : List Display) : Editor := { e with shown := ds.reverse ++ e.shown }

def ofKeys (keys : List Int) : Editor :=
  tell ⟨keys, [], []⟩ [.echoOff, .rawKeys, .cursorShape 0, .keypad true, .scrolling true]

def rubOut : List Display := [.echo "\x08", .echo " ", .echo "\x08"]

def backspace (e : Editor) : Editor := e.tell rubOut

def write (e : Editor) (s : String) : Editor := e.tell [.text s, .refresh]

def enter (e : Editor) : Editor := e.write "\n"

def rubOutAll (e : Editor) (line : List Char) : Editor :=
  line.foldl (fun e _ => e.backspace) e

structure Draft where
  line : List Char
  place : Nat

def recalled (history : List String) (older : Bool) (place : Nat) : Nat × List Display :=
  if older then
    if place = 0 then (0, [.beep]) else (place - 1, [])
  else if place + 1 < history.length then (place + 1, [])
  else (history.length - 1, [.beep])

def press (e : Editor) (draft : Draft) (key : Int) : Editor × Draft :=
  if key = keyUp ∨ key = keyDown then
    if e.history.isEmpty then (e, draft)
    else
      let e := e.rubOutAll draft.line
      let (place, beeps) := recalled e.history (key = keyUp) draft.place
      let line := e.history.getD place ""
      ((e.tell beeps).write line, ⟨line.toList, place⟩)
  else if key = keyLeft then (e.rubOutAll draft.line, { draft with line := [] })
  else if key = 127 then
    if draft.line.isEmpty then (e.tell [.beep], draft)
    else (e.backspace, { draft with line := draft.line.dropLast })
  else if key < 32 ∨ 126 < key then (e, draft)
  else
    let c := Char.ofNat key.toNat
    (e.tell [.echo c.toString], { draft with line := draft.line ++ [c] })

def edit (e : Editor) (draft : Draft) : List Int → Except Fault String × Editor
  | [] => (.error .noMoreKeys, { e with keys := [] })
  | key :: keys =>
      if key = 10 then
        (.ok (String.ofList draft.line), { e with keys := keys })
      else
        let (e, draft) := e.press draft key
        edit e draft keys

/-- Only the last twenty lines are remembered. -/
def remember (history : List String) (line : String) : List String :=
  let all := history ++ [line]
  if 20 < all.length then all.drop 1 else all

def input (e : Editor) : Except Fault String × Editor :=
  let e := e.tell [.cursorShape 1, .refresh]
  match e.edit ⟨[], e.history.length⟩ e.keys with
  | (.error f, e) => (.error f, e)
  | (.ok line, e) =>
      let e := (e.tell [.cursorShape 0]).enter
      (.ok line, { e with history := remember e.history line })

def getKey (e : Editor) : Except Fault Int × Editor :=
  match e.keys with
  | [] => (.error .noMoreKeys, e)
  | key :: keys => (.ok key, { e with keys := keys })

def fromZero : Option Value → Except Fault Value
  | some v => v.sub (.int 1)
  | none => throw (.operands "-" "NoneType" "int")

def moveTo (e : Editor) (x y : Option Value) : Except Fault Editor := do
  let row ← fromZero y
  let column ← fromZero x
  pure (e.tell [.move row column])

def textShown (erased : String) (e : Editor) : String :=
  String.join (e.shown.reverse.map fun
    | .text s | .echo s => s
    | .erase => erased
    | _ => "")

end Editor

end LineBasic

import LineBasic.Fault
import LineBasic.Decimal.Written
import LineBasic.Value

namespace LineBasic

inductive Flow
  | jump (target : Value)
  | call (target : Value)
  | loopBegin
  | loopRepeat
  | loopSkip (target : Value)
  | giveBack
  | stop
  deriving DecidableEq

namespace Flow

def code : Flow → Nat
  | jump _ => 0
  | call _ => 1
  | loopBegin => 2
  | loopRepeat => 3
  | loopSkip _ => 4
  | giveBack => 5
  | stop => 6

def target? : Flow → Option Value
  | jump v | call v | loopSkip v => some v
  | _ => none

/-- A signal from its code and target. A target has to be there exactly for the signals that need
one. -/
def make (target : Option Value) (code : Int) : Except Fault Flow :=
  match code, target with
  | 0, some v => pure (jump v)
  | 1, some v => pure (call v)
  | 4, some v => pure (loopSkip v)
  | 0, none | 1, none | 4, none => throw .flowTarget
  | 2, none => pure loopBegin
  | 3, none => pure loopRepeat
  | 5, none => pure giveBack
  | 6, none => pure stop
  | 2, some _ | 3, some _ | 5, some _ | 6, some _ => throw (.strayTarget (Decimal.intText code))
  | _, _ => throw (.flowKind (Decimal.intText code))

end Flow

end LineBasic

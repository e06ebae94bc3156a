import LineBasic.Decimal.Reading
import LineBasic.Decimal.Written

namespace LineBasic

inductive Value
  | int (n : Int)
  | real (x : Float)
  | truth (b : Bool)
  | text (s : String)
  deriving DecidableEq

namespace Value

def kind : Value → String
  | int _ => "int"
  | real _ => "float"
  | truth _ => "bool"
  | text _ => "str"

def isText : Value → Bool
  | text _ => true
  | _ => false

/-- Zero, the empty text and falsehood count as false, all else as true. -/
def holds : Value → Bool
  | int n => n != 0
  | real x => x != 0
  | truth b => b
  | text s => s != ""

def ofBool (b : Bool) : Int := if b then 1 else 0

open Decimal

def tooWide : Nat := Nat.pow 10 digitLimit

def truthText (b : Bool) : String := if b then "True" else "False"

def written : Value → Except Fault String
  | int n => if n.natAbs < tooWide then pure (intText n) else throw .digitsToText
  | real x => pure (realText x)
  | truth b => pure (truthText b)
  | text s => pure s

def writtenIf : Option Value → Except Fault String
  | some v => v.written
  | none => pure "None"

def quoted : Value → Except Fault String
  | text s => pure (String.ofList (Text.quoted s.toList))
  | v => v.written

def label : Value → String
  | int n => intText n
  | real x => realText x
  | truth b => truthText b
  | text s => s

end Value

end LineBasic

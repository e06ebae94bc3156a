import LineBasic.Assoc
import LineBasic.Value
import LineBasic.Value.Order

namespace LineBasic

/-- An array of one to three dimensions. A cell that was never written holds 0. -/
structure Grid where
  sizes : List Nat
  cells : Assoc (List Nat) Value

namespace Grid

def bound (v : Value) : Except Fault Nat := do
  if ← v.relate .less (.int 0) then throw .negativeSize
  let n ← match v with
    | .real x => Value.truncateReal x
    | v => pure (v.integer?.getD 0)
  if v.same (.int n) then pure n.toNat else throw .fractionalSize

/-- Indices run from 0 up to the given bounds. Bounds beyond the third are not looked at. -/
def make (bounds : List Value) : Except Fault Grid :=
  if bounds = [] then throw .noDimensions
  else do
    let ns ← (bounds.take 3).mapM bound
    pure ⟨ns.map (· + 1), []⟩

def makeFrom (bounds : List (Option Value)) : Except Fault Grid :=
  if bounds = [] then throw .noDimensions
  else do
    let ns ← (bounds.take 3).mapM fun
      | some v => bound v
      | none => throw (.ordering "<" "NoneType" "int")
    pure ⟨ns.map (· + 1), []⟩

def dimensions (g : Grid) : Nat := g.sizes.length

/-- The place that an index means among `size` places: a negative one counts from the end. -/
def place (line : String) (size : Nat) (index : Value) : Except Fault Nat :=
  match index.integer? with
  | none => throw (.indexKind index.kind)
  | some i =>
      if 0 ≤ i ∧ i < size then pure i.toNat
      else if i < 0 ∧ 0 ≤ i + size then pure (i + size).toNat
      else throw (.indexRange line)

def places (line : String) : List Nat → List Value → Except Fault (List Nat)
  | size :: sizes, index :: indices => do
      let i ← place line size index
      let is ← places line sizes indices
      pure (i :: is)
  | _, _ => pure []

def checkCount (line : String) (g : Grid) (indices : List Value) : Except Fault Unit :=
  if g.dimensions = indices.length then pure () else throw (.indexCount line)

def cell (g : Grid) (is : List Nat) : Value := (g.cells.get? is).getD (.int 0)

def get (line : String) (g : Grid) (indices : List Value) : Except Fault Value := do
  g.checkCount line indices
  let is ← places line g.sizes indices
  pure (g.cell is)

def set (line : String) (g : Grid) (indices : List Value) (v : Value) : Except Fault Grid := do
  let is ← places line g.sizes indices
  pure { g with cells := g.cells.put is v }

inductive Nest
  | cell (v : Value)
  | row (cells : List Nest)

def nestFrom (g : Grid) : List Nat → List Nat → Nest
  | path, [] => .cell (g.cell path)
  | path, n :: sizes => .row ((List.range n).map fun i => nestFrom g (path ++ [i]) sizes)

def nested (g : Grid) : Nest := g.nestFrom [] g.sizes

mutual

def Nest.shown : Nest → String
  | .cell (.text s) => String.ofList (Text.quoted s.toList)
  | .cell v => v.label
  | .row cells => "[" ++ Nest.shownAll cells ++ "]"

def Nest.shownAll : List Nest → String
  | [] => ""
  | [c] => c.shown
  | c :: cs => c.shown ++ ", " ++ Nest.shownAll cs

end

def shown (g : Grid) : String := g.nested.shown ++ "\n"

end Grid

inductive Entry
  | scalar (v : Value)
  | grid (g : Grid)

/-- Simple variables under their names, arrays under names with a suffix of their own. -/
abbrev Symbols := Assoc String Entry

namespace Symbols

def arrayKey (name : String) : String := name ++ "_array"

def insert (symbols : Symbols) (name : String) (v : Value) : Symbols :=
  Assoc.put symbols name (.scalar v)

def insertGrid (symbols : Symbols) (key : String) (g : Grid) : Symbols :=
  Assoc.put symbols key (.grid g)

def listing (symbols : Symbols) : List (String × Entry) :=
  symbols.mergeSort fun a b => a.1 ≤ b.1

def isTextName (name : String) : Bool := name.toList.getLast? == some '$'

end Symbols

end LineBasic

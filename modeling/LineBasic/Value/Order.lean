import LineBasic.Value.Arith

namespace LineBasic

inductive Relation
  | equal | notEqual | less | lessEqual | greater | greaterEqual
  deriving DecidableEq, Repr

namespace Relation

def symbol : Relation → String
  | equal => "=="
  | notEqual => "!="
  | less => "<"
  | lessEqual => "<="
  | greater => ">"
  | greaterEqual => ">="

/-- Whether an order satisfies the relation. Values without an order are only unequal. -/
def holds : Relation → Option Ordering → Bool
  | equal, o => o == some .eq
  | notEqual, o => o != some .eq
  | less, o => o == some .lt
  | lessEqual, o => o == some .lt || o == some .eq
  | greater, o => o == some .gt
  | greaterEqual, o => o == some .gt || o == some .eq

end Relation

namespace Value

def order? (l r : Value) : Option Ordering :=
  match l, r with
  | text a, text b => some (compare a b)
  | text _, _ => none
  | _, text _ => none
  | real x, real y => Double.compareReal x y
  | real x, r => r.integer?.bind (Double.compareInt x)
  | l, real y => l.integer?.bind fun a => (Double.compareInt y a).map Ordering.swap
  | l, r => l.integer?.bind fun a => r.integer?.map fun b => compare a b

def relate (rel : Relation) (l r : Value) : Except Fault Bool :=
  if l.isText != r.isText ∧ rel ≠ .equal ∧ rel ≠ .notEqual then
    throw (.ordering rel.symbol l.kind r.kind)
  else pure (rel.holds (l.order? r))

/-- Equality across kinds of numbers: `1`, `1.0` and truth are one key. -/
def same (l r : Value) : Bool := l.order? r == some .eq

theorem same_int {m n : Int} : (int m).same (int n) ↔ m = n := by
  simp [same, order?, integer?]

def isZero (v : Value) : Bool := v.same (int 0)

def best (rel : Relation) (first : Value) (rest : List Value) : Except Fault Value :=
  rest.foldlM (fun b v => do if ← relate rel v b then pure v else pure b) first

end Value

end LineBasic

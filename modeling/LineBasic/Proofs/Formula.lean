import LineBasic.Proofs.Numeral
import LineBasic.Proofs.Reading

namespace LineBasic

inductive ArithOp
  | add | sub | mul
  | mod (word : Bool)
  deriving DecidableEq, Repr

namespace ArithOp

def mark : ArithOp → Mark
  | add => .plus
  | sub => .minus
  | mul => .times
  | mod _ => .modulo

def lexeme : ArithOp → String
  | add => "+"
  | sub => "-"
  | mul => "*"
  | mod word => if word then "MOD" else "%"

def level : ArithOp → Nat
  | add | sub => 3
  | mul | mod _ => 4

def apply : ArithOp → Int → Int → Int
  | add, a, b => a + b
  | sub, a, b => a - b
  | mul, a, b => a * b
  | mod _, a, b => a.fmod b

def isMod : ArithOp → Bool
  | mod _ => true
  | _ => false

def operator : ArithOp → Eval.Operator
  | add => Value.add
  | sub => Value.sub
  | mul => Value.mul
  | mod _ => Value.percent

theorem level_lt (op : ArithOp) : op.level < 5 := by
  cases op <;> simp [level]

theorem le_level (op : ArithOp) : 3 ≤ op.level := by
  cases op <;> simp [level]

theorem binding_mark (op : ArithOp) : (Category.mark op.mark).binding = op.level := by
  cases op <;> rfl

theorem adding?_mark (op : ArithOp) (h : op.level = 3) :
    Eval.adding? (.mark op.mark) = some op.operator := by
  cases op with
  | add | sub => rfl
  | mul | mod => cases h

theorem multiplying?_mark (op : ArithOp) (h : op.level = 4) :
    Eval.multiplying? (.mark op.mark) = some op.operator := by
  cases op with
  | add | sub => cases h
  | mul | mod => rfl

theorem operator_int (op : ArithOp) (m n : Int) :
    op.operator (.int m) (.int n) =
      if op.isMod && n == 0 then .error .moduloByZero else .ok (.int (op.apply m n)) := by
  cases op with
  | add | sub | mul => rfl
  | mod word =>
      show (if n = 0 then throw Fault.moduloByZero else pure (Value.int (m.fmod n)) :
        Except Fault Value) = _
      by_cases h : n = 0 <;> simp [h, isMod, apply] <;> rfl

end ArithOp

inductive Arith
  | numeral (n : Numeral)
  | name (x : String)
  | signed (minus : Bool) (a : Arith)
  | binary (op : ArithOp) (a b : Arith)

inductive Formula
  | arith (a : Arith)
  | compare (rel : Relation) (a b : Arith)
  | negation (f : Formula)
  | join (all : Bool) (f g : Formula)

def enclosed (b : Bool) (fs : List Face) : List Face :=
  if b then (some (.mark .opening), "(") :: (fs ++ [(some (.mark .closing), ")")]) else fs

namespace Arith

def value (env : String → Int) : Arith → Int
  | numeral n => n.value
  | name x => env x
  | signed minus a => if minus then -a.value env else a.value env
  | binary op a b => op.apply (a.value env) (b.value env)

def dividesByZero (env : String → Int) : Arith → Bool
  | numeral _ | name _ => false
  | signed _ a => a.dividesByZero env
  | binary op a b =>
      a.dividesByZero env || b.dividesByZero env || (op.isMod && b.value env == 0)

def names : Arith → List String
  | numeral _ => []
  | name x => [x]
  | signed _ a => a.names
  | binary _ a b => a.names ++ b.names

/-- How the tree is written where only operators that bind with strength `k` or more can stand
without parentheses. -/
def render : Arith → Nat → List Face
  | numeral n, _ => [(some .integer, n.lexeme)]
  | name x, _ => [(some .name, x)]
  | signed minus a, _ =>
      (some (.mark (if minus then .minus else .plus)), if minus then "-" else "+") :: a.render 5
  | binary op a b, k =>
      enclosed (op.level < k)
        (a.render op.level ++ (some (.mark op.mark), op.lexeme) :: b.render (op.level + 1))

/-- How many calls deep the tree is read where it is written so, from the call for its first factor
on. A sign takes one call more, and a parenthesis one for each level of the grammar. -/
def calls : Arith → Nat → Nat
  | numeral _, _ | name _, _ => 1
  | signed _ a, _ => a.calls 5 + 1
  | binary op a b, k =>
      (if op.level < k then 6 else 0) + max (a.calls op.level) (b.calls (op.level + 1))

end Arith

namespace Relation

def mark : Relation → Mark
  | equal => .equals
  | notEqual => .notEqual
  | less => .lesser
  | lessEqual => .lessEqual
  | greater => .greater
  | greaterEqual => .greaterEqual

def lexeme : Relation → String
  | equal => "="
  | notEqual => "<>"
  | less => "<"
  | lessEqual => "<="
  | greater => ">"
  | greaterEqual => ">="

def test : Relation → Int → Int → Bool
  | equal, a, b => a = b
  | notEqual, a, b => a ≠ b
  | less, a, b => a < b
  | lessEqual, a, b => a ≤ b
  | greater, a, b => b < a
  | greaterEqual, a, b => b ≤ a

theorem relating?_mark (rel : Relation) : Eval.relating? (.mark rel.mark) = some rel := by
  cases rel <;> rfl

theorem binding_mark (rel : Relation) : (Category.mark rel.mark).binding = 2 := by
  cases rel <;> rfl

theorem relate_int (rel : Relation) (a b : Int) :
    (Value.int a).relate rel (.int b) = .ok (rel.test a b) := by
  show Except.ok (rel.holds (some (Ord.compare a b))) = _
  rcases Int.lt_trichotomy a b with h | rfl | h
  · have hc : Ord.compare a b = .lt := by simp [Ord.compare, compareOfLessAndEq, h]
    rw [hc]
    cases rel <;> simp [holds, test, bne] <;> omega
  · have hc : Ord.compare a a = .eq := by simp [Ord.compare, compareOfLessAndEq]
    rw [hc]
    cases rel <;> simp [holds, test]
  · have hc : Ord.compare a b = .gt := by
      simp [Ord.compare, compareOfLessAndEq, show ¬ a < b by omega, show a ≠ b by omega]
    rw [hc]
    cases rel <;> simp [holds, test, bne] <;> omega

end Relation

namespace Formula

def value (env : String → Int) : Formula → Value
  | arith a => .int (a.value env)
  | compare rel a b => .truth (rel.test (a.value env) (b.value env))
  | negation f => .truth !(f.value env).holds
  | join true f g => if (f.value env).holds then g.value env else f.value env
  | join false f g => if (f.value env).holds then f.value env else g.value env

def dividesByZero (env : String → Int) : Formula → Bool
  | arith a => a.dividesByZero env
  | compare _ a b => a.dividesByZero env || b.dividesByZero env
  | negation f => f.dividesByZero env
  | join _ f g => f.dividesByZero env || g.dividesByZero env

def names : Formula → List String
  | arith a => a.names
  | compare _ a b => a.names ++ b.names
  | negation f => f.names
  | join _ f g => f.names ++ g.names

/-- How the tree is written as a whole expression (0), after a conjunction or disjunction (1), or
after a negation (2). -/
def render : Formula → Nat → List Face
  | arith a, _ => a.render 3
  | compare rel a b, _ => a.render 3 ++ (some (.mark rel.mark), rel.lexeme) :: b.render 3
  | negation f, k => enclosed (1 < k) ((some (.keyword .NOT), "NOT") :: f.render 2)
  | join all f g, k =>
      enclosed (0 < k)
        (f.render 0 ++
          (some (.keyword (if all then .AND else .OR)), if all then "AND" else "OR") :: g.render 1)

def calls : Formula → Nat → Nat
  | arith a, _ => a.calls 3
  | compare _ a b, _ => max (a.calls 3) (b.calls 3)
  | negation f, k => (if 1 < k then 6 else 0) + f.calls 2
  | join _ f g, k => (if 0 < k then 6 else 0) + max (f.calls 0) (g.calls 1)

/-- How many calls deep the tree is read as a whole, the levels above its first factor included. -/
def depth (f : Formula) : Nat := f.calls 0 + 5

end Formula

open Face

theorem closed_enclosed {b : Bool} {fs : List Face} (h : Closed fs) : Closed (enclosed b fs) := by
  cases b with
  | false => exact h
  | true => exact ⟨_, by rw [enclosed, if_pos rfl, ← List.cons_append, List.getLast?_concat], rfl⟩

theorem unnegated_enclosed {b : Bool} {fs : List Face} (h : Unnegated fs) :
    Unnegated (enclosed b fs) := by
  cases b with
  | false => exact h
  | true => exact ⟨_, rfl, by decide⟩

namespace Arith

theorem closed_render (a : Arith) (k : Nat) : Closed (a.render k) := by
  induction a generalizing k with
  | numeral n => exact ⟨_, rfl, rfl⟩
  | name x => exact ⟨_, rfl, rfl⟩
  | signed minus a ih => exact (ih 5).cons _
  | binary op a b iha ihb => exact closed_enclosed (((ihb _).cons _).append _)

theorem unnegated_render (a : Arith) (k : Nat) : Unnegated (a.render k) := by
  induction a generalizing k with
  | numeral n => exact ⟨_, rfl, by simp⟩
  | name x => exact ⟨_, rfl, by simp⟩
  | signed minus a ih => exact ⟨_, rfl, by simp⟩
  | binary op a b iha ihb => exact unnegated_enclosed ((iha _).append _)

end Arith

namespace Formula

theorem closed_render (f : Formula) (k : Nat) : Closed (f.render k) := by
  induction f generalizing k with
  | arith a => exact a.closed_render 3
  | compare rel a b => exact ((b.closed_render 3).cons _).append _
  | negation f ih => exact closed_enclosed ((ih 2).cons _)
  | join all f g ihf ihg => exact closed_enclosed (((ihg 1).cons _).append _)

/-- After a negation no other one follows without a parenthesis. -/
theorem unnegated_render (f : Formula) : Unnegated (f.render 2) := by
  cases f with
  | arith a => exact a.unnegated_render 3
  | compare rel a b => exact (a.unnegated_render 3).append _
  | negation f => exact ⟨_, rfl, by decide⟩
  | join all f g => exact ⟨_, rfl, by decide⟩

end Formula

end LineBasic

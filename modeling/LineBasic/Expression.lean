import LineBasic.Digest
import LineBasic.Function.Numeric
import LineBasic.Function.Textual
import LineBasic.Scan
import LineBasic.Value.Format

namespace LineBasic.Eval

open Value

abbrev Operator := Value → Value → Except Fault Value

def chain (operand : Eval Value) (operator? : Category → Option Operator) :
    Nat → Value → Eval Value
  | 0, v => pure v
  | n + 1, v => do
      match (← category).bind operator? with
      | none => pure v
      | some op =>
          advance
          let w ← operand
          let r ← ofExcept (op v w)
          chain operand operator? n r

/-- Operands of one level. Each operator takes a token, so there are no more than tokens. -/
def level (operand : Eval Value) (operator? : Category → Option Operator) : Eval Value := do
  let v ← operand
  let n ← remaining
  chain operand operator? (n + 1) v

def multiplying? : Category → Option Operator
  | .mark .times => some mul
  | .mark .divide => some div
  | .mark .modulo => some percent
  | _ => none

def adding? : Category → Option Operator
  | .mark .plus => some add
  | .mark .minus => some sub
  | _ => none

def relating? : Category → Option Relation
  | .mark .equals => some .equal
  | .mark .notEqual => some .notEqual
  | .mark .lesser => some .less
  | .mark .lessEqual => some .lessEqual
  | .mark .greater => some .greater
  | .mark .greaterEqual => some .greaterEqual
  | _ => none

/-- A conjunction or disjunction gives one of its operands. -/
def joining? : Category → Option Operator
  | .keyword .OR => some fun l r => pure (if l.holds then l else r)
  | .keyword .AND => some fun l r => pure (if l.holds then r else l)
  | _ => none

def product (factor : Eval Value) : Eval Value :=
  level (do setSign false; factor) multiplying?

def sum (factor : Eval Value) : Eval Value := level (product factor) adding?

def relation (factor : Eval Value) : Eval Value := do
  let l ← sum factor
  match (← category).bind relating? with
  | none => pure l
  | some rel =>
      noteComparison
      advance
      let r ← sum factor
      return truth (← ofExcept (relate rel l r))

def inversion (factor : Eval Value) : Eval Value := do
  if ← isKeyword .NOT then
    advance
    let v ← relation factor
    pure (truth !v.holds)
  else relation factor

def logic (factor : Eval Value) : Eval Value := level (inversion factor) joining?

def isIndexed : Eval Bool := do
  match (← get).cursor.rest with
  | _ :: t :: _ => pure (t.isMark .opening)
  | _ => pure false

/-- An array element, from the token after the array's name on. Its sign is the one that the
evaluation of its indices leaves. The token after the indices is passed over. -/
def element (factor : Eval Value) (entry : Entry) : Eval Value := do
  let v ← replaceRuntime (.bareArray (← line)) do
    expectMark .opening
    let indices ← indexList (sum factor)
    match entry with
    | .scalar v => throw (.notAnArray v.kind)
    | .grid g => do
        let v ← ofExcept (g.get (← line) indices)
        pure (v.signed (← sign))
  advance
  pure v

def variableValue (element : Entry → Eval Value) (name : String) : Eval Value := do
  let symbols := (← read).symbols
  match symbols.get? (Symbols.arrayKey name), ← isIndexed with
  | some entry, true =>
      advance
      element entry
  | _, _ =>
      match symbols.get? name with
      | some (.scalar v) =>
          let negative ← sign
          advance
          pure (v.signed negative)
      | some (.grid _) => throw (.operands "*" "int" "BASICArray")
      | none => throw (.undefinedName name (← line))

def reseed : Value → Generator
  | int n => Generator.seed n.natAbs
  | truth b => Generator.seed (ofBool b).toNat
  | real x => Generator.seedReal x
  | text s => Generator.seedText s

def randomReal (v : Value) : Eval Value := do
  if ← ofExcept (v.relate .less (int 0)) then
    modify fun s => { s with generator := reseed v }
  return real (← draw Generator.nextReal)

def randomInteger (low high : Value) : Eval Value := do
  let stop ← ofExcept (add high (int 1))
  let a ← ofExcept (Function.wholeBound (← line) low)
  let b ← ofExcept (Function.wholeBound (← line) stop)
  if b ≤ a then throw (.badArgument "RNDINT" (← line))
  let r ← draw (Generator.nextBelow (b - a).toNat)
  pure (int (a + r))

def apply (f : Function) (line : String) (v : Value) : Except Fault Value :=
  match f with
  | .SQR => Function.squareRoot line v
  | .ABS => Function.magnitude v
  | .ATN => Function.arctangent line v
  | .COS => Function.cosine line v
  | .EXP => Function.exponential line v
  | .INT => Function.floor line v
  | .ROUND => Function.round line v
  | .LOG => Function.logarithm line v
  | .SIN => Function.sine line v
  | .TAN => Function.tangent line v
  | .CHR => Function.character line v
  | .ASC => Function.codeOf line v
  | .STR => return text (← v.written)
  | .VAL => Function.numberOf v
  | .LEN => Function.length line v
  | .UPPER => Function.upperCase line v
  | .LOWER => Function.lowerCase line v
  | .TAB => Function.blanks line v
  | _ => pure v

def optional (operand : Eval Value) : Eval (Option Value) := do
  if ← isMark .comma then
    advance
    return some (← operand)
  else pure none

def comma : Eval Unit := expectMark .comma

def parenthesised {α : Type} (inner : Eval α) : Eval α := do
  expectMark .opening
  let a ← inner
  expectMark .closing
  pure a

def pair (argument : Eval Value) : Eval (Value × Value) := do
  let a ← argument
  comma
  let b ← argument
  pure (a, b)

/-- The arguments of `INSTR`: the text searched is checked before the others are read. -/
def placeArguments (argument : Eval Value) :
    Eval (String × Value × Option Value × Option Value) := do
  match ← argument with
  | text s => do
      comma
      let needle ← argument
      let start ← optional argument
      let start ← ofExcept (start.mapM (sub · (int 1)))
      let stop ← if start.isSome then optional argument else pure none
      let stop ← ofExcept (stop.mapM (sub · (int 1)))
      pure (s, needle, start, stop)
  | _ => throw (.badArgumentKind "INSTR" (← line))

def call (nested : Nat → Eval Value) (f : Function) : Eval Value := do
  advance
  let argument := sum (nested 3)
  match f with
  | .PI => pure (real Function.piValue)
  | .RND => do
      let v ← parenthesised argument
      randomReal v
  | .RNDINT => do
      let (a, b) ← parenthesised (pair argument)
      randomInteger a b
  | .MAX => do
      let vs ← parenthesised (commaList argument)
      ofExcept (Function.extreme "MAX" "max" (← line) .greater vs)
  | .MIN => do
      let vs ← parenthesised (commaList argument)
      ofExcept (Function.extreme "MIN" "min" (← line) .less vs)
  | .POW => do
      let (a, b) ← parenthesised (pair argument)
      ofExcept (Function.power (← line) a b)
  | .IFF => parenthesised do
      let condition ← logic (nested 6)
      comma
      let (a, b) ← pair argument
      pure (if condition.holds then a else b)
  | .LEFT => do
      let (s, n) ← parenthesised (pair argument)
      ofExcept (Function.leftPart (← line) s n)
  | .RIGHT => do
      let (s, n) ← parenthesised (pair argument)
      ofExcept (Function.rightPart (← line) s n)
  | .MID => do
      let (s, start, count) ← parenthesised do
        let (s, i) ← pair argument
        let start ← ofExcept (sub i (int 1))
        let count ← optional argument
        pure (s, start, count)
      ofExcept (Function.middlePart (← line) s start count)
  | .INSTR => do
      let (s, needle, start, stop) ← parenthesised (placeArguments argument)
      ofExcept (Function.placeOf (← line) s needle start stop)
  | f => do
      let v ← parenthesised argument
      ofExcept (apply f (← line) v)

/-- One factor. `nested k` reads a factor inside it that is reached through `k` calls in between:
those of the levels of the grammar above a factor, and that of a function. -/
def factorOf (element : Eval Value → Entry → Eval Value) (nested : Nat → Eval Value) :
    Eval Value := do
  let t ← current
  match t.category with
  | some (.mark .plus) =>
      advance
      nested 0
  | some (.mark .minus) =>
      flipSign
      advance
      nested 0
  | some .integer => do
      let n ← ofExcept (Decimal.readInt t.lexeme.toList)
      advance
      pure ((int n).signed (← sign))
  | some .decimal => do
      let s := t.lexeme.toList
      match Decimal.readReal? s with
      | some x =>
          advance
          pure ((real x).signed (← sign))
      | none => throw (.badReal (String.ofList (Text.quoted s)))
  | some .text =>
      advance
      pure (text t.lexeme)
  | some .name => variableValue (element (nested 2)) t.lexeme
  | some (.mark .opening) => do
      let negative ← sign
      advance
      let v ← logic (nested 5)
      let v ← if negative then ofExcept v.neg else pure v
      expectMark .closing
      pure v
  | some (.function f) => call nested f
  | _ => throw (.expectingFactor (← line) t.lexeme)

/-- A factor that is reached through some calls, where no more than `room` calls fit in each other.
A statement that ends where a factor is due uses them all up: its last token opens another factor
without end. -/
def nestedWith (element : Eval Value → Entry → Eval Value) : Nat → Nat → Eval Value
  | 0, _ => throw .endlessNesting
  | room + 1, between + 1 => nestedWith element room between
  | room + 1, 0 => factorOf element (nestedWith element room)

def nested : Nat → Nat → Eval Value := nestedWith element

def factor (room : Nat) : Eval Value := nested room 0

/-- How many calls fit in each other. The host allows a thousand, of which a score is in use where
an expression starts. -/
def callLimit : Nat := 980

def arithmeticValue : Eval Value := sum (nested callLimit 2)

def value : Eval Value := logic (nested callLimit 5)

end LineBasic.Eval

import LineBasic.Proofs.Grammar
import LineBasic.Proofs.Lines
import LineBasic.Proofs.Local
import LineBasic.Token.Lexer

namespace LineBasic

open Outcome

def Scan.withSign (s : Scan) (negative : Bool) : Scan := { s with negative := negative }

def Scan.unsigned (s : Scan) : Scan := s.withSign false

theorem Scan.eq_withSign {s t : Scan} (h : t.unsigned = s.unsigned) :
    t = s.withSign t.negative := by
  obtain ⟨c, n, g, p⟩ := s
  obtain ⟨c', n', g', p'⟩ := t
  simpa only [unsigned, withSign, Scan.mk.injEq, true_and] using h

namespace Eval

variable {α β : Type}

def Deaf (x : Eval α) : Prop :=
  ∀ (scope : Scope) (s : Scan) (b : Bool), x scope (s.withSign b) = x scope s

/-- The sign in front makes no difference but to the sign that is left. -/
def Unswayed (x : Eval α) : Prop := ∀ (scope : Scope) (s : Scan) (b : Bool),
  mapState Scan.unsigned (x scope (s.withSign b)) = mapState Scan.unsigned (x scope s)

theorem bind_congr {x y : Eval α} {scope : Scope} {s s' : Scan} (h : x scope s = y scope s')
    (f : α → Eval β) : (x >>= f) scope s = (y >>= f) scope s' :=
  Outcome.bind_congr (x := x scope) (y := y scope) h

theorem replaceRuntime_congr {x y : Eval α} {scope : Scope} {s s' : Scan}
    (h : x scope s = y scope s') (f : Fault) :
    replaceRuntime f x scope s = replaceRuntime f y scope s' := by
  simp only [replaceRuntime, h]

theorem Deaf.bind {x : Eval α} (hx : Deaf x) (f : α → Eval β) : Deaf (x >>= f) :=
  fun scope s b => bind_congr (hx scope s b) f

theorem Deaf.unswayed {x : Eval α} (hx : Deaf x) : Unswayed x :=
  fun scope s b => congrArg _ (hx scope s b)

theorem Unswayed.bind {x : Eval α} {f : α → Eval β} (hx : Unswayed x)
    (hf : ∀ a, Unswayed (f a)) : Unswayed (x >>= f) := by
  intro scope s b
  -- Both runs fail, or both go on from states that differ in the sign at most.
  have hsame := hx scope s b
  cases h : x scope s with
  | error e t =>
      rw [h] at hsame
      cases h' : x scope (s.withSign b) with
      | error e' t' =>
          rw [h'] at hsame
          injection hsame with he ht
          rw [bind_error h, bind_error h', mapState, mapState, he, ht]
      | ok a' t' =>
          rw [h'] at hsame
          cases hsame
  | ok a t =>
      rw [h] at hsame
      cases h' : x scope (s.withSign b) with
      | error e' t' =>
          rw [h'] at hsame
          cases hsame
      | ok a' t' =>
          rw [h'] at hsame
          injection hsame with ha ht
          rw [bind_ok h, bind_ok h', ha, Scan.eq_withSign ht]
          exact hf a scope t _

theorem unswayed_pure (a : α) : Unswayed (pure a : Eval α) := fun _ _ _ => rfl

theorem unswayed_throw (f : Fault) : Unswayed (throw f : Eval α) := fun _ _ _ => rfl

theorem unswayed_look {g : Scope → Scan → α} (h : ∀ scope s b, g scope (s.withSign b) = g scope s) :
    Unswayed (fun scope s => .ok (g scope s) s) :=
  fun scope s b => congrArg (EStateM.Result.ok · s.unsigned) (h scope s b)

theorem unswayed_modify {f : Scan → Scan}
    (h : ∀ s b, (f (s.withSign b)).unsigned = (f s).unsigned) : Unswayed (modify f) :=
  fun _ s b => congrArg (EStateM.Result.ok PUnit.unit) (h s b)

theorem unswayed_ite {c : Prop} [Decidable c] {x y : Eval α} (hx : Unswayed x)
    (hy : Unswayed y) : Unswayed (if c then x else y) := by
  split
  · exact hx
  · exact hy

theorem unswayed_ofExcept (r : Except Fault α) : Unswayed (ofExcept r) := by
  cases r with
  | ok a => exact unswayed_pure a
  | error f => exact unswayed_throw f

theorem unswayed_line : Unswayed line :=
  unswayed_look (g := fun scope _ => scope.line) fun _ _ _ => rfl

theorem unswayed_advance : Unswayed advance := unswayed_modify fun _ _ => rfl

theorem unswayed_isMark (m : Mark) : Unswayed (isMark m) :=
  unswayed_look (g := fun _ s => s.cursor.current.isMark m) fun _ _ _ => rfl

theorem unswayed_remaining : Unswayed remaining :=
  unswayed_look (g := fun _ s => s.cursor.rest.length) fun _ _ _ => rfl

theorem unswayed_expect (c : Category) : Unswayed (expect c) := by
  have hcategory : Unswayed category :=
    unswayed_look (g := fun _ s => s.cursor.current.category) fun _ _ _ => rfl
  refine hcategory.bind fun _ => unswayed_ite unswayed_advance ?_
  exact unswayed_line.bind fun _ => unswayed_throw _

theorem unswayed_draw (f : Generator → α × Generator) : Unswayed (draw f) := fun _ _ _ => rfl

section Operands

variable {x : Eval Value}

theorem Unswayed.afterCommas (hx : Unswayed x) (n : Nat) : Unswayed (afterCommas x n) := by
  induction n with
  | zero => exact unswayed_pure []
  | succ n ih =>
      refine (unswayed_isMark _).bind fun _ => unswayed_ite ?_ (unswayed_pure [])
      exact unswayed_advance.bind fun _ => hx.bind fun v => ih.bind fun vs => unswayed_pure _

theorem Unswayed.commaList (hx : Unswayed x) : Unswayed (commaList x) :=
  hx.bind fun _ => unswayed_remaining.bind fun _ => (hx.afterCommas _).bind fun _ => unswayed_pure _

theorem Unswayed.optional (hx : Unswayed x) : Unswayed (optional x) := by
  refine (unswayed_isMark _).bind fun _ => unswayed_ite ?_ (unswayed_pure none)
  exact unswayed_advance.bind fun _ => hx.bind fun v => unswayed_pure (some v)

theorem Unswayed.pair (hx : Unswayed x) : Unswayed (pair x) :=
  hx.bind fun _ => (unswayed_expect _).bind fun _ => hx.bind fun _ => unswayed_pure _

theorem Unswayed.parenthesised {x : Eval α} (hx : Unswayed x) : Unswayed (parenthesised x) :=
  (unswayed_expect _).bind fun _ => hx.bind fun _ => (unswayed_expect _).bind fun _ =>
    unswayed_pure _

theorem Unswayed.placeArguments (hx : Unswayed x) : Unswayed (placeArguments x) := by
  refine hx.bind fun v => ?_
  split
  · refine (unswayed_expect _).bind fun _ => hx.bind fun needle => hx.optional.bind fun start => ?_
    refine (unswayed_ofExcept _).bind fun start => ?_
    dsimp only
    split
    · exact hx.optional.bind fun _ => (unswayed_ofExcept _).bind fun _ => unswayed_pure _
    · exact (unswayed_pure none).bind fun _ => (unswayed_ofExcept _).bind fun _ => unswayed_pure _
  · exact unswayed_line.bind fun _ => unswayed_throw _

end Operands

/-- A product starts with no sign, and so do all expressions. -/
theorem deaf_sum (x : Eval Value) : Deaf (sum x) := by
  have hproduct : Deaf (setSign false >>= fun _ => x) := fun _ _ _ => rfl
  exact (hproduct.bind _).bind _

theorem deaf_logic (x : Eval Value) : Deaf (logic x) := by
  have hinversion : Deaf (inversion x) := by
    intro scope s b
    have hrelation : Deaf (relation x) := (deaf_sum x).bind _
    show (if s.cursor.current.isKeyword .NOT then _ else _ : Eval Value) scope (s.withSign b) =
      (if s.cursor.current.isKeyword .NOT then _ else _ : Eval Value) scope s
    split
    · exact bind_congr (hrelation scope { s with cursor := s.cursor.advance } b) _
    · exact hrelation scope s b
  exact hinversion.bind _

theorem unswayed_randomReal (v : Value) : Unswayed (randomReal v) := by
  have hdraw : Unswayed (draw Generator.nextReal >>= fun y => pure (.real y) : Eval Value) :=
    (unswayed_draw _).bind fun _ => unswayed_pure _
  refine (unswayed_ofExcept _).bind fun b => unswayed_ite ?_ hdraw
  have hseed : Unswayed (modify fun s => { s with generator := reseed v } : Eval Unit) :=
    unswayed_modify fun _ _ => rfl
  exact hseed.bind fun _ => hdraw

theorem unswayed_randomInteger (low high : Value) : Unswayed (randomInteger low high) := by
  refine (unswayed_ofExcept _).bind fun stop => ?_
  refine unswayed_line.bind fun _ => (unswayed_ofExcept _).bind fun a => ?_
  refine unswayed_line.bind fun _ => (unswayed_ofExcept _).bind fun b => ?_
  have hdraw : Unswayed (draw (Generator.nextBelow (b - a).toNat) >>= fun r =>
      pure (.int (a + r)) : Eval Value) :=
    (unswayed_draw _).bind fun _ => unswayed_pure _
  refine unswayed_ite (unswayed_line.bind fun _ => ?_) hdraw
  exact (unswayed_throw _).bind fun _ => hdraw

theorem unswayed_call (nested : Nat → Eval Value) (f : Function) : Unswayed (call nested f) := by
  have hx : Unswayed (sum (nested 3)) := (deaf_sum _).unswayed
  have hresult (r : String → Except Fault Value) : Unswayed (line >>= fun l => ofExcept (r l)) :=
    unswayed_line.bind fun _ => unswayed_ofExcept _
  refine unswayed_advance.bind fun _ => ?_
  dsimp only
  split
  · exact unswayed_pure _
  · exact hx.parenthesised.bind fun v => unswayed_randomReal v
  · exact hx.pair.parenthesised.bind fun ⟨a, b⟩ => unswayed_randomInteger a b
  · exact hx.commaList.parenthesised.bind fun vs => hresult _
  · exact hx.commaList.parenthesised.bind fun vs => hresult _
  · exact hx.pair.parenthesised.bind fun ⟨a, b⟩ => hresult _
  · refine Unswayed.parenthesised ((deaf_logic _).unswayed.bind fun v => ?_)
    exact (unswayed_expect _).bind fun _ => hx.pair.bind fun ⟨a, b⟩ => unswayed_pure _
  · exact hx.pair.parenthesised.bind fun ⟨s, n⟩ => hresult _
  · exact hx.pair.parenthesised.bind fun ⟨s, n⟩ => hresult _
  · refine Unswayed.bind (Unswayed.parenthesised ?_) fun ⟨s, start, count⟩ => hresult _
    refine hx.pair.bind fun ⟨s, i⟩ => (unswayed_ofExcept _).bind fun _ => ?_
    exact hx.optional.bind fun _ => unswayed_pure _
  · exact hx.placeArguments.parenthesised.bind fun ⟨s, needle, start, stop⟩ => hresult _
  · exact hx.parenthesised.bind fun v => hresult _

theorem Deaf.replaceRuntime {x : Eval α} (hx : Deaf x) (f : Fault) : Deaf (replaceRuntime f x) :=
  fun scope s b => replaceRuntime_congr (hx scope s b) f

def signedCell (entry : Entry) (indices : List Value) : Eval Value :=
  match entry with
  | .scalar v => throw (.notAnArray v.kind)
  | .grid g => do
      let v ← ofExcept (g.get (← line) indices)
      pure (v.signed (← sign))

def indexedCell (factor : Eval Value) (entry : Entry) : Eval Value := do
  replaceRuntime (.bareArray (← line)) do
    expectMark .opening
    let indices ← indexList (sum factor)
    signedCell entry indices

def elementFrom (x : Eval Value) (entry : Entry) (line : String) : Eval Value := do
  let v ← replaceRuntime (.bareArray line) (commaList (sum x) >>= signedCell entry)
  advance
  pure v

theorem deaf_elementFrom (x : Eval Value) (entry : Entry) (line : String) :
    Deaf (elementFrom x entry line) := by
  have hindices : Deaf (commaList (sum x)) := (deaf_sum x).bind _
  exact ((hindices.bind _).replaceRuntime _).bind _

section Element

variable {x : Eval Value} {scope : Scope} {s : Scan} {t u w : Token} {ts : List Token}

theorem indexedCell_eq (hrest : s.cursor.rest = u :: w :: ts) (opening : u.isMark .opening)
    (entry : Entry) :
    indexedCell x entry scope s = replaceRuntime (.bareArray scope.line)
      (commaList (sum x) >>= signedCell entry) scope { s with cursor := s.cursor.advance } := by
  have hcurrent : s.cursor.current.category = some (.mark .opening) := by
    rw [Cursor.current_eq hrest]
    exact beq_iff_eq.mp opening
  have hindices :
      (expectMark .opening >>= fun _ => indexList (sum x) >>= signedCell entry) scope s =
      (commaList (sum x) >>= signedCell entry) scope { s with cursor := s.cursor.advance } := by
    rw [expectMark_bind hcurrent]
    show ((if s.cursor.advance.rest.isEmpty then _ else _ : Eval (List Value)) >>= _) scope _ = _
    rw [Cursor.rest_advance hrest]
    rfl
  exact replaceRuntime_congr hindices _

theorem element_eq_indexedCell (x : Eval Value) (entry : Entry) :
    element x entry = (do
      let v ← indexedCell x entry
      advance
      pure v) := by
  cases entry <;> rfl

theorem element_eq (hrest : s.cursor.rest = u :: w :: ts) (opening : u.isMark .opening)
    (entry : Entry) :
    element x entry scope s =
      elementFrom x entry scope.line scope { s with cursor := s.cursor.advance } := by
  rw [element_eq_indexedCell]
  exact bind_congr (indexedCell_eq hrest opening entry) _

theorem element_ok {g : Grid} {indices : List Value} {v : Value} {s' : Scan}
    (hindices : commaList (sum x) scope s = .ok indices s')
    (hv : g.get scope.line indices = .ok v) :
    elementFrom x (.grid g) scope.line scope s =
      .ok (v.signed s'.negative) { s' with cursor := s'.cursor.advance } := by
  have hcell : signedCell (.grid g) indices scope s' = .ok (v.signed s'.negative) s' := by
    show (ofExcept (g.get scope.line indices) >>= _) scope s' = _
    rw [ofExcept_ok_bind hv]
    rfl
  have hruntime : replaceRuntime (.bareArray scope.line)
      (commaList (sum x) >>= signedCell (.grid g)) scope s = .ok (v.signed s'.negative) s' := by
    simp only [replaceRuntime, bind_ok hindices, hcell]
  rw [elementFrom, bind_ok hruntime]
  rfl

end Element

section Factor

variable {scope : Scope} {s : Scan} {t u w : Token} {ts : List Token}

theorem factor_call {f : Function} (function : s.cursor.current.category = some (.function f))
    (depth : Nat) : factor (depth + 1) scope s = call (nested depth) f scope s := by
  rw [factor_succ, factorOf, current_bind, function]

theorem isIndexed_of_opening (hrest : s.cursor.rest = t :: u :: ts) (opening : u.isMark .opening) :
    isIndexed scope s = .ok true s := by
  obtain ⟨⟨last, _, overrun⟩, negative, generator, compared⟩ := s
  cases hrest
  show EStateM.Result.ok (u.isMark .opening) _ = _
  rw [opening]

theorem factor_element {entry : Entry} (hrest : s.cursor.rest = t :: u :: w :: ts)
    (name : t.category = some .name) (opening : u.isMark .opening)
    (array : scope.symbols.get? (Symbols.arrayKey t.lexeme) = some entry) (depth : Nat) :
    factor (depth + 1) scope s = elementFrom (nested depth 2) entry scope.line scope
      { s with cursor := s.cursor.advance.advance } := by
  have hindexed : isIndexed scope s = .ok true s := isIndexed_of_opening hrest opening
  rw [factor_succ, factorOf, current_bind, Cursor.current_eq hrest, name]
  show variableValue _ _ _ _ = _
  rw [variableValue, read_bind, bind_ok hindexed, array]
  exact element_eq (s := { s with cursor := s.cursor.advance }) (Cursor.rest_advance hrest) opening
    entry

theorem factor_sign (hrest : s.cursor.rest = t :: ts) (ht : t.isMark .plus ∨ t.isMark .minus)
    (depth : Nat) : ∃ b, factor (depth + 1) scope s =
      factor depth scope (Scan.withSign { s with cursor := s.cursor.advance } b) := by
  rcases ht with ht | ht
  · refine ⟨s.negative, ?_⟩
    rw [factor_succ, factorOf, current_bind, Cursor.current_eq hrest, beq_iff_eq.mp ht]
    rfl
  · refine ⟨!s.negative, ?_⟩
    rw [factor_succ, factorOf, current_bind, Cursor.current_eq hrest, beq_iff_eq.mp ht]
    rfl

end Factor

end Eval

def Scan.past (s : Scan) (n : Nat) : Scan := { s with cursor := s.cursor.pass n }

namespace Eval

theorem factor_signs {scope : Scope} {s : Scan} {signs ts : List Token}
    (hrest : s.cursor.rest = signs ++ ts)
    (hsigns : ∀ t ∈ signs, t.isMark .plus ∨ t.isMark .minus) (depth : Nat) :
    ∃ b, factor (signs.length + depth) scope s =
      factor depth scope ((s.past signs.length).withSign b) := by
  induction signs generalizing s with
  | nil =>
      rw [List.length_nil, Nat.zero_add]
      exact ⟨s.negative, rfl⟩
  | cons t signs ih =>
      rw [List.forall_mem_cons] at hsigns
      obtain ⟨b, hsign⟩ := @factor_sign scope s t _ hrest hsigns.1 (signs.length + depth)
      obtain ⟨b', hrec⟩ := ih (s := Scan.withSign { s with cursor := s.cursor.advance } b)
        (Cursor.rest_advance hrest) hsigns.2
      refine ⟨b', ?_⟩
      rw [List.length_cons, Nat.add_right_comm, hsign, hrec]
      rfl

/-- The tokens of a call or of an array element, up to its first argument or index at least. -/
inductive Composite (table : Symbols) : List Token → Prop
  | call {t : Token} {ts : List Token} {f : Function} (function : t.category = some (.function f)) :
      Composite table (t :: ts)
  | element {t u w : Token} {ts : List Token} {entry : Entry} (name : t.category = some .name)
      (opening : u.isMark .opening)
      (array : table.get? (Symbols.arrayKey t.lexeme) = some entry) :
      Composite table (t :: u :: w :: ts)

/-- The number that a call gives or that stands in a cell of an array, and the sign that is left
when the indices of the cell are known. -/
inductive Denotes (scope : Scope) (depth : Nat) (s : Scan) : Int → Bool → Prop
  | call {f : Function} {n : Int} {s' : Scan}
      (function : s.cursor.current.category = some (.function f))
      (value : Eval.call (nested depth) f scope s = .ok (.int n) s') :
      Denotes scope depth s n false
  | element {t u w : Token} {ts : List Token} {g : Grid} {indices : List Value} {n : Int}
      {s' : Scan} (rest : s.cursor.rest = t :: u :: w :: ts) (name : t.category = some .name)
      (opening : u.isMark .opening)
      (array : scope.symbols.get? (Symbols.arrayKey t.lexeme) = some (.grid g))
      (read : commaList (sum (nested depth 2)) scope
        { s with cursor := s.cursor.advance.advance } = .ok indices s')
      (cell : g.get scope.line indices = .ok (.int n)) :
      Denotes scope depth s n s'.negative

section Composite

variable {scope : Scope} {s : Scan}

theorem Composite.unswayed (h : Composite scope.symbols s.cursor.rest) (depth : Nat) (b : Bool) :
    mapState Scan.unsigned (factor depth scope (s.withSign b)) =
      mapState Scan.unsigned (factor depth scope s) := by
  cases depth with
  | zero => rfl
  | succ depth =>
      generalize hrest : s.cursor.rest = ts at h
      cases h with
      | @call t ts f function =>
          have hcurrent : s.cursor.current.category = some (.function f) := by
            rw [Cursor.current_eq hrest, function]
          rw [factor_call hcurrent, factor_call (s := s.withSign b) hcurrent]
          exact unswayed_call (nested depth) f scope s b
      | @element t u w ts entry name opening array =>
          -- The first index starts without a sign, so there is no difference from there on.
          rw [factor_element hrest name opening array,
            factor_element (s := s.withSign b) hrest name opening array]
          exact congrArg _ (deaf_elementFrom (nested depth 2) entry scope.line scope
            { s with cursor := s.cursor.advance.advance } b)

theorem Denotes.value {depth : Nat} {n : Int} {left : Bool} (h : Denotes scope depth s n left) :
    value? (factor (depth + 1) scope s) = some ((Value.int n).signed left) := by
  cases h with
  | call function value =>
      rw [factor_call function, value]
      rfl
  | element rest name opening array read cell =>
      rw [factor_element rest name opening array, element_ok read cell]
      rfl

theorem value?_mapState {α : Type} (f : Scan → Scan) (r : EStateM.Result Fault Scan α) :
    value? (mapState f r) = value? r := by
  cases r <;> rfl

end Composite

/-- Signs in front of a call or an array element make no difference. An element has the sign that
its indices leave, and a minus in front negates what stands behind it only where that is 0. -/
theorem factor_behind_signs {scope : Scope} {s : Scan} {signs ts : List Token}
    (hrest : s.cursor.rest = signs ++ ts)
    (hsigns : ∀ t ∈ signs, t.isMark .plus ∨ t.isMark .minus) (hts : Composite scope.symbols ts)
    (depth : Nat) :
    mapState Scan.unsigned (factor (signs.length + (depth + 1)) scope s) =
        mapState Scan.unsigned (factor (depth + 1) scope (s.past signs.length)) ∧
      ∀ n left, Denotes scope depth (s.past signs.length) n left →
        value? (factor (signs.length + (depth + 1)) scope s) = some ((Value.int n).signed left) ∧
        ((value? (factor (depth + 1) scope (s.past signs.length)) = some (.int n) ∧
          value? (factor (signs.length + (depth + 1)) scope s) = some (.int (-n))) ↔ n = 0) := by
  have hcomposite : Composite scope.symbols (s.past signs.length).cursor.rest := by
    rw [Scan.past, Cursor.rest_pass hrest]
    exact hts
  have hsame : mapState Scan.unsigned (factor (signs.length + (depth + 1)) scope s) =
      mapState Scan.unsigned (factor (depth + 1) scope (s.past signs.length)) := by
    obtain ⟨b, hb⟩ := @factor_signs scope s signs ts hrest hsigns (depth + 1)
    rw [hb]
    exact hcomposite.unswayed (depth + 1) b
  refine ⟨hsame, fun n left h => ?_⟩
  have hvalue : value? (factor (signs.length + (depth + 1)) scope s) =
      some ((Value.int n).signed left) := by
    rw [← value?_mapState Scan.unsigned, hsame, value?_mapState, h.value]
  refine ⟨hvalue, ?_⟩
  rw [hvalue, h.value]
  cases left
  · simp [Value.signed]; omega
  · simp [Value.signed]; omega

/-- The last cell of an array holds 7. With a minus for the index, and with or without one in front,
the element comes out as -7. -/
theorem factor_behind_signs_last :
    let minus : Token := .mark .minus "-"
    let element := Token.element "A" [minus, .number "1"]
    let scope : Scope := ⟨[(Symbols.arrayKey "A", .grid ⟨[3], [([2], .int 7)]⟩)], "10"⟩
    let s : Scan := ⟨⟨minus, [minus] ++ element, 0⟩, false, ⟨[], []⟩, []⟩
    Composite scope.symbols element ∧ Denotes scope 4 (s.past 1) 7 true ∧
      value? (factor 5 scope (s.past 1)) = some (.int (-7)) ∧
      value? (factor 6 scope s) = some (.int (-7)) := by
  intro minus element scope s
  have hcomposite : Composite scope.symbols element := .element rfl rfl rfl
  let indices := commaList (sum (nested 4 2)) scope
    { s.past 1 with cursor := (s.past 1).cursor.advance.advance }
  have hread : indices = .ok [.int (-1)] (state indices) := eq_of_value? (by decide +kernel)
  have hleft : (state indices).negative = true := by decide +kernel
  have hcell : Grid.get scope.line ⟨[3], [([2], .int 7)]⟩ [.int (-1)] = .ok (.int 7) := rfl
  have hdenotes : Denotes scope 4 (s.past 1) 7 true := by
    rw [← hleft]
    exact .element rfl rfl rfl rfl hread hcell
  have hsigns : ∀ t ∈ [minus], t.isMark .plus ∨ t.isMark .minus := by decide
  have hbehind := factor_behind_signs (s := s) rfl hsigns hcomposite 4
  exact ⟨hcomposite, hdenotes, hdenotes.value, (hbehind.2 7 true hdenotes).1⟩

/-- A minus in front of a call or an array element is lost, and one in front of an index negates the
element. -/
theorem minus_lost :
    let m : Machine :=
      { Machine.blank with
        symbols := [(Symbols.arrayKey "A", .grid ⟨[3], [([2], .int 7)]⟩)] }
    (state (Machine.runLine "10" (tokensOf "PRINT -ABS(5)") m)).terminal.output = "5\n" ∧
      (state (Machine.runLine "10" (tokensOf "PRINT -A(2)") m)).terminal.output = "7\n" ∧
      (state (Machine.runLine "10" (tokensOf "PRINT A(-1)") m)).terminal.output = "-7\n" := by
  decide +kernel

end Eval

end LineBasic

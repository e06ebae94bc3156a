import LineBasic.Proofs.Evaluation
import LineBasic.Proofs.Lines
import LineBasic.Proofs.UnaryMinus

namespace LineBasic

open Outcome

namespace Eval

/-- A closing parenthesis. The last token of the statement may look like one when the statement has
ended. -/
def closeIndices : Eval Unit := do
  if ← atEnd then throw (.expecting (.mark .closing) (← line))
  expectMark .closing

theorem closeIndices_eq (scope : Scope) (s : Scan) :
    closeIndices scope s =
      if s.cursor.rest.head?.any (·.isMark .closing) then .ok () (s.past 1)
      else .error (.expecting (.mark .closing) scope.line) s := by
  obtain ⟨⟨last, ts, k⟩, negative, generator, compared⟩ := s
  cases ts with
  | nil => rfl
  | cons t ts =>
      show expectMark .closing scope _ = _
      rw [expectMark, expect, category_bind]
      by_cases ht : t.category = some (.mark .closing)
      · simp [Cursor.current, Token.isMark, ht]
        rfl
      · simp [Cursor.current, Token.isMark, ht]
        rfl

def closedElement (factor : Eval Value) (entry : Entry) : Eval Value := do
  let v ← indexedCell factor entry
  closeIndices
  pure v

def closedNested : Nat → Nat → Eval Value := nestedWith closedElement

def closedFactor (room : Nat) : Eval Value := closedNested room 0

def closedValue : Eval Value := logic (closedNested callLimit 5)

def closedArithmetic : Eval Value := sum (closedNested callLimit 2)

def Complains (line : String) (f : Fault) : Prop :=
  f = .expecting (.mark .closing) line ∨ f = .bareArray line

/-- The second reader gives the same outcome as the first, or complains about an index list. -/
def Guarded {α : Type} (x y : Eval α) : Prop := ∀ scope s,
  y scope s = x scope s ∨ ∃ f s', y scope s = .error f s' ∧ Complains scope.line f

section Guarded

variable {α β : Type}

theorem Guarded.refl (x : Eval α) : Guarded x x := fun _ _ => .inl rfl

theorem Guarded.bind {x y : Eval α} {f g : α → Eval β} (h : Guarded x y)
    (hf : ∀ a, Guarded (f a) (g a)) : Guarded (x >>= f) (y >>= g) := by
  intro scope s
  obtain hsame | ⟨e, s', hy, he⟩ := h scope s
  · cases hx : x scope s with
    | error e s' =>
        rw [hx] at hsame
        exact .inl (by rw [bind_error hx, bind_error hsame])
    | ok a s' =>
        rw [hx] at hsame
        rw [bind_ok hx, bind_ok hsame]
        exact hf a scope s'
  · exact .inr ⟨e, s', bind_error hy, he⟩

theorem Guarded.after (x : Eval α) {f g : α → Eval β} (hf : ∀ a, Guarded (f a) (g a)) :
    Guarded (x >>= f) (x >>= g) := (Guarded.refl x).bind hf

theorem Guarded.ite {c : Prop} [Decidable c] {x x' y y' : Eval α} (h : Guarded x y)
    (h' : Guarded x' y') : Guarded (if c then x else x') (if c then y else y') := by
  split
  · exact h
  · exact h'

variable {x y : Eval Value}

theorem Guarded.afterCommas (h : Guarded x y) (n : Nat) :
    Guarded (afterCommas x n) (afterCommas y n) := by
  induction n with
  | zero => exact .refl _
  | succ n ih =>
      refine .after _ fun _ => .ite (.after _ fun _ => ?_) (.refl _)
      exact h.bind fun v => ih.bind fun vs => .refl _

theorem Guarded.commaList (h : Guarded x y) : Guarded (commaList x) (commaList y) :=
  h.bind fun _ => .after _ fun _ => (h.afterCommas _).bind fun _ => .refl _

theorem Guarded.indexList (h : Guarded x y) : Guarded (indexList x) (indexList y) :=
  .after _ fun _ => .ite (.refl _) h.commaList

theorem Guarded.optional (h : Guarded x y) : Guarded (optional x) (optional y) :=
  .after _ fun _ => .ite (.after _ fun _ => h.bind fun _ => .refl _) (.refl _)

theorem Guarded.pair (h : Guarded x y) : Guarded (pair x) (pair y) :=
  h.bind fun _ => .after _ fun _ => h.bind fun _ => .refl _

theorem Guarded.parenthesised {x y : Eval α} (h : Guarded x y) :
    Guarded (parenthesised x) (parenthesised y) :=
  .after _ fun _ => h.bind fun _ => .refl _

theorem Guarded.chain (h : Guarded x y) (operator? : Category → Option Operator) (n : Nat)
    (v : Value) : Guarded (chain x operator? n v) (chain y operator? n v) := by
  induction n generalizing v with
  | zero => exact .refl _
  | succ n ih =>
      refine .after _ fun c => ?_
      cases c.bind operator? with
      | none => exact .refl _
      | some op => exact .after _ fun _ => h.bind fun w => .after _ fun r => ih r

theorem Guarded.level (h : Guarded x y) (operator? : Category → Option Operator) :
    Guarded (level x operator?) (level y operator?) :=
  h.bind fun _ => .after _ fun _ => h.chain operator? _ _

theorem Guarded.sum (h : Guarded x y) : Guarded (sum x) (sum y) :=
  Guarded.level (Guarded.level (.after _ fun _ => h) _) _

theorem Guarded.relation (h : Guarded x y) : Guarded (relation x) (relation y) := by
  refine h.sum.bind fun l => .after _ fun c => ?_
  cases c.bind relating? with
  | none => exact .refl _
  | some rel => exact .after _ fun _ => .after _ fun _ => h.sum.bind fun r => .refl _

theorem Guarded.logic (h : Guarded x y) : Guarded (logic x) (logic y) := by
  refine Guarded.level (.after _ fun _ => .ite ?_ h.relation) _
  exact .after _ fun _ => h.relation.bind fun _ => .refl _

theorem Guarded.placeArguments (h : Guarded x y) :
    Guarded (placeArguments x) (placeArguments y) := by
  refine h.bind fun v => ?_
  cases v with
  | text s =>
      refine .after _ fun _ => h.bind fun needle => h.optional.bind fun start => ?_
      refine .after _ fun start => ?_
      exact .ite (h.optional.bind fun _ => .refl _) (.refl _)
  | _ => exact .refl _

theorem guarded_call {nested closed : Nat → Eval Value} (h : ∀ k, Guarded (nested k) (closed k))
    (f : Function) : Guarded (call nested f) (call closed f) := by
  have hargument : Guarded (sum (nested 3)) (sum (closed 3)) := (h 3).sum
  refine .after _ fun _ => ?_
  cases f with
  | PI => exact .refl _
  | RNDINT | POW | LEFT | RIGHT => exact hargument.pair.parenthesised.bind fun _ => .refl _
  | MAX | MIN => exact hargument.commaList.parenthesised.bind fun _ => .refl _
  | IFF =>
      refine Guarded.parenthesised ((h 6).logic.bind fun _ => .after _ fun _ => ?_)
      exact hargument.pair.bind fun _ => .refl _
  | MID =>
      refine Guarded.bind (Guarded.parenthesised ?_) fun _ => .refl _
      exact hargument.pair.bind fun _ => .after _ fun _ => hargument.optional.bind fun _ => .refl _
  | INSTR => exact hargument.placeArguments.parenthesised.bind fun _ => .refl _
  | _ => exact hargument.parenthesised.bind fun _ => .refl _

theorem Guarded.replaceRuntime {x y : Eval α} (h : Guarded x y) :
    Guarded (line >>= fun l => replaceRuntime (.bareArray l) x)
      (line >>= fun l => replaceRuntime (.bareArray l) y) := by
  intro scope s
  show Eval.replaceRuntime (.bareArray scope.line) y scope s =
    Eval.replaceRuntime (.bareArray scope.line) x scope s ∨ ∃ f s',
      Eval.replaceRuntime (.bareArray scope.line) y scope s = .error f s' ∧ _
  obtain hsame | ⟨f, s', hy, hf⟩ := h scope s
  · exact .inl (replaceRuntime_congr hsame _)
  · have hruntime : f.isRuntime = true := by rcases hf with rfl | rfl <;> rfl
    refine .inr ⟨.bareArray scope.line, s', ?_, .inr rfl⟩
    simp only [Eval.replaceRuntime, hy, hruntime, if_true]

theorem Guarded.indexedCell (h : Guarded x y) (entry : Entry) :
    Guarded (indexedCell x entry) (indexedCell y entry) :=
  Guarded.replaceRuntime (.after _ fun _ => h.sum.indexList.bind fun _ => .refl _)

theorem guarded_closeIndices : Guarded advance closeIndices := by
  intro scope s
  rw [closeIndices_eq]
  split
  · exact .inl rfl
  · exact .inr ⟨_, s, rfl, .inl rfl⟩

theorem Guarded.element (h : Guarded x y) (entry : Entry) :
    Guarded (element x entry) (closedElement y entry) := by
  rw [element_eq_indexedCell]
  exact (h.indexedCell entry).bind fun _ => guarded_closeIndices.bind fun _ => .refl _

theorem Guarded.variableValue (h : Guarded x y) (name : String) :
    Guarded (variableValue (Eval.element x) name) (variableValue (closedElement y) name) := by
  refine .after _ fun scope => .after _ fun indexed => ?_
  cases scope.symbols.get? (Symbols.arrayKey name) with
  | none => exact .refl _
  | some entry =>
      cases indexed with
      | false => exact .refl _
      | true => exact .after _ fun _ => h.element entry

theorem guarded_factorOf {nested closed : Nat → Eval Value}
    (h : ∀ k, Guarded (nested k) (closed k)) :
    Guarded (factorOf element nested) (factorOf closedElement closed) := by
  refine .after _ fun t => ?_
  dsimp only
  split
  · exact .after _ fun _ => h 0
  · exact .after _ fun _ => .after _ fun _ => h 0
  · exact .refl _
  · exact .refl _
  · exact .refl _
  · exact (h 2).variableValue _
  · exact .after _ fun _ => .after _ fun _ => (h 5).logic.bind fun _ => .refl _
  · exact guarded_call h _
  · exact .refl _

theorem guarded_nested (room k : Nat) : Guarded (nested room k) (closedNested room k) := by
  induction room generalizing k with
  | zero => exact .refl _
  | succ room ih =>
      cases k with
      | zero => exact guarded_factorOf ih
      | succ k => exact ih k

theorem guarded_value : Guarded value closedValue := (guarded_nested _ _).logic

theorem guarded_arithmetic : Guarded arithmeticValue closedArithmetic := (guarded_nested _ _).sum

end Guarded

theorem of_bind_ok {α β : Type} {x : Eval α} {f : α → Eval β} {scope : Scope} {s s' : Scan} {b : β}
    (h : (x >>= f) scope s = .ok b s') : ∃ a e, x scope s = .ok a e ∧ f a scope e = .ok b s' :=
  Outcome.of_bind_ok (x := x scope) (f := fun a => f a scope) h

inductive Finds (x : Eval Value) (entry : Entry) (scope : Scope) (s e : Scan) : Value → Prop
  | intro {g : Grid} {indices : List Value} {v : Value} (array : entry = .grid g)
      (read : commaList (sum x) scope s = .ok indices e)
      (cell : g.get scope.line indices = .ok v) : Finds x entry scope s e (v.signed e.negative)

section Element

variable {x : Eval Value} {scope : Scope} {s s' e : Scan} {t u w : Token} {ts : List Token}
  {entry : Entry} {v : Value}

theorem replaceRuntime_ok_iff {x : Eval Value} {f : Fault} :
    replaceRuntime f x scope s = .ok v e ↔ x scope s = .ok v e := by
  unfold replaceRuntime
  cases x scope s with
  | ok a s' => exact Iff.rfl
  | error f s' => exact ⟨nofun, nofun⟩

theorem indexedCell_ok_iff (hrest : s.cursor.rest = u :: w :: ts) (opening : u.isMark .opening) :
    indexedCell x entry scope s = .ok v e ↔ Finds x entry scope (s.past 1) e v := by
  rw [indexedCell_eq hrest opening, replaceRuntime_ok_iff]
  constructor
  · intro h
    obtain ⟨indices, e', hread, hcell⟩ := of_bind_ok h
    cases entry with
    | scalar c => cases hcell
    | grid g =>
        change (ofExcept (g.get scope.line indices) >>= _) scope e' = _ at hcell
        cases hget : g.get scope.line indices with
        | error f =>
            rw [hget] at hcell
            cases hcell
        | ok c =>
            rw [hget] at hcell
            cases hcell
            exact .intro rfl hread hget
  · rintro ⟨rfl, hread, hget⟩
    refine (bind_ok hread).trans ?_
    show (ofExcept (_ : Except Fault Value) >>= _) scope e = _
    rw [ofExcept_ok_bind hget]
    rfl

theorem factorOf_of_opening {element : Eval Value → Entry → Eval Value}
    (hrest : s.cursor.rest = t :: u :: ts) (name : t.category = some .name)
    (opening : u.isMark .opening)
    (array : scope.symbols.get? (Symbols.arrayKey t.lexeme) = some entry)
    (nested : Nat → Eval Value) :
    factorOf element nested scope s = element (nested 2) entry scope (s.past 1) := by
  rw [factorOf, current_bind, Cursor.current_eq hrest, name]
  show variableValue _ _ _ _ = _
  rw [variableValue, read_bind, bind_ok (isIndexed_of_opening hrest opening), array]
  rfl

theorem element_ok_iff (hrest : s.cursor.rest = u :: w :: ts) (opening : u.isMark .opening) :
    element x entry scope s = .ok v s' ↔
      ∃ e, Finds x entry scope (s.past 1) e v ∧ s' = e.past 1 := by
  rw [element_eq_indexedCell]
  constructor
  · intro h
    obtain ⟨c, e, hcell, hclose⟩ := of_bind_ok h
    cases hclose
    exact ⟨e, (indexedCell_ok_iff hrest opening).mp hcell, rfl⟩
  · rintro ⟨e, hfinds, rfl⟩
    exact bind_ok ((indexedCell_ok_iff hrest opening).mpr hfinds)

theorem closedElement_ok_iff (hrest : s.cursor.rest = u :: w :: ts) (opening : u.isMark .opening) :
    closedElement x entry scope s = .ok v s' ↔
      ∃ e, Finds x entry scope (s.past 1) e v ∧ e.cursor.rest.head?.any (·.isMark .closing) ∧
        s' = e.past 1 := by
  constructor
  · intro h
    obtain ⟨c, e, hcell, h⟩ := of_bind_ok h
    obtain ⟨_, e', hclose, hend⟩ := of_bind_ok h
    cases hend
    rw [closeIndices_eq] at hclose
    split at hclose
    · rename_i hclosing
      cases hclose
      exact ⟨e, (indexedCell_ok_iff hrest opening).mp hcell, hclosing, rfl⟩
    · cases hclose
  · rintro ⟨e, hfinds, hclosing, rfl⟩
    have hclose : closeIndices scope e = .ok () (e.past 1) := by
      rw [closeIndices_eq, if_pos hclosing]
    rw [closedElement, bind_ok ((indexedCell_ok_iff hrest opening).mpr hfinds), bind_ok hclose]
    rfl

end Element

end Eval

theorem Cursor.rest_advance_of_nil {c : Cursor} (h : c.rest = []) : c.advance.rest = [] := by
  simp [advance, h]

theorem Cursor.current_advance_of_nil {c : Cursor} (h : c.rest = []) :
    c.advance.current = c.current := by
  simp [current, advance, h]

def Token.Separates (t : Token) : Prop :=
  t.isMark .comma ∨ (t.category.bind Eval.multiplying?).isSome ∨
    (t.category.bind Eval.adding?).isSome

theorem Token.Separates.exists_mark {t : Token} (h : t.Separates) :
    ∃ k, t.category = some (.mark k) ∧
      (k = .plus ∨ k = .minus ∨ k = .comma ∨ k = .times ∨ k = .divide ∨ k = .modulo) := by
  obtain hcomma | hoperator := h
  · exact ⟨.comma, beq_iff_eq.mp hcomma, by simp⟩
  · cases hc : t.category with
    | none => simp [hc] at hoperator
    | some c =>
        cases c with
        | mark k => cases k <;> simp_all [Eval.multiplying?, Eval.adding?]
        | _ => simp [hc, Eval.multiplying?, Eval.adding?] at hoperator

namespace Eval

section Separators

variable {scope : Scope} {s e : Scan} {v : Value}

/-- At the end of a statement the same separator is met again and again. -/
theorem factor_at_end (hend : s.cursor.rest = []) (hseparates : s.cursor.current.Separates)
    (depth : Nat) : factor depth scope s ≠ .ok v e := by
  obtain ⟨k, hcategory, hk⟩ := hseparates.exists_mark
  induction depth generalizing s with
  | zero =>
      intro h
      cases h
  | succ depth ih =>
      have hcurrent := Cursor.current_advance_of_nil hend
      have hagain (b : Bool) := @ih { s with cursor := s.cursor.advance, negative := b }
        (Cursor.rest_advance_of_nil hend) (hcurrent ▸ hseparates) (hcurrent ▸ hcategory)
      rw [factor_succ, factorOf, current_bind, hcategory]
      obtain rfl | rfl | rfl | rfl | rfl | rfl := hk
      · exact hagain s.negative
      · exact hagain !s.negative
      all_goals
        intro h
        cases h

theorem product_at_end (hend : s.cursor.rest = []) (hseparates : s.cursor.current.Separates)
    (depth : Nat) : product (factor depth) scope s ≠ .ok v e := by
  intro h
  obtain ⟨w, e', hfactor, -⟩ := of_bind_ok h
  exact factor_at_end (s := { s with negative := false }) hend hseparates depth hfactor

theorem sum_at_end (hend : s.cursor.rest = []) (hseparates : s.cursor.current.Separates)
    (depth : Nat) : sum (factor depth) scope s ≠ .ok v e := by
  intro h
  obtain ⟨w, e', hproduct, -⟩ := of_bind_ok h
  exact product_at_end hend hseparates depth hproduct

theorem Tame.length_le {α : Type} {x : Eval α} {a : α} (hx : Tame x) (h : x scope s = .ok a e) :
    e.cursor.rest.length ≤ s.cursor.rest.length := by
  have hfollows := hx.follows scope s
  rw [h] at hfollows
  obtain ⟨k, hk⟩ := hfollows.cursor
  have hcursor : e.cursor = s.cursor.pass k := hk
  rw [hcursor, Cursor.length_pass]
  exact Nat.sub_le _ k

/-- Behind a separator an operand is read, and not at the end of the statement. -/
theorem Tame.length_lt {x : Eval Value} (hx : Tame x)
    (hend : s.cursor.rest = [] → x scope { s with cursor := s.cursor.advance } ≠ .ok v e)
    (h : x scope { s with cursor := s.cursor.advance } = .ok v e) :
    e.cursor.rest.length < s.cursor.rest.length := by
  have hlength := hx.length_le h
  have hpos := List.length_pos_iff.mpr fun hrest => hend hrest h
  rw [Cursor.length_advance] at hlength
  omega

/-- A chain ends only where there is no operator of its level: the bound on its operators is not
met first, since each takes a token, and at the end of the statement no operand follows one. -/
theorem chain_stops {x : Eval Value} {operator? : Category → Option Operator} {P : Scan → Prop}
    (hx : Tame x) (hP : ∀ {s w e}, x scope s = .ok w e → P e)
    (hend : ∀ {s w e}, s.cursor.rest = [] → (s.cursor.current.category.bind operator?).isSome →
      x scope s ≠ .ok w e)
    {n : Nat} {w : Value} (hn : s.cursor.rest.length < n) (hs : P s)
    (h : chain x operator? n v scope s = .ok w e) :
    P e ∧ e.cursor.current.category.bind operator? = none := by
  induction n generalizing s v with
  | zero => cases hn
  | succ n ih =>
      cases hop : s.cursor.current.category.bind operator? with
      | none =>
          rw [chain_end hop] at h
          cases h
          exact ⟨hs, hop⟩
      | some op =>
          obtain ⟨c, hc, hcop⟩ := Option.bind_eq_some_iff.mp hop
          rw [chain_operator hc hcop] at h
          obtain ⟨u, s₁, hoperand, h⟩ := of_bind_ok h
          have hlength := hx.length_lt (fun hrest => hend (Cursor.rest_advance_of_nil hrest) (by
            simp [Cursor.current_advance_of_nil hrest, hop])) hoperand
          cases hr : op v u with
          | error f =>
              rw [hr] at h
              cases h
          | ok r =>
              rw [ofExcept_ok_bind hr] at h
              exact ih (by omega) (hP hoperand) h

theorem level_stops {x : Eval Value} {operator? : Category → Option Operator} {P : Scan → Prop}
    (hx : Tame x) (hP : ∀ {s w e}, x scope s = .ok w e → P e)
    (hend : ∀ {s w e}, s.cursor.rest = [] → (s.cursor.current.category.bind operator?).isSome →
      x scope s ≠ .ok w e)
    (h : level x operator? scope s = .ok v e) :
    P e ∧ e.cursor.current.category.bind operator? = none := by
  obtain ⟨w, s₁, hoperand, h⟩ := of_bind_ok h
  rw [remaining_bind] at h
  exact chain_stops hx hP hend (Nat.lt_succ_self _) (hP hoperand) h

theorem sum_stops {depth : Nat} (h : sum (factor depth) scope s = .ok v e) :
    e.cursor.current.category.bind multiplying? = none ∧
      e.cursor.current.category.bind adding? = none := by
  have hsigned : Tame (setSign false >>= fun _ => factor depth) :=
    (tame_setSign false).bind fun _ => tame_factor depth
  have hproduct {s e : Scan} {w : Value} (h : product (factor depth) scope s = .ok w e) :
      e.cursor.current.category.bind multiplying? = none := by
    refine (level_stops (P := fun _ => True) hsigned (fun _ => trivial) ?_ h).2
    intro s w e hrest hop
    exact factor_at_end (s := { s with negative := false }) hrest (.inr (.inl hop)) depth
  exact level_stops (P := fun e => e.cursor.current.category.bind multiplying? = none)
    (hsigned.level fun _ _ => ordinary_multiplying) hproduct
    (fun hrest hop => product_at_end hrest (.inr (.inr hop)) depth) h

theorem afterCommas_stops {depth n : Nat} {vs : List Value} (hn : s.cursor.rest.length < n)
    (hs : s.cursor.current.category.bind multiplying? = none ∧
      s.cursor.current.category.bind adding? = none)
    (h : afterCommas (sum (factor depth)) n scope s = .ok vs e) : ¬ e.cursor.current.Separates := by
  induction n generalizing s vs with
  | zero => cases hn
  | succ n ih =>
      by_cases hcomma : s.cursor.current.isMark .comma
      · change (if s.cursor.current.isMark .comma then _ else _ : Eval (List Value)) scope s = _
          at h
        rw [if_pos hcomma] at h
        obtain ⟨_, s₁, hadvance, h⟩ := of_bind_ok h
        cases hadvance
        obtain ⟨v, s₂, hoperand, h⟩ := of_bind_ok h
        obtain ⟨us, s₃, hmore, h⟩ := of_bind_ok h
        cases h
        have hlength := (tame_factor depth).sum.length_lt (fun hrest =>
          sum_at_end (Cursor.rest_advance_of_nil hrest)
            (.inl (by rwa [Cursor.current_advance_of_nil hrest])) depth) hoperand
        exact ih (by omega) (sum_stops hoperand) hmore
      · change (if s.cursor.current.isMark .comma then _ else _ : Eval (List Value)) scope s = _
          at h
        rw [if_neg hcomma] at h
        cases h
        rintro (hc | hc | hc)
        · exact hcomma hc
        · simp [hs.1] at hc
        · simp [hs.2] at hc

theorem commaList_stops {depth : Nat} {vs : List Value}
    (h : commaList (sum (factor depth)) scope s = .ok vs e) : ¬ e.cursor.current.Separates := by
  obtain ⟨v, s₁, hoperand, h⟩ := of_bind_ok h
  rw [remaining_bind] at h
  obtain ⟨us, s₂, hmore, h⟩ := of_bind_ok h
  cases h
  exact afterCommas_stops (Nat.lt_succ_self _) (sum_stops hoperand) hmore

end Separators

/-- An array element is read wherever its indices are and its cell is there. What stands behind the
last index makes no difference: one token is passed over, which can be any but a comma or an
arithmetic operator, or there is none. A closing parenthesis is asked for only by the other reader,
and in no expression, however nested, do the two differ in anything else. -/
theorem factor_element_ok_iff {scope : Scope} {s : Scan} {t u w : Token} {ts : List Token}
    {entry : Entry} (hrest : s.cursor.rest = t :: u :: w :: ts) (name : t.category = some .name)
    (opening : u.isMark .opening)
    (array : scope.symbols.get? (Symbols.arrayKey t.lexeme) = some entry) (room : Nat) (v : Value)
    (s' : Scan) :
    (factor (room + 1) scope s = .ok v s' ↔
      ∃ e, Finds (nested room 2) entry scope (s.past 2) e v ∧ s' = e.past 1) ∧
    (∀ e, Finds (nested room 2) entry scope (s.past 2) e v → ¬ e.cursor.current.Separates) ∧
    (closedFactor (room + 1) scope s = .ok v s' ↔
      ∃ e, Finds (closedNested room 2) entry scope (s.past 2) e v ∧
        e.cursor.rest.head?.any (·.isMark .closing) ∧ s' = e.past 1) ∧
    Guarded value closedValue ∧ Guarded arithmeticValue closedArithmetic := by
  have hindices : (s.past 1).cursor.rest = u :: w :: ts := Cursor.rest_advance hrest
  refine ⟨?_, ?_, ?_, guarded_value, guarded_arithmetic⟩
  · rw [factor_succ, factorOf_of_opening hrest name opening array]
    exact element_ok_iff hindices opening
  · rintro e ⟨-, hread, -⟩
    rw [nested_eq_factor] at hread
    exact commaList_stops hread
  · have hfactor : closedFactor (room + 1) = factorOf closedElement (closedNested room) := rfl
    rw [hfactor, factorOf_of_opening hrest name opening array]
    exact closedElement_ok_iff hindices opening

/-- The list of the element inside is closed, and the one around it is not. -/
theorem factor_element_ok_iff_nested :
    let ts : List Token := .name "A" :: .mark .opening "(" :: Token.element "B" [.number "1"]
    let a : Grid := ⟨[3], [([2], .int 7)]⟩
    let b : Grid := ⟨[3], [([1], .int 2)]⟩
    let scope : Scope := ⟨[(Symbols.arrayKey "A", .grid a), (Symbols.arrayKey "B", .grid b)], "10"⟩
    let s : Scan := ⟨⟨.name "A", ts, 0⟩, false, ⟨[], []⟩, []⟩
    (∃ e, factor 7 scope s = .ok (.int 7) (Scan.past e 1) ∧ e.cursor.rest = []) ∧
      value? (closedFactor 7 scope s) = none ∧
      ∃ s', closedFactor 4 scope (s.past 2) = .ok (.int 2) s' := by
  intro ts a b scope s
  let indices := commaList (sum (nested 6 2)) scope (s.past 2)
  have hread : indices = .ok [.int 2] (state indices) := eq_of_value? (by decide +kernel)
  have hcell : a.get scope.line [.int 2] = .ok (.int 7) := rfl
  have hsign : (state indices).negative = false := by decide +kernel
  have hfinds : Finds (nested 6 2) (.grid a) scope (s.past 2) (state indices) (.int 7) := by
    have hx := Finds.intro rfl hread hcell
    rwa [hsign] at hx
  have harray : scope.symbols.get? (Symbols.arrayKey "A") = some (.grid a) := rfl
  have houter := factor_element_ok_iff (s := s) (t := .name "A") rfl rfl rfl harray 6 (.int 7)
    (Scan.past (state indices) 1)
  refine ⟨⟨state indices, houter.1.mpr ⟨_, hfinds, rfl⟩, by decide +kernel⟩, by decide +kernel, ?_⟩
  exact ⟨_, eq_of_value? (by decide +kernel)⟩

/-- The parenthesis is missing, or there is a word in its place. -/
theorem element_left_open :
    let m : Machine :=
      { Machine.blank with
        symbols := [(Symbols.arrayKey "A", .grid ⟨[3], [([1], .int 7)]⟩)] }
    (state (Machine.runLine "10" (tokensOf "PRINT A(1)") m)).terminal.output = "7\n" ∧
      (state (Machine.runLine "10" (tokensOf "PRINT A(1") m)).terminal.output = "7\n" ∧
      (state (Machine.runLine "10" (tokensOf "PRINT A(1 THEN") m)).terminal.output = "7\n" := by
  decide +kernel

end Eval

end LineBasic

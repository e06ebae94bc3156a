import LineBasic.Proofs.Evaluation
import LineBasic.Proofs.Formula.Readable

namespace LineBasic

open Outcome

def Without (m : Mark) (fs : List Face) : Prop := ∀ f ∈ fs, f.1 ≠ some (.mark m)

theorem Without.tokens {m : Mark} {ts : List Token} (h : Without m (ts.map Token.face)) {t : Token}
    (ht : t ∈ ts) : t.category ≠ some (.mark m) :=
  h t.face (List.mem_map_of_mem ht)

theorem splitColons_of_without {ts : List Token} (h : Without .colon (ts.map Token.face)) :
    splitColons ts = [ts] := by
  induction ts with
  | nil => rfl
  | cons t ts ih =>
      rw [List.map_cons, Without, List.forall_mem_cons] at h
      have ht : ¬ t.isMark .colon := fun hc => h.1 (beq_iff_eq.mp hc)
      rw [splitColons, if_neg ht, ih h.2]

theorem Machine.runLine_of_split {site : Site} {tokens : List Token} {m : Machine}
    (h : splitColons tokens = [tokens]) :
    runLine site tokens m = runPart { site with after := 0 } tokens m := by
  rw [runLine, h, runParts, List.length_nil]
  cases hpart : runPart { site with after := 0 } tokens m with
  | error f m' => rw [bind_error hpart]
  | ok flow m' =>
      rw [bind_ok hpart]
      cases flow <;> rfl

theorem Machine.runLine_single {site : Site} {t : Token} {ts : List Token} {m m' : Machine}
    {c : Cursor} {flow : Flow} (h : splitColons (t :: ts) = [t :: ts])
    (hs : Exec.statement { site with after := 0 } ⟨⟨t, t :: ts, 0⟩, m⟩ =
      .ok (some flow) ⟨c, m'⟩) :
    runLine site (t :: ts) m = .ok (some flow) m' := by
  rw [runLine_of_split h, runPart, Cursor.start?]
  dsimp only
  rw [hs]

def Machine.setInt (m : Machine) (name : String) (n : Int) : Machine :=
  { m with symbols := m.symbols.insert name (.int n) }

structure IntLiteral where
  negative : Bool
  numeral : Numeral

namespace IntLiteral

def value (l : IntLiteral) : Int := if l.negative then -l.numeral.value else l.numeral.value

def tree (l : IntLiteral) : Arith :=
  if l.negative then .signed true (.numeral l.numeral) else .numeral l.numeral

def faces (l : IntLiteral) : List Face := l.tree.render 3

theorem outcome_tree (l : IntLiteral) (env : String → Int) (room : Nat) :
    l.tree.outcome env 3 false (room + 2) = .ok (.int l.value) := by
  obtain ⟨negative, n⟩ := l
  cases negative <;> rfl

theorem names_tree (l : IntLiteral) : l.tree.names = [] := by
  obtain ⟨negative, n⟩ := l
  cases negative <;> rfl

theorem faces_ne_nil (l : IntLiteral) : l.faces ≠ [] := by
  obtain ⟨negative, n⟩ := l
  cases negative <;> simp [faces, tree, Arith.render]

theorem without_faces (l : IntLiteral) {m : Mark} (h : m ≠ .minus) : Without m l.faces := by
  obtain ⟨negative, n⟩ := l
  cases negative <;> simp [Without, faces, tree, Arith.render, h.symm]

end IntLiteral

structure Loop where
  name : String
  first : IntLiteral
  last : IntLiteral
  step : IntLiteral
  numeric : Symbols.isTextName name = false
  step_ne : step.value ≠ 0

namespace Loop

variable (l : Loop)

def headFaces : List Face :=
  (some (.keyword .FOR), "FOR") :: (some .name, l.name) :: (some (.mark .equals), "=") ::
    (l.first.faces ++ (some (.keyword .TO), "TO") ::
      (l.last.faces ++ (some (.keyword .STEP), "STEP") :: l.step.faces))

def tailFaces : List Face := [(some (.keyword .NEXT), "NEXT"), (some .name, l.name)]

def count : Nat := ((l.last.value - l.first.value).fdiv l.step.value + 1).toNat

def valueAt (i : Nat) : Int := l.first.value + i * l.step.value

def past (x : Int) : Bool :=
  if l.step.value < 0 then x < l.last.value else l.last.value < x

/-- What stands in the head of the loop after its equals sign. -/
theorem without_bounds {m : Mark} (h : m ≠ .minus) :
    Without m (l.first.faces ++ (some (.keyword .TO), "TO") ::
      (l.last.faces ++ (some (.keyword .STEP), "STEP") :: l.step.faces)) := by
  simp only [Without, List.forall_mem_append, List.forall_mem_cons]
  refine ⟨l.first.without_faces h, ?_, l.last.without_faces h, ?_, l.step.without_faces h⟩
  · simp
  · simp

theorem valueAt_zero : l.valueAt 0 = l.first.value := by simp [valueAt]

theorem valueAt_succ (i : Nat) : l.valueAt (i + 1) = l.valueAt i + l.step.value := by
  rw [valueAt, valueAt, Int.natCast_succ, Int.add_mul, Int.one_mul, Int.add_assoc]

/-- The loop variable is past its last value from the pass on that is not made any more. -/
theorem past_valueAt (i : Nat) : l.past (l.valueAt i) ↔ l.count ≤ i := by
  have hcount : l.count ≤ i ↔ (l.last.value - l.first.value).fdiv l.step.value < i := by
    rw [count, Int.toNat_le]
    exact Int.add_one_le_iff
  rw [hcount, past, valueAt]
  -- Floor division is by a positive number once both sides of a downward loop are negated.
  rcases Int.lt_or_gt_of_ne l.step_ne with hs | hs
  · rw [if_pos hs, decide_eq_true_iff, ← Int.neg_fdiv_neg,
      Int.fdiv_eq_ediv_of_nonneg _ (by omega), Int.ediv_lt_iff_lt_mul (by omega), Int.mul_neg]
    omega
  · rw [if_neg (by omega), decide_eq_true_iff, Int.fdiv_eq_ediv_of_nonneg _ (by omega),
      Int.ediv_lt_iff_lt_mul hs]
    omega

end Loop

namespace Exec

variable {α : Type} {site : Site} {j : Job}

theorem arithmetic_eq : arithmetic = evaluate (Eval.sum (Eval.factor 978)) := by
  rw [arithmetic, Eval.arithmeticValue_eq]

theorem arithmetic_literal (l : IntLiteral) {ts rest : List Token}
    (hts : ts.map Token.face = l.faces) (hj : j.cursor.rest = ts ++ rest)
    (hr : Eval.Stops 3 rest) (hsigns : Without .equals (j.cursor.rest.map Token.face)) :
    arithmetic site j = .ok (.int l.value) { j with cursor := j.cursor.pass ts.length } := by
  have hbound : Arith.Bound ⟨j.machine.symbols, site.label⟩ (fun _ => 0) l.tree.names := by
    rw [l.names_tree]
    intro x hx
    cases hx
  have hsum := Arith.reads_sum ((l.tree.readable hbound).sum 978)
  rw [l.outcome_tree] at hsum
  obtain ⟨negative, compared, he⟩ :=
    hsum ⟨j.cursor, false, j.machine.generator, []⟩ ts rest hts hj hr
  have hne : j.cursor.rest ≠ [] := by
    rintro h
    rw [h] at hj
    obtain ⟨rfl, -⟩ := List.append_eq_nil_iff.mp hj.symm
    exact l.faces_ne_nil hts.symm
  -- There is no equals sign that the evaluation could note.
  have hnone : compared = [] := by
    have hnil := (Eval.tame_factor 978).sum.compared_eq_nil
      ⟨j.machine.symbols, site.label⟩ (s := ⟨j.cursor, false, j.machine.generator, []⟩) rfl
      (Cursor.not_hasSign hne fun t ht => hsigns.tokens ht)
    rwa [he] at hnil
  rw [arithmetic_eq, evaluate, he]
  dsimp only
  rw [j.machine.evaluated_of_nil site hnone]

theorem arithmetic_long {n column : Nat} (h : Decimal.digitLimit < n) {rest : List Token}
    (hj : j.cursor.rest = ⟨column, some .integer, String.ofList (List.replicate n '1')⟩ :: rest)
    (hr : Eval.Stops 3 rest) : ∃ j', arithmetic site j = .error (.digitsFromText n) j' := by
  have hsum := Formula.reads_sum_long ⟨j.machine.symbols, site.label⟩ 977 n h
  obtain ⟨s', he⟩ := hsum ⟨j.cursor, false, j.machine.generator, []⟩ [_] rest rfl hj hr
  exact ⟨_, by rw [arithmetic_eq, evaluate, he]⟩

theorem loopStep_literal (l : IntLiteral) (hl : l.value ≠ 0) {t : Token} {ts : List Token}
    (ht : t.category = some (.keyword .STEP)) (hts : ts.map Token.face = l.faces)
    (hj : j.cursor.rest = t :: ts) :
    loopStep site j = .ok (.int l.value, !decide (l.value < 0))
      { j with cursor := j.cursor.pass (ts.length + 1) } := by
  have hnot : j.cursor.atEnd = false := by rw [Cursor.atEnd, hj]; rfl
  have hrest : j.cursor.advance.rest = ts ++ [] := by rw [Cursor.rest_advance hj, List.append_nil]
  have harith : arithmetic site { j with cursor := j.cursor.advance } = _ :=
    arithmetic_literal l hts hrest (fun t ht => by cases ht) <| by
      rw [hrest, List.append_nil, hts]
      exact l.without_faces (by decide)
  have hzero : ¬ (Value.int l.value).isZero = true := by
    rwa [Value.isZero, Value.same_int]
  rw [loopStep, atEnd_bind, hnot, if_neg (by decide), expectKeyword,
    expect_bind (by rw [Cursor.current_eq hj, ht]), bind_ok harith]
  dsimp only
  rw [if_neg hzero, Relation.relate_int]
  rfl

def settle (name : String) (last : Value) (up : Bool) (v : Value) : Exec Flow := do
  assign name v
  let past ← ofExcept (v.relate (if up then .greater else .less) last)
  pure (if past then .loopSkip (.text name) else .loopBegin)

def turn (name : String) (first last step : Value) (up : Bool) : Exec Flow := do
  if (← machine).lastFlow = some .loopRepeat then
    let v ← stepped name step
    settle name last up v
  else settle name last up first

end Exec

namespace Loop

variable {l : Loop} {site : Site} {m : Machine} {tokens : List Token} {x : Int} {c : Cursor}

/-- The value that the head of the loop gives to the loop variable: the first one, or the next one
if it is reached from the end of the loop. -/
def Turns (l : Loop) (m : Machine) (x : Int) : Prop :=
  if m.lastFlow = some .loopRepeat then
    m.symbols.get? l.name = some (.scalar (.int (x - l.step.value)))
  else x = l.first.value

theorem turns_first (h : m.lastFlow ≠ some .loopRepeat) : l.Turns m (l.valueAt 0) := by
  rw [Turns, if_neg h, l.valueAt_zero]

theorem turns_next {i : Nat} (h : m.symbols.get? l.name = some (.scalar (.int (l.valueAt i)))) :
    l.Turns (m.withFlow (some .loopRepeat)) (l.valueAt (i + 1)) := by
  have hlast : (m.withFlow (some .loopRepeat)).lastFlow = some .loopRepeat := rfl
  rw [Turns, if_pos hlast, l.valueAt_succ, Int.add_sub_cancel]
  exact h

def signal (l : Loop) (x : Int) : Flow :=
  if l.past x then .loopSkip (.text l.name) else .loopBegin

theorem settle_eq :
    Exec.settle l.name (.int l.last.value) (!decide (l.step.value < 0)) (.int x) site ⟨c, m⟩ =
      .ok (l.signal x) ⟨c, m.setInt l.name x⟩ := by
  have hpast : (Value.int x).relate (if !decide (l.step.value < 0) then .greater else .less)
      (.int l.last.value) = .ok (l.past x) := by
    rw [Relation.relate_int, past]
    by_cases hs : l.step.value < 0 <;> simp [hs, Relation.test]
  rw [Exec.settle, hpast]
  rfl

theorem turn_eq (hx : l.Turns m x) :
    Exec.turn l.name (.int l.first.value) (.int l.last.value) (.int l.step.value)
      (!decide (l.step.value < 0)) site ⟨c, m⟩ =
      .ok (l.signal x) ⟨c, m.setInt l.name x⟩ := by
  rw [Turns] at hx
  rw [Exec.turn, Exec.machine_bind, ← settle_eq]
  by_cases hrepeat : m.lastFlow = some .loopRepeat
  · rw [if_pos hrepeat] at hx ⊢
    have hstepped : Exec.stepped l.name (.int l.step.value) site ⟨c, m⟩ = .ok (.int x) ⟨c, m⟩ := by
      rw [Exec.stepped, Exec.machine_bind, hx]
      show EStateM.Result.ok (Value.int (x - l.step.value + l.step.value)) _ = _
      rw [Int.sub_add_cancel]
    rw [Exec.bind_ok hstepped]
  · rw [if_neg hrepeat] at hx ⊢
    rw [hx]

theorem loopHead_eq (site : Site) (ht : c.rest.map Token.face = l.headFaces) (hx : l.Turns m x) :
    ∃ c', Exec.loopHead site ⟨c, m⟩ =
      .ok (l.signal x) ⟨c', m.setInt l.name x⟩ := by
  -- `FOR`, the name, `=`, the first value, `TO`, the last value, `STEP`, the step.
  obtain ⟨t₁, ts, h₁, hf₁, ht⟩ := List.map_eq_cons_iff.mp ht
  obtain ⟨t₂, ts, rfl, hf₂, ht⟩ := List.map_eq_cons_iff.mp ht
  obtain ⟨t₃, ts, rfl, hf₃, ht⟩ := List.map_eq_cons_iff.mp ht
  obtain ⟨as, ts, rfl, ha, ht⟩ := List.map_eq_append_iff.mp ht
  obtain ⟨t₄, ts, rfl, hf₄, ht⟩ := List.map_eq_cons_iff.mp ht
  obtain ⟨bs, ts, rfl, hb, ht⟩ := List.map_eq_append_iff.mp ht
  obtain ⟨t₅, ss, rfl, hf₅, hs⟩ := List.map_eq_cons_iff.mp ht
  have h₂ := Cursor.rest_advance h₁
  have h₃ := Cursor.rest_advance h₂
  have h₄ := Cursor.rest_advance h₃
  have h₅ := Cursor.rest_pass h₄
  have h₆ := Cursor.rest_advance h₅
  have h₇ := Cursor.rest_pass h₆
  have hsigns : Without .equals (c.advance.advance.advance.rest.map Token.face) := by
    have hbounds := l.without_bounds (m := .equals) (by decide)
    simpa [h₄, ha, hb, hs, hf₄, hf₅] using hbounds
  have hrest : Without .equals ((c.advance.advance.advance.pass as.length).advance.rest.map
      Token.face) := by
    rw [h₄, List.map_append, List.map_cons] at hsigns
    rw [h₆]
    exact fun f hf => hsigns f (List.mem_append_right _ (List.mem_cons_of_mem _ hf))
  have hfirst : Exec.arithmetic site ⟨c.advance.advance.advance, m⟩ = _ :=
    Exec.arithmetic_literal l.first ha h₄ (Eval.stops_cons (by rw [hf₄]; decide)) hsigns
  have hlast : Exec.arithmetic site ⟨(c.advance.advance.advance.pass as.length).advance, m⟩ = _ :=
    Exec.arithmetic_literal l.last hb h₆ (Eval.stops_cons (by rw [hf₅]; decide)) hrest
  have hstep : Exec.loopStep site
      ⟨(c.advance.advance.advance.pass as.length).advance.pass bs.length, m⟩ = _ :=
    Exec.loopStep_literal l.step l.step_ne (Token.face_eq.mp hf₅).1 hs h₇
  have hname : c.advance.current.lexeme = l.name := by
    rw [Cursor.current_eq h₂, (Token.face_eq.mp hf₂).2]
  have hequals : c.advance.advance.current.category = some (.mark .equals) := by
    rw [Cursor.current_eq h₃, (Token.face_eq.mp hf₃).1]
  have hto : (c.advance.advance.advance.pass as.length).current.category =
      some (.keyword .TO) := by
    rw [Cursor.current_eq h₅, (Token.face_eq.mp hf₄).1]
  refine ⟨((c.advance.advance.advance.pass as.length).advance.pass bs.length).pass (ss.length + 1),
    ?_⟩
  rw [← turn_eq hx, Exec.loopHead, Exec.advance_bind, Exec.lexeme_bind, hname]
  dsimp only
  rw [if_neg (by rw [l.numeric]; decide), Exec.advance_bind, Exec.expectMark,
    Exec.expect_bind hequals, Exec.bind_ok hfirst, Exec.expectKeyword, Exec.expect_bind hto,
    Exec.bind_ok hlast, Exec.bind_ok hstep]
  rfl

theorem colonless_head (l : Loop) : Without .colon l.headFaces := by
  simp only [headFaces, Without, List.forall_mem_cons]
  exact ⟨by decide, by decide, by decide, l.without_bounds (by decide)⟩

theorem colonless_tail (l : Loop) : Without .colon l.tailFaces := by
  simp [Without, tailFaces]

theorem runLine_head (ht : tokens.map Token.face = l.headFaces) (hx : l.Turns m x) :
    Machine.runLine site tokens m =
      .ok (some (l.signal x)) (m.setInt l.name x) := by
  have hsplit := splitColons_of_without (ht ▸ l.colonless_head)
  obtain ⟨t, ts, rfl, hf, -⟩ := List.map_eq_cons_iff.mp ht
  have hrest : (⟨t, t :: ts, 0⟩ : Cursor).rest.map Token.face = l.headFaces := ht
  obtain ⟨c', hhead⟩ := loopHead_eq { site with after := 0 } hrest hx
  have hcategory : (⟨t, t :: ts, 0⟩ : Cursor).current.category = some (.keyword .FOR) :=
    (Token.face_eq.mp hf).1
  have hs : Exec.statement { site with after := 0 } ⟨⟨t, t :: ts, 0⟩, m⟩ =
      .ok (some (l.signal x)) ⟨c', m.setInt l.name x⟩ := by
    rw [Exec.statement, Exec.current_bind, hcategory]
    exact Exec.bind_ok hhead
  exact Machine.runLine_single hsplit hs

theorem runLine_tail (ht : tokens.map Token.face = l.tailFaces) :
    Machine.runLine site tokens m = .ok (some .loopRepeat) m := by
  have hsplit := splitColons_of_without (ht ▸ l.colonless_tail)
  obtain ⟨t, ts, rfl, hf, -⟩ := List.map_eq_cons_iff.mp ht
  have hcategory : (⟨t, t :: ts, 0⟩ : Cursor).current.category = some (.keyword .NEXT) :=
    (Token.face_eq.mp hf).1
  have hs : Exec.statement { site with after := 0 } ⟨⟨t, t :: ts, 0⟩, m⟩ =
      .ok (some .loopRepeat) ⟨⟨t, ts, 0⟩, m⟩ := by
    rw [Exec.statement, Exec.current_bind, hcategory]
    rfl
  exact Machine.runLine_single hsplit hs

def longHead (x : String) (n : Nat) : List Token :=
  [.word .FOR "FOR", .name x, .mark .equals "=", .number (String.ofList (List.replicate n '1')),
    .word .TO "TO", .number "1", .word .STEP "STEP", .number "1"]

theorem runLine_longHead {x : String} (hx : Symbols.isTextName x = false) {n : Nat}
    (h : Decimal.digitLimit < n) :
    ∃ m', Machine.runLine site (longHead x n) m = .error (.digitsFromText n) m' := by
  have hsplit : splitColons (longHead x n) = [longHead x n] :=
    splitColons_of_without (by
      simp [Without, longHead, Token.face, Token.word, Token.name, Token.mark, Token.number])
  let c : Cursor := ⟨.word .FOR "FOR", longHead x n, 0⟩
  obtain ⟨j, harith⟩ :
      ∃ j, Exec.arithmetic { site with after := 0 } ⟨c.advance.advance.advance, m⟩ =
        .error (.digitsFromText n) j :=
    Exec.arithmetic_long h rfl
      (Eval.stops_cons (by simp [Face.binding, Token.face, Token.word, Category.binding]))
  have hhead : Exec.loopHead { site with after := 0 } ⟨c, m⟩ = .error (.digitsFromText n) j := by
    have hname : c.advance.current.lexeme = x := rfl
    rw [Exec.loopHead, Exec.advance_bind, Exec.lexeme_bind, hname]
    dsimp only
    rw [if_neg (by rw [hx]; decide), Exec.advance_bind, Exec.expectMark, Exec.expect_bind rfl,
      Exec.bind_error harith]
  have hcategory : c.current.category = some (.keyword .FOR) := rfl
  have hstatement :
      Exec.statement { site with after := 0 } ⟨c, m⟩ = .error (.digitsFromText n) j := by
    rw [Exec.statement, Exec.current_bind, hcategory]
    exact Exec.bind_error hhead
  have hpart : Machine.runPart { site with after := 0 } (longHead x n) m =
      .error (.digitsFromText n) j.machine := by
    have hstart : Cursor.start? (longHead x n) = some c := rfl
    simp only [Machine.runPart, hstart, hstatement]
  refine ⟨j.machine, ?_⟩
  rw [Machine.runLine, hsplit, Machine.runParts, List.length_nil, Outcome.bind_error hpart]

end Loop

end LineBasic

import LineBasic.Proofs.Evaluation
import LineBasic.Proofs.Grammar
import LineBasic.Proofs.Numeral

namespace LineBasic

namespace Eval

variable {scope : Scope} {s s' : Scan} {v : Value} {f : Fault}

section Levels

variable {x : Eval Value}

theorem level_ok {operator? : Category → Option Operator} (h : x scope s = .ok v s')
    (hend : s'.cursor.current.category.bind operator? = none) :
    level x operator? scope s = .ok v s' := by
  rw [level, bind_ok h, remaining_bind, chain_end hend]

theorem level_error {operator? : Category → Option Operator} (h : x scope s = .error f s') :
    level x operator? scope s = .error f s' := by
  rw [level, bind_error h]

theorem sum_ok (h : x scope { s with negative := false } = .ok v s')
    (hend : s'.cursor.current.face.binding < 3) : sum x scope s = .ok v s' := by
  have hproduct : product x scope s = .ok v s' :=
    level_ok h (bind_category_eq_none multiplying?_eq_none (by omega))
  exact level_ok hproduct (bind_category_eq_none adding?_eq_none hend)

theorem sum_error (h : x scope { s with negative := false } = .error f s') :
    sum x scope s = .error f s' := by
  have hproduct : product x scope s = .error f s' := level_error h
  exact level_error hproduct

theorem inversion_eq (h : s.cursor.current.isKeyword .NOT = false) :
    inversion x scope s = relation x scope s := by
  have hnot : isKeyword .NOT scope s = .ok false s := by
    rw [← h]
    rfl
  rw [inversion, bind_ok hnot]
  rfl

theorem logic_ok (hnot : s.cursor.current.isKeyword .NOT = false)
    (h : x scope { s with negative := false } = .ok v s')
    (hend : s'.cursor.current.face.binding = 0) : logic x scope s = .ok v s' := by
  have hrelation : relation x scope s = .ok v s' := by
    rw [relation, bind_ok (sum_ok h (by omega)), category_bind,
      bind_category_eq_none relating?_eq_none (by omega)]
    rfl
  refine level_ok ?_ (bind_category_eq_none joining?_eq_none (by omega))
  rw [inversion_eq hnot, hrelation]

theorem logic_error (hnot : s.cursor.current.isKeyword .NOT = false)
    (h : x scope { s with negative := false } = .error f s') : logic x scope s = .error f s' := by
  apply level_error
  rw [inversion_eq hnot, relation, bind_error (sum_error h)]

end Levels

section Literals

variable {t : Token} {ts : List Token}

theorem factor_integer {n : Int} (hrest : s.cursor.rest = t :: ts)
    (ht : t.category = some .integer) (hn : Decimal.readInt t.lexeme.toList = .ok n) (d : Nat) :
    factor (d + 1) scope s =
      .ok ((Value.int n).signed s.negative) { s with cursor := s.cursor.advance } := by
  rw [factor_succ, factorOf, current_bind, Cursor.current_eq hrest, ht]
  dsimp only
  rw [ofExcept_ok_bind hn]
  rfl

theorem factor_unread (hrest : s.cursor.rest = t :: ts) (ht : t.category = some .integer)
    (hf : Decimal.readInt t.lexeme.toList = .error f) (d : Nat) :
    factor (d + 1) scope s = .error f s := by
  rw [factor_succ, factorOf, current_bind, Cursor.current_eq hrest, ht]
  dsimp only
  rw [hf]
  rfl

theorem factor_text (hrest : s.cursor.rest = t :: ts) (ht : t.category = some .text) (d : Nat) :
    factor (d + 1) scope s = .ok (.text t.lexeme) { s with cursor := s.cursor.advance } := by
  rw [factor_succ, factorOf, current_bind, Cursor.current_eq hrest, ht]
  rfl

theorem binding_current_advance {k : Nat} (hk : 0 < k) (hrest : s.cursor.rest = t :: ts)
    (ht : t.face.binding = 0) (hts : Stops k ts) : s.cursor.advance.current.face.binding < k :=
  @binding_current_pass k [t] ts s.cursor hk hrest ⟨t.face, rfl, ht⟩ hts

theorem sum_numeral (n : Numeral) (hrest : s.cursor.rest = t :: ts)
    (ht : t.face = (some .integer, n.lexeme)) (hts : Stops 3 ts) (d : Nat) :
    sum (factor (d + 1)) scope s =
      .ok (.int n.value) { s with cursor := s.cursor.advance, negative := false } := by
  obtain ⟨hcategory, hlexeme⟩ := Token.face_eq.mp ht
  have hread : Decimal.readInt t.lexeme.toList = .ok (n.value : Int) := by
    rw [hlexeme, n.readInt_lexeme]
  refine sum_ok (factor_integer (s := { s with negative := false }) hrest hcategory hread d) ?_
  exact binding_current_advance (by decide) hrest (by rw [ht]; rfl) hts

end Literals

end Eval

namespace Exec

variable {site : Site} {j : Job} {t : Token} {ts : List Token}

theorem value_text (hrest : j.cursor.rest = t :: ts) (ht : t.category = some .text)
    (hts : Eval.Stops 1 ts) :
    value site j = .ok (.text t.lexeme) { j with cursor := j.cursor.advance } := by
  have hfactor : Eval.factor 975 ⟨j.machine.symbols, site.label⟩
      ⟨j.cursor, false, j.machine.generator, []⟩ = _ := Eval.factor_text hrest ht 974
  have hnot := @Cursor.isKeyword_eq_false t _ j.cursor .NOT hrest (by simp [ht])
  have hbinding : t.face.binding = 0 := by simp [Token.face, Face.binding, ht, Category.binding]
  have hend : j.cursor.advance.current.face.binding < 1 :=
    Eval.binding_current_advance (s := ⟨j.cursor, false, j.machine.generator, []⟩) (by decide) hrest
      hbinding hts
  rw [value, evaluate, Eval.value_eq, Eval.logic_ok hnot hfactor (Nat.lt_one_iff.mp hend)]
  dsimp only
  rw [j.machine.evaluated_of_nil site rfl]

theorem arithmetic_numeral (n : Numeral) (hrest : j.cursor.rest = t :: ts)
    (ht : t.face = (some .integer, n.lexeme)) (hts : Eval.Stops 3 ts) :
    arithmetic site j = .ok (.int n.value) { j with cursor := j.cursor.advance } := by
  have hsum : Eval.sum (Eval.factor 978) ⟨j.machine.symbols, site.label⟩
      ⟨j.cursor, false, j.machine.generator, []⟩ = _ := Eval.sum_numeral n hrest ht hts 977
  rw [arithmetic, evaluate, Eval.arithmeticValue_eq, hsum]
  dsimp only
  rw [j.machine.evaluated_of_nil site rfl]

end Exec

end LineBasic

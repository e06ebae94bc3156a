import LineBasic.Proofs.Formula
import LineBasic.Proofs.Grammar
import LineBasic.Proofs.Lines

namespace LineBasic

open Face Eval

/-- A tree that is too deep gives no value; a remainder by zero may be met before the depth is. -/
def Fails (zero : Bool) (r : Except Fault Value) : Prop :=
  r = .error .endlessNesting ∨ zero = true ∧ r = .error .moduloByZero

namespace Fails

variable {zero zero' : Bool} {r r' : Except Fault Value}

theorem bind (h : Fails zero r) (f : Value → Except Fault Value) : Fails zero (r >>= f) := by
  rcases h with rfl | ⟨hz, rfl⟩
  · exact .inl rfl
  · exact .inr ⟨hz, rfl⟩

theorem mono (h : Fails zero r) (hz : zero = true → zero' = true) : Fails zero' r :=
  h.imp_right (And.imp_left hz)

/-- Of two operands the second one is met when the first one is shallow enough and has a value. -/
theorem pair {m n room : Nat} {v : Value} (h : room < max m n) (hlt : room < m → Fails zero r)
    (hle : m ≤ room → r = if zero then .error .moduloByZero else .ok v)
    (hlt' : room < n → Fails zero' r') (f : Value → Value → Except Fault Value) :
    Fails (zero || zero') (do let v ← r; let w ← r'; f v w) := by
  rcases Nat.lt_or_ge room m with hm | hm
  · exact (hlt hm).bind _ |>.mono fun hz => by rw [hz, Bool.true_or]
  · have hn : room < n := by omega
    have hr := hle hm
    cases zero with
    | true => exact .inr ⟨rfl, by rw [hr]; rfl⟩
    | false =>
        rw [hr]
        exact (hlt' hn).bind _

end Fails

namespace Arith

variable {scope : Scope} {env : String → Int}

def outcome (env : String → Int) : Arith → Nat → Bool → Nat → Except Fault Value
  | numeral n, _, b, room =>
      if room = 0 then .error .endlessNesting else .ok ((Value.int n.value).signed b)
  | name x, _, b, room =>
      if room = 0 then .error .endlessNesting else .ok ((Value.int (env x)).signed b)
  | signed minus a, _, b, room => a.outcome env 5 (if minus then !b else b) (room - 1)
  | binary op a c, k, b, room =>
      if op.level < k then do
        let v ← a.outcome env op.level false (room - 6)
        let w ← c.outcome env (op.level + 1) false (room - 6)
        let u ← op.operator v w
        if b then u.neg else pure u
      else do
        let v ← a.outcome env op.level false room
        let w ← c.outcome env (op.level + 1) false room
        op.operator v w

theorem outcome_zero (a : Arith) (k : Nat) (b : Bool) :
    a.outcome env k b 0 = .error .endlessNesting := by
  induction a generalizing k b with
  | numeral n => rfl
  | name x => rfl
  | signed minus a ih => exact ih _ _
  | binary op a c iha ihc =>
      rw [outcome, Nat.zero_sub, iha]
      split <;> rfl

theorem outcome_binary {op : ArithOp} {a c : Arith} {k : Nat} (h : k ≤ op.level) (b : Bool)
    (room : Nat) :
    (binary op a c).outcome env k b room = (do
      let v ← a.outcome env op.level false room
      let w ← c.outcome env (op.level + 1) false room
      op.operator v w) := by
  rw [outcome, if_neg (Nat.not_lt.mpr h)]

theorem outcome_enclosed {op : ArithOp} {a c : Arith} {k l : Nat} (hk : op.level < k)
    (hl : l ≤ op.level) (b : Bool) (room : Nat) :
    (binary op a c).outcome env k b room = (do
      let v ← (binary op a c).outcome env l false (room - 6)
      if b then v.neg else pure v) := by
  rw [outcome_binary hl, outcome, if_pos hk]
  simp only [bind_assoc]

def meaning (env : String → Int) (negative : Bool) (a : Arith) : Except Fault Value :=
  if a.dividesByZero env then .error .moduloByZero
  else .ok ((Value.int (a.value env)).signed negative)

theorem meaning_parens (a : Arith) (b : Bool) :
    (do let v ← a.meaning env false; if b then v.neg else pure v) = a.meaning env b := by
  unfold meaning
  split
  · rfl
  · cases b <;> rfl

theorem meaning_signed (minus b : Bool) (a : Arith) :
    (signed minus a).meaning env b = a.meaning env (if minus then !b else b) := by
  cases minus <;> cases b <;> simp [meaning, dividesByZero, value, Value.signed]

theorem meaning_binary (op : ArithOp) (a b : Arith) :
    (do let v ← a.meaning env false; let w ← b.meaning env false; op.operator v w) =
      (binary op a b).meaning env false := by
  unfold meaning
  rw [dividesByZero]
  cases ha : a.dividesByZero env with
  | true => rfl
  | false =>
      cases hb : b.dividesByZero env with
      | true => rfl
      | false =>
          show op.operator (.int (a.value env)) (.int (b.value env)) = _
          rw [op.operator_int]
          rfl

theorem calls_pos (a : Arith) (k : Nat) : 0 < a.calls k := by
  induction a generalizing k with
  | numeral n => exact Nat.one_pos
  | name x => exact Nat.one_pos
  | signed minus a ih => exact Nat.succ_pos _
  | binary op a b iha ihb =>
      have := iha op.level
      simp only [calls]
      omega

theorem calls_binary (op : ArithOp) (a b : Arith) (k : Nat) :
    (binary op a b).calls k = (if op.level < k then 6 else 0) + (binary op a b).calls 0 := by
  simp [calls]

theorem outcome_of_calls_le (a : Arith) {k : Nat} {b : Bool} {room : Nat} (h : a.calls k ≤ room)
    (hb : b = true → k = 5) : a.outcome env k b room = a.meaning env b := by
  -- Only what stands as a factor is read under a sign.
  induction a generalizing k b room with
  | numeral n => exact if_neg (Nat.ne_of_gt h)
  | name x => exact if_neg (Nat.ne_of_gt h)
  | signed minus a ih =>
      rw [meaning_signed, outcome]
      exact ih (Nat.le_sub_of_add_le h) fun _ => rfl
  | binary op a c iha ihc =>
      have hbare : ∀ r, (binary op a c).calls 0 ≤ r →
          (binary op a c).outcome env 0 false r = (binary op a c).meaning env false := by
        intro r hr
        simp only [calls, Nat.not_lt_zero, if_false, Nat.zero_add] at hr
        have ha : a.outcome env op.level false r = a.meaning env false := iha (by omega) nofun
        have hc : c.outcome env (op.level + 1) false r = c.meaning env false :=
          ihc (by omega) nofun
        rw [outcome_binary (Nat.zero_le _), ha, hc, meaning_binary]
      rw [calls_binary] at h
      by_cases hk : op.level < k
      · rw [if_pos hk] at h
        rw [outcome_enclosed hk (Nat.zero_le _), hbare _ (by omega), meaning_parens]
      · have hfalse : b = false := by
          cases b with
          | false => rfl
          | true => exact absurd (hb rfl ▸ op.level_lt) hk
        rw [if_neg hk, Nat.zero_add] at h
        rw [outcome_binary (Nat.not_lt.mp hk), ← outcome_binary (Nat.zero_le _) false, hbare _ h,
          hfalse]

theorem fails_of_lt_calls (a : Arith) {k : Nat} {b : Bool} {room : Nat} (h : room < a.calls k) :
    Fails (a.dividesByZero env) (a.outcome env k b room) := by
  induction a generalizing k b room with
  | numeral n => exact .inl (if_pos (Nat.lt_one_iff.mp h))
  | name x => exact .inl (if_pos (Nat.lt_one_iff.mp h))
  | signed minus a ih =>
      have := a.calls_pos 5
      rw [calls] at h
      exact ih (by omega)
  | binary op a c iha ihc =>
      have hbare : ∀ r, r < (binary op a c).calls 0 →
          Fails ((binary op a c).dividesByZero env) ((binary op a c).outcome env 0 false r) := by
        intro r hr
        simp only [calls, Nat.not_lt_zero, if_false, Nat.zero_add] at hr
        rw [outcome_binary (Nat.zero_le _)]
        refine (Fails.pair hr iha (fun hle => a.outcome_of_calls_le (b := false) hle nofun) ihc
          op.operator).mono fun hz => ?_
        rw [dividesByZero, hz, Bool.true_or]
      rw [calls_binary] at h
      by_cases hk : op.level < k
      · have := (binary op a c).calls_pos 0
        rw [if_pos hk] at h
        rw [outcome_enclosed hk (Nat.zero_le _)]
        exact (hbare _ (by omega)).bind _
      · rw [if_neg hk, Nat.zero_add] at h
        rw [outcome_binary (Nat.not_lt.mp hk), ← outcome_binary (Nat.zero_le _) false]
        exact hbare _ h

def Bound (scope : Scope) (env : String → Int) (names : List String) : Prop :=
  ∀ x ∈ names, scope.symbols.get? x = some (.scalar (.int (env x)))

/-- The three ways in which the readers meet a tree: as a factor, and as the first operands of a
product or of a sum. -/
structure Readable (scope : Scope) (env : String → Int) (a : Arith) : Prop where
  factor : ∀ d b, Reads scope (underSign b d) 5 (a.render 5) (a.outcome env 5 b d)
  product : ∀ d,
    Begins scope (underSign false d) multiplying? 4 (a.render 4) (a.outcome env 4 false d)
  sum : ∀ d,
    Begins scope (Eval.product (Eval.factor d)) adding? 3 (a.render 3) (a.outcome env 3 false d)

theorem reads_product {a : Arith} {d : Nat} {r : Except Fault Value}
    (h : Begins scope (underSign false d) multiplying? 4 (a.render 4) r) :
    Reads scope (Eval.product (Eval.factor d)) 4 (a.render 4) r :=
  h.reads (by decide) (a.closed_render 4) multiplying?_eq_none

theorem reads_sum {a : Arith} {d : Nat} {r : Except Fault Value}
    (h : Begins scope (Eval.product (Eval.factor d)) adding? 3 (a.render 3) r) :
    Reads scope (Eval.sum (Eval.factor d)) 3 (a.render 3) r :=
  h.reads (by decide) (a.closed_render 3) adding?_eq_none

theorem reads_logic {a : Arith} {d : Nat} {r : Except Fault Value}
    (h : Begins scope (Eval.product (Eval.factor d)) adding? 3 (a.render 3) r) :
    Reads scope (logic (Eval.factor d)) 1 (a.render 3) r :=
  reads_logic_of_sum (reads_sum h) (a.closed_render 3) (a.unnegated_render 3)

theorem readable_of_factor {a : Arith} (hr : ∀ k, a.render k = a.render 5)
    (ho : ∀ k b d, a.outcome env k b d = a.outcome env 5 b d)
    (h : ∀ d b, Reads scope (underSign b d) 5 (a.render 5) (a.outcome env 5 b d)) :
    Readable scope env a := by
  have hp : ∀ d, Begins scope (underSign false d) multiplying? 4 (a.render 4)
      (a.outcome env 4 false d) := by
    intro d
    rw [hr 4, ho 4]
    exact begins_of_reads (h d false)
  refine ⟨h, hp, fun d => ?_⟩
  rw [hr 3, ← hr 4, ho 3, ← ho 4]
  exact begins_of_reads (reads_product (hp d))

theorem factor_of_sum {op : ArithOp} {a c : Arith}
    (h₅ : (binary op a c).render 5 = enclosed true ((binary op a c).render 3))
    (h : ∀ d, Begins scope (Eval.product (Eval.factor d)) adding? 3 ((binary op a c).render 3)
      ((binary op a c).outcome env 3 false d)) (d : Nat) (b : Bool) :
    Reads scope (underSign b d) 5 ((binary op a c).render 5)
      ((binary op a c).outcome env 5 b d) := by
  cases d with
  | zero =>
      rw [outcome_zero]
      exact reads_endless
  | succ d =>
      rw [h₅, outcome_enclosed op.level_lt op.le_level, Nat.add_sub_add_right d 1 5]
      refine reads_parens "(" ")" ?_
      rw [nested_eq_factor]
      exact reads_logic (h (d - 5))

theorem readable_sum {op : ArithOp} {a b : Arith} (hop : op.level = 3)
    (ha : Readable scope env a) (hb : Readable scope env b) :
    Readable scope env (binary op a b) := by
  have h₃ : (binary op a b).render 3 =
      a.render 3 ++ (some (.mark op.mark), op.lexeme) :: b.render 4 := by
    simp [render, hop, enclosed]
  have h₄ : (binary op a b).render 4 = (binary op a b).render 5 := by simp [render, hop]
  have h₅ : (binary op a b).render 5 = enclosed true ((binary op a b).render 3) := by
    simp [render, hop, enclosed]
  have hsum : ∀ d, Begins scope (Eval.product (Eval.factor d)) adding? 3
      ((binary op a b).render 3) ((binary op a b).outcome env 3 false d) := by
    intro d
    rw [h₃, outcome_binary (Nat.le_of_eq hop.symm), hop]
    exact (ha.sum d).append op.lexeme (reads_product (hb.product d)) (op.adding?_mark hop)
      (op.binding_mark.trans hop)
  have hfactor := factor_of_sum h₅ hsum
  refine ⟨hfactor, fun d => ?_, hsum⟩
  have ho : (binary op a b).outcome env 4 false d = (binary op a b).outcome env 5 false d := by
    rw [outcome_enclosed (l := 3) (by omega) op.le_level, outcome_enclosed op.level_lt op.le_level]
  rw [h₄, ho]
  exact begins_of_reads (hfactor d false)

theorem readable_product {op : ArithOp} {a b : Arith} (hop : op.level = 4)
    (ha : Readable scope env a) (hb : Readable scope env b) :
    Readable scope env (binary op a b) := by
  have h₄ : (binary op a b).render 4 =
      a.render 4 ++ (some (.mark op.mark), op.lexeme) :: b.render 5 := by
    simp [render, hop, enclosed]
  have h₃ : (binary op a b).render 3 = (binary op a b).render 4 := by simp [render, hop]
  have h₅ : (binary op a b).render 5 = enclosed true ((binary op a b).render 3) := by
    simp [render, hop, enclosed]
  have hproduct : ∀ d, Begins scope (underSign false d) multiplying? 4
      ((binary op a b).render 4) ((binary op a b).outcome env 4 false d) := by
    intro d
    rw [h₄, outcome_binary (Nat.le_of_eq hop.symm), hop]
    exact (ha.product d).append op.lexeme (hb.factor d false) (op.multiplying?_mark hop)
      (op.binding_mark.trans hop)
  have hsum : ∀ d, Begins scope (Eval.product (Eval.factor d)) adding? 3
      ((binary op a b).render 3) ((binary op a b).outcome env 3 false d) := by
    intro d
    have ho : (binary op a b).outcome env 3 false d = (binary op a b).outcome env 4 false d := by
      rw [outcome_binary (by omega), outcome_binary (by omega)]
    rw [h₃, ho]
    exact begins_of_reads (reads_product (hproduct d))
  exact ⟨factor_of_sum h₅ hsum, hproduct, hsum⟩

theorem readable (a : Arith) (h : Bound scope env a.names) : Readable scope env a := by
  -- All three readings at once: in parentheses a tree is read as a sum, whatever it stands in.
  induction a with
  | numeral n =>
      refine readable_of_factor (fun _ => rfl) (fun _ _ _ => rfl) fun d b => ?_
      cases d with
      | zero => exact reads_endless
      | succ d => exact reads_integer n.readInt_lexeme
  | name x =>
      refine readable_of_factor (fun _ => rfl) (fun _ _ _ => rfl) fun d b => ?_
      cases d with
      | zero => exact reads_endless
      | succ d => exact reads_variable (h x (by simp [names]))
  | signed minus a ih =>
      refine readable_of_factor (fun _ => rfl) (fun _ _ _ => rfl) fun d b => ?_
      cases d with
      | zero =>
          rw [outcome_zero]
          exact reads_endless
      | succ d =>
          have hr := (ih h).factor d (if minus then !b else b)
          cases minus with
          | true => exact reads_minus "-" hr
          | false => exact reads_plus "+" hr
  | binary op a b iha ihb =>
      have ha := iha fun x hx => h x (List.mem_append_left _ hx)
      have hb := ihb fun x hx => h x (List.mem_append_right _ hx)
      cases op with
      | add | sub => exact readable_sum rfl ha hb
      | mul | mod word => exact readable_product rfl ha hb

end Arith

namespace Formula

variable {scope : Scope} {env : String → Int}

def joint (all : Bool) : Operator := fun l r =>
  pure (if l.holds then if all then r else l else if all then l else r)

def outcome (env : String → Int) : Formula → Nat → Nat → Except Fault Value
  | arith a, _, room => a.outcome env 3 false room
  | compare rel a b, _, room => do
      let v ← a.outcome env 3 false room
      let w ← b.outcome env 3 false room
      return .truth (← v.relate rel w)
  | negation f, k, room => do
      return .truth !(← f.outcome env 2 (if 1 < k then room - 6 else room)).holds
  | join all f g, k, room => do
      let v ← f.outcome env 0 (if 0 < k then room - 6 else room)
      let w ← g.outcome env 1 (if 0 < k then room - 6 else room)
      joint all v w

theorem outcome_zero (f : Formula) (k : Nat) :
    f.outcome env k 0 = .error .endlessNesting := by
  induction f generalizing k with
  | arith a => exact a.outcome_zero 3 false
  | compare rel a b =>
      rw [outcome, a.outcome_zero]
      rfl
  | negation f ih =>
      rw [outcome, Nat.zero_sub, ite_self, ih]
      rfl
  | join all f g ihf ihg =>
      rw [outcome, Nat.zero_sub, ite_self, ihf]
      rfl

def meaning (env : String → Int) (f : Formula) : Except Fault Value :=
  if f.dividesByZero env then .error .moduloByZero else .ok (f.value env)

theorem meaning_compare (rel : Relation) (a b : Arith) :
    (do
      let v ← a.meaning env false
      let w ← b.meaning env false
      return .truth (← v.relate rel w)) = (compare rel a b).meaning env := by
  unfold meaning Arith.meaning
  rw [dividesByZero]
  cases ha : a.dividesByZero env with
  | true => rfl
  | false =>
      cases hb : b.dividesByZero env with
      | true => rfl
      | false =>
          show (do
            return Value.truth (← (Value.int (a.value env)).relate rel (.int (b.value env))) :
              Except Fault Value) = _
          rw [rel.relate_int]
          rfl

theorem meaning_negation (f : Formula) :
    (do return .truth !(← f.meaning env).holds) = (negation f).meaning env := by
  unfold meaning
  rw [dividesByZero]
  cases f.dividesByZero env <;> rfl

theorem meaning_join (all : Bool) (f g : Formula) :
    (do let v ← f.meaning env; let w ← g.meaning env; joint all v w) =
      (join all f g).meaning env := by
  unfold meaning
  rw [dividesByZero]
  cases f.dividesByZero env with
  | true => rfl
  | false =>
      cases g.dividesByZero env with
      | true => rfl
      | false => cases all <;> rfl

theorem calls_pos (f : Formula) (k : Nat) : 0 < f.calls k := by
  induction f generalizing k with
  | arith a => exact a.calls_pos 3
  | compare rel a b => exact Nat.lt_of_lt_of_le (a.calls_pos 3) (Nat.le_max_left _ _)
  | negation f ih => exact Nat.add_pos_right _ (ih 2)
  | join all f g ihf ihg =>
      exact Nat.add_pos_right _ (Nat.lt_of_lt_of_le (ihf 0) (Nat.le_max_left _ _))

theorem outcome_of_calls_le (f : Formula) {k room : Nat} (h : f.calls k ≤ room) :
    f.outcome env k room = f.meaning env := by
  induction f generalizing k room with
  | arith a => exact a.outcome_of_calls_le h nofun
  | compare rel a b =>
      rw [calls] at h
      have ha : a.outcome env 3 false room = a.meaning env false :=
        a.outcome_of_calls_le (by omega) nofun
      have hb : b.outcome env 3 false room = b.meaning env false :=
        b.outcome_of_calls_le (by omega) nofun
      rw [outcome, ha, hb, meaning_compare]
  | negation f ih =>
      rw [calls] at h
      rw [outcome, ih (by split at h <;> split <;> omega), meaning_negation]
  | join all f g ihf ihg =>
      rw [calls] at h
      rw [outcome, ihf (by split at h <;> split <;> omega), ihg (by split at h <;> split <;> omega),
        meaning_join]

theorem fails_of_lt_calls (f : Formula) {k room : Nat} (h : room < f.calls k) :
    Fails (f.dividesByZero env) (f.outcome env k room) := by
  induction f generalizing k room with
  | arith a => exact a.fails_of_lt_calls h
  | compare rel a b =>
      exact Fails.pair h a.fails_of_lt_calls
        (fun hle => a.outcome_of_calls_le (b := false) hle nofun) b.fails_of_lt_calls
        fun v w => do return .truth (← v.relate rel w)
  | negation f ih =>
      have := f.calls_pos 2
      rw [calls] at h
      exact (ih (by split at h <;> split <;> omega)).bind _
  | join all f g ihf ihg =>
      have := f.calls_pos 0
      rw [calls] at h
      exact Fails.pair (by split at h <;> split <;> omega) ihf (f.outcome_of_calls_le ·) ihg
        (joint all)

structure Readable (scope : Scope) (env : String → Int) (f : Formula) : Prop where
  relation : ∀ d, Reads scope (Eval.relation (Eval.factor d)) 2 (f.render 2) (f.outcome env 2 d)
  inversion : ∀ d, Reads scope (Eval.inversion (Eval.factor d)) 2 (f.render 1) (f.outcome env 1 d)
  logic : ∀ d,
    Begins scope (Eval.inversion (Eval.factor d)) joining? 1 (f.render 0) (f.outcome env 0 d)

theorem reads_logic {f : Formula} {d : Nat} {r : Except Fault Value}
    (h : Begins scope (Eval.inversion (Eval.factor d)) joining? 1 (f.render 0) r) :
    Reads scope (Eval.logic (Eval.factor d)) 1 (f.render 0) r :=
  h.reads (by decide) (f.closed_render 0) joining?_eq_none

theorem readable_of_relation {f : Formula} (hr : ∀ k, f.render k = f.render 2)
    (ho : ∀ k d, f.outcome env k d = f.outcome env 2 d)
    (h : ∀ d, Reads scope (Eval.relation (Eval.factor d)) 2 (f.render 2) (f.outcome env 2 d)) :
    Readable scope env f := by
  have hi : ∀ d, Reads scope (Eval.inversion (Eval.factor d)) 2 (f.render 2)
      (f.outcome env 2 d) := fun d => reads_inversion (h d) f.unnegated_render
  refine ⟨h, fun d => ?_, fun d => ?_⟩
  · rw [hr 1, ho 1]
    exact hi d
  · rw [hr 0, ho 0]
    exact begins_of_reads (hi d)

theorem relation_of_logic {f : Formula} (h₂ : f.render 2 = enclosed true (f.render 0))
    (ho : ∀ d, f.outcome env 2 d = f.outcome env 0 (d - 6))
    (h : ∀ d, Begins scope (Eval.inversion (Eval.factor d)) joining? 1 (f.render 0)
      (f.outcome env 0 d)) (d : Nat) :
    Reads scope (Eval.relation (Eval.factor d)) 2 (f.render 2) (f.outcome env 2 d) := by
  have hc := f.closed_render 2
  rw [h₂] at hc ⊢
  have hf : Reads scope (underSign false d) 5 (enclosed true (f.render 0))
      (f.outcome env 2 d) := by
    cases d with
    | zero =>
        rw [outcome_zero]
        exact reads_endless
    | succ d =>
        have hl : Reads scope (Eval.logic (nested d 5)) 1 (f.render 0)
            (f.outcome env 0 (d - 5)) := by
          rw [nested_eq_factor]
          exact reads_logic (h (d - 5))
        have hp := reads_parens (b := false) "(" ")" hl
        rw [ho, Nat.add_sub_add_right d 1 5]
        cases hv : f.outcome env 0 (d - 5) <;> rw [hv] at hp <;> exact hp
  exact reads_relation (reads_sum_of_factor hf hc) hc

theorem readable (f : Formula) (h : Arith.Bound scope env f.names) : Readable scope env f := by
  induction f with
  | arith a =>
      refine readable_of_relation (fun _ => rfl) (fun _ _ => rfl) fun d => ?_
      exact reads_relation (Arith.reads_sum ((a.readable h).sum d)) (a.closed_render 3)
  | compare rel a b =>
      refine readable_of_relation (fun _ => rfl) (fun _ _ => rfl) fun d => ?_
      have ha := a.readable fun x hx => h x (List.mem_append_left _ hx)
      have hb := b.readable fun x hx => h x (List.mem_append_right _ hx)
      exact reads_comparison rel.lexeme (Arith.reads_sum (ha.sum d)) (Arith.reads_sum (hb.sum d))
        rel.relating?_mark rel.binding_mark
  | negation f ih =>
      have hi : ∀ d, Reads scope (Eval.inversion (Eval.factor d)) 2 ((negation f).render 0)
          ((negation f).outcome env 0 d) := fun d => reads_negation "NOT" ((ih h).relation d)
      have hl : ∀ d, Begins scope (Eval.inversion (Eval.factor d)) joining? 1
          ((negation f).render 0) ((negation f).outcome env 0 d) :=
        fun d => begins_of_reads (hi d)
      exact ⟨relation_of_logic rfl (fun _ => rfl) hl, hi, hl⟩
  | join all f g ihf ihg =>
      have hf := ihf fun x hx => h x (List.mem_append_left _ hx)
      have hg := ihg fun x hx => h x (List.mem_append_right _ hx)
      have hl : ∀ d, Begins scope (Eval.inversion (Eval.factor d)) joining? 1
          ((join all f g).render 0) ((join all f g).outcome env 0 d) := by
        intro d
        have hj : joining? (.keyword (if all then .AND else .OR)) = some (joint all) := by
          cases all <;> rfl
        exact (hf.logic d).append _ (hg.inversion d) hj (by cases all <;> rfl)
      have hr := relation_of_logic rfl (fun _ => rfl) hl
      exact ⟨hr, fun d => reads_inversion (hr d) (join all f g).unnegated_render, hl⟩

theorem gives_outcome (f : Formula) (h : Arith.Bound scope env f.names) (s : Scan)
    (ts rest : List Token) (hts : ts.map Token.face = f.render 0) (hs : s.cursor.rest = ts ++ rest)
    (hr : Stops 1 rest) : Gives scope Eval.value s ts.length (f.outcome env 0 975) := by
  rw [value_eq]
  exact reads_logic ((f.readable h).logic 975) s ts rest hts hs hr

theorem depth_le_iff (f : Formula) : f.depth ≤ callLimit ↔ f.calls 0 ≤ 975 := by
  rw [depth, callLimit]
  omega

/-- A whole expression is read to its last token and gives the value of its tree, unless a remainder
in it is taken by zero or the calls for it do not fit in each other. -/
theorem value_rendered (f : Formula) (env : String → Int) (scope : Scope)
    (h : Arith.Bound scope env f.names) (s : Scan) (ts rest : List Token)
    (hts : ts.map Token.face = f.render 0) (hs : s.cursor.rest = ts ++ rest)
    (hr : Stops 1 rest) :
    (f.depth ≤ callLimit →
      (f.dividesByZero env = false → ∃ s', Eval.value scope s = .ok (f.value env) s' ∧
        s'.cursor = s.cursor.pass ts.length ∧ s'.cursor.rest = rest ∧
        s'.generator = s.generator) ∧
      ((∃ e s', Eval.value scope s = .error e s' ∧ e.kind = .zeroDivision) ↔
        f.dividesByZero env = true)) ∧
    (callLimit < f.depth → ∃ e s', Eval.value scope s = .error e s' ∧
      (e = .endlessNesting ∨ f.dividesByZero env = true ∧ e = .moduloByZero)) := by
  have hg := f.gives_outcome h s ts rest hts hs hr
  refine ⟨fun hd => ?_, fun hd => ?_⟩
  · rw [f.outcome_of_calls_le (f.depth_le_iff.mp hd)] at hg
    unfold meaning at hg
    cases hz : f.dividesByZero env with
    | true =>
        rw [if_pos hz] at hg
        obtain ⟨s', he⟩ := hg
        exact ⟨nofun, fun _ => rfl, fun _ => ⟨_, s', he, rfl⟩⟩
    | false =>
        rw [hz] at hg
        obtain ⟨negative, compared, he⟩ := hg
        refine ⟨fun _ => ⟨_, he, rfl, Cursor.rest_pass hs, rfl⟩, ?_, nofun⟩
        rintro ⟨e, s', he', -⟩
        rw [he] at he'
        cases he'
  · have hf : Fails (f.dividesByZero env) (f.outcome env 0 975) :=
      f.fails_of_lt_calls (by rw [depth, callLimit] at hd; omega)
    rcases hf with ho | ⟨hz, ho⟩ <;> rw [ho] at hg <;> obtain ⟨s', he⟩ := hg
    · exact ⟨_, s', he, .inl rfl⟩
    · exact ⟨_, s', he, .inr ⟨hz, rfl⟩⟩

/-- `NOT A MOD 3 = 2 OR - ( 1 + 2 ) * B` in front of a `THEN`. -/
theorem value_rendered_mixed :
    let digit (c : Char) (h : (Text.decimalValue? c).isSome) : Arith :=
      .numeral ⟨[c], List.cons_ne_nil _ _, List.forall_mem_singleton.mpr h, Nat.succ_pos _⟩
    let remainder : Arith := .binary (.mod true) (.name "A") (digit '3' rfl)
    let sum : Arith := .binary .add (digit '1' rfl) (digit '2' rfl)
    let f : Formula := .join false (.negation (.compare .equal remainder (digit '2' rfl)))
      (.arith (.binary .mul (.signed true sum) (.name "B")))
    let env : String → Int := fun x => if x = "A" then 8 else 5
    let scope : Scope := ⟨[("A", .scalar (.int 8)), ("B", .scalar (.int 5))], "10"⟩
    let ts : List Token :=
      [.word .NOT "NOT", .name "A", .mark .modulo "MOD", .number "3", .mark .equals "=",
        .number "2", .word .OR "OR", .mark .minus "-", .mark .opening "(", .number "1",
        .mark .plus "+", .number "2", .mark .closing ")", .mark .times "*", .name "B"]
    let rest : List Token := [.word .THEN "THEN", .number "100"]
    let s : Scan := ⟨⟨.word .IF "IF", ts ++ rest, 0⟩, false, ⟨[], []⟩, []⟩
    Arith.Bound scope env f.names ∧ ts.map Token.face = f.render 0 ∧ Stops 1 rest ∧
      f.depth ≤ callLimit ∧ f.dividesByZero env = false ∧
      ∃ s', Eval.value scope s = .ok (.int (-15)) s' ∧ s'.cursor.rest = rest := by
  intro digit remainder sum f env scope ts rest s
  have h : Arith.Bound scope env f.names := by
    intro x hx
    simp [f, remainder, sum, names, Arith.names, digit] at hx
    rcases hx with rfl | rfl <;> rfl
  have hr : Stops 1 rest := stops_cons (by decide)
  have hd : f.depth ≤ callLimit := by decide
  obtain ⟨s', he, -, hrest, -⟩ := ((value_rendered f env scope h s ts rest rfl rfl hr).1 hd).1 rfl
  exact ⟨h, rfl, hr, hd, rfl, s', he, hrest⟩

theorem reads_sum_long (scope : Scope) (d n : Nat) (h : Decimal.digitLimit < n) :
    Reads scope (Eval.sum (Eval.factor (d + 1))) 3
      [(some .integer, String.ofList (List.replicate n '1'))] (.error (.digitsFromText n)) := by
  have hi : Decimal.readInt (String.ofList (List.replicate n '1')).toList =
      .error (.digitsFromText n) := by
    rw [String.toList_ofList, Decimal.readInt_long h]
  exact reads_sum_of_factor (reads_integer hi) ⟨_, rfl, rfl⟩

theorem value_long_numeral (scope : Scope) (s : Scan) (n : Nat) (h : Decimal.digitLimit < n)
    (hs : s.cursor.rest = [.number (String.ofList (List.replicate n '1'))]) :
    ∃ s', Eval.value scope s = .error (.digitsFromText n) s' := by
  have hl := reads_logic_of_sum (reads_sum_long scope 974 n h) ⟨_, rfl, rfl⟩ ⟨_, rfl, by simp⟩
  obtain ⟨s', he⟩ := hl s _ [] rfl (by rw [hs, List.append_nil]) nofun
  exact ⟨s', by rw [value_eq, he]⟩

def one : Arith :=
  .numeral ⟨['1'], List.cons_ne_nil _ _, List.forall_mem_singleton.mpr rfl, Nat.succ_pos _⟩

def tower : Nat → Arith
  | 0 => one
  | n + 1 => .binary .sub one (tower n)

theorem calls_tower (n : Nat) : (tower n).calls 4 = 6 * n + 1 := by
  induction n with
  | zero => rfl
  | succ n ih =>
      show 6 + max 1 ((tower n).calls 4) = _
      omega

theorem depth_tower (n : Nat) : (arith (tower (n + 1))).depth = 6 * (n + 1) := by
  show 0 + max 1 ((tower n).calls 4) + 5 = _
  rw [calls_tower]
  omega

theorem dividesByZero_tower (n : Nat) (env : String → Int) :
    (tower n).dividesByZero env = false := by
  induction n with
  | zero => rfl
  | succ n ih =>
      rw [tower, Arith.dividesByZero, ih]
      rfl

theorem names_tower (n : Nat) : (tower n).names = [] := by
  induction n with
  | zero => rfl
  | succ n ih =>
      rw [tower, Arith.names, ih]
      rfl

theorem value_tower (scope : Scope) (s : Scan) (n : Nat) (h : callLimit < 6 * (n + 1))
    (hs : s.cursor.rest.map Token.face = (tower (n + 1)).render 3) :
    ∃ s', Eval.value scope s = .error .endlessNesting s' := by
  have hb : Arith.Bound scope (fun _ => 0) (arith (tower (n + 1))).names := by
    rw [names, names_tower]
    exact fun x hx => absurd hx List.not_mem_nil
  have hg := gives_outcome _ hb s s.cursor.rest [] hs (List.append_nil _).symm nofun
  have hc : 975 < (arith (tower (n + 1))).calls 0 := by
    have hd := depth_tower n
    rw [depth] at hd
    rw [callLimit] at h
    omega
  rcases fails_of_lt_calls _ hc with ho | ⟨hz, -⟩
  · rw [ho] at hg
    exact hg
  · rw [dividesByZero, dividesByZero_tower] at hz
    cases hz

/-- A number of 4301 digits has no value, and neither has a difference in 200 parentheses. -/
theorem long_numeral_and_tower_unread :
    let numeral : Token := .number (String.ofList (List.replicate 4301 '1'))
    let tokens : List Token := ((tower 201).render 3).map fun f => ⟨0, f.1, f.2⟩
    let scan (ts : List Token) : Scan := ⟨⟨⟨0, none, ""⟩, ts, 0⟩, false, ⟨[], []⟩, []⟩
    (∃ s', Eval.value ⟨[], "10"⟩ (scan [numeral]) = .error (.digitsFromText 4301) s') ∧
      ∃ s', Eval.value ⟨[], "10"⟩ (scan tokens) = .error .endlessNesting s' := by
  intro numeral tokens scan
  refine ⟨value_long_numeral _ _ 4301 (by decide) rfl, value_tower _ _ 200 (by decide) ?_⟩
  show tokens.map Token.face = _
  rw [List.map_map]
  exact List.map_id _

end Formula

end LineBasic

import LineBasic.Proofs.Reading
import LineBasic.Proofs.Steady

namespace LineBasic

open Outcome

namespace Cursor

def HasSign (c : Cursor) (place : Nat) : Prop :=
  ∃ k, (c.pass k).current.isMark .equals ∧ (c.pass k).place = place

theorem HasSign.of_pass {c : Cursor} {k place : Nat} (h : (c.pass k).HasSign place) :
    c.HasSign place := by
  obtain ⟨i, hi⟩ := h
  exact ⟨k + i, by rwa [pass_add]⟩

theorem current_pass_mem (c : Cursor) (k : Nat) : (c.pass k).current ∈ c.current :: c.rest := by
  induction k generalizing c with
  | zero => exact List.mem_cons_self
  | succ k ih =>
      have hk := ih c.advance
      rw [pass]
      cases hr : c.rest with
      | nil => simpa [current, advance, hr] using hk
      | cons t ts => cases ts <;> simp_all [current, advance]

theorem not_hasSign {c : Cursor} (hc : c.rest ≠ [])
    (h : ∀ t ∈ c.rest, t.category ≠ some (.mark .equals)) (place : Nat) : ¬ c.HasSign place := by
  rintro ⟨k, hk, -⟩
  have hmem : (c.pass k).current ∈ c.rest := by
    obtain ⟨t, ts, hts⟩ := List.exists_cons_of_ne_nil hc
    have hpass := c.current_pass_mem k
    simpa [current, hts] using hpass
  exact h _ hmem (beq_iff_eq.mp hk)

end Cursor

structure Scan.Follows (s s' : Scan) : Prop where
  cursor : ∃ k, s'.cursor = s.cursor.pass k
  compared : ∀ place ∈ s'.compared, place ∈ s.compared ∨ s.cursor.HasSign place

theorem Scan.Follows.refl (s : Scan) : s.Follows s := ⟨⟨0, rfl⟩, fun _ h => .inl h⟩

theorem Scan.Follows.trans {s t u : Scan} (h : s.Follows t) (h' : t.Follows u) : s.Follows u := by
  obtain ⟨i, hi⟩ := h.cursor
  obtain ⟨k, hk⟩ := h'.cursor
  refine ⟨⟨i + k, by rw [hk, hi, Cursor.pass_add]⟩, fun place hp => ?_⟩
  rcases h'.compared place hp with hp | hp
  · exact h.compared place hp
  · rw [hi] at hp
    exact .inr hp.of_pass

def Outcome.Labelled {σ α : Type} (r : String → EStateM.Result Fault σ α) : Prop :=
  (∃ a s, ∀ l, r l = .ok a s) ∨
    ∃ (f : String → Fault) (s : σ), ∀ l, r l = .error (f l) s ∧ (f l).isAstray = false

namespace Eval

variable {α β : Type}

structure Tame (x : Eval α) : Prop where
  labelled : ∀ table s, Outcome.Labelled fun l => x ⟨table, l⟩ s
  follows : ∀ scope (s : Scan), s.Follows (state (x scope s))

theorem Tame.ordinary {x : Eval α} (hx : Tame x) (scope : Scope) : OrdinaryStep (x scope) := by
  intro s f s' h
  obtain ⟨a, t, hok⟩ | ⟨f', t, herror⟩ := hx.labelled scope.symbols s
  · cases h.symm.trans (hok scope.line)
  · cases h.symm.trans (herror scope.line).1
    exact (herror scope.line).2

theorem Tame.compared_eq_nil {x : Eval α} (hx : Tame x) (scope : Scope) {s : Scan}
    (hs : s.compared = []) (hsign : ∀ place, ¬ s.cursor.HasSign place) :
    (state (x scope s)).compared = [] := by
  refine List.eq_nil_iff_forall_not_mem.mpr fun place hp => ?_
  rcases (hx.follows scope s).compared place hp with hp | hp
  · rw [hs] at hp
    cases hp
  · exact hsign place hp

theorem tame_pure (a : α) : Tame (pure a : Eval α) :=
  ⟨fun _ s => .inl ⟨a, s, fun _ => rfl⟩, fun _ s => .refl s⟩

theorem tame_throw {f : Fault} (h : f.isAstray = false) : Tame (throw f : Eval α) :=
  ⟨fun _ s => .inr ⟨fun _ => f, s, fun _ => ⟨rfl, h⟩⟩, fun _ s => .refl s⟩

theorem Tame.bind {x : Eval α} {f : α → Eval β} (hx : Tame x) (hf : ∀ a, Tame (f a)) :
    Tame (x >>= f) := by
  refine ⟨fun table s => ?_, fun scope s => ?_⟩
  · obtain ⟨a, t, hok⟩ | ⟨e, t, herror⟩ := hx.labelled table s
    · simp only [fun l => Eval.bind_ok (f := f) (hok l)]
      exact (hf a).labelled table t
    · exact .inr ⟨e, t, fun l => ⟨Eval.bind_error (herror l).1, (herror l).2⟩⟩
  · have hs := hx.follows scope s
    cases h : x scope s with
    | error e s' =>
        rw [Eval.bind_error h]
        rwa [h] at hs
    | ok a s' =>
        rw [Eval.bind_ok h]
        rw [h] at hs
        exact hs.trans ((hf a).follows scope s')

theorem tame_look (g : Scan → α) : Tame (fun _ s => .ok (g s) s) :=
  ⟨fun _ s => .inl ⟨_, s, fun _ => rfl⟩, fun _ s => .refl s⟩

theorem tame_modify {f : Scan → Scan} (h : ∀ s : Scan, s.Follows (f s)) :
    Tame (modify f : Eval Unit) :=
  ⟨fun _ s => .inl ⟨(), f s, fun _ => rfl⟩, fun _ s => h s⟩

theorem tame_ite {c : Prop} [Decidable c] {x y : Eval α} (hx : Tame x) (hy : Tame y) :
    Tame (if c then x else y) := by
  split
  · exact hx
  · exact hy

/-- What is computed from the label of the line and no more than shows in its fault. -/
theorem tame_labelled {r : String → Except Fault α} (h : Labelled r) :
    Tame (line >>= fun l => ofExcept (r l)) := by
  obtain ⟨a, ha⟩ | ⟨f, hf⟩ := h
  · simp only [ha]
    exact ⟨fun _ s => .inl ⟨a, s, fun _ => rfl⟩, fun _ s => .refl s⟩
  · simp only [fun l => (hf l).1]
    exact ⟨fun _ s => .inr ⟨f, s, fun l => ⟨rfl, (hf l).2⟩⟩, fun _ s => .refl s⟩

theorem tame_line {f : String → Eval α} {g : α → Eval β} (hf : Tame (line >>= f))
    (hg : ∀ a, Tame (g a)) : Tame (line >>= fun l => f l >>= g) := hf.bind hg

theorem tame_ofExcept {r : Except Fault α} (h : Ordinary r) : Tame (ofExcept r) := by
  cases r with
  | ok a => exact tame_pure a
  | error f => exact tame_throw (h f rfl)

theorem tame_read {f : Scope → Eval α} (hline : ∀ table l l', f ⟨table, l⟩ = f ⟨table, l'⟩)
    (hf : ∀ scope, Tame (f scope)) : Tame (read >>= f) := by
  refine ⟨fun table s => ?_, fun scope => (hf scope).follows scope⟩
  have hsame : (fun l => f ⟨table, l⟩ ⟨table, l⟩ s) = fun l => f ⟨table, ""⟩ ⟨table, l⟩ s :=
    funext fun l => by rw [hline table l ""]
  show Outcome.Labelled fun l => f ⟨table, l⟩ ⟨table, l⟩ s
  rw [hsame]
  exact (hf ⟨table, ""⟩).labelled table s

theorem tame_current : Tame current := tame_look fun s => s.cursor.current

theorem tame_category : Tame category := tame_look fun s => s.cursor.current.category

theorem tame_remaining : Tame remaining := tame_look fun s => s.cursor.rest.length

theorem tame_atEnd : Tame atEnd := tame_look fun s => s.cursor.atEnd

theorem tame_sign : Tame sign := tame_look fun s => s.negative

theorem tame_isMark (m : Mark) : Tame (isMark m) := tame_look fun s => s.cursor.current.isMark m

theorem tame_isKeyword (k : Keyword) : Tame (isKeyword k) :=
  tame_look fun s => s.cursor.current.isKeyword k

theorem tame_advance : Tame advance :=
  tame_modify fun _ => ⟨⟨1, rfl⟩, fun _ h => .inl h⟩

theorem tame_setSign (negative : Bool) : Tame (setSign negative) :=
  tame_modify fun _ => ⟨⟨0, rfl⟩, fun _ h => .inl h⟩

theorem tame_flipSign : Tame flipSign := tame_modify fun _ => ⟨⟨0, rfl⟩, fun _ h => .inl h⟩

theorem tame_noteComparison : Tame noteComparison := by
  refine tame_modify fun s => ?_
  split
  · rename_i hequals
    refine ⟨⟨0, rfl⟩, fun place hp => ?_⟩
    rcases List.mem_cons.mp hp with rfl | hp
    · exact .inr ⟨0, hequals, rfl⟩
    · exact .inl hp
  · exact .refl s

theorem tame_draw (f : Generator → α × Generator) : Tame (draw f) :=
  ⟨fun _ _ => .inl ⟨_, _, fun _ => rfl⟩, fun _ _ => ⟨⟨0, rfl⟩, fun _ h => .inl h⟩⟩

theorem Tame.replaceRuntime {x : Eval α} {f : String → Fault} (h : ∀ l, (f l).isAstray = false)
    (hx : Tame x) : Tame (line >>= fun l => replaceRuntime (f l) x) := by
  refine ⟨fun table s => ?_, fun scope s => ?_⟩
  · obtain ⟨a, t, hok⟩ | ⟨e, t, herror⟩ := hx.labelled table s
    · refine .inl ⟨a, t, fun l => ?_⟩
      show Eval.replaceRuntime (f l) x ⟨table, l⟩ s = _
      simp only [Eval.replaceRuntime, show x ⟨table, l⟩ s = _ from hok l]
    · refine .inr ⟨fun l => if (e l).isRuntime then f l else e l, t, fun l => ⟨?_, ?_⟩⟩
      · show Eval.replaceRuntime (f l) x ⟨table, l⟩ s = _
        simp only [Eval.replaceRuntime, show x ⟨table, l⟩ s = _ from (herror l).1]
      · dsimp only
        split
        · exact h l
        · exact (herror l).2
  · have hs := hx.follows scope s
    show s.Follows (state (Eval.replaceRuntime (f scope.line) x scope s))
    unfold Eval.replaceRuntime
    cases hr : x scope s <;> rwa [hr] at hs

theorem tame_fault {f : String → Fault} (h : ∀ line, (f line).isAstray = false) :
    Tame (line >>= fun line => throw (f line) : Eval α) :=
  ⟨fun _ s => .inr ⟨f, s, fun l => ⟨rfl, h l⟩⟩, fun _ s => .refl s⟩

theorem tame_expect (c : Category) : Tame (expect c) :=
  tame_category.bind fun _ => tame_ite tame_advance (tame_fault fun _ => rfl)

variable {x : Eval Value}

theorem Tame.afterCommas (hx : Tame x) (n : Nat) : Tame (afterCommas x n) := by
  induction n with
  | zero => exact tame_pure []
  | succ n ih =>
      refine (tame_isMark _).bind fun _ => tame_ite (tame_advance.bind fun _ => ?_) (tame_pure [])
      exact hx.bind fun v => ih.bind fun vs => tame_pure (v :: vs)

theorem Tame.commaList (hx : Tame x) : Tame (commaList x) :=
  hx.bind fun _ => tame_remaining.bind fun _ => (hx.afterCommas _).bind fun _ => tame_pure _

theorem Tame.indexList (hx : Tame x) : Tame (indexList x) :=
  tame_atEnd.bind fun _ => tame_ite (tame_pure []) hx.commaList

theorem Tame.optional (hx : Tame x) : Tame (optional x) := by
  refine (tame_isMark _).bind fun _ => tame_ite ?_ (tame_pure none)
  exact tame_advance.bind fun _ => hx.bind fun v => tame_pure (some v)

theorem Tame.pair (hx : Tame x) : Tame (pair x) :=
  hx.bind fun _ => (tame_expect _).bind fun _ => hx.bind fun _ => tame_pure _

theorem Tame.parenthesised {x : Eval α} (hx : Tame x) : Tame (parenthesised x) :=
  (tame_expect _).bind fun _ => hx.bind fun _ => (tame_expect _).bind fun _ => tame_pure _

theorem Tame.chain (hx : Tame x) {operator? : Category → Option Operator}
    (hop : ∀ c op, operator? c = some op → ∀ v w, Ordinary (op v w)) (n : Nat) (v : Value) :
    Tame (chain x operator? n v) := by
  induction n generalizing v with
  | zero => exact tame_pure v
  | succ n ih =>
      refine tame_category.bind fun c => ?_
      cases hc : c.bind operator? with
      | none => exact tame_pure v
      | some op =>
          obtain ⟨c, rfl, hc⟩ := Option.bind_eq_some_iff.mp hc
          refine tame_advance.bind fun _ => hx.bind fun w => ?_
          exact (tame_ofExcept (hop c op hc v w)).bind fun r => ih r

theorem Tame.level (hx : Tame x) {operator? : Category → Option Operator}
    (hop : ∀ c op, operator? c = some op → ∀ v w, Ordinary (op v w)) :
    Tame (level x operator?) :=
  hx.bind fun v => tame_remaining.bind fun _ => hx.chain hop _ v

theorem ordinary_multiplying {c : Category} {op : Operator} (h : multiplying? c = some op)
    (v w : Value) : Ordinary (op v w) := by
  unfold multiplying? at h
  split at h <;> cases h
  · exact Value.ordinary_mul v w
  · exact Value.ordinary_div v w
  · exact Value.ordinary_percent v w

theorem ordinary_adding {c : Category} {op : Operator} (h : adding? c = some op) (v w : Value) :
    Ordinary (op v w) := by
  unfold adding? at h
  split at h <;> cases h
  · exact Value.ordinary_add v w
  · exact Value.ordinary_sub v w

theorem ordinary_joining {c : Category} {op : Operator} (h : joining? c = some op) (v w : Value) :
    Ordinary (op v w) := by
  unfold joining? at h
  split at h <;> cases h
  · exact .pure _
  · exact .pure _

theorem Tame.sum (hx : Tame x) : Tame (sum x) :=
  (((tame_setSign false).bind fun _ => hx).level fun _ _ => ordinary_multiplying).level
    fun _ _ => ordinary_adding

theorem Tame.relation (hx : Tame x) : Tame (relation x) := by
  refine hx.sum.bind fun l => tame_category.bind fun c => ?_
  split
  · exact tame_pure l
  · refine tame_noteComparison.bind fun _ => tame_advance.bind fun _ => hx.sum.bind fun r => ?_
    exact (tame_ofExcept (Value.ordinary_relate _ l r)).bind fun b => tame_pure _

theorem Tame.logic (hx : Tame x) : Tame (logic x) := by
  refine Tame.level ?_ fun _ _ => ordinary_joining
  refine (tame_isKeyword _).bind fun _ => tame_ite ?_ hx.relation
  exact tame_advance.bind fun _ => hx.relation.bind fun _ => tame_pure _

theorem Tame.element (hx : Tame x) (entry : Entry) : Tame (element x entry) := by
  refine tame_line (Tame.replaceRuntime (fun _ => rfl) ?_) fun v =>
    tame_advance.bind fun _ => tame_pure v
  refine (tame_expect _).bind fun _ => hx.sum.indexList.bind fun vs => ?_
  cases entry with
  | scalar v => exact tame_throw rfl
  | grid g =>
      exact tame_line (tame_labelled (Grid.labelled_get g vs)) fun v =>
        tame_sign.bind fun _ => tame_pure _

theorem Tame.variableValue (hx : Tame x) (name : String) :
    Tame (variableValue (Eval.element x) name) := by
  have hindexed : Tame isIndexed := by
    have hget : Tame (get : Eval Scan) := tame_look fun s => s
    refine hget.bind fun s => ?_
    split <;> exact tame_pure _
  refine tame_read (fun _ _ _ => rfl) fun scope => hindexed.bind fun b => ?_
  split
  · exact tame_advance.bind fun _ => hx.element _
  · split
    · exact tame_sign.bind fun _ => tame_advance.bind fun _ => tame_pure _
    · exact tame_throw rfl
    · exact tame_fault fun _ => rfl

theorem tame_randomReal (v : Value) : Tame (randomReal v) := by
  have hdraw : Tame (draw Generator.nextReal >>= fun y => pure (.real y) : Eval Value) :=
    (tame_draw _).bind fun _ => tame_pure _
  refine (tame_ofExcept (Value.ordinary_relate _ v _)).bind fun b => tame_ite ?_ hdraw
  have hseed : Tame (modify fun s => { s with generator := reseed v } : Eval Unit) :=
    tame_modify fun _ => ⟨⟨0, rfl⟩, fun _ h => .inl h⟩
  exact hseed.bind fun _ => hdraw

theorem tame_randomInteger (low high : Value) : Tame (randomInteger low high) := by
  refine (tame_ofExcept (Value.ordinary_add high _)).bind fun stop => ?_
  refine tame_line (tame_labelled (Function.labelled_wholeBound low)) fun a => ?_
  refine tame_line (tame_labelled (Function.labelled_wholeBound stop)) fun b => ?_
  have hdraw : Tame (draw (Generator.nextBelow (b - a).toNat) >>= fun r =>
      pure (.int (a + r)) : Eval Value) :=
    (tame_draw _).bind fun _ => tame_pure _
  exact tame_ite (tame_line (tame_fault fun _ => rfl) fun _ => hdraw) hdraw

theorem Tame.placeArguments (hx : Tame x) : Tame (placeArguments x) := by
  refine hx.bind fun v => ?_
  split
  · have hshift (v : Option Value) : Tame (ofExcept (v.mapM (Value.sub · (.int 1)))) :=
      tame_ofExcept (.optionMapM (fun v => Value.ordinary_sub v _) v)
    refine (tame_expect _).bind fun _ => hx.bind fun needle => hx.optional.bind fun start => ?_
    refine (hshift start).bind fun start => ?_
    dsimp only
    split
    · exact hx.optional.bind fun stop => (hshift stop).bind fun stop => tame_pure _
    · exact (tame_pure none).bind fun stop => (hshift stop).bind fun stop => tame_pure _
  · exact tame_fault fun _ => rfl

theorem tame_call {nested : Nat → Eval Value} (hnested : ∀ k, Tame (nested k)) (f : Function) :
    Tame (call nested f) := by
  have hx : Tame (sum (nested 3)) := (hnested 3).sum
  refine tame_advance.bind fun _ => ?_
  dsimp only
  split
  · exact tame_pure _
  · exact hx.parenthesised.bind fun v => tame_randomReal v
  · exact hx.pair.parenthesised.bind fun ⟨a, b⟩ => tame_randomInteger a b
  · exact hx.commaList.parenthesised.bind fun vs =>
      tame_labelled (Function.labelled_extreme _ _ _ vs)
  · exact hx.commaList.parenthesised.bind fun vs =>
      tame_labelled (Function.labelled_extreme _ _ _ vs)
  · exact hx.pair.parenthesised.bind fun ⟨a, b⟩ => tame_labelled (Function.labelled_power a b)
  · refine Tame.parenthesised ((hnested 6).logic.bind fun v => (tame_expect _).bind fun _ => ?_)
    exact hx.pair.bind fun ⟨a, b⟩ => tame_pure _
  · exact hx.pair.parenthesised.bind fun ⟨s, n⟩ =>
      tame_labelled (Function.labelled_leftPart s n)
  · exact hx.pair.parenthesised.bind fun ⟨s, n⟩ =>
      tame_labelled (Function.labelled_rightPart s n)
  · refine Tame.bind (Tame.parenthesised ?_) fun ⟨s, start, count⟩ =>
      tame_labelled (Function.labelled_middlePart s start count)
    refine hx.pair.bind fun ⟨s, i⟩ => (tame_ofExcept (Value.ordinary_sub i _)).bind fun _ => ?_
    exact hx.optional.bind fun _ => tame_pure _
  · exact hx.placeArguments.parenthesised.bind fun ⟨s, needle, start, stop⟩ =>
      tame_labelled (Function.labelled_placeOf s needle start stop)
  · exact hx.parenthesised.bind fun v => tame_labelled (labelled_apply _ v)

theorem tame_factorOf {nested : Nat → Eval Value} (hnested : ∀ k, Tame (nested k)) :
    Tame (factorOf element nested) := by
  refine tame_current.bind fun t => ?_
  split
  · exact tame_advance.bind fun _ => hnested 0
  · exact tame_flipSign.bind fun _ => tame_advance.bind fun _ => hnested 0
  · refine (tame_ofExcept (Decimal.ordinary_readInt _)).bind fun n => ?_
    exact tame_advance.bind fun _ => tame_sign.bind fun _ => tame_pure _
  · dsimp only
    split
    · exact tame_advance.bind fun _ => tame_sign.bind fun _ => tame_pure _
    · exact tame_throw rfl
  · exact tame_advance.bind fun _ => tame_pure _
  · exact (hnested 2).variableValue _
  · refine tame_sign.bind fun negative => tame_advance.bind fun _ => ?_
    refine (hnested 5).logic.bind fun v => ?_
    have hclose (v : Value) : Tame (expectMark .closing >>= fun _ => pure v) :=
      (tame_expect _).bind fun _ => tame_pure v
    dsimp only
    split
    · exact (tame_ofExcept (Value.ordinary_neg v)).bind hclose
    · exact (tame_pure v).bind hclose
  · exact tame_call hnested _
  · exact tame_fault fun _ => rfl

theorem tame_nested (room k : Nat) : Tame (nested room k) :=
  nestedWith_induction (tame_throw rfl) (fun _ h => tame_factorOf h) room k

theorem tame_factor (room : Nat) : Tame (factor room) := tame_nested room 0

theorem tame_arithmeticValue : Tame arithmeticValue := (tame_nested _ _).sum

theorem tame_value : Tame value := (tame_nested _ _).logic

end Eval

theorem Machine.evaluated_of_nil (m : Machine) (site : Site) {s : Scan} (h : s.compared = []) :
    m.evaluated site s = { m with generator := s.generator } := by
  have hnone : site.signs [] = [] := by
    unfold Site.signs
    split <;> rfl
  rw [evaluated, h, hnone]
  rfl

end LineBasic

import LineBasic.Proofs.Reading

namespace LineBasic.Eval

open Face

variable {β : Type} {scope : Scope} {s : Scan}

section Grammar

variable {factor : Eval Value} {fs gs : List Face} {r r' : Except Fault Value}

/-- A token that binds more loosely than the operators of a level is none of them. -/
theorem operators_eq_none (c : Category) :
    (c.binding < 4 → multiplying? c = none) ∧ (c.binding < 3 → adding? c = none) ∧
      (c.binding < 2 → relating? c = none) ∧ (c.binding < 1 → joining? c = none) := by
  cases c with
  | mark k => cases k <;> simp [Category.binding, multiplying?, adding?, relating?, joining?]
  | keyword k => cases k <;> simp [Category.binding, multiplying?, adding?, relating?, joining?]
  | _ => simp [Category.binding, multiplying?, adding?, relating?, joining?]

theorem multiplying?_eq_none (c : Category) (h : c.binding < 4) : multiplying? c = none :=
  (operators_eq_none c).1 h

theorem adding?_eq_none (c : Category) (h : c.binding < 3) : adding? c = none :=
  (operators_eq_none c).2.1 h

theorem relating?_eq_none (c : Category) (h : c.binding < 2) : relating? c = none :=
  (operators_eq_none c).2.2.1 h

theorem joining?_eq_none (c : Category) (h : c.binding < 1) : joining? c = none :=
  (operators_eq_none c).2.2.2 h

theorem reads_relation (h : Reads scope (sum factor) 3 fs r) (hc : Closed fs) :
    Reads scope (relation factor) 2 fs r := by
  intro s ts rest hts hs hr
  have hg := h s ts rest hts hs (hr.mono (by decide))
  cases r with
  | error f =>
      obtain ⟨s', he⟩ := hg
      exact ⟨s', by rw [relation, bind_error he]⟩
  | ok v =>
      obtain ⟨negative, compared, he⟩ := hg
      have hb := binding_current_pass (by decide) hs (hts ▸ hc) hr
      have hn := bind_category_eq_none relating?_eq_none hb
      exact ⟨negative, compared, by rw [relation, bind_ok he, category_bind, hn]; rfl⟩

theorem reads_comparison {c : Category} {rel : Relation} (x : String)
    (hl : Reads scope (sum factor) 3 fs r) (hr : Reads scope (sum factor) 3 gs r')
    (hrel : relating? c = some rel) (hc : c.binding = 2) :
    Reads scope (relation factor) 2 (fs ++ (some c, x) :: gs)
      (do let v ← r; let w ← r'; return .truth (← v.relate rel w)) := by
  intro s ts rest hts hs hrest
  obtain ⟨ts₁, us, rfl, h₁, hu⟩ := List.map_eq_append_iff.mp hts
  obtain ⟨t, ts₂, rfl, ht, h₂⟩ := List.map_eq_cons_iff.mp hu
  rw [List.append_assoc] at hs
  have hg := hl s ts₁ (t :: ts₂ ++ rest) h₁ hs (stops_cons (by simp [Face.binding, ht, hc]))
  cases r with
  | error f =>
      obtain ⟨s', he⟩ := hg
      exact ⟨s', by rw [relation, bind_error he]⟩
  | ok v =>
      obtain ⟨negative, compared, he⟩ := hg
      have hcur : (s.cursor.pass ts₁.length).current.category = some c := by
        rw [Cursor.current_eq (Cursor.rest_pass hs)]
        exact congrArg Prod.fst ht
      obtain ⟨compared', hstep⟩ : ∃ compared', relation factor scope s =
          (sum factor >>= fun w => ofExcept (v.relate rel w) >>= fun b => pure (.truth b)) scope
            ⟨(s.cursor.pass ts₁.length).advance, negative, s.generator, compared'⟩ := by
        rw [relation, bind_ok he, category_bind, hcur, Option.bind_some, hrel]
        exact noteComparison_bind _
      have hg' := hr ⟨(s.cursor.pass ts₁.length).advance, negative, s.generator, compared'⟩ ts₂ rest
        h₂ (Cursor.rest_advance (Cursor.rest_pass hs)) (hrest.mono (by decide))
      cases r' with
      | error f =>
          obtain ⟨s', he'⟩ := hg'
          exact ⟨s', by rw [hstep, bind_error he']⟩
      | ok w =>
          obtain ⟨negative', compared'', he'⟩ := hg'
          rw [bind_ok he'] at hstep
          show Gives _ _ _ _ (do return .truth (← v.relate rel w))
          cases hu : v.relate rel w with
          | error f => exact ⟨_, by rw [hstep, hu]; rfl⟩
          | ok b =>
              exact ⟨negative', compared'', by
                rw [hstep, Cursor.pass_append_cons, ofExcept_ok_bind hu]; rfl⟩

theorem reads_inversion (h : Reads scope (relation factor) 2 fs r) (hn : Unnegated fs) :
    Reads scope (inversion factor) 2 fs r := by
  obtain ⟨f, hf, hne⟩ := hn
  refine h.of_head hf fun s hs => ?_
  have hk : isKeyword .NOT scope s = .ok false s := by
    have hnot : s.cursor.current.isKeyword .NOT = false := by
      rw [← hs] at hne
      exact beq_false_of_ne hne
    rw [← hnot]
    rfl
  rw [inversion, bind_ok hk]
  rfl

theorem reads_negation (x : String) (h : Reads scope (relation factor) 2 fs r) :
    Reads scope (inversion factor) 2 ((some (.keyword .NOT), x) :: fs)
      (do return .truth !(← r).holds) := by
  refine (h.map fun v => .truth !v.holds).cons fun s hs => ?_
  have hk : isKeyword .NOT scope s = .ok true s := by
    have hnot : s.cursor.current.isKeyword .NOT = true := by
      rw [Token.isKeyword, (Token.face_eq.mp hs).1, beq_self_eq_true]
    rw [← hnot]
    rfl
  rw [inversion, bind_ok hk]
  rfl

end Grammar

section Factor

variable {d : Nat} {b : Bool} {fs : List Face} {r : Except Fault Value}

abbrev underSign (b : Bool) (d : Nat) : Eval Value := do setSign b; factor d

theorem reads_endless : Reads scope (underSign b 0) 5 fs (.error .endlessNesting) :=
  fun s _ _ _ _ _ => ⟨{ s with negative := b }, rfl⟩

theorem reads_integer {x : String} {n : Except Fault Int} (h : Decimal.readInt x.toList = n) :
    Reads scope (underSign b (d + 1)) 5 [(some .integer, x)]
      (do return (Value.int (← n)).signed b) := by
  intro s ts rest hts hs _
  obtain ⟨t, rfl, ht⟩ := List.map_eq_singleton_iff.mp hts
  obtain ⟨hc, rfl⟩ := Token.face_eq.mp ht
  have he : underSign b (d + 1) scope s =
      (ofExcept n >>= fun n => advance >>= fun _ => sign >>= fun negative =>
        pure ((Value.int n).signed negative)) scope { s with negative := b } := by
    rw [underSign, setSign_bind, factor_succ, factorOf, current_bind, Cursor.current_eq hs, hc, ← h]
  cases n with
  | error f => exact ⟨_, he⟩
  | ok n => exact ⟨b, s.compared, he⟩

theorem isIndexed_of_stops {t : Token} {rest : List Token} (hs : s.cursor.rest = t :: rest)
    (hr : Stops 5 rest) : isIndexed scope s = .ok false s := by
  obtain ⟨⟨current, ts, column⟩, negative, generator⟩ := s
  cases hs
  cases rest with
  | nil => rfl
  | cons u rest =>
      have hu : u.isMark .opening = false := by
        refine beq_false_of_ne fun hc => ?_
        have hb := hr u rfl
        simp [Token.face, Face.binding, hc, Category.binding] at hb
      show EStateM.Result.ok (u.isMark .opening) _ = _
      rw [hu]

theorem reads_variable {x : String} {v : Value} (h : scope.symbols.get? x = some (.scalar v)) :
    Reads scope (underSign b (d + 1)) 5 [(some .name, x)] (.ok (v.signed b)) := by
  intro s ts rest hts hs hr
  obtain ⟨t, rfl, ht⟩ := List.map_eq_singleton_iff.mp hts
  obtain ⟨hc, rfl⟩ := Token.face_eq.mp ht
  refine ⟨b, s.compared, ?_⟩
  have hi : isIndexed scope { s with negative := b } = .ok false { s with negative := b } :=
    isIndexed_of_stops hs hr
  rw [underSign, setSign_bind, factor_succ, factorOf, current_bind, Cursor.current_eq hs, hc]
  show variableValue _ _ _ _ = _
  rw [variableValue, read_bind, bind_ok hi, h]
  cases scope.symbols.get? (Symbols.arrayKey t.lexeme) <;> rfl

theorem reads_plus (x : String) (h : Reads scope (underSign b d) 5 fs r) :
    Reads scope (underSign b (d + 1)) 5 ((some (.mark .plus), x) :: fs) r := by
  refine h.cons fun s hs => ?_
  rw [underSign, setSign_bind, factor_succ, factorOf, current_bind, (Token.face_eq.mp hs).1]
  rfl

theorem reads_minus (x : String) (h : Reads scope (underSign (!b) d) 5 fs r) :
    Reads scope (underSign b (d + 1)) 5 ((some (.mark .minus), x) :: fs) r := by
  refine h.cons fun s hs => ?_
  rw [underSign, setSign_bind, factor_succ, factorOf, current_bind, (Token.face_eq.mp hs).1]
  rfl

theorem expectMark_bind {m : Mark} (h : s.cursor.current.category = some (.mark m))
    (f : Unit → Eval β) :
    (expectMark m >>= f) scope s = f () scope { s with cursor := s.cursor.advance } := by
  have he : expectMark m scope s = .ok () { s with cursor := s.cursor.advance } := by
    rw [expectMark, expect, category_bind, if_pos h]
    rfl
  rw [bind_ok he]

/-- What stands in parentheses is read without a sign, and negated if a minus stood before it. -/
theorem reads_parens (x y : String) (h : Reads scope (logic (nested d 5)) 1 fs r) :
    Reads scope (underSign b (d + 1)) 5
      ((some (.mark .opening), x) :: (fs ++ [(some (.mark .closing), y)]))
      (do let v ← r; if b then v.neg else pure v) := by
  -- The minus before the parenthesis is set aside, and taken up again once the value is known.
  have hin : Reads scope (do
      setSign b
      let v ← logic (nested d 5)
      let v ← ofExcept (if b then v.neg else pure v)
      expectMark .closing
      pure v) 5 (fs ++ [(some (.mark .closing), y)])
      (do let v ← r; if b then v.neg else pure v) := by
    intro s us rest hus hs _
    obtain ⟨ts, vs, rfl, hts, hvs⟩ := List.map_eq_append_iff.mp hus
    obtain ⟨t, rfl, ht⟩ := List.map_eq_singleton_iff.mp hvs
    rw [List.append_assoc] at hs
    have hg := h { s with negative := b } ts ([t] ++ rest) hts hs
      (stops_cons (by simp [ht, Face.binding, Category.binding]))
    cases r with
    | error f =>
        obtain ⟨s', he⟩ := hg
        exact ⟨s', by rw [setSign_bind, bind_error he]⟩
    | ok v =>
        obtain ⟨negative, compared, he⟩ := hg
        show Gives _ _ _ _ (if b then v.neg else pure v)
        cases hv : if b then v.neg else pure v with
        | error f => exact ⟨_, by rw [setSign_bind, bind_ok he, hv]; rfl⟩
        | ok w =>
            refine ⟨negative, compared, ?_⟩
            have hcur : (s.cursor.pass ts.length).current.category = some (.mark .closing) := by
              rw [Cursor.current_eq (Cursor.rest_pass hs), (Token.face_eq.mp ht).1]
            rw [setSign_bind, bind_ok he, ofExcept_ok_bind hv, expectMark_bind hcur,
              List.length_append, Cursor.pass_add]
            rfl
  refine hin.cons fun s hs => ?_
  rw [underSign, setSign_bind, factor_succ, factorOf, current_bind, (Token.face_eq.mp hs).1]
  cases b <;> rfl

theorem reads_sum_of_factor (h : Reads scope (underSign false d) 5 fs r) (hc : Closed fs) :
    Reads scope (sum (Eval.factor d)) 3 fs r := by
  have hp := (begins_of_reads h).reads (by decide) hc multiplying?_eq_none
  exact (begins_of_reads hp).reads (by decide) hc adding?_eq_none

theorem reads_logic_of_sum (h : Reads scope (sum (Eval.factor d)) 3 fs r) (hc : Closed fs)
    (hn : Unnegated fs) : Reads scope (logic (Eval.factor d)) 1 fs r := by
  have hi := reads_inversion (reads_relation h hc) hn
  exact (begins_of_reads hi).reads (by decide) hc joining?_eq_none

end Factor

end LineBasic.Eval

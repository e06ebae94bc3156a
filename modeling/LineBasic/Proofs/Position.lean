import LineBasic.Proofs.Agreement
import LineBasic.Proofs.Lines
import LineBasic.Proofs.Trail

namespace LineBasic.Program

open Outcome

/-- The position is one of the program, its line is the one that the program stands at, and all
lines to come back to are there. -/
structure Placed (numbers : List Int) (i : Nat) (p : Program) : Prop where
  line : ∃ n, numbers[i]? = some n ∧ p.next.same (.int n)
  returns : ∀ n ∈ p.returns, n ∈ numbers

def Step.Sound (numbers : List Int) : Step → Prop
  | .more i p => Placed numbers i p
  | .done _ => True
  | .failed f _ => f.isAstray = false

section Follow

variable {numbers : List Int} {i : Nat} {p : Program}

theorem sound_goTo (h : ∀ n ∈ p.returns, n ∈ numbers) (j : Nat) :
    (goTo numbers j p).Sound numbers := by
  rw [goTo]
  split
  · rename_i n hn
    exact ⟨⟨n, hn, Value.same_int.mpr rfl⟩, h⟩
  · trivial

theorem sound_goToTarget (h : ∀ n ∈ p.returns, n ∈ numbers) (target : Value)
    {bad : String → Fault} (hbad : ∀ s, (bad s).isAstray = false) :
    (goToTarget numbers target bad p).Sound numbers := by
  rw [goToTarget]
  split
  · rename_i j hj
    obtain ⟨hlt, hsame, -⟩ := List.findIdx?_eq_some_iff_getElem.mp hj
    exact ⟨⟨numbers[j], List.getElem?_eq_getElem hlt, hsame⟩, h⟩
  · split
    · exact hbad _
    · rename_i f hf
      exact Value.ordinary_written target f hf

/-- The latest line to come back to is found again, as it is a line of the program. -/
theorem sound_comeBack (h : ∀ n ∈ p.returns, n ∈ numbers) {stray : String → Fault}
    (hstray : ∀ s, (stray s).isAstray = false) (lost : String → Fault) :
    (comeBack numbers stray lost p).Sound numbers := by
  rw [comeBack]
  split
  · exact hstray _
  · rename_i n returns hreturns
    rw [hreturns, List.forall_mem_cons] at h
    dsimp only
    split
    · exact sound_goTo h.2 _
    · rename_i hnone
      have hne := List.findIdx?_eq_none_iff.mp hnone n h.1
      simp at hne

theorem sound_follow (h : Placed numbers i p) (flow : Option Flow) :
    (follow numbers i flow p).Sound numbers := by
  rcases flow with _ | flow
  · exact sound_goTo h.returns (i + 1)
  cases flow with
  | jump target => exact sound_goToTarget h.returns target fun _ => rfl
  | stop => trivial
  | loopSkip target => exact sound_goTo h.returns _
  | giveBack => exact sound_comeBack h.returns (fun _ => rfl) _
  | loopRepeat => exact sound_comeBack h.returns (fun _ => rfl) _
  | call target =>
      rw [follow]
      split
      · rfl
      · rename_i n hn
        refine sound_goToTarget ?_ target fun _ => rfl
        exact List.forall_mem_cons.mpr ⟨List.mem_of_getElem? hn, h.returns⟩
  | loopBegin =>
      obtain ⟨n, hn, -⟩ := h.line
      rw [follow, hn]
      dsimp only
      split
      · rename_i n' hn'
        refine ⟨⟨n', hn', Value.same_int.mpr rfl⟩, ?_⟩
        exact List.forall_mem_cons.mpr ⟨List.mem_of_getElem? hn, h.returns⟩
      · rfl

end Follow

def Moved (p q : Program) : Prop := q.lines = p.lines ∧ q.machine = p.machine

section Moved

variable {numbers : List Int} {i : Nat} {p : Program}

theorem moved_goTo (j : Nat) : Moved p (goTo numbers j p).program := by
  rw [goTo]
  split <;> exact ⟨rfl, rfl⟩

theorem moved_goToTarget (target : Value) (bad : String → Fault) :
    Moved p (goToTarget numbers target bad p).program := by
  rw [goToTarget]
  split
  · exact ⟨rfl, rfl⟩
  · split <;> exact ⟨rfl, rfl⟩

theorem moved_comeBack (stray lost : String → Fault) :
    Moved p (comeBack numbers stray lost p).program := by
  rw [comeBack]
  split
  · exact ⟨rfl, rfl⟩
  · rename_i n returns _
    dsimp only
    split
    · exact moved_goTo (p := { p with returns := returns }) _
    · exact ⟨rfl, rfl⟩

theorem moved_follow (flow : Option Flow) : Moved p (follow numbers i flow p).program := by
  rcases flow with _ | flow
  · exact moved_goTo _
  cases flow with
  | jump target => exact moved_goToTarget target _
  | stop => exact ⟨rfl, rfl⟩
  | loopSkip target => exact moved_goTo _
  | giveBack => exact moved_comeBack _ _
  | loopRepeat => exact moved_comeBack _ _
  | call target =>
      rw [follow]
      split
      · exact ⟨rfl, rfl⟩
      · rename_i n _
        exact moved_goToTarget (p := { p with returns := n :: p.returns }) target _
  | loopBegin =>
      rw [follow]
      dsimp only
      split <;> exact ⟨rfl, rfl⟩

theorem lines_step : (step numbers i p).program.lines = p.lines := by
  rw [step]
  split
  · rfl
  · rfl
  · dsimp only
    split
    · rfl
    · split
      · rfl
      · rename_i flow m _
        exact (moved_follow (p := { p with machine := m.withFlow flow }) flow).1

/-- What polling and the standing line keep of the machine, one line of a run keeps. -/
theorem machine_step {J : Machine → Prop} (hterminal : ∀ m t, J m → J { m with terminal := t })
    (hflow : ∀ m flow, J m → J (m.withFlow flow))
    (hline : ∀ l, p.standing? = some l → ∀ m, J m → J (state (Machine.runLine p.site l.2 m)))
    (h : J p.machine) : J (step numbers i p).program.machine := by
  rw [step]
  split
  · exact hterminal _ _ h
  · exact hterminal _ _ h
  · rename_i t _
    dsimp only
    cases hs : p.standing? with
    | none => exact hterminal _ _ h
    | some l =>
        have hstanding : p.standing = l.2 := by rw [standing, hs]; rfl
        have hrun := hline l hs _ (hterminal p.machine t h)
        rw [Option.isNone_some, if_neg Bool.false_ne_true, hstanding]
        split
        · rename_i hr
          rwa [hr] at hrun
        · rename_i flow m hr
          rw [hr] at hrun
          show J (follow numbers i flow { p with machine := m.withFlow flow }).program.machine
          rw [(moved_follow flow).2]
          exact hflow m flow hrun

theorem lines_runFor (n i : Nat) (p : Program) : (runFor numbers n i p).2.lines = p.lines :=
  runFor_keeps (P := fun q => q.lines = p.lines) (fun _ _ h => lines_step.trans h) n i rfl

end Moved

section Run

variable {p q : Program} {i n : Nat} {st : Step} {vs : List Visit} {f : Fault}

theorem Placed.isNone_standing? (h : Placed p.numbers i p) : p.standing?.isNone = false := by
  obtain ⟨k, hk, hsame⟩ := h.line
  have hsome : (indexOf? p.numbers p.next).isSome := by
    rw [indexOf?, List.findIdx?_isSome, List.any_eq_true]
    exact ⟨k, List.mem_of_getElem? hk, hsame⟩
  obtain ⟨j, hj⟩ := Option.isSome_iff_exists.mp hsome
  obtain ⟨hlt, -, -⟩ := List.findIdx?_eq_some_iff_getElem.mp hj
  rw [numbers, Lines.numbers, List.length_map] at hlt
  rw [standing?, hj, Option.bind_some, List.getElem?_eq_getElem hlt, Option.isNone_some]

theorem isAstray_reported (f : Fault) : (reported f).isAstray = f.isAstray := by
  unfold reported
  split <;> rfl

theorem sound_step (h : Placed p.numbers i p) : (step p.numbers i p).Sound p.numbers := by
  rw [step]
  split
  · rename_i f t he
    exact Terminal.steady_escaped.ordinary _ _ _ he
  · rfl
  · dsimp only
    rw [h.isNone_standing?, if_neg Bool.false_ne_true]
    split
    · rename_i f m hline
      exact (isAstray_reported f).trans (Machine.ordinary_runLine _ _ _ _ _ hline)
    · rename_i flow m hline
      have hplaced : Placed p.numbers i { p with machine := m.withFlow flow } :=
        ⟨h.line, h.returns⟩
      exact sound_follow hplaced flow

theorem sound_opening (h : p.returns = []) : p.opening.Sound p.numbers := by
  rw [opening]
  split
  · rfl
  · rename_i first rest hnumbers
    refine ⟨⟨first, by rw [hnumbers]; rfl, Value.same_int.mpr rfl⟩, fun n hn => ?_⟩
    have hnil : n ∈ p.returns := hn
    rw [h] at hnil
    cases hnil

theorem lines_opening : p.opening.program.lines = p.lines := by
  rw [opening]
  split <;> rfl

theorem Leads.sound {numbers : List Int} {st st' : Step} (h : Leads numbers st vs st')
    (hst : st.Sound numbers) (hnumbers : st.program.numbers = numbers) : st'.Sound numbers := by
  induction h with
  | refl => exact hst
  | @line i p flow m vs st' hv _ ih =>
      subst hnumbers
      have hstep : step p.numbers i p = _ := step_of_ok hv
      exact ih (hstep ▸ sound_step hst) (congrArg Lines.numbers (hstep ▸ lines_step))

theorem isAstray_of_runFor (h : Placed p.numbers i p)
    (hrun : runFor p.numbers n i p = (.failed f, q)) : f.isAstray = false := by
  induction n generalizing i p with
  | zero => cases hrun
  | succ n ih =>
      have hsound := sound_step h
      have hlines : (step p.numbers i p).program.lines = p.lines := lines_step
      rw [runFor] at hrun
      cases hstep : step p.numbers i p with
      | done r =>
          rw [hstep] at hrun
          cases hrun
      | failed f' r =>
          rw [hstep] at hrun hsound
          cases hrun
          exact hsound
      | more j r =>
          rw [hstep] at hrun hsound hlines
          have hnumbers : r.numbers = p.numbers := congrArg Lines.numbers hlines
          rw [← hnumbers] at hrun hsound
          exact ih hsound hrun

end Run

/-- A run is in its place before each of its lines, and every signal of a line leads to a place
again, so that the run never fails for having lost it. -/
theorem placed_of_run (p : Program) (hempty : p.returns = []) :
    (∀ vs i q, Leads p.numbers p.opening vs (.more i q) → Placed p.numbers i q) ∧
    (∀ i q flow, Placed p.numbers i q → (follow p.numbers i flow q).Sound p.numbers) ∧
    ∀ n f q, p.runWithin n = (.failed f, q) → f.isAstray = false := by
  have hopening := sound_opening hempty
  have hnumbers : p.opening.program.numbers = p.numbers := congrArg Lines.numbers lines_opening
  refine ⟨fun vs i q h => h.sound hopening hnumbers, fun i q flow h => sound_follow h flow,
    fun n f q h => ?_⟩
  rw [Leads.runWithin_eq] at h
  cases hst : p.opening with
  | done r =>
      rw [hst] at h
      cases h
  | failed f' r =>
      rw [hst] at h hopening
      cases h
      exact hopening
  | more j r =>
      rw [hst] at h hopening hnumbers
      have hr : r.numbers = p.numbers := hnumbers
      rw [← hr] at h hopening
      exact isAstray_of_runFor hopening h

/-- A call that names its line by a comparison, to a loop and a RETURN that finds no call the second
time. -/
theorem placed_of_run_called :
    let p := written [(0, "GOSUB (1 = 1)"), (1, "FOR I = 1 TO 2"), (2, "NEXT I"), (3, "RETURN")]
    (∃ vs q, Leads p.numbers p.opening vs (.more 1 q) ∧ q.next = .truth true ∧ q.returns = [1] ∧
      Placed p.numbers 1 q) ∧
    ∃ q, p.runWithin 20 = (.failed (.strayReturn "3"), q) ∧
      (Fault.strayReturn "3").isAstray = false := by
  intro p
  obtain ⟨hplaced, -, hfails⟩ := placed_of_run p rfl
  have hcalled := leads_walk p.numbers 1 p.opening
  have hindex : (walk p.numbers 1 p.opening).2.index? = some 1 := by decide +kernel
  have hnext : (walk p.numbers 1 p.opening).2.program.next = .truth true := by decide +kernel
  have hreturns : (walk p.numbers 1 p.opening).2.program.returns = [1] := by decide +kernel
  constructor
  · cases hst : (walk p.numbers 1 p.opening).2 with
    | done | failed =>
        rw [hst] at hindex
        cases hindex
    | more i q =>
        rw [hst] at hcalled hindex hnext hreturns
        cases hindex
        exact ⟨_, q, hcalled, hnext, hreturns, hplaced _ _ _ hcalled⟩
  · have hrun : (p.runWithin 20).1 = .failed (.strayReturn "3") := by decide +kernel
    exact ⟨_, Prod.ext hrun rfl, hfails 20 _ _ (Prod.ext hrun rfl)⟩

end LineBasic.Program

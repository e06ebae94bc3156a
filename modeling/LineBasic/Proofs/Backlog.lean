import LineBasic.Proofs.Editing
import LineBasic.Proofs.Rerun

namespace LineBasic

namespace Flow

def opens : Flow → Bool
  | call _ | loopBegin => true
  | _ => false

def closes : Flow → Bool
  | giveBack | loopRepeat => true
  | _ => false

end Flow

namespace Program

def Visit.opens (v : Visit) : Bool := v.flow.any Flow.opens

def Visit.closes (v : Visit) : Bool := v.flow.any Flow.closes

def awaited (numbers returns : List Int) (i : Nat) : Option Flow → List Int
  | some (.call _) => numbers[i + 1]?.toList ++ returns
  | some .loopBegin => numbers[i]?.toList ++ returns
  | some .giveBack | some .loopRepeat => returns.tail
  | _ => returns

def awaitedAfter (numbers returns : List Int) (vs : List Visit) : List Int :=
  vs.foldl (fun returns v => awaited numbers returns v.index v.flow) returns

section Follow

variable {numbers : List Int} {i j : Nat} {p q : Program}

theorem returns_goTo : (goTo numbers j p).program.returns = p.returns := by
  rw [goTo]
  split <;> rfl

theorem returns_goToTarget (target : Value) (bad : String → Fault) :
    (goToTarget numbers target bad p).program.returns = p.returns := by
  rw [goToTarget]
  split
  · rfl
  · split <;> rfl

/-- Coming back takes a line off the stack, and leads to it if it is still there. -/
theorem comeBack_cases (numbers : List Int) (p : Program) (stray lost : String → Fault) :
    (p.returns = [] ∧ comeBack numbers stray lost p = .failed (stray p.next.label) p) ∨
    ∃ n returns, p.returns = n :: returns ∧
      ((n ∉ numbers ∧ comeBack numbers stray lost p =
        .failed (lost p.next.label) { p with returns := returns }) ∨
      ∃ i, numbers.findIdx? (· = n) = some i ∧ comeBack numbers stray lost p =
        .more i { p with returns := returns, next := .int n }) := by
  cases hp : p.returns with
  | nil =>
      left
      exact ⟨rfl, by rw [comeBack, hp]⟩
  | cons n returns =>
      refine .inr ⟨n, returns, rfl, ?_⟩
      simp only [comeBack, hp]
      cases hi : numbers.findIdx? (· = n) with
      | none =>
          have hgone : n ∉ numbers := fun hmem => by
            simpa using List.findIdx?_eq_none_iff.mp hi n hmem
          exact .inl ⟨hgone, rfl⟩
      | some i =>
          obtain ⟨hlt, hsame, -⟩ := List.findIdx?_eq_some_iff_getElem.mp hi
          have hn : numbers[i]? = some n := by simpa [List.getElem?_eq_getElem hlt] using hsame
          exact .inr ⟨i, rfl, goTo_of_some hn _⟩

theorem returns_comeBack (stray lost : String → Fault) :
    (comeBack numbers stray lost p).program.returns = p.returns.tail := by
  obtain ⟨hp, h⟩ | ⟨n, returns, hp, ⟨-, h⟩ | ⟨i, -, h⟩⟩ :=
    comeBack_cases numbers p stray lost
  all_goals simp [h, hp, Step.program]

theorem returns_follow (flow : Option Flow) :
    (follow numbers i flow p).program.returns = awaited numbers p.returns i flow := by
  rcases flow with _ | flow
  · exact returns_goTo
  cases flow with
  | jump target => exact returns_goToTarget target _
  | stop => rfl
  | loopSkip target => exact returns_goTo
  | giveBack => exact returns_comeBack _ _
  | loopRepeat => exact returns_comeBack _ _
  | call target =>
      rw [follow, awaited]
      split
      · rename_i hn
        simp [Step.program, hn]
      · rename_i n hn
        rw [returns_goToTarget, hn, Option.toList_some, List.singleton_append]
  | loopBegin =>
      rw [follow, awaited]
      dsimp only
      split <;> rfl

theorem comeBack_fails_iff {stray lost : String → Fault} (hs : ∀ l, (stray l).kind = .runtime)
    (hl : ∀ l, (lost l).kind = .runtime) :
    (∃ f q, comeBack numbers stray lost p = .failed f q ∧ f.kind = .runtime) ↔
      p.returns = [] ∨ ∃ n, p.returns.head? = some n ∧ n ∉ numbers := by
  obtain ⟨hp, h⟩ | ⟨n, returns, hp, ⟨hn, h⟩ | ⟨i, hi, h⟩⟩ :=
    comeBack_cases numbers p stray lost
  · simp [h, hp, hs]
  · simp [h, hp, hl, hn]
  · obtain ⟨hlt, hsame, -⟩ := List.findIdx?_eq_some_iff_getElem.mp hi
    have hmem : n ∈ numbers := by
      have heq : numbers[i] = n := by simpa using hsame
      exact heq ▸ List.getElem_mem hlt
    simp [h, hp, hmem]

/-- While a run goes on, every call and start of a pass puts a line on the stack. -/
theorem returns_of_opens {flow : Option Flow} (h : (follow numbers i flow p).index?.isSome)
    (ho : flow.any Flow.opens) :
    ∃ n, (follow numbers i flow p).program.returns = n :: p.returns := by
  rw [returns_follow]
  rcases flow with _ | flow
  · cases ho
  cases flow with
  | jump | stop | loopSkip | giveBack | loopRepeat => cases ho
  | call target =>
      cases hn : numbers[i + 1]? with
      | none => simp [follow, hn, Step.index?] at h
      | some n => exact ⟨n, by simp [awaited, hn]⟩
  | loopBegin =>
      cases hn : numbers[i + 1]? with
      | none => simp [follow, hn, Step.index?] at h
      | some n =>
          have hlt := (List.getElem?_eq_some_iff.mp hn).1
          exact ⟨numbers[i], by simp [awaited, List.getElem?_eq_getElem (Nat.lt_of_succ_lt hlt)]⟩

/-- And every RETURN and NEXT takes one off. -/
theorem returns_of_closes {flow : Option Flow} (h : (follow numbers i flow p).index?.isSome)
    (hc : flow.any Flow.closes) :
    ∃ n, p.returns = n :: (follow numbers i flow p).program.returns := by
  rw [returns_follow]
  rcases flow with _ | flow
  · cases hc
  cases flow with
  | jump | stop | loopSkip | call | loopBegin => cases hc
  | giveBack | loopRepeat =>
      cases hp : p.returns with
      | nil => simp [follow, comeBack, hp, Step.index?] at h
      | cons n returns => exact ⟨n, rfl⟩

theorem returns_of_neither {flow : Option Flow} (ho : ¬ flow.any Flow.opens)
    (hc : ¬ flow.any Flow.closes) : (follow numbers i flow p).program.returns = p.returns := by
  rw [returns_follow]
  rcases flow with _ | flow
  · rfl
  cases flow with
  | jump | stop | loopSkip => rfl
  | call | loopBegin => exact absurd rfl ho
  | giveBack | loopRepeat => exact absurd rfl hc

theorem not_opens_of_closes {flow : Option Flow} (h : flow.any Flow.closes) :
    ¬ flow.any Flow.opens := by
  rcases flow with _ | flow
  · cases h
  cases flow <;> simp_all [Flow.opens, Flow.closes]

end Follow

namespace Leads

variable {numbers : List Int} {st st' : Step} {vs : List Visit}

theorem returns_eq (h : Leads numbers st vs st') :
    st'.program.returns = awaitedAfter numbers st.program.returns vs := by
  induction h with
  | refl => rfl
  | @line i p flow m vs st hv _ ih =>
      rw [ih, returns_follow]
      rfl

theorem isSome_index? (h : Leads numbers st vs st') (h' : st'.index?.isSome) :
    st.index?.isSome := by
  cases h with
  | refl => exact h'
  | line => rfl

theorem length_returns (h : Leads numbers st vs st') (h' : st'.index?.isSome) :
    st'.program.returns.length + vs.countP Visit.closes =
      st.program.returns.length + vs.countP Visit.opens := by
  induction h with
  | refl => rfl
  | @line i p flow m vs st hv hl ih =>
      have hon := hl.isSome_index? h'
      have hrest := ih h'
      rw [List.countP_cons, List.countP_cons, Step.program]
      by_cases hc : Visit.closes ⟨i, p, flow⟩
      · have ho : ¬ Visit.opens ⟨i, p, flow⟩ := not_opens_of_closes hc
        obtain ⟨n, hn⟩ := returns_of_closes hon hc
        have hlength := congrArg List.length hn
        rw [List.length_cons] at hlength
        rw [if_pos hc, if_neg ho]
        dsimp only at hlength
        omega
      · by_cases ho : Visit.opens ⟨i, p, flow⟩
        · obtain ⟨n, hn⟩ := returns_of_opens hon ho
          rw [hn, List.length_cons] at hrest
          rw [if_neg hc, if_pos ho]
          dsimp only at hrest
          omega
        · rw [returns_of_neither ho hc] at hrest
          rw [if_neg hc, if_neg ho]
          exact hrest

end Leads

theorem failed_of_visit {p : Program} {f : Fault} {m : Machine}
    (h : Machine.visit p.site p.standing p.machine = .error f m) (numbers : List Int) (i : Nat) :
    ∃ g q, step numbers i p = .failed g q ∧ q.returns = p.returns := by
  rw [step]
  split
  · exact ⟨_, _, rfl, rfl⟩
  · exact ⟨_, _, rfl, rfl⟩
  · rename_i t he
    dsimp only
    split
    · exact ⟨_, _, rfl, rfl⟩
    · split
      · exact ⟨_, _, rfl, rfl⟩
      · rename_i flow m' hr
        have hp : p.machine.poll = .ok () { p.machine with terminal := t } := by
          rw [Machine.poll, he]
        rw [Machine.visit, Outcome.bind_ok hp, hr] at h
        cases h

theorem returns_resume (numbers : List Int) (n : Nat) (st : Step) :
    (Leads.resume numbers n st).2.returns = (walk numbers n st).2.program.returns := by
  induction n generalizing st with
  | zero => cases st <;> rfl
  | succ n ih =>
      cases st with
      | done | failed => rfl
      | more i p =>
          rw [Leads.resume_more, walk]
          cases hv : Machine.visit p.site p.standing p.machine with
          | ok flow m =>
              rw [step_of_ok hv]
              exact ih _
          | error f m =>
              obtain ⟨g, q, hstep, hq⟩ := failed_of_visit hv numbers i
              rw [hstep]
              exact hq

theorem returns_opening (p : Program) : p.opening.program.returns = p.returns := by
  rw [opening]
  split <;> rfl

/-- A run leaves on the stack what its lines have put there and not taken off, above what was there
before. -/
theorem returns_runWithin (n : Nat) (p : Program) :
    (p.runWithin n).2.returns =
      awaitedAfter p.numbers p.returns (walk p.numbers n p.opening).1 := by
  rw [Leads.runWithin_eq, returns_resume, (leads_walk p.numbers n p.opening).returns_eq,
    returns_opening]

inductive Action
  | edit (e : Edit)
  | run (t : Terminal) (g : Generator) (n : Nat)

def act (p : Program) : Action → Program
  | .edit e => p.edit e
  | .run t g n => ((p.again t g).runWithin n).2

def pastRuns (p : Program) : List Action → List (List Int × List Visit)
  | [] => []
  | .edit e :: as => pastRuns (p.edit e) as
  | .run t g n :: as =>
      (p.numbers, (walk p.numbers n (p.again t g).opening).1) :: pastRuns (p.act (.run t g n)) as

theorem returns_foldl_store (ss : List (Int × List Token)) (p : Program) :
    (ss.foldl store p).returns = p.returns := by
  induction ss generalizing p with
  | nil => rfl
  | cons s ss ih => exact ih (p.store s)

theorem returns_edit (p : Program) (e : Edit) : (p.edit e).returns = p.returns := by
  cases e with
  | clear => rfl
  | add text =>
      rw [edit]
      cases hs : entered? text with
      | some s =>
          rw [addText_of_some hs]
          rfl
      | none =>
          obtain ⟨f, hf⟩ := @addText_of_none p _ hs
          rw [hf]
          rfl
  | remove n =>
      rw [edit, remove, withdraw]
      dsimp only
      cases p.ledger.get? n <;> rfl
  | load path =>
      have hclear : p.clear.returns = p.returns := rfl
      rw [edit]
      unfold load
      dsimp only
      cases Channel.open? p.clear.machine.disk (filePath path) .input with
      | none => exact hclear
      | some cd =>
          dsimp only
          rw [loadLines_eq, returns_foldl_store, hclear]

theorem returns_act (as : List Action) (p : Program) :
    (as.foldl act p).returns =
      (pastRuns p as).foldl (fun returns r => awaitedAfter r.1 returns r.2) p.returns := by
  induction as generalizing p with
  | nil => rfl
  | cons a as ih =>
      rw [List.foldl_cons, ih]
      cases a with
      | edit e => rw [act, returns_edit, pastRuns]
      | run t g n =>
          rw [pastRuns, List.foldl_cons, act, returns_runWithin]
          rfl

/-- A RETURN or NEXT comes in a run that has closed so far as much as it has opened. It is reported
as unmatched exactly if the earlier runs have left nothing to come back to, or the line on top of
the stack is gone; with nothing left over the run ends there. -/
theorem unmatched_reported_iff (m : Machine) (as : List Action) (t : Terminal) (g : Generator)
    (vs : List Visit) (v : Visit) (st : Step) :
    let p := (as.foldl act (fresh m)).again t g
    Leads p.numbers p.opening (vs ++ [v]) st → v.closes →
    vs.countP Visit.closes = vs.countP Visit.opens →
    p.returns = (pastRuns (fresh m) as).foldl (fun returns r => awaitedAfter r.1 returns r.2) [] ∧
    v.program.returns.length = p.returns.length ∧
    ((∃ f q, st = .failed f q ∧ f.kind = .runtime) ↔
      p.returns = [] ∨ ∃ n, v.program.returns.head? = some n ∧ n ∉ p.numbers) ∧
    (p.returns = [] → ∀ k, (p.runWithin (vs.length + 1 + k)).1 =
      .failed (if v.flow = some .giveBack then .strayReturn v.program.next.label
        else .strayNext v.program.next.label)) := by
  intro p hrun hcloses hbalance
  obtain ⟨m', hbefore, hst⟩ := hrun.of_append
  have hlength : v.program.returns.length = p.returns.length := by
    have h := hbefore.length_returns rfl
    rw [returns_opening] at h
    simp only [Step.program] at h
    omega
  have hnil : v.program.returns = [] ↔ p.returns = [] := by
    rw [← List.length_eq_zero_iff, hlength, List.length_eq_zero_iff]
  have hflow : v.flow = some .giveBack ∨ v.flow = some .loopRepeat := by
    obtain ⟨flow, hv, hflow⟩ := (Option.any_eq_true _ _).mp hcloses
    cases flow <;> simp_all [Flow.closes]
  -- The machine after the line plays no part: only the stack and the standing line do.
  let q : Program := { v.program with machine := m'.withFlow v.flow }
  have hback : st = comeBack p.numbers
      (if v.flow = some .giveBack then .strayReturn else .strayNext)
      (if v.flow = some .giveBack then .badReturn else .badLoopExit) q := by
    rw [hst]
    rcases hflow with h | h <;> simp only [q, h, follow] <;> rfl
  refine ⟨returns_act as (fresh m), hlength, ?_, fun hempty k => ?_⟩
  · rw [hback, comeBack_fails_iff, ← hnil]
    all_goals intro l; split <;> rfl
  · have hq : q.returns = [] := hnil.mpr hempty
    have hresume := hrun.resume_eq k
    rw [List.length_append, List.length_singleton] at hresume
    rw [Leads.runWithin_eq, hresume, hback, comeBack, hq, Leads.resume]
    rcases hflow with h | h <;> simp [h, q]

/-- The line to come back to, left by a call in an earlier run, has been taken out. -/
theorem unmatched_reported_iff_gone :
    let t : Terminal := .ofDevice .teletype [] none
    let g : Generator := ⟨[], []⟩
    let as : List Action := [.edit (.add "10 GOSUB 30".toList), .edit (.add "20 PRINT 2".toList),
      .edit (.add "30 STOP".toList), .run t g 9, .edit (.remove 20),
      .edit (.add "10 RETURN".toList)]
    let p := (as.foldl act (fresh (.fresh .empty ⟨[], []⟩ t g 0))).again t g
    p.returns = [20] ∧ p.numbers = [10, 30] ∧
    ∃ v st, Leads p.numbers p.opening [v] st ∧ v.closes ∧
      ∃ f q, st = .failed f q ∧ f.kind = .runtime := by
  intro t g as p
  have hreturns : p.returns = [20] := by decide +kernel
  have hnumbers : p.numbers = [10, 30] := by decide +kernel
  refine ⟨hreturns, hnumbers, ?_⟩
  have hl := leads_walk p.numbers 1 p.opening
  have hvs : (walk p.numbers 1 p.opening).1.map (fun v => (v.closes, v.program.returns)) =
      [(true, [20])] := by
    decide +kernel
  obtain ⟨v, hv, hclosing⟩ := List.map_eq_singleton_iff.mp hvs
  obtain ⟨hcloses, htop⟩ := Prod.mk.inj hclosing
  rw [hv] at hl
  refine ⟨v, _, hl, hcloses, ?_⟩
  obtain ⟨-, -, hiff, -⟩ := unmatched_reported_iff _ as t g [] v _ hl hcloses rfl
  refine hiff.mpr (.inr ⟨20, by rw [htop]; rfl, ?_⟩)
  show 20 ∉ p.numbers
  rw [hnumbers]
  decide

/-- A call that an earlier run has left open misleads RETURN: nothing was called in this run, and
yet it comes back to the line after the old call. -/
theorem old_call_misleads_return :
    let t : Terminal := .ofDevice .teletype [] none
    let g : Generator := ⟨[], []⟩
    let as : List Action := [.edit (.add "10 GOSUB 30".toList), .edit (.add "20 PRINT 2".toList),
      .edit (.add "30 STOP".toList), .run t g 9, .edit (.add "10 RETURN".toList)]
    let p := (as.foldl act (fresh (.fresh .empty ⟨[], []⟩ t g 0))).again t g
    (∃ vs st, Leads p.numbers p.opening vs st ∧
      vs.map (fun v => (v.index, v.flow)) = [(0, some .giveBack)] ∧ st.index? = some 1) ∧
    (p.runWithin 9).1 = .finished ∧ (p.runWithin 9).2.machine.terminal.output = "2\n" := by
  intro t g as p
  refine ⟨⟨_, _, leads_walk p.numbers 1 p.opening, ?_, ?_⟩, ?_⟩
  all_goals decide +kernel

end Program

end LineBasic

import LineBasic.Proofs.Backlog
import LineBasic.Proofs.Lines

namespace LineBasic

def partOf? (k : Keyword) (tokens : List Token) : Option (List Token) :=
  (splitColons tokens).find? fun part => part.head?.any (·.isKeyword k)

def named? (k : Keyword) (tokens : List Token) : Option String :=
  (partOf? k tokens).bind fun part => part[1]?.map Token.lexeme

namespace Program

/-- The active loops by position and variable, the latest begun first, after one more line. A loop
is active from the start of a pass until its head gives the signal to skip it. -/
def activeAfter (loops : List (Nat × String)) (v : Visit) : List (Nat × String) :=
  match v.flow with
  | some .loopBegin =>
      ((named? .FOR v.program.standing).map (v.index, ·)).toList ++
        loops.filter (·.1 ≠ v.index)
  | some (.loopSkip _) => loops.filter (·.1 ≠ v.index)
  | _ => loops

def activeLoop? (vs : List Visit) (x : String) : Option Nat :=
  ((vs.foldl activeAfter []).find? (·.2 = x)).map (·.1)

theorem mem_activeAfter {loops : List (Nat × String)} {v : Visit} {i : Nat} {x : String}
    (h : (i, x) ∈ activeAfter loops v) :
    (v.index = i ∧ v.flow = some .loopBegin ∧ named? .FOR v.program.standing = some x) ∨
      (i, x) ∈ loops ∧ (v.index = i → v.flow ≠ some .loopBegin) := by
  rw [activeAfter] at h
  split at h
  · rename_i hflow
    rcases List.mem_append.mp h with h | h
    · obtain ⟨y, hy, heq⟩ := Option.map_eq_some_iff.mp (Option.mem_toList.mp h)
      cases heq
      exact .inl ⟨rfl, hflow, hy⟩
    · obtain ⟨hmem, hne⟩ := List.mem_filter.mp h
      exact .inr ⟨hmem, fun heq => absurd heq.symm (by simpa using hne)⟩
  · rename_i hflow
    exact .inr ⟨(List.mem_filter.mp h).1, fun _ => by simp [hflow]⟩
  · rename_i hflow _
    exact .inr ⟨h, fun _ => hflow⟩

/-- A loop that is active after some lines has its latest pass among them, or was active before. -/
theorem exists_pass_of_active {loops : List (Nat × String)} {vs : List Visit} {i : Nat} {x : String}
    (h : (i, x) ∈ vs.foldl activeAfter loops) :
    (∃ us u ws, vs = us ++ u :: ws ∧ u.index = i ∧ u.flow = some .loopBegin ∧
      named? .FOR u.program.standing = some x ∧
      ∀ w ∈ ws, w.index = i → w.flow ≠ some .loopBegin) ∨
    (i, x) ∈ loops ∧ ∀ w ∈ vs, w.index = i → w.flow ≠ some .loopBegin := by
  induction vs generalizing loops with
  | nil => exact .inr ⟨h, fun _ hw => nomatch hw⟩
  | cons v vs ih =>
      obtain ⟨us, u, ws, rfl, hu⟩ | ⟨hmem, hlater⟩ := ih h
      · exact .inl ⟨v :: us, u, ws, rfl, hu⟩
      · obtain ⟨hindex, hflow, hname⟩ | ⟨hmem, hv⟩ := mem_activeAfter hmem
        · exact .inl ⟨[], v, vs, rfl, hindex, hflow, hname, hlater⟩
        · exact .inr ⟨hmem, List.forall_mem_cons.mpr ⟨hv, hlater⟩⟩

theorem mem_active_of_activeLoop? {vs : List Visit} {i : Nat} {x : String}
    (h : activeLoop? vs x = some i) : (i, x) ∈ vs.foldl activeAfter [] := by
  obtain ⟨⟨_, _⟩, hfound, rfl⟩ := Option.map_eq_some_iff.mp h
  have hname := List.find?_some hfound
  rw [decide_eq_true_iff] at hname
  exact hname ▸ List.mem_of_find?_eq_some hfound

def settles : Nat → List Visit → Bool
  | d, [] => d == 0
  | d, v :: vs =>
      if v.closes then 0 < d && settles (d - 1) vs
      else if v.opens then settles (d + 1) vs
      else settles d vs

theorem Leads.returns_of_settles {numbers : List Int} {st st' : Step} {ws : List Visit} {d : Nat}
    (h : Leads numbers st ws st') (h' : st'.index?.isSome) (hs : settles d ws) :
    st'.program.returns = st.program.returns.drop d := by
  induction h generalizing d with
  | refl =>
      have hd : d = 0 := by simpa [settles] using hs
      rw [hd, List.drop_zero]
  | @line i p flow m ws st hv hl ih =>
      have hon := hl.isSome_index? h'
      rw [settles] at hs
      by_cases hc : Visit.closes ⟨i, p, flow⟩
      · obtain ⟨n, hn⟩ := returns_of_closes hon hc
        rw [if_pos hc, Bool.and_eq_true, decide_eq_true_iff] at hs
        obtain ⟨e, rfl⟩ := Nat.exists_eq_succ_of_ne_zero (Nat.pos_iff_ne_zero.mp hs.1)
        rw [ih h' hs.2]
        exact (congrArg (List.drop (e + 1)) hn).symm
      · by_cases ho : Visit.opens ⟨i, p, flow⟩
        · obtain ⟨n, hn⟩ := returns_of_opens hon ho
          rw [if_neg hc, if_pos ho] at hs
          rw [ih h' hs, hn]
          rfl
        · rw [if_neg hc, if_neg ho] at hs
          rw [ih h' hs, returns_of_neither ho hc]
          rfl

theorem Leads.split {numbers : List Int} {st st' : Step} {vs ws : List Visit}
    (h : Leads numbers st (vs ++ ws) st') :
    ∃ between, Leads numbers st vs between ∧ Leads numbers between ws st' := by
  induction vs generalizing st with
  | nil => exact ⟨st, .refl st, h⟩
  | cons v vs ih =>
      obtain ⟨m, rfl, hv, hl⟩ := h.of_cons
      obtain ⟨between, hvs, hws⟩ := ih hl
      exact ⟨between, .line hv hvs, hws⟩

/-- If all that was opened since a pass began is closed again, the line of the loop is on top. -/
theorem Leads.head?_returns_of_pass {numbers : List Int} {st : Step} {us ws : List Visit}
    {u : Visit} {i : Nat} {q : Program} (h : Leads numbers st (us ++ u :: ws) (.more i q))
    (hu : u.flow = some .loopBegin) (hs : settles 0 ws) :
    ∃ n, numbers[u.index]? = some n ∧ q.returns.head? = some n := by
  obtain ⟨between, -, hrest⟩ := h.split
  obtain ⟨m, -, -, hpass⟩ := hrest.of_cons
  have hreturns := hpass.returns_of_settles rfl hs
  have hon := hpass.isSome_index? rfl
  rw [hu] at hreturns hon
  rw [List.drop_zero, returns_follow, awaited] at hreturns
  have hq : q.returns = numbers[u.index]?.toList ++ u.program.returns := hreturns
  cases hn : numbers[u.index]? with
  | some n => exact ⟨n, rfl, by rw [hq, hn]; rfl⟩
  | none =>
      -- A pass that began has a next line, so it has a line.
      have hlength := List.getElem?_eq_none_iff.mp hn
      have hnone : numbers[u.index + 1]? = none := List.getElem?_eq_none_iff.mpr (by omega)
      simp [follow, hnone, Step.index?] at hon

theorem findIdx?_eq_some_iff {numbers : List Int} (ha : numbers.Pairwise (· < ·)) {n : Int}
    {i : Nat} : numbers.findIdx? (· = n) = some i ↔ numbers[i]? = some n := by
  refine ⟨fun h => ?_, findIdx?_of_ascending ha⟩
  obtain ⟨hlt, hsame, -⟩ := List.findIdx?_eq_some_iff_getElem.mp h
  simpa [List.getElem?_eq_getElem hlt] using hsame

theorem index?_comeBack_head {numbers : List Int} {p : Program} (stray lost : String → Fault) :
    (comeBack numbers stray lost p).index? =
      p.returns.head?.bind fun n => numbers.findIdx? (· = n) := by
  obtain ⟨hp, h⟩ | ⟨n, returns, hp, ⟨hn, h⟩ | ⟨i, hi, h⟩⟩ :=
    comeBack_cases numbers p stray lost
  · rw [h, hp]
    rfl
  · have hnone : numbers.findIdx? (· = n) = none :=
      List.findIdx?_eq_none_iff.mpr fun k hk => by
        simpa using fun heq : k = n => hn (heq ▸ hk)
    rw [h, hp, List.head?_cons, Option.bind_some, hnone]
    rfl
  · rw [h, hp, List.head?_cons, Option.bind_some, hi]
    rfl

/-- After NEXT a run goes on at the line on top of the stack, whatever variable NEXT names. So it
repeats the latest begun active loop over its variable exactly if that loop's line is there; and it
does if all that was opened since the latest pass of that loop began is closed again. The rest of
the run is what follows from there. -/
theorem index?_after_next (p : Program) (vs : List Visit) (v : Visit) (st : Step)
    (ha : p.numbers.Pairwise (· < ·)) (hrun : Leads p.numbers p.opening (vs ++ [v]) st)
    (hnext : v.flow = some .loopRepeat) :
    (st.index? = (awaitedAfter p.numbers p.returns vs).head?.bind fun n =>
      p.numbers.findIdx? (· = n)) ∧
    (∀ x i, named? .NEXT v.program.standing = some x → activeLoop? vs x = some i →
      (st.index? = some i ↔ ∃ n, (awaitedAfter p.numbers p.returns vs).head? = some n ∧
        p.numbers[i]? = some n) ∧
      ∃ us u ws, vs = us ++ u :: ws ∧ u.index = i ∧ u.flow = some .loopBegin ∧
        named? .FOR u.program.standing = some x ∧
        (∀ w ∈ ws, w.index = i → w.flow ≠ some .loopBegin) ∧
        (settles 0 ws → st.index? = some i)) ∧
    ∀ n, p.runWithin (vs.length + 1 + n) = Leads.resume p.numbers n st := by
  obtain ⟨m, hbefore, hst⟩ := hrun.of_append
  have hreturns : v.program.returns = awaitedAfter p.numbers p.returns vs := by
    rw [← returns_opening p]
    exact hbefore.returns_eq
  have hindex : st.index? = v.program.returns.head?.bind fun n => p.numbers.findIdx? (· = n) := by
    rw [hst, hnext]
    exact index?_comeBack_head
      (p := { v.program with machine := m.withFlow (some .loopRepeat) }) _ _
  have hiff (i : Nat) : st.index? = some i ↔
      ∃ n, v.program.returns.head? = some n ∧ p.numbers[i]? = some n := by
    rw [hindex, Option.bind_eq_some_iff]
    simp only [findIdx?_eq_some_iff ha]
  rw [← hreturns]
  refine ⟨hindex, fun x i _ hactive => ⟨hiff i, ?_⟩, fun n => ?_⟩
  · obtain ⟨us, u, ws, rfl, rfl, hu, hname, hws⟩ | ⟨hnone, -⟩ :=
      exists_pass_of_active (mem_active_of_activeLoop? hactive)
    case inr => cases hnone
    refine ⟨us, u, ws, rfl, rfl, hu, hname, hws, fun hs => ?_⟩
    obtain ⟨n, hn, htop⟩ := hbefore.head?_returns_of_pass hu hs
    exact (hiff u.index).mpr ⟨n, htop, hn⟩
  · rw [Leads.runWithin_eq, ← hrun.resume_eq, List.length_append, List.length_singleton]

theorem leads_walk_last {numbers : List Int} {n : Nat} {st : Step} {α : Type} {f : Visit → α}
    {a : α} (h : (walk numbers n st).1.getLast?.map f = some a) :
    ∃ v, f v = a ∧
      Leads numbers st ((walk numbers n st).1.dropLast ++ [v]) (walk numbers n st).2 := by
  obtain ⟨v, hv, rfl⟩ := Option.map_eq_some_iff.mp h
  obtain ⟨vs, hvs⟩ := List.getLast?_eq_some_iff.mp hv
  have hl := leads_walk numbers n st
  rw [hvs] at hl
  refine ⟨v, rfl, ?_⟩
  rwa [hvs, List.dropLast_concat]

/-- The inner loop has run to its end when the NEXT of the outer one is reached. -/
theorem index?_after_next_nested :
    let p := written [(10, "FOR I = 1 TO 2"), (20, "FOR J = 1 TO 1"), (30, "NEXT J"),
      (40, "NEXT I")]
    ∃ vs v st, Leads p.numbers p.opening (vs ++ [v]) st ∧ v.flow = some .loopRepeat ∧
      named? .NEXT v.program.standing = some "I" ∧ activeLoop? vs "I" = some 0 ∧
      st.index? = some 0 := by
  intro p
  have hlast : (walk p.numbers 5 p.opening).1.getLast?.map
      (fun v => (v.flow, named? .NEXT v.program.standing)) = some (some .loopRepeat, some "I") := by
    decide +kernel
  have hactive : activeLoop? (walk p.numbers 5 p.opening).1.dropLast "I" = some 0 := by
    decide +kernel
  have htop : (awaitedAfter p.numbers p.returns (walk p.numbers 5 p.opening).1.dropLast).head? =
      some 10 := by
    decide +kernel
  obtain ⟨v, hnext, hl⟩ := leads_walk_last hlast
  obtain ⟨hflow, hnamed⟩ := Prod.mk.inj hnext
  obtain ⟨-, hloop, -⟩ := index?_after_next p _ v _ (by decide +kernel) hl hflow
  exact ⟨_, v, _, hl, hflow, hnamed, hactive,
    (hloop "I" 0 hnamed hactive).1.mpr ⟨10, htop, by decide +kernel⟩⟩

/-- An inner loop that was left misleads NEXT: it repeats the inner loop, though it names the
variable of the outer one. -/
theorem left_loop_misleads_next :
    let p := written [(10, "FOR I = 1 TO 2"), (20, "FOR J = 1 TO 2"), (30, "PRINT I; J"),
      (40, "GOTO 60"), (50, "NEXT J"), (60, "NEXT I")]
    (∃ vs v st, Leads p.numbers p.opening (vs ++ [v]) st ∧ v.flow = some .loopRepeat ∧
      named? .NEXT v.program.standing = some "I" ∧ activeLoop? vs "I" = some 0 ∧
      st.index? = some 1) ∧
    (p.runWithin 40).1 = .finished ∧
    (p.runWithin 40).2.machine.terminal.output = "11\n12\n21\n22\n" := by
  intro p
  refine ⟨?_, by decide +kernel⟩
  have hlast : (walk p.numbers 5 p.opening).1.getLast?.map
      (fun v => (v.flow, named? .NEXT v.program.standing)) = some (some .loopRepeat, some "I") := by
    decide +kernel
  have hactive : activeLoop? (walk p.numbers 5 p.opening).1.dropLast "I" = some 0 := by
    decide +kernel
  obtain ⟨v, hnext, hl⟩ := leads_walk_last hlast
  obtain ⟨hflow, hnamed⟩ := Prod.mk.inj hnext
  exact ⟨_, v, _, hl, hflow, hnamed, hactive, by decide +kernel⟩

end Program

end LineBasic

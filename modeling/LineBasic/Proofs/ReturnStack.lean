import LineBasic.Proofs.Lines
import LineBasic.Proofs.Trail

namespace LineBasic.Program

open Outcome

inductive Frame
  | call (index : Nat)
  | pass (index : Nat)
  deriving DecidableEq

namespace Frame

/-- The position that the frame leads back to: the line after a call, the first line of a loop. -/
def address : Frame → Nat
  | call i => i + 1
  | pass i => i

def call? : Frame → Option Nat
  | call i => some i
  | pass _ => none

def after (fs : List Frame) (i : Nat) : Option Flow → List Frame
  | some (.call _) => call i :: fs
  | some .loopBegin => pass i :: fs
  | some .giveBack | some .loopRepeat => fs.tail
  | _ => fs

def callsAfter (cs : List Nat) (i : Nat) : Option Flow → List Nat
  | some (.call _) => i :: cs
  | some .giveBack => cs.tail
  | _ => cs

def fits (fs : List Frame) : Option Flow → Bool
  | some .giveBack => fs.head?.any (·.call?.isSome)
  | some .loopRepeat => fs.head?.any (·.call?.isNone)
  | _ => true

end Frame

def frames (fs : List Frame) (vs : List Visit) : List Frame :=
  vs.foldl (fun fs v => Frame.after fs v.index v.flow) fs

def openCalls (cs : List Nat) (vs : List Visit) : List Nat :=
  vs.foldl (fun cs v => Frame.callsAfter cs v.index v.flow) cs

def tidy : List Frame → List Visit → Bool
  | _, [] => true
  | fs, v :: vs => Frame.fits fs v.flow && tidy (Frame.after fs v.index v.flow) vs

def Backs (numbers : List Int) (fs : List Frame) (returns : List Int) : Prop :=
  returns.map some = fs.map fun f => numbers[f.address]?

def Step.Stacked (numbers : List Int) (fs : List Frame) : Step → Prop
  | .more i p => i < numbers.length ∧ Backs numbers fs p.returns
  | _ => True

section Stacked

variable {numbers : List Int} {f : Frame} {fs : List Frame} {i : Nat} {p : Program} {n : Int}
  {returns : List Int}

theorem Backs.nil (h : Backs numbers [] returns) : returns = [] := List.map_eq_nil_iff.mp h

theorem Backs.push (h : Backs numbers fs returns) (hn : numbers[f.address]? = some n) :
    Backs numbers (f :: fs) (n :: returns) := by
  rw [Backs, List.map_cons, List.map_cons, hn, h]

theorem Backs.pop (h : Backs numbers (f :: fs) returns) :
    ∃ n rest, returns = n :: rest ∧ numbers[f.address]? = some n ∧ Backs numbers fs rest := by
  rw [Backs, List.map_cons] at h
  obtain ⟨n, rest, rfl, hn, hrest⟩ := List.map_eq_cons_iff.mp h
  exact ⟨n, rest, rfl, hn.symm, hrest⟩

theorem stacked_goTo (h : Backs numbers fs p.returns) (j : Nat) :
    (goTo numbers j p).Stacked numbers fs := by
  rw [goTo]
  split
  · rename_i n hn
    exact ⟨(List.getElem?_eq_some_iff.mp hn).1, h⟩
  · trivial

theorem stacked_goToTarget (h : Backs numbers fs p.returns) (target : Value)
    (bad : String → Fault) : (goToTarget numbers target bad p).Stacked numbers fs := by
  rw [goToTarget]
  split
  · rename_i j hj
    exact ⟨(List.findIdx?_eq_some_iff_getElem.mp hj).1, h⟩
  · split <;> trivial

theorem comeBack_nil (h : Backs numbers [] p.returns) (stray lost : String → Fault) :
    comeBack numbers stray lost p = .failed (stray p.next.label) p := by
  rw [comeBack, h.nil]

theorem comeBack_cons (ha : numbers.Pairwise (· < ·)) (h : Backs numbers (f :: fs) p.returns)
    (stray lost : String → Fault) :
    ∃ n, numbers[f.address]? = some n ∧ Backs numbers fs p.returns.tail ∧
      comeBack numbers stray lost p =
        .more f.address { p with returns := p.returns.tail, next := .int n } := by
  obtain ⟨n, rest, hreturns, hn, hrest⟩ := h.pop
  refine ⟨n, hn, by rwa [hreturns], ?_⟩
  simp only [comeBack, hreturns, findIdx?_of_ascending ha hn, goTo, hn, List.tail_cons]

theorem stacked_comeBack (ha : numbers.Pairwise (· < ·)) (h : Backs numbers fs p.returns)
    (stray lost : String → Fault) :
    (comeBack numbers stray lost p).Stacked numbers fs.tail := by
  cases fs with
  | nil => rw [comeBack_nil h]; trivial
  | cons f fs =>
      obtain ⟨n, hn, hrest, heq⟩ := comeBack_cons ha h stray lost
      rw [heq]
      exact ⟨(List.getElem?_eq_some_iff.mp hn).1, hrest⟩

theorem index?_comeBack (ha : numbers.Pairwise (· < ·)) (h : Backs numbers fs p.returns)
    (stray lost : String → Fault) :
    (comeBack numbers stray lost p).index? = fs.head?.map Frame.address := by
  cases fs with
  | nil => rw [comeBack_nil h]; rfl
  | cons f fs =>
      obtain ⟨n, -, -, heq⟩ := comeBack_cons ha h stray lost
      rw [heq]
      rfl

theorem stacked_follow (ha : numbers.Pairwise (· < ·)) (hi : i < numbers.length)
    (h : Backs numbers fs p.returns) (flow : Option Flow) :
    (follow numbers i flow p).Stacked numbers (Frame.after fs i flow) := by
  rcases flow with _ | flow
  · exact stacked_goTo h (i + 1)
  cases flow with
  | jump target => exact stacked_goToTarget h target _
  | stop => trivial
  | loopSkip target => exact stacked_goTo h _
  | giveBack => exact stacked_comeBack ha h _ _
  | loopRepeat => exact stacked_comeBack ha h _ _
  | call target =>
      -- A call in the last line has nowhere to come back to, and fails before it goes anywhere.
      rw [follow]
      split
      · trivial
      · rename_i n hn
        exact stacked_goToTarget (h.push (f := .call i) hn) target _
  | loopBegin =>
      have hn : numbers[i]? = some numbers[i] := List.getElem?_eq_getElem hi
      rw [follow]
      dsimp only
      split
      · rename_i n hn'
        refine ⟨(List.getElem?_eq_some_iff.mp hn').1, ?_⟩
        rw [hn]
        exact h.push (f := .pass i) hn
      · trivial

/-- What holds of the stack before some lines of a run holds after them. -/
theorem Leads.stacked {st st' : Step} {vs : List Visit} (ha : numbers.Pairwise (· < ·))
    (hl : Leads numbers st vs st') (h : st.Stacked numbers fs) :
    st'.Stacked numbers (frames fs vs) := by
  induction hl generalizing fs with
  | refl => exact h
  | @line i p flow m vs st hv _ ih =>
      exact ih (stacked_follow (p := { p with machine := m.withFlow flow }) ha h.1 h.2 flow)

end Stacked

theorem Frame.callsAfter_of_fits {fs : List Frame} {flow : Option Flow} (h : fits fs flow)
    (i : Nat) : callsAfter (fs.filterMap call?) i flow = (after fs i flow).filterMap call? := by
  rcases flow with _ | flow
  · rfl
  cases flow with
  | jump | call | loopBegin | loopSkip | stop => rfl
  | giveBack =>
      rcases fs with _ | ⟨c | j, fs⟩
      · cases h
      · rfl
      · cases h
  | loopRepeat =>
      rcases fs with _ | ⟨c | j, fs⟩
      · cases h
      · cases h
      · rfl

theorem tidy_append {fs : List Frame} {vs : List Visit} {v : Visit} (h : tidy fs (vs ++ [v])) :
    tidy fs vs ∧ Frame.fits (frames fs vs) v.flow := by
  induction vs generalizing fs with
  | nil => exact ⟨rfl, (Bool.and_eq_true _ _ ▸ h).1⟩
  | cons w vs ih =>
      rw [List.cons_append, tidy, Bool.and_eq_true] at h
      obtain ⟨htidy, hfits⟩ := ih h.2
      exact ⟨by rw [tidy, Bool.and_eq_true]; exact ⟨h.1, htidy⟩, hfits⟩

/-- As long as every RETURN and NEXT finds what it is for, the open calls are those on the stack. -/
theorem openCalls_of_tidy {fs : List Frame} {vs : List Visit} (h : tidy fs vs) :
    openCalls (fs.filterMap Frame.call?) vs = (frames fs vs).filterMap Frame.call? := by
  induction vs generalizing fs with
  | nil => rfl
  | cons v vs ih =>
      rw [tidy, Bool.and_eq_true] at h
      rw [frames, List.foldl_cons, ← frames, ← ih h.2, ← Frame.callsAfter_of_fits h.1]
      rfl

theorem stacked_opening {p : Program} (h : p.returns = []) : p.opening.Stacked p.numbers [] := by
  rw [opening]
  split
  · trivial
  · rename_i first rest hn
    refine ⟨by rw [hn]; exact Nat.zero_lt_succ _, ?_⟩
    show Backs _ [] p.returns
    rw [h]
    rfl

/-- After RETURN a run goes on at the address of the latest frame, be it of a call or of a loop that
was left. So it goes back to the line after the latest open call exactly if the latest frame leads
there; and it does if every RETURN and NEXT so far, this RETURN included, found what it is for. The
rest of the run is what follows from there. -/
theorem index?_after_return (p : Program) (vs : List Visit) (v : Visit) (st : Step)
    (ha : p.numbers.Pairwise (· < ·)) (hempty : p.returns = [])
    (hrun : Leads p.numbers p.opening (vs ++ [v]) st) (hreturn : v.flow = some .giveBack) :
    st.index? = (frames [] vs).head?.map Frame.address ∧
    (∀ c, (openCalls [] vs).head? = some c →
      (st.index? = some (c + 1) ↔ ∃ f, (frames [] vs).head? = some f ∧ f.address = c + 1) ∧
      (tidy [] (vs ++ [v]) → st.index? = some (c + 1))) ∧
    ∀ n, p.runWithin (vs.length + 1 + n) = Leads.resume p.numbers n st := by
  obtain ⟨m, hbefore, hst⟩ := hrun.of_append
  have hstacked := hbefore.stacked ha (stacked_opening hempty)
  have hindex : st.index? = (frames [] vs).head?.map Frame.address := by
    rw [hst, hreturn]
    exact index?_comeBack (p := { v.program with machine := m.withFlow (some .giveBack) }) ha
      hstacked.2 _ _
  have hrest : ∀ n, p.runWithin (vs.length + 1 + n) = Leads.resume p.numbers n st := by
    intro n
    rw [Leads.runWithin_eq, ← hrun.resume_eq, List.length_append, List.length_singleton]
  refine ⟨hindex, fun c hc => ⟨?_, fun htidy => ?_⟩, hrest⟩
  · rw [hindex, Option.map_eq_some_iff]
  · obtain ⟨htidy, hfits⟩ := tidy_append htidy
    have hcalls := openCalls_of_tidy htidy
    rw [List.filterMap_nil] at hcalls
    rw [hreturn] at hfits
    rw [hindex]
    -- RETURN fits, so a call is on top, and it is the latest open one.
    rcases hf : frames [] vs with _ | ⟨d | j, fs⟩
    · rw [hf] at hfits
      cases hfits
    · rw [hcalls, hf] at hc
      cases hc
      rfl
    · rw [hf] at hfits
      cases hfits

/-- A subroutine with a loop that runs to its end. -/
theorem index?_after_return_tidy :
    let p := written [(10, "GOSUB 30"), (20, "STOP"), (30, "FOR I = 1 TO 1"), (40, "NEXT I"),
      (50, "RETURN")]
    ∃ vs v st, Leads p.numbers p.opening (vs ++ [v]) st ∧ v.flow = some .giveBack ∧
      openCalls [] vs = [0] ∧ st.index? = some 1 := by
  intro p
  have hl := leads_walk p.numbers 5 p.opening
  have hflow : (walk p.numbers 5 p.opening).1.getLast?.map Visit.flow = some (some .giveBack) := by
    decide +kernel
  have hcalls : openCalls [] (walk p.numbers 5 p.opening).1.dropLast = [0] := by decide +kernel
  have htidy : tidy [] (walk p.numbers 5 p.opening).1 := by decide +kernel
  obtain ⟨v, hv, hgives⟩ := Option.map_eq_some_iff.mp hflow
  rw [List.getLast?_eq_some_iff] at hv
  obtain ⟨vs, hvs⟩ := hv
  rw [hvs] at hl htidy
  rw [hvs, List.dropLast_concat] at hcalls
  refine ⟨vs, v, _, hl, hgives, hcalls, ?_⟩
  have h := index?_after_return p vs v _ (by decide +kernel) rfl hl hgives
  exact (h.2.1 0 (by rw [hcalls]; rfl)).2 htidy

/-- A loop that was left misleads RETURN: with the call in the first line open, it goes to the first
line of the loop. -/
theorem left_loop_misleads_return :
    let p := written [(10, "GOSUB 30"), (20, "STOP"), (30, "FOR I = 1 TO 2"), (40, "GOTO 60"),
      (50, "NEXT I"), (60, "RETURN")]
    ∃ vs st, Leads p.numbers p.opening vs st ∧
      vs.map (fun v => (v.index, v.flow)) = [(0, some (.call (.int 30))), (2, some .loopBegin),
        (3, some (.jump (.int 60))), (5, some .giveBack)] ∧
      openCalls [] vs.dropLast = [0] ∧ st.index? = some 2 := by
  intro p
  exact ⟨_, _, leads_walk p.numbers 4 p.opening, by decide +kernel, by decide +kernel,
    by decide +kernel⟩

end LineBasic.Program

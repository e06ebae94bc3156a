import LineBasic.Proofs.Agreement
import LineBasic.Proofs.Position

namespace LineBasic

open Outcome

namespace Machine

/-- A relation between machines that the lines of a run keep, as far as these need only what is
allowed. -/
structure Simulation (T : Machine → Machine → Prop) (allows : Feature → Prop) : Prop where
  stable : ∀ site, Exec.Stable ⟨site, site, Job.Beside T⟩ allows
  assign : ∀ site name v, Exec.Keeps ⟨site, site, Job.Beside T⟩ (Exec.assign name v)
  flow : ∀ {m n}, T m n → m.lastFlow = n.lastFlow
  withFlow : ∀ {m n}, T m n → ∀ flow, T (m.withFlow flow) (n.withFlow flow)

namespace Simulation

variable {T : Machine → Machine → Prop} {allows : Feature → Prop} (h : Simulation T allows)
  {m n : Machine}
include h

theorem agree_runLine (site : Site) {tokens : List Token} (hw : Within allows tokens)
    (hmn : T m n) :
    Agree site.label site.label T (runLine site tokens m) (runLine site tokens n) := by
  refine Machine.agree_runLine (fun _ => h.stable _) (fun after part hpart c hc => ?_) hmn
  refine .of_assign (fun f hf => hw part hpart f ?_) (fun hjk => h.flow hjk.2) (h.assign _)
  rwa [needs?_of_start? hc]

/-- Escape is looked at with the same answer. -/
theorem escaped (hmn : T m n) : ∃ r t t', T { m with terminal := t } { n with terminal := t' } ∧
    ((Terminal.escaped m.terminal = .ok r t ∧ Terminal.escaped n.terminal = .ok r t') ∨
      ∃ f, Terminal.escaped m.terminal = .error f t ∧
        Terminal.escaped n.terminal = .error f t') := by
  have hagree := (h.stable ⟨"", none, 0⟩).terminal Terminal.steady_escaped
    ⟨⟨⟨0, none, ""⟩, [], 0⟩, m⟩ ⟨⟨⟨0, none, ""⟩, [], 0⟩, n⟩ ⟨rfl, hmn⟩
  unfold Exec.onTerminal at hagree
  dsimp only at hagree
  cases hm : Terminal.escaped m.terminal <;> cases hn : Terminal.escaped n.terminal <;>
    rw [hm, hn] at hagree
  · cases hagree with
    | ok a hjk => exact ⟨_, _, _, hjk.2, .inl ⟨rfl, rfl⟩⟩
  · cases hagree
  · cases hagree
  · cases hagree with
    | error f hf hjk => exact ⟨false, _, _, hjk.2, .inr ⟨_, rfl, rfl⟩⟩

/-- A line is carried out on both machines, with the same signal, or fails on both. -/
theorem visit (site : Site) {tokens : List Token} (hw : Within allows tokens) (hmn : T m n) :
    (∃ flow m' n', visit site tokens m = .ok flow m' ∧ visit site tokens n = .ok flow n' ∧
      T m' n') ∨
    ∃ f f' m' n', visit site tokens m = .error f m' ∧ visit site tokens n = .error f' n' := by
  obtain ⟨escaped, t, t', hmn', ⟨hm, hn⟩ | ⟨f, hm, hn⟩⟩ := h.escaped hmn
  · cases escaped with
    | true => exact .inr ⟨_, _, _, _, bind_error (by rw [poll, hm]), bind_error (by rw [poll, hn])⟩
    | false =>
        have hagree := h.agree_runLine site hw hmn'
        rw [Machine.visit, bind_ok (show poll m = .ok () _ by rw [poll, hm]),
          bind_ok (show poll n = .ok () _ by rw [poll, hn])]
        generalize runLine site tokens { m with terminal := t } = o at hagree
        generalize runLine site tokens { n with terminal := t' } = o' at hagree
        cases hagree with
        | ok flow hmn'' => exact .inl ⟨flow, _, _, rfl, rfl, hmn''⟩
        | error e _ _ => exact .inr ⟨_, _, _, _, rfl, rfl⟩
  · exact .inr ⟨_, _, _, _, bind_error (by rw [poll, hm]), bind_error (by rw [poll, hn])⟩

end Simulation

end Machine

namespace Program

def Within (allows : Feature → Prop) (p : Program) : Prop :=
  ∀ l ∈ p.lines, LineBasic.Within allows l.2

/-- The same program at the same line, with related machines. What the second has to come back to
ends with what an earlier run left. -/
structure Resumed (T : Machine → Machine → Prop) (below : List Int) (p q : Program) : Prop where
  lines : q.lines = p.lines
  returns : q.returns = p.returns ++ below
  next : q.next = p.next
  machine : T p.machine q.machine

inductive Step.Resumed (T : Machine → Machine → Prop) (below : List Int) : Step → Step → Prop
  | more (i : Nat) {p q : Program} (h : Program.Resumed T below p q) :
      Resumed T below (.more i p) (.more i q)
  | done {p q : Program} (h : Program.Resumed T below p q) : Resumed T below (.done p) (.done q)
  | failed (f : Fault) {p q : Program} (h : Program.Resumed T below p q) :
      Resumed T below (.failed f p) (.failed f q)

def Step.Strays (st : Step) : Prop := ∃ f p, st = .failed f p ∧ p.returns = []

section Follow

variable {T : Machine → Machine → Prop} {below : List Int} {p q : Program} {numbers : List Int}

theorem resumed_goTo (h : Resumed T below p q) (i : Nat) :
    (goTo numbers i p).Resumed T below (goTo numbers i q) := by
  unfold goTo
  split
  · exact .more i { h with next := rfl }
  · exact .done h

theorem resumed_goToTarget (h : Resumed T below p q) (target : Value) (bad : String → Fault) :
    (goToTarget numbers target bad p).Resumed T below (goToTarget numbers target bad q) := by
  unfold goToTarget
  split
  · exact .more _ { h with next := rfl }
  · split <;> exact .failed _ h

/-- Old lines to come back to are reached only where the first of the two runs ends. -/
theorem resumed_comeBack (h : Resumed T below p q) (stray lost : String → Fault) :
    (comeBack numbers stray lost p).Resumed T below (comeBack numbers stray lost q) ∨
      below ≠ [] ∧ (comeBack numbers stray lost p).Strays := by
  have hq := h.returns
  unfold comeBack
  cases hp : p.returns with
  | nil =>
      rw [hp, List.nil_append] at hq
      cases hb : below with
      | nil =>
          rw [hq, hb, h.next]
          exact .inl (.failed _ (hb ▸ h))
      | cons n ns => exact .inr ⟨List.cons_ne_nil n ns, _, _, rfl, hp⟩
  | cons n returns =>
      rw [hp, List.cons_append] at hq
      have hpopped : Resumed T below { p with returns := returns }
          { q with returns := returns ++ below } := { h with returns := rfl }
      rw [hq]
      dsimp only
      left
      split
      · exact resumed_goTo hpopped _
      · rw [h.next]
        exact .failed _ { hpopped with next := rfl }

theorem resumed_follow (h : Resumed T below p q) (i : Nat) (flow : Option Flow) :
    (follow numbers i flow p).Resumed T below (follow numbers i flow q) ∨
      below ≠ [] ∧ (follow numbers i flow p).Strays := by
  rcases flow with _ | flow
  · exact .inl (resumed_goTo h _)
  cases flow with
  | jump target => exact .inl (resumed_goToTarget h target _)
  | stop => exact .inl (.done h)
  | loopSkip target =>
      rw [follow, follow, h.lines]
      exact .inl (resumed_goTo h _)
  | giveBack => exact resumed_comeBack h _ _
  | loopRepeat => exact resumed_comeBack h _ _
  | call target =>
      rw [follow, follow]
      split
      · exact .inl (.failed _ h)
      · rename_i n _
        have hpushed : Resumed T below { p with returns := n :: p.returns }
            { q with returns := n :: q.returns } :=
          { h with returns := congrArg (n :: ·) h.returns }
        exact .inl (resumed_goToTarget hpushed target _)
  | loopBegin =>
      rw [follow, follow, h.returns, ← List.append_assoc]
      dsimp only
      split
      · exact .inl (.more _ ⟨h.lines, rfl, rfl, h.machine⟩)
      · exact .inl (.failed _ { h with returns := rfl })

end Follow

section Run

variable {T : Machine → Machine → Prop} {allows : Feature → Prop} {below : List Int}
  {p q : Program} {numbers : List Int}

theorem Within.standing (hp : p.Within allows) : LineBasic.Within allows p.standing := by
  rw [Program.standing]
  cases hl : p.standing? with
  | none =>
      intro part hpart f hf
      obtain rfl := List.mem_singleton.mp hpart
      cases hf
  | some l =>
      obtain ⟨j, -, hj⟩ := Option.bind_eq_some_iff.mp hl
      exact hp l (List.mem_of_getElem? hj)

theorem Resumed.standing? (h : Resumed T below p q) : q.standing? = p.standing? := by
  simp only [Program.standing?, Program.numbers, h.lines, h.next]

theorem Resumed.site (h : Resumed T below p q) : q.site = p.site := by
  rw [Program.site, Program.site, h.standing?, h.next]

theorem Resumed.standing (h : Resumed T below p q) : q.standing = p.standing := by
  rw [Program.standing, Program.standing, h.standing?]

variable (hT : Machine.Simulation T allows)
include hT

theorem resumed_step (hp : p.Within allows) (h : Resumed T below p q) (i : Nat) :
    (step numbers i p).Resumed T below (step numbers i q) ∨
      below ≠ [] ∧ (step numbers i p).Strays := by
  rw [step, step, h.standing?, h.site, h.standing]
  obtain ⟨escaped, t, t', hmachine, ⟨hpoll, hpoll'⟩ | ⟨f, hpoll, hpoll'⟩⟩ := hT.escaped h.machine
  · have hpolled : Resumed T below { p with machine := { p.machine with terminal := t } }
        { q with machine := { q.machine with terminal := t' } } := { h with machine := hmachine }
    rw [hpoll, hpoll']
    cases escaped with
    | true => exact .inl (.failed _ hpolled)
    | false =>
        dsimp only
        by_cases hs : p.standing?.isNone
        · rw [if_pos hs, if_pos hs, h.next]
          exact .inl (.failed _ { hpolled with next := rfl })
        · have hagree := hT.agree_runLine p.site hp.standing hmachine
          rw [if_neg hs, if_neg hs]
          generalize
            Machine.runLine p.site p.standing { p.machine with terminal := t } = o at hagree
          generalize Machine.runLine p.site p.standing { q.machine with terminal := t' } = o'
            at hagree
          cases hagree with
          | error _ _ hmn => exact .inl (.failed _ { h with machine := hmn })
          | @ok flow m n hmn =>
              have hnow : Resumed T below { p with machine := m.withFlow flow }
                  { q with machine := n.withFlow flow } :=
                { h with machine := hT.withFlow hmn flow }
              exact resumed_follow hnow i flow
  · rw [hpoll, hpoll']
    exact .inl (.failed f { h with machine := hmachine })

theorem resumed_runFor (n : Nat) (hp : p.Within allows) (h : Resumed T below p q) {i : Nat}
    (hkept : below = [] ∨ (runFor numbers n i p).2.returns ≠ []) :
    (runFor numbers n i q).1 = (runFor numbers n i p).1 ∧
      Resumed T below (runFor numbers n i p).2 (runFor numbers n i q).2 := by
  induction n generalizing i p q with
  | zero => exact ⟨rfl, h⟩
  | succ n ih =>
      have hlines : (step numbers i p).program.lines = p.lines := lines_step
      rw [runFor] at hkept ⊢
      rw [runFor]
      rcases resumed_step hT hp h i with hstep | ⟨hbelow, f, p', hf, hnil⟩
      · generalize step numbers i p = st at hstep hkept hlines
        generalize step numbers i q = st' at hstep
        cases hstep with
        | done h' => exact ⟨rfl, h'⟩
        | failed f h' => exact ⟨rfl, h'⟩
        | @more j p' q' h' =>
            have hp' : p'.Within allows := fun l hl => hp l (hlines ▸ hl)
            exact ih hp' h' hkept
      · -- The first run is over, and it has left nothing to come back to.
        rw [hf] at hkept
        exact absurd hnil (hkept.resolve_left hbelow)

end Run

end Program

end LineBasic

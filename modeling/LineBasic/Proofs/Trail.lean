import LineBasic.Program.Run
import LineBasic.Proofs.Local

namespace LineBasic

open Outcome

namespace Machine

def poll : EStateM Fault Machine Unit := fun m =>
  match Terminal.escaped m.terminal with
  | .error f t => .error f { m with terminal := t }
  | .ok true t => .error .interrupted { m with terminal := t }
  | .ok false t => .ok () { m with terminal := t }

theorem local_poll (ks : List String) : Local ks poll := by
  intro flow
  constructor
  · intro m
    rw [poll]
    split <;> rfl
  · intro m
    simp only [poll, withFlow]
    split <;> rfl

theorem of_poll {m m' : Machine} (h : poll m = .ok () m') :
    ∃ t, Terminal.escaped m.terminal = .ok false t ∧ m' = { m with terminal := t } := by
  rw [poll] at h
  split at h
  · cases h
  · cases h
  · rename_i t he
    cases h
    exact ⟨t, he, rfl⟩

theorem poll_keeps {m m' : Machine} (h : poll m = .ok () m') :
    m'.symbols = m.symbols ∧ m'.lastFlow = m.lastFlow := by
  obtain ⟨t, -, rfl⟩ := of_poll h
  exact ⟨rfl, rfl⟩

def visit (site : Site) (tokens : List Token) : EStateM Fault Machine (Option Flow) := do
  poll
  runLine site tokens

end Machine

namespace Program

section Position

variable {numbers : List Int} {i : Nat} {n : Int}

theorem findIdx?_of_ascending (ha : numbers.Pairwise (· < ·)) (hn : numbers[i]? = some n) :
    numbers.findIdx? (· = n) = some i := by
  obtain ⟨hi, rfl⟩ := List.getElem?_eq_some_iff.mp hn
  refine List.findIdx?_eq_some_iff_getElem.mpr ⟨hi, by simp, fun j hj => ?_⟩
  have hlt := List.pairwise_iff_getElem.mp ha j i (by omega) hi hj
  simpa using Int.ne_of_lt hlt

theorem indexOf?_int (ha : numbers.Pairwise (· < ·)) (hn : numbers[i]? = some n) :
    indexOf? numbers (.int n) = some i := by
  rw [indexOf?, ← findIdx?_of_ascending ha hn]
  congr 1
  funext m
  rw [Bool.eq_iff_iff, Value.same_int, decide_eq_true_iff, eq_comm]

theorem goTo_of_some (hn : numbers[i]? = some n) (p : Program) :
    goTo numbers i p = .more i { p with next := .int n } := by
  rw [goTo, hn]

variable {p : Program}

theorem follow_loopBegin {n' : Int} (hn : numbers[i]? = some n) (hn' : numbers[i + 1]? = some n') :
    follow numbers i (some .loopBegin) p =
      goTo numbers (i + 1) { p with returns := n :: p.returns } := by
  simp only [follow, goTo, hn, hn', Option.toList_some, List.singleton_append]

theorem follow_loopRepeat {returns : List Int} (ha : numbers.Pairwise (· < ·))
    (hn : numbers[i]? = some n) (hp : p.returns = n :: returns) (j : Nat) :
    follow numbers j (some .loopRepeat) p = goTo numbers i { p with returns := returns } := by
  simp only [follow, comeBack, hp, findIdx?_of_ascending ha hn]

theorem follow_loopSkip {target : Value} {j : Nat}
    (h : afterLoop target (i + 1) (p.lines.drop (i + 1)) = j) :
    follow numbers i (some (.loopSkip target)) p = goTo numbers j p := by
  rw [follow, h]

end Position

theorem standing_eq {p : Program} {i : Nat} {n : Int} {tokens : List Token}
    (hi : indexOf? p.numbers p.next = some i) (ht : p.lines[i]? = some (n, tokens)) :
    p.site = ⟨p.next.label, some n, 0⟩ ∧ p.standing = tokens := by
  have hs : p.standing? = some (n, tokens) := by rw [standing?, hi, Option.bind_some, ht]
  rw [site, standing, hs]
  exact ⟨rfl, rfl⟩

theorem isNone_standing? {p : Program} (h : p.standing ≠ []) : p.standing?.isNone = false := by
  cases hs : p.standing? with
  | some l => rfl
  | none => exact absurd (by rw [standing, hs]; rfl) h

theorem step_of_ok {numbers : List Int} {i : Nat} {p : Program} {flow : Option Flow} {m : Machine}
    (h : Machine.visit p.site p.standing p.machine = .ok flow m) :
    step numbers i p = follow numbers i flow { p with machine := m.withFlow flow } := by
  obtain ⟨u, m₁, hp, hr⟩ := of_bind_ok h
  obtain ⟨t, he, rfl⟩ := Machine.of_poll hp
  have hs : p.standing ≠ [] := fun hs => by
    rw [hs] at hr
    cases hr
  rw [step, he]
  dsimp only
  rw [isNone_standing? hs, if_neg (by decide), hr]
  rfl

theorem step_of_error {numbers : List Int} {i : Nat} {p : Program} {f : Fault} {m m' : Machine}
    (hs : p.standing ≠ []) (hp : p.machine.poll = .ok () m)
    (h : Machine.runLine p.site p.standing m = .error f m') :
    step numbers i p = .failed (reported f) { p with machine := m' } := by
  obtain ⟨t, he, rfl⟩ := Machine.of_poll hp
  rw [step, he]
  dsimp only
  rw [isNone_standing? hs, if_neg (by decide), h]

def Step.index? : Step → Option Nat
  | .more i _ => some i
  | _ => none

def Step.program : Step → Program
  | .more _ p | .done p | .failed _ p => p

/-- What every line of a run keeps, the run keeps. -/
theorem runFor_keeps {numbers : List Int} {P : Program → Prop}
    (hstep : ∀ i p, P p → P (step numbers i p).program) (n i : Nat) {p : Program} (hp : P p) :
    P (runFor numbers n i p).2 := by
  induction n generalizing i p with
  | zero => exact hp
  | succ n ih =>
      have hnow := hstep i p hp
      rw [runFor]
      generalize step numbers i p = st at hnow ⊢
      cases st with
      | done q => exact hnow
      | failed f q => exact hnow
      | more j q => exact ih j hnow

structure Visit where
  index : Nat
  program : Program
  flow : Option Flow

inductive Leads (numbers : List Int) : Step → List Visit → Step → Prop
  | refl (st : Step) : Leads numbers st [] st
  | line {i : Nat} {p : Program} {flow : Option Flow} {m : Machine} {vs : List Visit} {st : Step}
      (h : Machine.visit p.site p.standing p.machine = .ok flow m)
      (hl : Leads numbers (follow numbers i flow { p with machine := m.withFlow flow }) vs st) :
      Leads numbers (.more i p) (⟨i, p, flow⟩ :: vs) st

def opening (p : Program) : Step :=
  match p.numbers with
  | [] => .failed .noStatements p.prepare
  | first :: _ => .more 0 { p.prepare with next := .int first }

def walk (numbers : List Int) : Nat → Step → List Visit × Step
  | n + 1, .more i p =>
      match Machine.visit p.site p.standing p.machine with
      | .ok flow m =>
          let (vs, st) :=
            walk numbers n (follow numbers i flow { p with machine := m.withFlow flow })
          (⟨i, p, flow⟩ :: vs, st)
      | .error _ _ => ([], .more i p)
  | _, st => ([], st)

theorem leads_walk (numbers : List Int) (n : Nat) (st : Step) :
    Leads numbers st (walk numbers n st).1 (walk numbers n st).2 := by
  induction n generalizing st with
  | zero => cases st <;> exact .refl _
  | succ n ih =>
      cases st with
      | done | failed => exact .refl _
      | more i p =>
          rw [walk]
          split
          · rename_i flow m hv
            exact .line hv (ih _)
          · exact .refl _

namespace Leads

variable {numbers : List Int} {st st' st'' : Step} {vs ws : List Visit}

theorem trans (h : Leads numbers st vs st') (h' : Leads numbers st' ws st'') :
    Leads numbers st (vs ++ ws) st'' := by
  induction h with
  | refl => exact h'
  | line hv _ ih => exact .line hv (ih h')

theorem eq_of_nil (h : Leads numbers st [] st') : st' = st := by
  cases h
  rfl

theorem of_cons {v : Visit} (h : Leads numbers st (v :: vs) st') :
    ∃ m : Machine, st = .more v.index v.program ∧
      Machine.visit v.program.site v.program.standing v.program.machine = .ok v.flow m ∧
      Leads numbers (follow numbers v.index v.flow { v.program with machine := m.withFlow v.flow })
        vs st' := by
  cases h with
  | line hv hl => exact ⟨_, rfl, hv, hl⟩

theorem of_append {v : Visit} (h : Leads numbers st (vs ++ [v]) st') :
    ∃ m : Machine, Leads numbers st vs (.more v.index v.program) ∧
      st' = follow numbers v.index v.flow { v.program with machine := m.withFlow v.flow } := by
  induction vs generalizing st with
  | nil =>
      obtain ⟨m, rfl, -, hl⟩ := h.of_cons
      exact ⟨m, .refl _, hl.eq_of_nil⟩
  | cons w vs ih =>
      obtain ⟨m, rfl, hv, hl⟩ := h.of_cons
      obtain ⟨m', hl', hst⟩ := ih hl
      exact ⟨m', .line hv hl', hst⟩

def resume (numbers : List Int) (n : Nat) : Step → Ending × Program
  | .more i p => runFor numbers n i p
  | .done p => (.finished, p)
  | .failed f p => (.failed f, p)

theorem resume_more (n i : Nat) (p : Program) :
    resume numbers (n + 1) (.more i p) = resume numbers n (step numbers i p) := by
  rw [resume, runFor]
  cases step numbers i p <;> rfl

theorem resume_eq (h : Leads numbers st vs st') (n : Nat) :
    resume numbers (vs.length + n) st = resume numbers n st' := by
  induction h with
  | refl => rw [List.length_nil, Nat.zero_add]
  | @line i p flow m vs st hv _ ih =>
      rw [← ih, List.length_cons, Nat.succ_add_eq_add_succ, Nat.add_succ, resume_more,
        step_of_ok hv]

theorem runWithin_eq (n : Nat) (p : Program) : p.runWithin n = resume p.numbers n p.opening := by
  have hp : p.prepare.numbers = p.numbers := rfl
  simp only [runWithin, opening, hp]
  cases p.numbers <;> rfl

end Leads

end Program

end LineBasic

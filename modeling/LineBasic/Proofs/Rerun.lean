import LineBasic.Proofs.Lines
import LineBasic.Proofs.Signs
import LineBasic.Proofs.Simulation

namespace LineBasic

open Outcome

def Symbols.Plain (table : Symbols) : Prop := ∀ key g, table.get? key ≠ some (.grid g)

theorem Symbols.Plain.insert {table : Symbols} (h : table.Plain) (name : String) (v : Value) :
    (table.insert name v).Plain := by
  intro key g hg
  by_cases hkey : key = name
  · subst hkey
    rw [Symbols.insert, Assoc.get?_put_self] at hg
    cases hg
  · rw [Symbols.insert, Assoc.get?_put_of_ne _ _ hkey] at hg
    exact h key g hg

namespace Machine

def dressed (m : Machine) (past : List Event) (signs : List Sign) (clock : Clock) : Machine :=
  { m with terminal := m.terminal.withPast past, compared := signs, clock := clock }

structure Idle (base m : Machine) : Prop where
  channels : m.channels = []
  ledger : m.data.ledger = base.data.ledger
  disk : m.disk = base.disk

theorem Idle.dressed {base m : Machine} (h : Idle base m) (past : List Event)
    (signs : List Sign) (clock : Clock) : Idle base (m.dressed past signs clock) := { h with }

/-- What is seen behind one past does not depend on the past. -/
theorem dressed_congr {k m : Machine} {past : List Event} {signs signs' : List Sign}
    {clock clock' : Clock} (h : k.dressed past signs clock = m.dressed past signs' clock')
    (other : List Event) (noted : List Sign) (now : Clock) :
    k.dressed other noted now = m.dressed other noted now := by
  obtain ⟨_, _, _, _, _, ⟨_, _, _, events⟩, _, _, _, _⟩ := k
  obtain ⟨_, _, _, _, _, ⟨_, _, _, events'⟩, _, _, _, _⟩ := m
  simp only [dressed, Terminal.withPast, mk.injEq, Terminal.mk.injEq, List.append_cancel_right_eq]
    at h ⊢
  simp only [h, and_self]

/-- One machine behind two pasts. The clocks may have to show the same. -/
def Twin (base : Machine) (timed : Prop) (past past' : List Event) (m n : Machine) : Prop :=
  ∃ k signs signs' clock clock', Idle base k ∧ k.symbols.Plain ∧ (timed → clock = clock') ∧
    m = k.dressed past signs clock ∧ n = k.dressed past' signs' clock'

/-- A change that neither needs nor makes files or arrays, and takes no notice of past, signs and
clock. -/
structure Fits (base : Machine) (f : Machine → Machine) : Prop where
  idle : ∀ {m}, Idle base m → Idle base (f m)
  plain : ∀ {m}, m.symbols.Plain → (f m).symbols.Plain
  dressed : ∀ m past signs clock,
    f (m.dressed past signs clock) = (f m).dressed past signs clock

section Twin

variable {base m n : Machine} {timed : Prop} {past past' : List Event}

theorem Twin.map (h : Twin base timed past past' m n) {f : Machine → Machine} (hf : Fits base f) :
    Twin base timed past past' (f m) (f n) := by
  obtain ⟨k, signs, signs', clock, clock', hk, hplain, hclock, rfl, rfl⟩ := h
  exact ⟨f k, signs, signs', clock, clock', hf.idle hk, hf.plain hplain, hclock,
    hf.dressed _ _ _ _, hf.dressed _ _ _ _⟩

theorem Twin.same {α : Type} (h : Twin base timed past past' m n) (look : Machine → α)
    (hlook : ∀ k past signs clock, look (k.dressed past signs clock) = look k) :
    look m = look n := by
  obtain ⟨k, signs, signs', clock, clock', -, -, -, rfl, rfl⟩ := h
  rw [hlook, hlook]

theorem Twin.channels (h : Twin base timed past past' m n) : m.channels = [] := by
  obtain ⟨k, signs, signs', clock, clock', hk, -, -, rfl, rfl⟩ := h
  exact hk.channels

theorem Twin.plain (h : Twin base timed past past' m n) : m.symbols.Plain := by
  obtain ⟨k, signs, signs', clock, clock', -, hplain, -, rfl, rfl⟩ := h
  exact hplain

/-- The clock is looked at by both, where it shows the same. -/
theorem Twin.ticked (h : Twin base timed past past' m n) (ht : timed) (g : Clock → Generator) :
    Twin base timed past past' { m with generator := g m.clock, clock := m.clock.later }
      { n with generator := g n.clock, clock := n.clock.later } := by
  obtain ⟨k, signs, signs', clock, clock', hk, hplain, hclock, rfl, rfl⟩ := h
  obtain rfl := hclock ht
  exact ⟨{ k with generator := g clock }, signs, signs', clock.later, clock.later, { hk with },
    hplain, fun _ => rfl, rfl, rfl⟩

end Twin

end Machine

namespace Exec

open Machine

variable {site : Site} {base : Machine} {timed : Prop} {past past' : List Event}

theorem keeps_twin_modify {f : Machine → Machine} (hf : Fits base f) :
    Keeps ⟨site, site, Job.Beside (Twin base timed past past')⟩ (modifyMachine f) :=
  fun _ _ h => .ok () ⟨h.1, h.2.map hf⟩

theorem keeps_twin_evaluate {α : Type} {e : Eval α} (he : e.Tame) :
    Keeps ⟨site, site, Job.Beside (Twin base timed past past')⟩ (evaluate e) := by
  rintro ⟨c, _⟩ ⟨_, _⟩ ⟨rfl, k, signs, signs', clock, clock', hk, hplain, hclock, rfl, rfl⟩
  have hordinary := he.ordinary ⟨k.symbols, site.label⟩ ⟨c, false, k.generator, []⟩
  have hnew (s : Scan) : Job.Beside (Twin base timed past past')
      ⟨s.cursor, (k.dressed past signs clock).evaluated site s⟩
      ⟨s.cursor, (k.dressed past' signs' clock').evaluated site s⟩ :=
    ⟨rfl, { k with generator := s.generator }, _, _, clock, clock', { hk with }, hplain, hclock,
      rfl, rfl⟩
  simp only [evaluate, dressed] at hnew ⊢
  cases hr : e ⟨k.symbols, site.label⟩ ⟨c, false, k.generator, []⟩ with
  | ok a s => exact .ok a (hnew s)
  | error f s => exact .error (fun _ => f) (fun _ => hordinary f s hr) (hnew s)

theorem keeps_twin_terminal {α : Type} {act : Terminal.Act α} (ha : Terminal.Steady act) :
    Keeps ⟨site, site, Job.Beside (Twin base timed past past')⟩ (onTerminal act) := by
  rintro ⟨c, _⟩ ⟨_, _⟩ ⟨rfl, k, signs, signs', clock, clock', hk, hplain, hclock, rfl, rfl⟩
  have hnew (t : Terminal) : Job.Beside (Twin base timed past past')
      ⟨c, { k.dressed past signs clock with terminal := t.withPast past }⟩
      ⟨c, { k.dressed past' signs' clock' with terminal := t.withPast past' }⟩ :=
    ⟨rfl, { k with terminal := t }, signs, signs', clock, clock', { hk with }, hplain, hclock,
      rfl, rfl⟩
  -- What happens at the terminals is the same, and is added to either past.
  have hpast (past : List Event) := ha.blind past k.terminal
  simp only [onTerminal, dressed, hpast] at hnew ⊢
  cases hr : act k.terminal with
  | ok a t => exact .ok a (hnew t)
  | error f t => exact .error (fun _ => f) (fun _ => ha.ordinary _ _ _ hr) (hnew t)

theorem keeps_twin_assign (site : Site) (name : String) (v : Value) :
    Keeps ⟨site, site, Job.Beside (Twin base timed past past')⟩ (assign name v) :=
  keeps_twin_modify ⟨fun h => { h with }, fun h => h.insert name v, fun _ _ _ _ => rfl⟩

theorem stable_twin (base : Machine) (timed : Prop) (past past' : List Event) (site : Site) :
    Stable ⟨site, site, Job.Beside (Twin base timed past past')⟩
      fun f => f = .data ∨ f = .clock ∧ timed where
  cursor h := h.1
  symbols h := h.2.same symbols fun _ _ _ _ => rfl
  channels h := h.2.same channels fun _ _ _ _ => rfl
  supply h := h.2.same (·.terminal.supply) fun _ _ _ _ => rfl
  advance _ _ h := .ok () ⟨congrArg Cursor.advance h.1, h.2⟩
  evaluate := keeps_twin_evaluate
  terminal := keeps_twin_terminal
  assign _ := keeps_twin_assign _ _ _
  generator _ := keeps_twin_modify ⟨fun h => { h with }, fun h => h, fun _ _ _ _ => rfl⟩
  clock ht _ _ h := .ok () ⟨h.1, h.2.ticked (by simpa using ht) fun c => Generator.seed c.now⟩
  noFile _ _ _ h := h.2.channels
  disk h := by simp at h
  files h := by simp at h
  noGrid _ _ _ h := h.2.plain
  compared h := by simp at h
  grid h := by simp at h
  lines _ _ _ h := h.2.same (·.data.lines) fun _ _ _ _ => rfl
  reading _ _ _ h := ⟨h.2.same (·.data.pointer) fun _ _ _ _ => rfl,
    h.2.same pending fun _ _ _ _ => rfl⟩
  pointer _ _ _ h pointer _ := ⟨h.1, h.2.map
    (f := fun m => { m with data := { m.data with pointer := pointer } })
    ⟨fun h => { h with }, fun h => h, fun _ _ _ _ => rfl⟩⟩
  pending _ _ := keeps_twin_modify ⟨fun h => { h with }, fun h => h, fun _ _ _ _ => rfl⟩

end Exec

theorem Machine.simulation_twin (base : Machine) (timed : Prop) (past past' : List Event) :
    Simulation (Twin base timed past past') fun f => f = .data ∨ f = .clock ∧ timed where
  stable := Exec.stable_twin base timed past past'
  assign := Exec.keeps_twin_assign
  flow h := h.same lastFlow fun _ _ _ _ => rfl
  withFlow h flow := h.map (f := withFlow flow)
    ⟨fun h => { h with }, fun h => h, fun _ _ _ _ => rfl⟩

namespace Program

theorem lines_runWithin (n : Nat) (p : Program) : (p.runWithin n).2.lines = p.lines := by
  rw [runWithin]
  split
  · rfl
  · exact lines_runFor n 0 _

theorem unassigned_runWithin (n : Nat) {p : Program}
    (h : Unassigned p.lines p.machine.compared) :
    Unassigned p.lines (p.runWithin n).2.machine.compared := by
  rw [runWithin]
  split
  · exact h
  · rename_i first rest _
    exact unassigned_runFor (p := { p.prepare with next := .int first }) n 0 h

/-- The program with its terminal and its generator set anew. What happened before is kept. -/
def again (t : Terminal) (g : Generator) (p : Program) : Program :=
  { p with machine := { p.machine with
      terminal := { t with events := p.machine.terminal.events }
      generator := g } }

def atTime (clock : Clock) (p : Program) : Program :=
  { p with machine := { p.machine with clock := clock } }

def rerun (n : Nat) (t : Terminal) (g : Generator) (clocks : Nat → Clock) (p : Program) :
    Nat → Ending × Program
  | 0 => ((p.again t g).atTime (clocks 0)).runWithin n
  | k + 1 => (((rerun n t g clocks p k).2.again t g).atTime (clocks (k + 1))).runWithin n

def Modest (p : Program) : Prop := p.Within fun f => f = .data ∨ f = .clock

def Timeless (p : Program) : Prop := p.Within (· ≠ .clock)

section Again

variable {p q : Program} {n : Nat} {t : Terminal} {g : Generator} {timed : Prop}
  {clock clock' : Clock}

theorem twin_prepare (hp : p.machine.channels = []) (hq : Machine.Idle p.machine q.machine)
    (hclock : timed → clock = clock') :
    Machine.Twin p.machine timed p.machine.terminal.events q.machine.terminal.events
      ((p.again t g).atTime clock).prepare.machine
      ((q.again t g).atTime clock').prepare.machine := by
  have hflush : p.machine.channels.flushAll p.machine.disk = p.machine.disk := by rw [hp]; rfl
  have hflush' : q.machine.channels.flushAll q.machine.disk = p.machine.disk := by
    rw [hq.channels, hq.disk]
    rfl
  refine ⟨{ (p.again t g).prepare.machine with terminal := { t with events := [] } },
    p.machine.compared, q.machine.compared, clock, clock', ⟨rfl, rfl, hflush⟩,
    (fun _ _ h => nomatch h), hclock, rfl, ?_⟩
  simp only [atTime, again, prepare, Machine.dressed, Terminal.withPast, hq.ledger, hflush,
    hflush', List.nil_append]

/-- A run that comes after others does what the first one did. -/
theorem resumed_runWithin (hp : p.Within fun f => f = .data ∨ f = .clock ∧ timed)
    (hreturns : p.returns = []) (hchannels : p.machine.channels = []) (hlines : q.lines = p.lines)
    (hq : Machine.Idle p.machine q.machine) (hclock : timed → clock = clock')
    (hkept : q.returns = [] ∨ (((p.again t g).atTime clock).runWithin n).2.returns ≠ []) :
    let r := ((p.again t g).atTime clock).runWithin n
    let r' := ((q.again t g).atTime clock').runWithin n
    r'.1 = r.1 ∧ r'.2.returns = r.2.returns ++ q.returns ∧
      Machine.Twin p.machine timed p.machine.terminal.events q.machine.terminal.events
        r.2.machine r'.2.machine := by
  intro r r'
  have hmachine := @twin_prepare p q t g timed clock clock' hchannels hq hclock
  have hbelow : ((q.again t g).atTime clock').prepare.returns =
      ((p.again t g).atTime clock).prepare.returns ++ q.returns := by
    simp [prepare, atTime, again, hreturns]
  have hnumbers : ((q.again t g).atTime clock').prepare.numbers =
      ((p.again t g).atTime clock).prepare.numbers := congrArg Lines.numbers hlines
  simp only [r, r', runWithin, hnumbers] at hkept ⊢
  cases h : ((p.again t g).atTime clock).prepare.numbers with
  | nil => exact ⟨rfl, hbelow, hmachine⟩
  | cons first rest =>
      rw [h] at hkept
      have hfirst : Resumed (Machine.Twin p.machine timed p.machine.terminal.events
          q.machine.terminal.events) q.returns
          { ((p.again t g).atTime clock).prepare with next := .int first }
          { ((q.again t g).atTime clock').prepare with next := .int first } :=
        ⟨hlines, hbelow, rfl, hmachine⟩
      have hwithin : Within (fun f => f = .data ∨ f = .clock ∧ timed)
          { ((p.again t g).atTime clock).prepare with next := .int first } := hp
      obtain ⟨hending, hresumed⟩ :=
        resumed_runFor (Machine.simulation_twin _ _ _ _) n hwithin hfirst hkept
      exact ⟨hending, hresumed.returns, hresumed.machine⟩

variable (n : Nat) (t : Terminal) (g : Generator) (clocks : Nat → Clock) (p : Program)

theorem lines_rerun (k : Nat) : (rerun n t g clocks p k).2.lines = p.lines := by
  induction k with
  | zero => exact lines_runWithin n _
  | succ k ih => exact (lines_runWithin n _).trans ih

/-- Runs come one like the other: each adds the same events and the same lines to come back to,
and leaves the same machine but for the signs noted and the clock. -/
theorem rerun_repeats (hreturns : p.returns = []) (hchannels : p.machine.channels = [])
    (hclocks : timed → ∀ k, clocks k = clocks 0)
    (hp : p.Within fun f => f = .data ∨ f = .clock ∧ timed) :
    ∃ m, Machine.Idle p.machine m ∧ ∀ k,
      (rerun n t g clocks p k).1 = (rerun n t g clocks p 0).1 ∧
      (rerun n t g clocks p k).2.returns =
        (List.replicate (k + 1) (rerun n t g clocks p 0).2.returns).flatten ∧
      ∃ signs clock, (rerun n t g clocks p k).2.machine =
        m.dressed ((List.replicate k m.terminal.events).flatten ++ p.machine.terminal.events)
          signs clock := by
  have hself : Machine.Idle p.machine p.machine := ⟨hchannels, rfl, rfl⟩
  obtain ⟨-, -, m, signs, -, clock, -, hm, -, -, hfirst, -⟩ :=
    resumed_runWithin (t := t) (g := g) (n := n) hp hreturns hchannels rfl hself
      (fun _ => rfl : timed → clocks 0 = clocks 0) (.inl hreturns)
  refine ⟨m, hm, fun k => ?_⟩
  induction k with
  | zero => exact ⟨rfl, by simp, signs, clock, hfirst⟩
  | succ k ih =>
      obtain ⟨-, hreturns', signs', clock', hmachine⟩ := ih
      have hevents : (rerun n t g clocks p k).2.machine.terminal.events =
          (List.replicate (k + 1) m.terminal.events).flatten ++ p.machine.terminal.events := by
        rw [hmachine, List.replicate_succ, List.flatten_cons, List.append_assoc]
        rfl
      have hkept : (rerun n t g clocks p k).2.returns = [] ∨
          (((p.again t g).atTime (clocks 0)).runWithin n).2.returns ≠ [] := by
        -- Either no run leaves anything, or the first one did not end for want of a line.
        by_cases hnone : (rerun n t g clocks p 0).2.returns = []
        · exact .inl (by simp [hreturns', hnone])
        · exact .inr hnone
      obtain ⟨hending, hbelow, j, s, s', c, c', -, -, -, hj, hj'⟩ :=
        resumed_runWithin hp hreturns hchannels (lines_rerun n t g clocks p k)
          (hmachine ▸ hm.dressed _ _ _) (fun ht => (hclocks ht (k + 1)).symm) hkept
      refine ⟨hending, ?_, s', c', ?_⟩
      · rw [List.replicate_succ, List.flatten_cons, ← hreturns']
        exact hbelow
      · rw [← hevents]
        exact hj'.trans (Machine.dressed_congr (hj.symm.trans hfirst) _ _ _)

theorem unassigned_rerun (hnone : p.machine.compared = []) (k : Nat) :
    Unassigned p.lines (rerun n t g clocks p k).2.machine.compared := by
  induction k with
  | zero =>
      refine unassigned_runWithin (p := (p.again t g).atTime (clocks 0)) n
        fun _ _ _ _ _ _ _ _ => ?_
      rw [atTime, again, hnone]
      exact List.not_mem_nil
  | succ k ih =>
      rw [← lines_rerun n t g clocks p k] at ih ⊢
      exact unassigned_runWithin
        (p := ((rerun n t g clocks p k).2.again t g).atTime (clocks (k + 1))) n ih

end Again

end Program

end LineBasic

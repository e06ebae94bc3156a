import LineBasic.Proofs.Lines
import LineBasic.Proofs.Loop.Block
import Mathlib.Data.List.Forall2

namespace LineBasic

open Outcome Program

def Env.Holds (env : Env) (m : Machine) : Prop :=
  ∀ x ∈ env, m.symbols.get? x.1 = some (.scalar (.int x.2))

theorem Env.Holds.of_local {α : Type} {env : Env} {m m' : Machine} {a : α}
    {x : EStateM Fault Machine α} (h : env.Holds m) (hx : Machine.Local (env.map Prod.fst) x)
    (hm : x m = .ok a m') : env.Holds m' := by
  have hs := (hx none).spares m
  rw [hm, List.map_map, List.map_map] at hs
  intro y hy
  rw [← h y hy]
  exact List.map_inj_left.mp hs y hy

theorem Env.Holds.append {env env' : Env} {m : Machine} (h : env.Holds m) (h' : env'.Holds m) :
    Env.Holds (env ++ env') m :=
  fun x hx => (List.mem_append.mp hx).elim (h x) (h' x)

theorem Env.Holds.right {env env' : Env} {m : Machine} (h : Env.Holds (env ++ env') m) :
    env'.Holds m :=
  fun x hx => h x (List.mem_append_right _ hx)

theorem Env.Holds.setInt {env : Env} {m : Machine} {name : String} (h : env.Holds m) (n : Int)
    (hname : name ∉ env.map Prod.fst) : Env.Holds ((name, n) :: env) (m.setInt name n) := by
  intro x hx
  rcases List.mem_cons.mp hx with rfl | hx
  · exact Assoc.get?_put_self m.symbols name _
  · have hne : x.1 ≠ name := fun he => hname (he ▸ List.mem_map_of_mem hx)
    exact (Assoc.get?_put_of_ne m.symbols _ hne).trans (h x hx)

namespace Program

def Follows (vs : List Visit) (stops : List Stop) : Prop :=
  List.Forall₂ (fun v s => v.index = s.index ∧ s.values.Holds v.program.machine ∧
    v.program.returns = s.returns) vs stops

/-- From a state of a run over `lines`, the lines of a trail are carried out, and the run goes on
at a position with the given lines to come back to and the given machine. -/
def Arrives (lines : Lines (List Token)) (st : Step) (stops : List Stop) (j : Nat)
    (returns : List Int) (m : Machine) : Prop :=
  ∃ vs q, Leads lines.numbers st vs (goTo lines.numbers j q) ∧ Follows vs stops ∧
    q.lines = lines ∧ q.returns = returns ∧ q.machine = m

section Arrives

variable {lines : Lines (List Token)} {st : Step} {stops : List Stop} {i j : Nat}
  {returns : List Int} {p : Program} {m m' : Machine} {env : Env}

theorem arrives_goTo (hp : p.lines = lines) :
    Arrives lines (goTo lines.numbers i p) [] i p.returns p.machine :=
  ⟨[], p, .refl _, .nil, hp, rfl, rfl⟩

theorem Arrives.cons {flow : Option Flow} {returns₀ : List Int}
    (hv : Machine.visit p.site p.standing p.machine = .ok flow m) (henv : env.Holds p.machine)
    (hreturns : p.returns = returns₀)
    (h : Arrives lines (follow lines.numbers i flow { p with machine := m.withFlow flow })
      stops j returns m') :
    Arrives lines (.more i p) (⟨i, env, returns₀⟩ :: stops) j returns m' := by
  obtain ⟨vs, q, hl, hf, hq⟩ := h
  exact ⟨_ :: vs, q, .line hv hl, .cons ⟨rfl, henv, hreturns⟩ hf, hq⟩

theorem Arrives.goesOn (h : Arrives lines st stops j returns m) :
    ∃ q : Program, q.lines = lines ∧ q.returns = returns ∧ q.machine = m ∧
      ∀ {stops' k returns' m'}, Arrives lines (goTo lines.numbers j q) stops' k returns' m' →
        Arrives lines st (stops ++ stops') k returns' m' := by
  obtain ⟨vs, q, hl, hf, hlines, hreturns, hm⟩ := h
  refine ⟨q, hlines, hreturns, hm, fun h' => ?_⟩
  obtain ⟨ws, q', hl', hf', hq'⟩ := h'
  exact ⟨vs ++ ws, q', hl.trans hl', List.rel_append hf hf', hq'⟩

end Arrives

end Program

structure Stands (lines : Lines (List Token)) (i : Nat) (p : Program) : Prop where
  lines_eq : p.lines = lines
  index : indexOf? lines.numbers p.next = some i

theorem Stands.at {lines : Lines (List Token)} {i : Nat} {p : Program} {x : Int × List Token}
    (hp : Stands lines i p) (hx : lines[i]? = some x) :
    p.site = ⟨p.next.label, some x.1, 0⟩ ∧ p.standing = x.2 :=
  standing_eq (hp.lines_eq ▸ hp.index) (hp.lines_eq ▸ hx)

section Placed

variable {lines ls : Lines (List Token)} {i : Nat} {x : Int × List Token}

theorem getElem?_of_placed (h : x :: ls <+: lines.drop i) : lines[i]? = some x := by
  obtain ⟨after, h⟩ := h
  have hi := congrArg List.head? h
  rw [List.head?_drop] at hi
  exact hi.symm

theorem numbers_of_placed (h : x :: ls <+: lines.drop i) : lines.numbers[i]? = some x.1 := by
  rw [Lines.numbers, List.getElem?_map, getElem?_of_placed h]
  rfl

theorem placed_append {ls' : Lines (List Token)} (h : ls ++ ls' <+: lines.drop i) :
    ls' <+: lines.drop (i + ls.length) := by
  obtain ⟨after, h⟩ := h
  refine ⟨after, ?_⟩
  rw [← List.drop_drop, ← h, List.append_assoc, List.drop_left]

theorem placed_tail (h : x :: ls <+: lines.drop i) : ls <+: lines.drop (i + 1) :=
  placed_append (show [x] ++ ls <+: _ from h)

end Placed

namespace Block

variable {lines : Lines (List Token)} {b rest : Block} {i : Nat} {left env : Env} {p : Program}
  {m : Machine}

theorem holds_leaves {e : Value} {m m' : Machine} (h : b.run e m = .ok () m') :
    b.leaves.Holds m' := by
  induction b generalizing e m with
  | done => exact fun x hx => absurd hx List.not_mem_nil
  | line number tokens plain rest ih =>
      obtain ⟨_, m₁, -, h⟩ := of_bind_ok h
      obtain ⟨_, m₂, -, h⟩ := of_bind_ok h
      exact ih h
  | loop l head tail isHead isTail body rest _ ih =>
      obtain ⟨_, m₁, -, h⟩ := of_bind_ok h
      obtain ⟨_, m₂, -, h⟩ := of_bind_ok h
      obtain ⟨_, m₃, hset, h⟩ := of_bind_ok h
      cases rest with
      | done =>
          cases hset
          cases h
          intro x hx
          cases List.mem_singleton.mp hx
          exact Assoc.get?_put_self _ _ _
      | line | loop => exact ih h

def Faithful (lines : Lines (List Token)) (b : Block) : Prop :=
  ∀ ⦃i : Nat⦄ ⦃left env : Env⦄ ⦃p : Program⦄ ⦃m : Machine⦄, b.lines ≠ [] →
    b.lines <+: lines.drop i → Stands lines i p → p.machine.lastFlow ≠ some .loopRepeat →
    Env.Holds (left ++ env) p.machine → b.Respects (env.map Prod.fst) →
    b.run p.next p.machine = .ok () m →
    ∃ flow, flow ≠ some .loopRepeat ∧
      Arrives lines (.more i p) (b.trail i left env p.returns) (i + b.lines.length) p.returns
        (m.withFlow flow)

theorem eq_done_of_lines (h : b.lines = []) : b = done := by
  cases b with
  | done => rfl
  | line | loop => cases h

/-- A block is carried out likewise if the run goes on there, whatever signal came before. -/
theorem Faithful.goTo {flow : Option Flow} {m₀ : Machine} (hb : b.Faithful lines)
    (ha : lines.numbers.Pairwise (· < ·)) (hplaced : b.lines <+: lines.drop i)
    (hp : p.lines = lines) (hm : p.machine = m₀.withFlow flow) (hflow : flow ≠ some .loopRepeat)
    (henv : Env.Holds (left ++ env) m₀) (hres : b.Respects (env.map Prod.fst))
    (hrun : b.run b.entry m₀ = .ok () m) :
    ∃ flow', flow' ≠ some .loopRepeat ∧
      Arrives lines (goTo lines.numbers i p) (b.trail i left env p.returns) (i + b.lines.length)
        p.returns (m.withFlow flow') := by
  -- An empty block has no first line to stand at.
  cases hl : b.lines with
  | nil =>
      cases eq_done_of_lines hl
      cases hrun
      exact ⟨flow, hflow, hm ▸ arrives_goTo hp⟩
  | cons x ls =>
      have hn := numbers_of_placed (hl ▸ hplaced)
      have hentry : b.entry = .int x.1 := by rw [entry, hl]; rfl
      have hrun' := (local_run hres b.entry).withFlow hrun flow
      rw [← hm, hentry] at hrun'
      rw [goTo_of_some hn, ← hl]
      exact hb (p := { p with next := .int x.1 }) (m := m.withFlow flow) (by simp [hl]) hplaced
        ⟨hp, indexOf?_int ha hn⟩ (by rw [hm]; exact hflow) (by rw [hm]; exact henv) hres hrun'

theorem faithful_line {number : Int} {tokens : List Token} {plain : isPlainLine tokens}
    (ha : lines.numbers.Pairwise (· < ·)) (hrest : rest.Faithful lines) :
    (line number tokens plain rest).Faithful lines := by
  intro i left env p m _ hplaced hp hflow henv hres hrun
  obtain ⟨_, m₁, hpoll, hrun⟩ := of_bind_ok hrun
  obtain ⟨flow, m₂, hline, hrun⟩ := of_bind_ok hrun
  cases Machine.runLine_silent plain hline
  have hvisit : Machine.visit p.site p.standing p.machine = .ok none m₂ := by
    obtain ⟨hsite, hstanding⟩ := hp.at (getElem?_of_placed hplaced)
    rw [hsite, hstanding, Machine.visit, bind_ok hpoll, hline]
  have henv₂ : env.Holds m₂ :=
    (henv.right.of_local (Machine.local_poll _) hpoll).of_local
      (Machine.local_runLine plain hres.1) hline
  have hlength : i + (line number tokens plain rest).lines.length = i + 1 + rest.lines.length := by
    rw [Block.lines, List.length_cons]
    omega
  obtain ⟨flow, hflow, harrives⟩ := hrest.goTo (p := { p with machine := m₂.withFlow none }) ha
    (placed_tail hplaced) hp.lines_eq rfl (by simp) (show Env.Holds ([] ++ env) m₂ from henv₂)
    hres.2 hrun
  rw [hlength]
  exact ⟨flow, hflow, harrives.cons hvisit henv rfl⟩

section Loop

variable {l : Loop} {head tail : Int × List Token} {body : Block} {x : Int} {m₁ : Machine}
  {names : List String}

theorem visit_head (hp : Stands lines i p) (hhead : lines[i]? = some head)
    (isHead : head.2.map Token.face = l.headFaces) (hpoll : p.machine.poll = .ok () m₁)
    (hx : l.Turns p.machine x) :
    Machine.visit p.site p.standing p.machine =
      .ok (some (l.signal x)) (m₁.setInt l.name x) := by
  have hx₁ : l.Turns m₁ x := by
    obtain ⟨hsymbols, hlast⟩ := Machine.poll_keeps hpoll
    rwa [Loop.Turns, hsymbols, hlast]
  rw [(hp.at hhead).2, Machine.visit, bind_ok hpoll, Loop.runLine_head isHead hx₁]

theorem visit_tail (hp : Stands lines i p) (htail : lines[i]? = some tail)
    (isTail : tail.2.map Token.face = l.tailFaces) (hpoll : p.machine.poll = .ok () m₁) :
    Machine.visit p.site p.standing p.machine = .ok (some .loopRepeat) m₁ := by
  rw [(hp.at htail).2, Machine.visit, bind_ok hpoll, Loop.runLine_tail isTail]

/-- One pass: the first line starts it, and the last line goes back to the first one. -/
theorem arrives_pass (ha : lines.numbers.Pairwise (· < ·)) (hbody : body.Faithful lines)
    (isHead : head.2.map Token.face = l.headFaces) (isTail : tail.2.map Token.face = l.tailFaces)
    (hplaced : head :: (body.lines ++ [tail]) <+: lines.drop i) {k : Nat} (hk : k < l.count)
    (hp : Stands lines i p) (hturn : l.Turns p.machine (l.valueAt k))
    (henv : Env.Holds ((if k = 0 then left else []) ++ env) p.machine)
    (hname : l.name ∉ env.map Prod.fst) (hres : body.Respects (l.name :: env.map Prod.fst))
    (hrun : l.pass (body.run body.entry) k p.machine = .ok () m) :
    Arrives lines (.more i p) (passTrail l head.1 body body.trail i left env p.returns k) i
      p.returns (m.withFlow (some .loopRepeat)) ∧ Env.Holds ((l.name, l.valueAt k) :: env) m := by
  obtain ⟨_, m₁, hpoll, hrun⟩ := of_bind_ok hrun
  obtain ⟨_, m₂, hset, hrun⟩ := of_bind_ok hrun
  obtain ⟨_, m₃, hbodyRun, hpoll'⟩ := of_bind_ok hrun
  cases hset
  have hsignal : l.signal (l.valueAt k) = .loopBegin := by
    rw [Loop.signal, if_neg]
    rw [l.past_valueAt]
    omega
  have hvisit := visit_head hp (getElem?_of_placed hplaced) isHead hpoll hturn
  rw [hsignal] at hvisit
  have henv₂ := (henv.right.of_local (Machine.local_poll _) hpoll).setInt (l.valueAt k) hname
  have henv₃ := henv₂.of_local (local_run hres _) hbodyRun
  have htail := placed_append (placed_tail hplaced)
  have hbodyPlaced : body.lines <+: lines.drop (i + 1) :=
    (List.prefix_append _ _).trans (placed_tail hplaced)
  obtain ⟨y, ys, hy⟩ := List.exists_cons_of_ne_nil (show body.lines ++ [tail] ≠ [] by simp)
  have hn := numbers_of_placed hplaced
  have hn' := numbers_of_placed (hy ▸ placed_tail hplaced)
  obtain ⟨flow, -, harrives⟩ := hbody.goTo (p := { p with
      returns := head.1 :: p.returns
      machine := (m₁.setInt l.name (l.valueAt k)).withFlow (some .loopBegin) })
    ha hbodyPlaced hp.lines_eq rfl (by simp) (show Env.Holds ([] ++ _) _ from henv₂) hres hbodyRun
  refine ⟨Arrives.cons hvisit henv rfl ?_, henv₃.of_local (Machine.local_poll _) hpoll'⟩
  rw [follow_loopBegin hn hn']
  obtain ⟨q, hlines, hreturns, hm, hthen⟩ := harrives.goesOn
  refine hthen ?_
  have hpoll₃ : q.machine.poll = .ok () (m.withFlow flow) := by
    rw [hm]
    exact (Machine.local_poll []).withFlow hpoll' flow
  rw [goTo_of_some (numbers_of_placed htail)]
  have hstands : Stands lines (i + 1 + body.lines.length) { q with next := .int tail.1 } :=
    ⟨hlines, indexOf?_int ha (numbers_of_placed htail)⟩
  refine Arrives.cons (visit_tail hstands (getElem?_of_placed htail) isTail hpoll₃)
    (by rw [hm]; exact (holds_leaves hbodyRun).append henv₃) hreturns ?_
  rw [follow_loopRepeat (p := { q with
    next := .int tail.1
    machine := (m.withFlow flow).withFlow (some .loopRepeat) }) ha hn hreturns]
  exact arrives_goTo hlines

theorem afterLoop_placed (hplaced : head :: (body.lines ++ [tail]) <+: lines.drop i)
    (isTail : tail.2.map Token.face = l.tailFaces) (hres : body.Respects (l.name :: names)) :
    afterLoop (.text l.name) (i + 1) (lines.drop (i + 1)) = i + body.lines.length + 2 := by
  obtain ⟨after, hafter⟩ := placed_tail hplaced
  rw [← hafter, List.append_assoc, afterLoop_append hres (List.mem_cons_self ..),
    List.singleton_append, afterLoop_of_closes ((Loop.closes_tail isTail).mpr rfl)]
  omega

/-- The passes from one on, and the last time that the first line is carried out. -/
theorem arrives_passes (ha : lines.numbers.Pairwise (· < ·)) (hbody : body.Faithful lines)
    (isHead : head.2.map Token.face = l.headFaces) (isTail : tail.2.map Token.face = l.tailFaces)
    (hplaced : head :: (body.lines ++ [tail]) <+: lines.drop i)
    (hname : l.name ∉ env.map Prod.fst) (hres : body.Respects (l.name :: env.map Prod.fst))
    {k n : Nat} (hk : k + n = l.count) (hp : Stands lines i p)
    (hturn : l.Turns p.machine (l.valueAt k))
    (henv : Env.Holds ((if k = 0 then left else []) ++ env) p.machine)
    (hrun : passes (l.pass (body.run body.entry)) k n p.machine = .ok () m₁)
    (hpoll : m₁.poll = .ok () m) :
    Arrives lines (.more i p)
      ((List.range' k n).flatMap (passTrail l head.1 body body.trail i left env p.returns) ++
        [⟨i, (if l.count = 0 then left else []) ++ env, p.returns⟩])
      (i + body.lines.length + 2) p.returns
      ((m.setInt l.name (l.valueAt l.count)).withFlow (some (.loopSkip (.text l.name)))) := by
  -- On the passes that are left. Each of them ends in front of the first line again, with NEXT as
  -- the last signal.
  induction n generalizing k p m m₁ with
  | zero =>
      cases hrun
      have hsignal : l.signal (l.valueAt l.count) = .loopSkip (.text l.name) := by
        rw [Loop.signal, if_pos ((l.past_valueAt _).mpr (Nat.le_refl _))]
      rw [Nat.add_zero] at hk
      subst hk
      have hvisit := visit_head hp (getElem?_of_placed hplaced) isHead hpoll hturn
      rw [hsignal] at hvisit
      refine Arrives.cons hvisit henv rfl ?_
      rw [follow_loopSkip (p := { p with
        machine :=
          (m.setInt l.name (l.valueAt l.count)).withFlow (some (.loopSkip (.text l.name))) })
        (hp.lines_eq ▸ afterLoop_placed hplaced isTail hres)]
      exact arrives_goTo hp.lines_eq
  | succ n ih =>
      obtain ⟨_, m₂, hpass, hrun⟩ := of_bind_ok hrun
      obtain ⟨harrives, henv₂⟩ := arrives_pass ha hbody isHead isTail hplaced (by omega) hp hturn
        henv hname hres hpass
      have hlocal := local_passes (local_pass hname (local_run hres body.entry).tail) (k + 1) n
      rw [List.range'_succ, List.flatMap_cons, List.append_assoc]
      obtain ⟨q, hlines, hreturns, hm, hthen⟩ := harrives.goesOn
      refine hthen ?_
      rw [goTo_of_some (numbers_of_placed hplaced), ← hreturns]
      have hturn' : l.Turns q.machine (l.valueAt (k + 1)) := by
        rw [hm]
        exact Loop.turns_next (henv₂ _ (List.mem_cons_self ..))
      have henv' : env.Holds q.machine := by
        rw [hm]
        exact fun x hx => henv₂ x (List.mem_cons_of_mem _ hx)
      have hrun' : passes (l.pass (body.run body.entry)) (k + 1) n q.machine =
          .ok () (m₁.withFlow (some .loopRepeat)) := by
        rw [hm]
        exact hlocal.withFlow hrun _
      exact ih (p := { q with next := .int head.1 }) (m := m.withFlow (some .loopRepeat)) (by omega)
        ⟨hlines, indexOf?_int ha (numbers_of_placed hplaced)⟩ hturn' henv' hrun'
        ((Machine.local_poll []).withFlow hpoll _)

theorem faithful_loop {isHead : head.2.map Token.face = l.headFaces}
    {isTail : tail.2.map Token.face = l.tailFaces} (ha : lines.numbers.Pairwise (· < ·))
    (hbody : body.Faithful lines) (hrest : rest.Faithful lines) :
    (loop l head tail isHead isTail body rest).Faithful lines := by
  intro i left env p m _ hplaced hp hflow henv hres hrun
  obtain ⟨hname, hresb, hresr⟩ := hres
  obtain ⟨_, m₁, hpasses, hrun⟩ := of_bind_ok hrun
  obtain ⟨_, m₂, hpoll, hrun⟩ := of_bind_ok hrun
  obtain ⟨_, m₃, hset, hrun⟩ := of_bind_ok hrun
  cases hset
  have hhead : head :: (body.lines ++ [tail]) <+: lines.drop i := by
    refine List.IsPrefix.trans ⟨rest.lines, ?_⟩ hplaced
    rw [Block.lines, List.cons_append, List.append_assoc, List.singleton_append]
  have hrestPlaced : rest.lines <+: lines.drop (i + body.lines.length + 2) := by
    have h := placed_tail (placed_append (placed_tail hplaced))
    rwa [show i + 1 + body.lines.length + 1 = i + body.lines.length + 2 by omega] at h
  have hlocal := local_passes (local_pass hname (local_run hresb body.entry).tail) 0 l.count
  have henv₂ := (henv.right.of_local hlocal hpasses).of_local (Machine.local_poll _) hpoll
  have hloop := arrives_passes ha hbody isHead isTail hhead hname hresb (Nat.zero_add _) hp
    (Loop.turns_first hflow) henv hpasses hpoll
  have hlength : i + (loop l head tail isHead isTail body rest).lines.length =
      i + body.lines.length + 2 + rest.lines.length := by
    simp only [Block.lines, List.length_cons, List.length_append]
    omega
  obtain ⟨q, hlines, hreturns, hm, hthen⟩ := hloop.goesOn
  obtain ⟨flow, hflow, harrives⟩ := hrest.goTo ha hrestPlaced hlines hm (by simp)
    (show Env.Holds ([_] ++ env) _ from henv₂.setInt _ hname) hresr hrun
  rw [hreturns] at harrives
  rw [hlength, trail, List.range_eq_range', ← List.singleton_append, ← List.append_assoc]
  exact ⟨flow, hflow, hthen harrives⟩

end Loop

theorem faithful (ha : lines.numbers.Pairwise (· < ·)) (b : Block) : b.Faithful lines := by
  induction b with
  | done => exact fun _ _ _ _ _ hne => absurd rfl hne
  | line number tokens plain rest ih => exact faithful_line ha ih
  | loop l head tail isHead isTail body rest ihb ihr => exact faithful_loop ha ihb ihr

/-- A block of plain lines and nested loops over whole numbers runs as it means. A run that gets to
its first line other than by NEXT carries out exactly the lines of the block's trail: each loop
makes its passes in order, with its variable at the value of the pass and its first line on top of
the lines to come back to, and the line after the loop finds the variable past its last value. Then
the run goes on at the line after the block, or ends if there is none. -/
theorem run_of_program (b : Block) (p : Program) (m : Machine) (before after : Lines (List Token))
    (hlines : p.lines = before ++ b.lines ++ after) (ha : p.numbers.Pairwise (· < ·))
    (hne : b.lines ≠ []) (hres : b.Respects [])
    (hindex : indexOf? p.numbers p.next = some before.length)
    (hflow : p.machine.lastFlow ≠ some .loopRepeat)
    (hrun : b.run p.next p.machine = .ok () m) :
    ∃ vs q flow,
      Leads p.numbers (.more before.length p) vs
        (goTo p.numbers (before.length + b.lines.length) q) ∧
      Follows vs (b.trail before.length [] [] p.returns) ∧
      q.lines = p.lines ∧ q.returns = p.returns ∧ q.machine = m.withFlow flow ∧
      flow ≠ some .loopRepeat ∧ b.leaves.Holds q.machine ∧
      ∀ n, runFor p.numbers (vs.length + n) before.length p =
        Leads.resume p.numbers n (goTo p.numbers (before.length + b.lines.length) q) := by
  have hplaced : b.lines <+: p.lines.drop before.length := by
    rw [hlines, List.append_assoc, List.drop_left]
    exact List.prefix_append _ _
  have henv : Env.Holds ([] ++ []) p.machine := fun x hx => absurd hx List.not_mem_nil
  obtain ⟨flow, hflow', vs, q, hl, hf, hq, hreturns, hm⟩ :=
    faithful ha b hne hplaced ⟨rfl, hindex⟩ hflow henv hres hrun
  have hleaves : b.leaves.Holds q.machine := by
    rw [hm]
    exact fun x hx => holds_leaves hrun x hx
  exact ⟨vs, q, flow, hl, hf, hq, hreturns, hm, hflow', hleaves, fun n => hl.resume_eq n⟩

/-- `FOR I = 3 TO 0 STEP -2`, and in it a loop over J without a pass and a PRINT, between two other
lines of a program. -/
theorem run_of_program_nested :
    let digit (c : Char) (h : (Text.decimalValue? c).isSome) : Numeral :=
      ⟨[c], List.cons_ne_nil _ _, List.forall_mem_singleton.mpr h, Nat.succ_pos _⟩
    let outer : Loop := ⟨"I", ⟨false, digit '3' rfl⟩, ⟨false, digit '0' rfl⟩,
      ⟨true, digit '2' rfl⟩, by decide, by decide⟩
    let inner : Loop := ⟨"J", ⟨false, digit '1' rfl⟩, ⟨false, digit '0' rfl⟩,
      ⟨false, digit '1' rfl⟩, by decide, by decide⟩
    let print : List Token := [.word .PRINT "PRINT", .name "I"]
    let b : Block := .loop outer
      (10, [.word .FOR "FOR", .name "I", .mark .equals "=", .number "3", .word .TO "TO",
        .number "0", .word .STEP "STEP", .mark .minus "-", .number "2"])
      (50, [.word .NEXT "NEXT", .name "I"]) rfl rfl
      (.loop inner
        (20, [.word .FOR "FOR", .name "J", .mark .equals "=", .number "1", .word .TO "TO",
          .number "0", .word .STEP "STEP", .number "1"])
        (30, [.word .NEXT "NEXT", .name "J"]) rfl rfl .done
        (.line 40 print rfl .done))
      .done
    let m := Machine.blank
    let p : Program := ⟨(5, print) :: (b.lines ++ [(60, print)]), [60], .int 10, m⟩
    ∃ vs q, Leads p.numbers (.more 1 p) vs (goTo p.numbers 6 q) ∧
      Follows vs
        [⟨1, [], [60]⟩, ⟨2, [("I", 3)], [10, 60]⟩, ⟨4, [("J", 1), ("I", 3)], [10, 60]⟩,
          ⟨5, [("I", 3)], [10, 60]⟩, ⟨1, [], [60]⟩, ⟨2, [("I", 1)], [10, 60]⟩,
          ⟨4, [("J", 1), ("I", 1)], [10, 60]⟩, ⟨5, [("I", 1)], [10, 60]⟩, ⟨1, [], [60]⟩] ∧
      q.returns = [60] ∧ q.machine.symbols.get? "I" = some (.scalar (.int (-1))) := by
  intro digit outer inner print b m p
  obtain ⟨m', hrun⟩ : ∃ m', b.run (.int 10) m = .ok () m' := by
    cases h : b.run (.int 10) m with
    | ok _ m' => exact ⟨m', rfl⟩
    | error f m' =>
        have hok : (match b.run (.int 10) m with
            | .ok _ _ => true
            | .error _ _ => false) = true := by decide +kernel
        rw [h] at hok
        cases hok
  obtain ⟨vs, q, flow, hl, hf, -, hreturns, -, -, hleaves, -⟩ :=
    run_of_program b p m' [(5, print)] [(60, print)] rfl (by decide +kernel)
      (by simp [b, Block.lines]) ⟨by simp, ⟨by decide, trivial, by decide, trivial⟩, trivial⟩
      (by decide +kernel) (by decide) hrun
  exact ⟨vs, q, hl, hf, hreturns, hleaves ("I", -1) (List.mem_singleton.mpr rfl)⟩

/-- A loop from a number of 4301 digits down to 1 is not passed over, but stops the run. -/
theorem long_first_fails :
    let next : List Token := [.word .NEXT "NEXT", .name "I"]
    let p : Program := ⟨[(10, Loop.longHead "I" 4301), (20, next)], [], .int 10, .blank⟩
    ∃ q, step p.numbers 0 p = .failed (.digitsFromText 4301) q := by
  intro next p
  have hstanding : p.standing = Loop.longHead "I" 4301 := rfl
  have hpoll : p.machine.poll = .ok () p.machine := rfl
  obtain ⟨m', hline⟩ := Loop.runLine_longHead (x := "I") rfl (by decide : Decimal.digitLimit < 4301)
  have hne : p.standing ≠ [] := by rw [hstanding]; exact List.cons_ne_nil _ _
  exact ⟨_, step_of_error hne hpoll (hstanding ▸ hline)⟩

end Block

end LineBasic

import LineBasic.Proofs.Agreement

namespace LineBasic

open Outcome

def Flow.Suits (part : List Token) : Flow → Prop
  | loopBegin | loopSkip _ => ∃ t ∈ part.head?, t.isKeyword .FOR
  | call _ => ∃ t ∈ part, t.isKeyword .GOSUB
  | jump _ | loopRepeat | giveBack | stop => True

theorem Flow.suits_jump {part : List Token} {flow : Flow} (h : ∃ v, flow = .jump v) :
    flow.Suits part := by
  obtain ⟨v, rfl⟩ := h
  trivial

theorem Flow.suits_loop {t : Token} {ts : List Token} {flow : Flow} (ht : t.isKeyword .FOR)
    (h : flow = .loopBegin ∨ ∃ v, flow = .loopSkip v) : flow.Suits (t :: ts) := by
  rcases h with rfl | ⟨v, rfl⟩ <;> exact ⟨t, rfl, ht⟩

namespace Exec

section Yields

variable {α β : Type} {S : β → Prop}

def Yields (S : β → Prop) (x : Exec β) : Prop := ∀ site j b j', x site j = .ok b j' → S b

theorem yields_pure {b : β} (h : S b) : Yields S (pure b) := by
  rintro site j _ _ ⟨⟩
  exact h

theorem yields_throw (f : Fault) : Yields S (throw f) := fun _ _ _ _ h => nomatch h

theorem Yields.then {Q : α → Prop} {x : Exec α} {f : α → Exec β} (hx : Yields Q x)
    (hf : ∀ a, Q a → Yields S (f a)) : Yields S (x >>= f) := by
  intro site j b j' h
  obtain ⟨a, j₁, ha, h⟩ := of_bind_ok h
  exact hf a (hx site j a j₁ ha) site j₁ b j' h

theorem Yields.bind (x : Exec α) {f : α → Exec β} (hf : ∀ a, Yields S (f a)) : Yields S (x >>= f) :=
  Yields.then (Q := fun _ => True) (fun _ _ _ _ _ => trivial) fun a _ => hf a

theorem yields_ite {c : Prop} [Decidable c] {x y : Exec β} (hx : Yields S x) (hy : Yields S y) :
    Yields S (if c then x else y) := by
  split
  · exact hx
  · exact hy

theorem yields_guard {c : Prop} [Decidable c] {f : String → Fault} {x : Exec β} (hx : Yields S x) :
    Yields S (if c then line >>= fun l => throw (f l) >>= fun _ : Unit => x else x) :=
  yields_ite (.bind _ fun _ => .bind _ fun _ => hx) hx

end Yields

theorem yields_loopHead :
    Yields (fun flow => flow = .loopBegin ∨ ∃ v, flow = .loopSkip v) loopHead := by
  have hsettle (name : String) (up : Bool) (last v : Value) :
      Yields (fun flow => flow = .loopBegin ∨ ∃ v, flow = .loopSkip v) (do
        assign name v
        let past ← ofExcept (v.relate (if up then .greater else .less) last)
        pure (if past then Flow.loopSkip (.text name) else .loopBegin)) := by
    refine .bind _ fun _ => .bind _ fun past => yields_pure ?_
    split
    · exact .inr ⟨_, rfl⟩
    · exact .inl rfl
  have hturn (name : String) :
      Yields (fun flow => flow = .loopBegin ∨ ∃ v, flow = .loopSkip v) (loopTurn name) := by
    refine .bind _ fun first => .bind _ fun _ => .bind _ fun last => .bind _ fun s => ?_
    refine .bind _ fun m => ?_
    dsimp only
    split
    · exact .bind _ fun v => hsettle name s.2 last v
    · exact .bind _ fun v => hsettle name s.2 last v
  refine .bind _ fun _ => .bind _ fun name => yields_guard ?_
  exact .bind _ fun _ => .bind _ fun _ => hturn name

theorem yields_jump : Yields (fun flow => ∃ v, flow = .jump v) jump :=
  .bind _ fun _ => .bind _ fun v => yields_pure ⟨v, rfl⟩

theorem yields_callSubroutine : Yields (fun flow => ∃ v, flow = .call v) callSubroutine :=
  .bind _ fun _ => .bind _ fun v => yields_pure ⟨v, rfl⟩

theorem yields_stop : Yields (· = .stop) stop :=
  .bind _ fun _ => .bind _ fun _ => yields_pure rfl

theorem yields_branch : Yields (fun flow => ∀ f ∈ flow, ∃ v, f = Flow.jump v) branch := by
  refine .bind _ fun _ => .bind _ fun v => .bind _ fun _ => .bind _ fun _ => ?_
  refine .bind _ fun target => ?_
  refine yields_ite (yields_pure ?_) (.bind _ fun _ => yields_ite ?_ (yields_pure nofun))
  · rintro _ ⟨⟩
    exact ⟨_, rfl⟩
  · refine .bind _ fun _ => .bind _ fun _ => .bind _ fun target => yields_pure ?_
    rintro _ ⟨⟩
    exact ⟨_, rfl⟩

theorem yields_openFile : Yields (fun flow => ∀ f ∈ flow, ∃ v, f = Flow.jump v) openFile := by
  have hjump (v : Value) :
      Yields (fun flow => ∀ f ∈ flow, ∃ v, f = Flow.jump v) (pure (some (Flow.jump v))) := by
    refine yields_pure ?_
    rintro _ ⟨⟩
    exact ⟨v, rfl⟩
  refine .bind _ fun _ => .bind _ fun path => .bind _ fun _ => .bind _ fun mode => ?_
  refine .bind _ fun _ => .bind _ fun s => yields_guard ?_
  refine .bind _ fun _ => .bind _ fun _ => .bind _ fun number => .bind _ fun target => ?_
  refine .bind _ fun m => yields_ite ?_ (.bind _ fun opened => ?_)
  · cases target with
    | some v => exact hjump v
    | none => exact .bind _ fun _ => .bind _ fun _ => yields_throw _
  · split
    · exact hjump _
    · exact .bind _ fun _ => yields_throw _
    · have hend := yields_pure (S := fun flow => ∀ f ∈ flow, ∃ v, f = Flow.jump v) (b := none) nofun
      exact .bind _ fun _ => yields_ite (.bind _ fun _ => hend) hend

theorem exists_pass_of_evaluate {α : Type} {e : Eval α} (he : e.Tame) {site : Site} {j j' : Job}
    {a : α} (h : evaluate e site j = .ok a j') : ∃ i, j'.cursor = j.cursor.pass i := by
  have hs := he.follows ⟨j.machine.symbols, site.label⟩ ⟨j.cursor, false, j.machine.generator, []⟩
  unfold evaluate at h
  split at h
  · rename_i hr
    cases h
    rw [hr] at hs
    exact hs.cursor
  · cases h

/-- The list of lines to call comes after GOSUB. -/
theorem of_multiway {site : Site} {j j' : Job} {flow : Flow}
    (h : multiway site j = .ok (some flow) j') :
    (∃ v, flow = .jump v) ∨
      (∃ v, flow = .call v) ∧ ∃ i, (j.cursor.pass i).current.isKeyword .GOSUB := by
  obtain ⟨_, j₁, hadvance, h⟩ := of_bind_ok h
  cases hadvance
  obtain ⟨number, j₂, hnumber, h⟩ := of_bind_ok h
  obtain ⟨i, hi⟩ := exists_pass_of_evaluate Eval.tame_arithmeticValue hnumber
  obtain ⟨jumps, j₃, hjumps, h⟩ := of_bind_ok h
  cases hjumps
  obtain ⟨_, j₄, hexpect, h⟩ := of_bind_ok h
  obtain ⟨targets, j₅, -, h⟩ := of_bind_ok h
  obtain ⟨target, j₆, -, h⟩ := of_bind_ok h
  cases target with
  | none => cases h
  | some v =>
      cases h
      split
      · exact .inl ⟨v, rfl⟩
      · rename_i hgoto
        rw [if_neg hgoto] at hexpect
        refine .inr ⟨⟨v, rfl⟩, i + 1, ?_⟩
        have hcategory := of_expect hexpect
        rw [hi] at hcategory
        exact beq_iff_eq.mpr hcategory

theorem suits_statement {site : Site} {t : Token} {ts : List Token} {m : Machine} {flow : Flow}
    {j : Job} : statement site ⟨⟨t, t :: ts, 0⟩, m⟩ = .ok (some flow) j → flow.Suits (t :: ts) := by
  have hyields {x : Exec (Option Flow)} (hx : Yields (fun o => ∀ f ∈ o, f.Suits (t :: ts)) x) :
      x site ⟨⟨t, t :: ts, 0⟩, m⟩ = .ok (some flow) j → flow.Suits (t :: ts) :=
    fun h => hx _ _ _ _ h flow rfl
  have hsilent (x : Exec Unit) : Yields (fun o => ∀ f ∈ o, f.Suits (t :: ts))
      (x >>= fun _ => pure (none : Option Flow)) := .bind _ fun _ => yields_pure nofun
  have hpure {f : Flow} (hf : f.Suits (t :: ts)) :
      Yields (fun o => ∀ f ∈ o, f.Suits (t :: ts)) (pure (some f)) :=
    yields_pure fun _ hmem => Option.mem_some.mp hmem ▸ hf
  unfold statement
  rw [current_bind]
  generalize hc : (Cursor.current ⟨t, t :: ts, 0⟩).category = c
  have ht {k : Keyword} (hk : some (.keyword k) = c) : t.isKeyword k :=
    beq_iff_eq.mpr (hc.trans hk.symm)
  split
  · exact hyields (yields_loopHead.then fun f hf => hpure (Flow.suits_loop (ht rfl) hf))
  · exact hyields (.bind _ fun _ => hpure trivial)
  · exact fun h => Flow.suits_jump (yields_branch _ _ _ _ h flow rfl)
  · intro h
    rcases of_multiway h with hjump | ⟨⟨v, rfl⟩, i, hi⟩
    · exact Flow.suits_jump hjump
    · have hmem := Cursor.current_pass_mem ⟨t, t :: ts, 0⟩ i
      exact ⟨_, by simpa [Cursor.current] using hmem, hi⟩
  · exact hyields (hsilent _)
  · exact hyields (hsilent _)
  · exact hyields (.bind _ fun _ => hsilent _)
  · exact hyields (yields_jump.then fun f hf => hpure (Flow.suits_jump hf))
  · refine hyields (yields_callSubroutine.then fun f hf => hpure ?_)
    obtain ⟨v, rfl⟩ := hf
    exact ⟨t, List.mem_cons_self, ht rfl⟩
  · exact hyields (.bind _ fun _ => hpure trivial)
  · exact hyields (yields_stop.then fun f hf => hpure (hf ▸ trivial))
  · exact hyields (hsilent _)
  · exact hyields (hsilent _)
  · exact hyields (hsilent _)
  · exact hyields (yields_pure nofun)
  · exact hyields (hsilent _)
  · exact hyields (hsilent _)
  · exact fun h => Flow.suits_jump (yields_openFile _ _ _ _ h flow rfl)
  · exact hyields (hsilent _)
  · exact hyields (hsilent _)
  · exact hyields (hsilent _)
  · exact hyields (hsilent _)
  · exact hyields (yields_pure nofun)
  · exact hyields (.bind _ fun _ => yields_throw _)

end Exec

namespace Machine

variable {site : Site} {m m' : Machine} {flow : Flow}

theorem suits_runPart {part : List Token} (h : runPart site part m = .ok (some flow) m') :
    flow.Suits part := by
  cases part with
  | nil => cases h
  | cons t ts =>
      rw [runPart_cons] at h
      split at h
      · rename_i hr
        cases h
        exact Exec.suits_statement hr
      · cases h

theorem suits_runParts {parts : List (List Token)}
    (h : runParts site parts m = .ok (some flow) m') : ∃ part ∈ parts, flow.Suits part := by
  induction parts generalizing m with
  | nil => cases h
  | cons part parts ih =>
      obtain ⟨o, m₁, hpart, h⟩ := of_bind_ok h
      cases o with
      | some f =>
          cases h
          exact ⟨part, List.mem_cons_self, suits_runPart hpart⟩
      | none =>
          obtain ⟨part', hmem, hsuits⟩ := ih h
          exact ⟨part', List.mem_cons_of_mem _ hmem, hsuits⟩

end Machine

end LineBasic

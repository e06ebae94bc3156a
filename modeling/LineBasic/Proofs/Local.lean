import LineBasic.Statement

namespace LineBasic

namespace Outcome

variable {ε σ α β γ : Type}

def state : EStateM.Result ε σ α → σ
  | .ok _ s => s
  | .error _ s => s

def value? : EStateM.Result ε σ α → Option α
  | .ok a _ => some a
  | .error _ _ => none

def fault? : EStateM.Result ε σ α → Option ε
  | .ok _ _ => none
  | .error e _ => some e

theorem eq_of_value? {r : EStateM.Result ε σ α} {a : α} (h : value? r = some a) :
    r = .ok a (state r) := by
  cases r with
  | ok b s =>
      cases h
      rfl
  | error e s => cases h

theorem eq_of_fault? {r : EStateM.Result ε σ α} {e : ε} (h : fault? r = some e) :
    r = .error e (state r) := by
  cases r with
  | ok b s => cases h
  | error e s =>
      cases h
      rfl

def mapState (f : σ → σ) : EStateM.Result ε σ α → EStateM.Result ε σ α
  | .ok a s => .ok a (f s)
  | .error e s => .error e (f s)

theorem bind_ok {x : EStateM ε σ α} {f : α → EStateM ε σ β} {s s' : σ} {a : α}
    (h : x s = .ok a s') : (x >>= f) s = f a s' := by
  simp only [bind, EStateM.bind, h]

theorem bind_error {x : EStateM ε σ α} {f : α → EStateM ε σ β} {s s' : σ} {e : ε}
    (h : x s = .error e s') : (x >>= f) s = .error e s' := by
  simp only [bind, EStateM.bind, h]

theorem bind_congr {x y : EStateM ε σ α} {f : α → EStateM ε σ β} {s t : σ} (h : x s = y t) :
    (x >>= f) s = (y >>= f) t := by
  simp only [bind, EStateM.bind, h]

theorem of_bind_ok {x : EStateM ε σ α} {f : α → EStateM ε σ β} {s s' : σ} {b : β}
    (h : (x >>= f) s = .ok b s') : ∃ a t, x s = .ok a t ∧ f a t = .ok b s' := by
  cases hx : x s with
  | ok a t => exact ⟨a, t, rfl, by rwa [bind_ok hx] at h⟩
  | error e t => rw [bind_error hx] at h; cases h

/-- The computation leaves what `look` sees as it is, and `turn` before it has the effect of `turn`
after it. -/
structure Apart (look : σ → γ) (turn : σ → σ) (x : EStateM ε σ α) : Prop where
  spares : ∀ s, look (state (x s)) = look s
  blind : ∀ s, x (turn s) = mapState turn (x s)

theorem Apart.bind {look : σ → γ} {turn : σ → σ} {x : EStateM ε σ α} {f : α → EStateM ε σ β}
    (hx : Apart look turn x) (hf : ∀ a, Apart look turn (f a)) : Apart look turn (x >>= f) := by
  constructor
  · intro s
    have hs := hx.spares s
    cases h : x s with
    | error e s' => rw [bind_error h, ← hs, h]; rfl
    | ok a s' => rw [bind_ok h, (hf a).spares, ← hs, h]; rfl
  · intro s
    have hb := hx.blind s
    cases h : x s with
    | error e s' =>
        rw [h] at hb
        rw [bind_error hb, bind_error h]
        rfl
    | ok a s' =>
        rw [h] at hb
        rw [bind_ok hb, bind_ok h]
        exact (hf a).blind s'

end Outcome

open Outcome

def Machine.withFlow (flow : Option Flow) (m : Machine) : Machine := { m with lastFlow := flow }

def Job.withFlow (flow : Option Flow) (j : Job) : Job :=
  { j with machine := j.machine.withFlow flow }

theorem Symbols.map_get?_put {ks : List String} {key : String} (h : key ∉ ks) (table : Symbols)
    (e : Entry) : ks.map (Assoc.put table key e).get? = ks.map table.get? := by
  refine List.map_congr_left fun k hk => ?_
  have hne : k ≠ key := fun he => h (he ▸ hk)
  exact Assoc.get?_put_of_ne table e hne

def Machine.Local {α : Type} (ks : List String) (x : EStateM Fault Machine α) : Prop :=
  ∀ flow, Apart (fun m : Machine => ks.map m.symbols.get?) (withFlow flow) x

theorem Machine.Local.withFlow {α : Type} {ks : List String} {x : EStateM Fault Machine α}
    {m m' : Machine} {a : α} (hx : Local ks x) (h : x m = .ok a m') (flow : Option Flow) :
    x (m.withFlow flow) = .ok a (m'.withFlow flow) := by
  rw [(hx flow).blind, h]
  rfl

namespace Exec

variable {α β : Type} {ks : List String}

theorem bind_ok {x : Exec α} {f : α → Exec β} {site : Site} {j j' : Job} {a : α}
    (h : x site j = .ok a j') : (x >>= f) site j = f a site j' :=
  Outcome.bind_ok (x := x site) h

theorem bind_error {x : Exec α} {f : α → Exec β} {site : Site} {j j' : Job} {e : Fault}
    (h : x site j = .error e j') : (x >>= f) site j = .error e j' :=
  Outcome.bind_error (x := x site) h

theorem bind_congr {x y : Exec α} {site : Site} {j k : Job} (h : x site j = y site k)
    (f : α → Exec β) : (x >>= f) site j = (y >>= f) site k :=
  Outcome.bind_congr (x := x site) (y := y site) h

theorem of_bind_ok {x : Exec α} {f : α → Exec β} {site : Site} {j j' : Job} {b : β}
    (h : (x >>= f) site j = .ok b j') :
    ∃ a j₁, x site j = .ok a j₁ ∧ f a site j₁ = .ok b j' :=
  Outcome.of_bind_ok (x := x site) (f := fun a => f a site) h

section Steps

variable {site : Site} {j : Job}

theorem advance_bind (f : Unit → Exec α) :
    (advance >>= f) site j = f () site { j with cursor := j.cursor.advance } := rfl

theorem current_bind (f : Token → Exec α) :
    (current >>= f) site j = f j.cursor.current site j := rfl

theorem lexeme_bind (f : String → Exec α) :
    (lexeme >>= f) site j = f j.cursor.current.lexeme site j := rfl

theorem machine_bind (f : Machine → Exec α) : (machine >>= f) site j = f j.machine site j := rfl

theorem atEnd_bind (f : Bool → Exec α) : (atEnd >>= f) site j = f j.cursor.atEnd site j := rfl

theorem expect_bind {c : Category} (h : j.cursor.current.category = some c) (f : Unit → Exec α) :
    (expect c >>= f) site j = f () site { j with cursor := j.cursor.advance } := by
  have he : expect c site j = .ok () { j with cursor := j.cursor.advance } := by
    show (if j.cursor.current.category = some c then advance else _) site j = _
    rw [if_pos h]
    rfl
  rw [bind_ok he]

end Steps

def Local (ks : List String) (x : Exec α) : Prop :=
  ∀ site flow, Apart (fun j : Job => ks.map j.machine.symbols.get?) (Job.withFlow flow) (x site)

theorem local_pure (a : α) : Local ks (pure a : Exec α) :=
  fun _ _ => ⟨fun _ => rfl, fun _ => rfl⟩

theorem local_throw (f : Fault) : Local ks (throw f : Exec α) :=
  fun _ _ => ⟨fun _ => rfl, fun _ => rfl⟩

theorem Local.bind {x : Exec α} {f : α → Exec β} (hx : Local ks x) (hf : ∀ a, Local ks (f a)) :
    Local ks (x >>= f) :=
  fun site flow => (hx site flow).bind fun a => hf a site flow

theorem local_ite {c : Prop} [Decidable c] {x y : Exec α} (hx : Local ks x) (hy : Local ks y) :
    Local ks (if c then x else y) := by
  split
  · exact hx
  · exact hy

theorem local_current : Local ks current := fun _ _ => ⟨fun _ => rfl, fun _ => rfl⟩

theorem local_line : Local ks line := fun _ _ => ⟨fun _ => rfl, fun _ => rfl⟩

theorem local_advance : Local ks advance := fun _ _ => ⟨fun _ => rfl, fun _ => rfl⟩

theorem local_atEnd : Local ks atEnd := fun _ _ => ⟨fun _ => rfl, fun _ => rfl⟩

theorem local_remaining : Local ks remaining := fun _ _ => ⟨fun _ => rfl, fun _ => rfl⟩

theorem local_isMark (m : Mark) : Local ks (isMark m) := fun _ _ => ⟨fun _ => rfl, fun _ => rfl⟩

theorem local_isCompared : Local ks isCompared := fun _ _ => ⟨fun _ => rfl, fun _ => rfl⟩

theorem local_ofExcept (r : Except Fault α) : Local ks (ofExcept r) := by
  cases r with
  | ok a => exact local_pure a
  | error f => exact local_throw f

theorem local_expect (c : Category) : Local ks (expect c) :=
  local_current.bind fun _ => local_ite local_advance (local_line.bind fun _ => local_throw _)

theorem local_evaluate (e : Eval α) : Local ks (evaluate e) := by
  intro site flow
  constructor
  · intro j
    rw [evaluate]
    split <;> rfl
  · intro j
    simp only [evaluate, Job.withFlow, Machine.withFlow]
    cases e ⟨j.machine.symbols, site.label⟩ ⟨j.cursor, false, j.machine.generator, []⟩ <;> rfl

theorem local_onTerminal (act : Terminal.Act α) : Local ks (onTerminal act) := by
  intro site flow
  constructor
  · intro j
    rw [onTerminal]
    split <;> rfl
  · intro j
    simp only [onTerminal, Job.withFlow, Machine.withFlow]
    cases act j.machine.terminal <;> rfl

theorem local_onChannel (number : Value) (c : Channel) (act : EStateM Fault (Channel × Disk) α) :
    Local ks (onChannel number c act) := by
  intro site flow
  constructor
  · intro j
    simp only [onChannel]
    split <;> rfl
  · intro j
    simp only [onChannel, Job.withFlow, Machine.withFlow]
    cases act (c, j.machine.disk) <;> rfl

theorem local_machine {f : Machine → Exec α} (hf : ∀ m, Local ks (f m))
    (hb : ∀ m flow, f (m.withFlow flow) = f m) : Local ks (machine >>= f) := by
  intro site flow
  constructor
  · intro j
    exact (hf j.machine site flow).spares j
  · intro j
    show f (j.machine.withFlow flow) site (j.withFlow flow) = _
    rw [hb, (hf j.machine site flow).blind]
    rfl

theorem local_entry {key : String} (e : Entry) (h : key ∉ ks) :
    Local ks (modifyMachine fun m => { m with symbols := Assoc.put m.symbols key e }) :=
  fun _ _ => ⟨fun j => Symbols.map_get?_put h j.machine.symbols e, fun _ => rfl⟩

end Exec

end LineBasic

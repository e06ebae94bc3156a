import LineBasic.Proofs.Local

namespace LineBasic

open Outcome

namespace Exec

variable {ks : List String}

theorem local_checkKind (name : String) (v : Value) (text number : String → Fault) :
    Local ks (checkKind name v text number) := by
  have hnumber : Local ks (if !Symbols.isTextName name && v.isText then
      line >>= fun l => throw (number l) else pure ()) :=
    local_ite (local_line.bind fun l => local_throw _) (local_pure ())
  exact local_ite (local_line.bind fun l => (local_throw _).bind fun _ => hnumber) hnumber

theorem local_assign {name : String} (v : Value) (h : name ∉ ks) : Local ks (assign name v) :=
  local_entry (.scalar v) h

theorem local_cellSign : Local ks cellSign :=
  local_isCompared.bind fun _ =>
    local_ite (local_line.bind fun _ => local_throw _) (local_expect _)

theorem local_assignCell {name : String} (h : Symbols.arrayKey name ∉ ks) :
    Local ks (assignCell name) := by
  refine (local_expect _).bind fun _ => (local_evaluate _).bind fun indices => ?_
  refine local_machine (fun m => ?_) fun _ _ => rfl
  split
  · exact local_line.bind fun l => local_throw _
  · exact local_throw _
  · refine local_line.bind fun l => (local_ofExcept _).bind fun _ => ?_
    refine (local_expect _).bind fun _ => local_cellSign.bind fun _ => ?_
    refine (local_evaluate _).bind fun v => ?_
    refine (local_checkKind name v _ _).bind fun _ => local_line.bind fun l => ?_
    exact (local_ofExcept _).bind fun g => local_entry (.grid g) h

theorem local_put (sink : Sink) (s : String) : Local ks (put sink s) := by
  cases sink with
  | none => exact local_onTerminal _
  | some number =>
      refine local_machine (fun m => ?_) fun _ _ => rfl
      split
      · exact local_pure ()
      · exact local_onChannel _ _ _

theorem local_putLine (sink : Sink) : Local ks (putLine sink) := by
  cases sink with
  | none => exact local_onTerminal _
  | some number => exact local_put (some number) "\n"

theorem local_printMore (sink : Sink) (n : Nat) : Local ks (printMore sink n) := by
  induction n with
  | zero => exact local_pure ()
  | succ n ih =>
      refine (local_isMark _).bind fun b => local_ite ?_ (local_putLine sink)
      refine local_remaining.bind fun r => local_ite (local_pure ()) ?_
      refine local_advance.bind fun _ => (local_evaluate _).bind fun v => ?_
      exact (local_ofExcept _).bind fun s => (local_put sink s).bind fun _ => ih

theorem local_openChannel (verb : String) : Local ks (openChannel verb) := by
  refine (local_expect _).bind fun _ => (local_evaluate _).bind fun number => ?_
  refine local_machine (fun m => ?_) fun _ _ => rfl
  split
  · exact local_pure _
  · exact (local_ofExcept _).bind fun s => local_line.bind fun l => local_throw _

theorem local_printSink : Local ks printSink := by
  refine (local_isMark _).bind fun b => local_ite ?_ (local_pure _)
  refine (local_openChannel _).bind fun c => local_atEnd.bind fun e => ?_
  exact local_ite ((local_expect _).bind fun _ => local_pure _) (local_pure _)

theorem local_print : Local ks print := by
  refine local_advance.bind fun _ => local_printSink.bind fun sink => local_atEnd.bind fun e => ?_
  refine local_ite (local_putLine sink) ?_
  refine (local_evaluate _).bind fun v => (local_ofExcept _).bind fun s => ?_
  exact (local_put sink s).bind fun _ => local_remaining.bind fun n => local_printMore sink _

def store (name : String) (cell : Bool) : Exec Unit :=
  if cell then assignCell name
  else do
    expectMark .equals
    let v ← value
    checkKind name v .textNeeded .numberNeeded
    assign name v

def targetKey (name : String) (cell : Bool) : String :=
  if cell then Symbols.arrayKey name else name

theorem local_store {name : String} {cell : Bool} (h : targetKey name cell ∉ ks) :
    Local ks (store name cell) := by
  cases cell with
  | true => exact local_assignCell h
  | false =>
      refine (local_expect _).bind fun _ => (local_evaluate _).bind fun v => ?_
      exact (local_checkKind name v _ _).bind fun _ => local_assign v h

def storeAt (c : Cursor) : Exec Unit :=
  store c.current.lexeme (c.advance.current.isMark .opening)

def targetAt (c : Cursor) : String :=
  targetKey c.current.lexeme (c.advance.current.isMark .opening)

end Exec

def isPlainPart (part : List Token) : Bool :=
  part.head?.any fun t => t.category == some .name || t.isKeyword .LET || t.isKeyword .PRINT

def partTarget? (part : List Token) : Option String :=
  (Cursor.start? part).bind fun c =>
    if c.current.isKeyword .LET then some (Exec.targetAt c.advance)
    else if c.current.isKeyword .PRINT then none
    else some (Exec.targetAt c)

def isPlainLine (tokens : List Token) : Bool := (splitColons tokens).all isPlainPart

def lineTargets (tokens : List Token) : List String := (splitColons tokens).filterMap partTarget?

/-- A plain statement is one local step from a position in it, and gives no signal. -/
theorem statement_plain {part : List Token} (h : isPlainPart part) :
    ∃ (x : Exec Unit) (c c' : Cursor), Cursor.start? part = some c ∧
      (∀ ks, (∀ k ∈ ks, partTarget? part ≠ some k) → Exec.Local ks x) ∧
      ∀ site m, Exec.statement site ⟨c, m⟩ = (x >>= fun _ => pure none) site ⟨c', m⟩ := by
  cases part with
  | nil => cases h
  | cons t ts =>
      obtain ⟨c, hstart⟩ : ∃ c, Cursor.start? (t :: ts) = some c := ⟨_, rfl⟩
      have hct : c.current = t := by cases hstart; rfl
      have hcurrent : ∀ site m (f : Token → Exec (Option Flow)),
          (Exec.current >>= f) site ⟨c, m⟩ = f t site ⟨c, m⟩ := fun _ _ _ => hct ▸ rfl
      simp only [isPlainPart, List.head?_cons, Option.any_some, Bool.or_eq_true, Token.isKeyword,
        beq_iff_eq] at h
      -- A name, LET or PRINT comes first.
      obtain (hc | hc) | hc := h
      · refine ⟨Exec.storeAt c, c, c.advance, hstart,
          fun ks hks => Exec.local_store fun hk => hks _ hk ?_, fun site m => ?_⟩
        · simp [partTarget?, Token.isKeyword, hstart, hct, hc, Exec.targetAt]
        · rw [Exec.statement, hcurrent, hc]
          rfl
      · refine ⟨Exec.storeAt c.advance, c, c.advance.advance, hstart,
          fun ks hks => Exec.local_store fun hk => hks _ hk ?_, fun site m => ?_⟩
        · simp [partTarget?, Token.isKeyword, hstart, hct, hc, Exec.targetAt]
        · rw [Exec.statement, hcurrent, hc]
          rfl
      · refine ⟨Exec.print, c, c, hstart, fun ks _ => Exec.local_print, fun site m => ?_⟩
        rw [Exec.statement, hcurrent, hc]

namespace Machine

variable {α β : Type} {site : Site} {ks : List String}

theorem local_pure (a : α) : Local ks (pure a : EStateM Fault Machine α) :=
  fun _ => ⟨fun _ => rfl, fun _ => rfl⟩

theorem Local.bind {x : EStateM Fault Machine α} {f : α → EStateM Fault Machine β}
    (hx : Local ks x) (hf : ∀ a, Local ks (f a)) : Local ks (x >>= f) :=
  fun flow => (hx flow).bind fun a => hf a flow

def silent : EStateM.Result Fault Job Unit → EStateM.Result Fault Machine (Option Flow)
  | .ok _ j => .ok none j.machine
  | .error f j => .error f j.machine

theorem runPart_eq_silent {part : List Token} (h : isPlainPart part) :
    ∃ (x : Exec Unit) (c : Cursor),
      (∀ ks, (∀ k ∈ ks, partTarget? part ≠ some k) → Exec.Local ks x) ∧
      ∀ site m, runPart site part m = silent (x site ⟨c, m⟩) := by
  obtain ⟨x, c, c', hstart, hx, hs⟩ := statement_plain h
  refine ⟨x, c', hx, fun site m => ?_⟩
  simp only [runPart, hstart, hs]
  cases he : x site ⟨c', m⟩ with
  | ok u j => rw [show (x >>= fun _ => pure none) site ⟨c', m⟩ = _ from bind_ok he]; rfl
  | error f j => rw [show (x >>= fun _ => pure none) site ⟨c', m⟩ = _ from bind_error he]; rfl

theorem local_runPart {part : List Token} (h : isPlainPart part)
    (hk : ∀ k ∈ ks, partTarget? part ≠ some k) : Local ks (runPart site part) := by
  obtain ⟨x, c, hx, hrun⟩ := runPart_eq_silent h
  intro flow
  constructor
  · intro m
    rw [hrun, ← (hx ks hk site flow).spares ⟨c, m⟩]
    cases x site ⟨c, m⟩ <;> rfl
  · intro m
    have hb := (hx ks hk site flow).blind ⟨c, m⟩
    rw [hrun, hrun, show x site ⟨c, m.withFlow flow⟩ = _ from hb]
    cases x site ⟨c, m⟩ <;> rfl

theorem runPart_silent {part : List Token} (h : isPlainPart part) {m m' : Machine}
    {flow : Option Flow} (hrun : runPart site part m = .ok flow m') : flow = none := by
  obtain ⟨x, c, -, he⟩ := runPart_eq_silent h
  rw [he] at hrun
  cases hx : x site ⟨c, m⟩ with
  | ok u j => rw [hx] at hrun; cases hrun; rfl
  | error f j => rw [hx] at hrun; cases hrun

theorem local_runParts {parts : List (List Token)} (h : ∀ p ∈ parts, isPlainPart p)
    (hk : ∀ p ∈ parts, ∀ k ∈ ks, partTarget? p ≠ some k) : Local ks (runParts site parts) := by
  induction parts with
  | nil => exact local_pure none
  | cons part parts ih =>
      rw [List.forall_mem_cons] at h hk
      refine (local_runPart h.1 hk.1).bind fun flow => ?_
      cases flow with
      | some flow => exact local_pure _
      | none => exact ih h.2 hk.2

theorem runParts_silent {parts : List (List Token)} (h : ∀ p ∈ parts, isPlainPart p)
    {m m' : Machine} {flow : Option Flow} (hrun : runParts site parts m = .ok flow m') :
    flow = none := by
  induction parts generalizing m with
  | nil => cases hrun; rfl
  | cons part parts ih =>
      rw [List.forall_mem_cons] at h
      obtain ⟨flow', m₁, hp, hps⟩ := of_bind_ok hrun
      cases runPart_silent h.1 hp
      exact ih h.2 hps

variable {tokens : List Token}

/-- A plain line changes no entry but those that it assigns, and does the same after any signal. -/
theorem local_runLine (h : isPlainLine tokens) (hk : ∀ k ∈ ks, k ∉ lineTargets tokens) :
    Local ks (runLine site tokens) := by
  refine local_runParts (List.all_eq_true.mp h) fun p hp k hks he => hk k hks ?_
  exact List.mem_filterMap.mpr ⟨p, hp, he⟩

theorem runLine_silent (h : isPlainLine tokens) {m m' : Machine} {flow : Option Flow}
    (hrun : runLine site tokens m = .ok flow m') : flow = none :=
  runParts_silent (List.all_eq_true.mp h) hrun

end Machine

end LineBasic

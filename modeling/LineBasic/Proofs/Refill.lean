import LineBasic.Proofs.Restoring
import LineBasic.Proofs.Stores

namespace LineBasic

open Outcome

namespace DataStore

def ahead (d : DataStore) : Lines (List Token) :=
  if d.pointer = 0 then d.lines else d.lines.filter fun l => d.pointer < l.1

structure Sound (d : DataStore) : Prop where
  points : d.Points d.pointer

section Ahead

variable {us vs : Lines (List Token)} {n : Int} {tokens : List Token}

theorem filter_after (h : Lines.Ascending (us ++ (n, tokens) :: vs)) :
    (us ++ (n, tokens) :: vs).filter (fun l => n < l.1) = vs := by
  have hsides := h.sides
  have hus : us.filter (fun l => n < l.1) = [] := by
    rw [List.filter_eq_nil_iff]
    intro l hl
    have := hsides.1 l.1 (List.mem_map_of_mem hl)
    simp only [decide_eq_true_eq]
    omega
  have hvs : vs.filter (fun l => n < l.1) = vs := by
    rw [List.filter_eq_self]
    intro l hl
    simpa using hsides.2 l.1 (List.mem_map_of_mem hl)
  rw [List.filter_append, hus, List.nil_append, List.filter_cons_of_neg (by simp), hvs]

variable {d : DataStore}

theorem ahead_pointer (hlines : d.lines = us ++ (n, tokens) :: vs) (hpointer : d.pointer = n)
    (hn : n ≠ 0) : d.ahead = vs := by
  have hasc := d.ascending_lines
  rw [hlines] at hasc
  rw [ahead, hpointer, if_neg hn, hlines, filter_after hasc]

/-- What comes after the pointer are the last lines of the store. -/
theorem Sound.exists_append (h : d.Sound) : ∃ us, d.lines = us ++ d.ahead := by
  by_cases hzero : d.pointer = 0
  · exact ⟨[], by rw [ahead, if_pos hzero]; rfl⟩
  · obtain ⟨us, tokens, vs, hlines⟩ := Lines.exists_append_of_mem (h.points.resolve_left hzero)
    refine ⟨us ++ [(d.pointer, tokens)], ?_⟩
    rw [ahead_pointer hlines rfl hzero, List.append_assoc, List.singleton_append, hlines]

theorem Sound.nextLine_eq (h : d.Sound) (line : String) :
    d.nextLine line = d.ahead.head?.elim (.error (.noData line)) fun l => .ok l.1 := by
  by_cases hzero : d.pointer = 0
  · rw [ahead, if_pos hzero, nextLine]
    cases d.lines with
    | nil => rfl
    | cons l ls => exact if_pos hzero
  · obtain ⟨us, tokens, vs, hlines⟩ := Lines.exists_append_of_mem (h.points.resolve_left hzero)
    rw [ahead_pointer hlines rfl hzero, nextLine_append hlines rfl hzero]

theorem sound_move (hn : n ∈ d.lines.numbers) : Sound { d with pointer := n } := ⟨.inr hn⟩

/-- Line 0 cannot be told from the start. -/
theorem Sound.ahead_move {later : Lines (List Token)} (h : d.Sound)
    (hahead : d.ahead = (n, tokens) :: later) :
    ahead { d with pointer := n } = if n = 0 then d.lines else later := by
  obtain ⟨us, hus⟩ := h.exists_append
  rw [hahead] at hus
  by_cases hzero : n = 0
  · rw [ahead, if_pos hzero, if_pos hzero]
    rfl
  · rw [if_neg hzero]
    exact ahead_pointer hus rfl hzero

theorem Sound.read_nil (h : d.Sound) (hahead : d.ahead = []) (line : String) :
    DataStore.read line d = .error (.noData line) d := by
  have hnext := h.nextLine_eq line
  rw [hahead] at hnext
  rw [DataStore.read, hnext]
  rfl

section Cons

variable {later : Lines (List Token)}

theorem Sound.mem_lines (h : d.Sound) (hahead : d.ahead = (n, tokens) :: later) :
    (n, tokens) ∈ d.lines := by
  obtain ⟨us, hus⟩ := h.exists_append
  rw [hus, hahead]
  simp

theorem Sound.read_cons (h : d.Sound) (hahead : d.ahead = (n, tokens) :: later) (line : String) :
    DataStore.read line d = d.readAt n ∧ d.tokens? n = some tokens := by
  have hnext := h.nextLine_eq line
  rw [hahead] at hnext
  refine ⟨read_of_nextLine hnext, ?_⟩
  rw [tokens?_eq]
  exact Lines.get?_of_mem d.ascending_lines (h.mem_lines hahead)

theorem Sound.read_ok {vs : List Value} (h : d.Sound) (hahead : d.ahead = (n, tokens) :: later)
    (hvalues : values false tokens.tail = .ok vs) (line : String) :
    DataStore.read line d = .ok vs { d with pointer := n } := by
  obtain ⟨hread, hget⟩ := h.read_cons hahead line
  rw [hread, readAt, hget, Option.getD_some, hvalues]

theorem Sound.read_error {f : Fault} (h : d.Sound) (hahead : d.ahead = (n, tokens) :: later)
    (hvalues : values false tokens.tail = .error f) (line : String) :
    DataStore.read line d = .error f { d with pointer := n } := by
  obtain ⟨hread, hget⟩ := h.read_cons hahead line
  rw [hread, readAt, hget, Option.getD_some, hvalues]

end Cons

end Ahead

end DataStore

structure Supply where
  left : List Value
  ahead : Lines (List Token)

def Machine.supply (m : Machine) : Supply := ⟨m.pending, m.data.ahead⟩

namespace Supply

/-- The next value. Where none is left it has to be in the very next line. After line 0 all lines
come once more. -/
def next (ls : Lines (List Token)) (line : String) :
    Supply → EStateM.Result Fault Supply Value
  | ⟨v :: left, ahead⟩ => .ok v ⟨left, ahead⟩
  | ⟨[], []⟩ => .error (.noData line) ⟨[], []⟩
  | ⟨[], (n, tokens) :: later⟩ =>
      let ahead := if n = 0 then ls else later
      match DataStore.values false tokens.tail with
      | .error f => .error f ⟨[], ahead⟩
      | .ok [] => .error .noValue ⟨[], ahead⟩
      | .ok (v :: left) => .ok v ⟨left, ahead⟩

def serve (ls : Lines (List Token)) (line : String) :
    List String → Supply × Symbols → EStateM.Result Fault (Supply × Symbols) Unit
  | [], s => .ok () s
  | name :: names, (s, table) =>
      match next ls line s with
      | .error f s => .error f (s, table)
      | .ok v s =>
          match Exec.asDatum name line v with
          | .error f => .error f (s, table)
          | .ok w => serve ls line names (s, table.insert name w)

end Supply

def Outcome.inState {ε σ τ α : Type} (t : τ) : EStateM.Result ε σ α → EStateM.Result ε τ α
  | .ok a _ => .ok a t
  | .error e _ => .error e t

structure Machine.Aligned (m m' : Machine) : Prop where
  sound : m'.data.Sound
  lines : m'.data.lines = m.data.lines

namespace Exec

variable {site : Site} {c : Cursor} {m : Machine}

theorem nextDatum_empty {d : DataStore} (hp : m.pending = [])
    (hr : DataStore.read site.label m.data = .ok [] d) :
    nextDatum site ⟨c, m⟩ = .error .noValue ⟨c, { m with data := d }⟩ := by
  have hdata :
      onData (DataStore.read site.label) site ⟨c, m⟩ = .ok [] ⟨c, { m with data := d }⟩ := by
    rw [onData, hr]
  obtain ⟨⟩ := m
  cases hp
  exact bind_ok (x := onData (DataStore.read site.label)) hdata

/-- The next value is the one that is next in supply, and nothing else changes. -/
theorem nextDatum_eq (h : m.data.Sound) :
    ∃ m' : Machine, m.Aligned m' ∧ m'.symbols = m.symbols ∧
      m'.supply = state (Supply.next m.data.lines site.label m.supply) ∧
      nextDatum site ⟨c, m⟩ = inState ⟨c, m'⟩ (Supply.next m.data.lines site.label m.supply) := by
  rw [Machine.supply]
  cases hp : m.pending with
  | cons v left =>
      exact ⟨{ m with pending := left }, ⟨h, rfl⟩, rfl, rfl, nextDatum_pending hp⟩
  | nil =>
      cases ha : m.data.ahead with
      | nil =>
          refine ⟨m, ⟨h, rfl⟩, rfl, ?_, nextDatum_error hp (h.read_nil ha site.label)⟩
          rw [Machine.supply, hp, ha]
          rfl
      | cons l later =>
          obtain ⟨n, tokens⟩ := l
          let moved : DataStore := { m.data with pointer := n }
          have hmoved : moved.Sound := DataStore.sound_move (List.mem_map_of_mem (h.mem_lines ha))
          have hahead : moved.ahead = _ := h.ahead_move ha
          cases hv : DataStore.values false tokens.tail with
          | error f =>
              refine ⟨{ m with data := moved }, ⟨hmoved, rfl⟩, rfl, ?_, ?_⟩
              · simp only [Supply.next, hv, Machine.supply, hahead, hp, state]
              · simp only [Supply.next, hv]
                exact nextDatum_error hp (h.read_error ha hv site.label)
          | ok vs =>
              have hread := h.read_ok ha hv site.label
              cases vs with
              | nil =>
                  refine ⟨{ m with data := moved }, ⟨hmoved, rfl⟩, rfl, ?_, ?_⟩
                  · simp only [Supply.next, hv, Machine.supply, hahead, hp, state]
                  · simp only [Supply.next, hv]
                    exact nextDatum_empty hp hread
              | cons v left =>
                  refine ⟨{ m with data := moved, pending := left }, ⟨hmoved, rfl⟩, rfl, ?_, ?_⟩
                  · simp only [Supply.next, hv, Machine.supply, hahead, state]
                  · simp only [Supply.next, hv]
                    exact nextDatum_read hp hread

theorem readAll_eq (names : List String) (h : m.data.Sound) :
    ∃ m' : Machine, m.Aligned m' ∧
      (m'.supply, m'.symbols) =
        state (Supply.serve m.data.lines site.label names (m.supply, m.symbols)) ∧
      readAll names site ⟨c, m⟩ = inState ⟨c, m'⟩
        (Supply.serve m.data.lines site.label names (m.supply, m.symbols)) := by
  induction names generalizing m with
  | nil => exact ⟨m, ⟨h, rfl⟩, rfl, rfl⟩
  | cons name names ih =>
      obtain ⟨m', haligned, hsymbols, hsupply, hnext⟩ := @nextDatum_eq site c m h
      rw [Supply.serve, readAll]
      cases hs : Supply.next m.data.lines site.label m.supply with
      | error f s =>
          rw [hs] at hnext hsupply
          refine ⟨m', haligned, ?_, by rw [bind_error hnext]; rfl⟩
          rw [hsupply, hsymbols]
          rfl
      | ok v s =>
          rw [hs] at hnext hsupply
          obtain rfl : m'.supply = s := hsupply
          rw [bind_ok hnext, ← hsymbols]
          have hline (rest : Value → Exec Unit) :
              (line >>= fun l => ofExcept (asDatum name l v) >>= rest) site ⟨c, m'⟩ =
                (ofExcept (asDatum name site.label v) >>= rest) site ⟨c, m'⟩ := rfl
          rw [hline]
          dsimp only
          cases asDatum name site.label v with
          | error f => exact ⟨m', haligned, rfl, rfl⟩
          | ok w =>
              let assigned : Machine := { m' with symbols := m'.symbols.insert name w }
              obtain ⟨m'', haligned', hstate, hread⟩ := @ih assigned haligned.sound
              rw [show assigned.data.lines = m.data.lines from haligned.lines] at hstate hread
              exact ⟨m'', ⟨haligned'.sound, haligned'.lines.trans haligned.lines⟩, hstate, hread⟩

end Exec

namespace Machine

variable {site : Site} {part : List Token} {m : Machine} {names : List String}

theorem runPart_serve (h : m.data.Sound) (hread : IsRead part names) :
    let served := Supply.serve m.data.lines site.label names (m.supply, m.symbols)
    fault? (runPart site part m) = fault? served ∧
      ((state (runPart site part m)).supply, (state (runPart site part m)).symbols) =
        state served := by
  intro served
  have c : Cursor := ⟨⟨0, none, ""⟩, [], 0⟩
  obtain ⟨m', -, hstate, hall⟩ : ∃ m' : Machine, m.Aligned m' ∧
      (m'.supply, m'.symbols) = state served ∧
      Exec.readAll names site ⟨c, m⟩ = inState ⟨c, m'⟩ served := Exec.readAll_eq names h
  rw [runPart_read hread c, hall, ← hstate]
  cases served <;> exact ⟨rfl, rfl⟩

theorem Aligned.runPart {base : Machine} (h : base.Aligned m) (site : Site) (part : List Token) :
    base.Aligned (state (runPart site part m)) := by
  have hinvariant : Exec.Invariant site (fun _ => True) fun j => base.Aligned j.machine :=
    { files := trivial
      grids := trivial
      advance := fun j hj => hj
      evaluated := fun j s hj _ => ⟨hj.sound, hj.lines⟩
      frame := fun j n hj _ _ hdata _ => ⟨hdata ▸ hj.sound, hdata ▸ hj.lines⟩
      store := fun j name v hj _ => ⟨hj.sound, hj.lines⟩
      grid := fun j key g hj => ⟨hj.sound, hj.lines⟩
      pointer := fun _ j pointer hj hpoints => ⟨⟨hpoints⟩, hj.lines⟩
      pending := fun _ j vs hj => ⟨hj.sound, hj.lines⟩ }
  exact invariant_runPart (J := base.Aligned) hinvariant
    (fun c hc => Exec.meets_same (fun _ _ => trivial) fun _ _ _ hj => ⟨hj.sound, hj.lines⟩) h

theorem Aligned.runLine {base : Machine} (h : base.Aligned m) (site : Site) (tokens : List Token) :
    base.Aligned (state (runLine site tokens m)) :=
  runParts_keeps (J := base.Aligned) (fun part _ _ _ hm => hm.runPart _ part) h

inductive Comes (site : Site) : List (List Token) → Machine → Site → List Token → Machine → Prop
  | here {part : List Token} {parts : List (List Token)} {m : Machine} :
      Comes site (part :: parts) m { site with after := parts.length } part m
  | later {part part' : List Token} {parts : List (List Token)} {m m' m'' : Machine} {site' : Site}
      (h : Machine.runPart { site with after := parts.length } part m = .ok none m')
      (rest : Comes site parts m' site' part' m'') :
      Comes site (part :: parts) m site' part' m''

theorem Comes.aligned {base : Machine} {site' : Site} {parts : List (List Token)} {m' : Machine}
    (h : Comes site parts m site' part m') (hm : base.Aligned m) : base.Aligned m' := by
  induction h with
  | here => exact hm
  | @later part _ parts m _ _ _ h _ ih =>
      have hpart := hm.runPart { site with after := parts.length } part
      rw [h] at hpart
      exact ih hpart

end Machine

namespace Program

inductive Reaches (p : Program) (site : Site) (part : List Token) (m : Machine) : Prop
  | intro {vs : List Visit} {i : Nat} {q : Program} {m' : Machine}
      (run : Leads p.numbers p.opening vs (.more i q)) (going : q.machine.poll = .ok () m')
      (comes : Machine.Comes q.site (splitColons q.standing) m' site part m)

theorem Leads.aligned {base : Machine} {numbers : List Int} {st st' : Step} {vs : List Visit}
    (h : Leads numbers st vs st') (hst : base.Aligned st.program.machine) :
    base.Aligned st'.program.machine := by
  induction h with
  | refl => exact hst
  | @line i p flow m vs st hv _ ih =>
      have hstep : base.Aligned (step numbers i p).program.machine :=
        machine_step (J := base.Aligned) (fun _ _ hm => ⟨hm.sound, hm.lines⟩)
          (fun _ _ hm => ⟨hm.sound, hm.lines⟩) (fun l _ _ hm => hm.runLine _ l.2) hst
      rw [step_of_ok hv] at hstep
      exact ih hstep

theorem aligned_opening (p : Program) : p.machine.Aligned p.opening.program.machine := by
  have hprepared : p.machine.Aligned p.prepare.machine := ⟨⟨.inl rfl⟩, rfl⟩
  rw [opening]
  cases p.numbers <;> exact ⟨hprepared.sound, hprepared.lines⟩

/-- Wherever a run has got to, its DATA lines are those of the program and the pointer has not
strayed. -/
theorem Reaches.aligned {p : Program} {site : Site} {part : List Token} {m : Machine}
    (h : p.Reaches site part m) : p.machine.Aligned m := by
  obtain ⟨run, going, comes⟩ := h
  have hq := run.aligned p.aligned_opening
  obtain ⟨t, -, rfl⟩ := Machine.of_poll going
  exact comes.aligned ⟨hq.sound, hq.lines⟩

end Program

def Fault.isOfLine : Fault → Bool
  | noValue => true
  | f => f.isOfLiteral

theorem Fault.isOfLine_of_isOfLiteral {f : Fault} (h : f.isOfLiteral = true) :
    f.isOfLine = true := by
  cases f with
  | noValue => rfl
  | _ => exact h

/-- All that READ can fail with: there are no more values, the next one is of the wrong kind, or it
is an integer too large for a number variable. Or the line to go on to has no value, or one that
cannot be read. -/
inductive ReadFault (ls : Lines (List Token)) (line : String) : Fault → Prop
  | noData : ReadFault ls line (.noData line)
  | textRead : ReadFault ls line (.textRead line)
  | numberRead : ReadFault ls line (.numberRead line)
  | integerTooLarge : ReadFault ls line .integerTooLarge
  | noValue {l : Int × List Token} (hl : l ∈ ls) (h : DataStore.values false l.2.tail = .ok []) :
      ReadFault ls line .noValue
  | unreadable {l : Int × List Token} {f : Fault} (hl : l ∈ ls)
      (h : DataStore.values false l.2.tail = .error f) : ReadFault ls line f

theorem Exec.raises_asDatum (ls : Lines (List Token)) (name line : String) (v : Value) :
    Raises (ReadFault ls line) (asDatum name line v) := by
  unfold asDatum
  refine .ite ?_ ?_
  · cases v with
    | int n => exact .throw .numberRead
    | _ => exact .pure _
  · cases v with
    | text s =>
        dsimp only
        cases Decimal.readReal? s.toList with
        | some x => exact .pure _
        | none => exact .throw .textRead
    | int n => exact .bind (.ite (.throw .integerTooLarge) (.pure _)) fun _ => .pure _
    | _ => exact .pure _

namespace Supply

variable {ls : Lines (List Token)} {line : String} {s s' : Supply} {f : Fault} {v : Value}

inductive Draw (ls : Lines (List Token)) (line : String) :
    Supply → EStateM.Result Fault Supply Value → Prop
  | left {v : Value} {left : List Value} {ahead : Lines (List Token)} :
      Draw ls line ⟨v :: left, ahead⟩ (.ok v ⟨left, ahead⟩)
  | none : Draw ls line ⟨[], []⟩ (.error (.noData line) ⟨[], []⟩)
  | unreadable {n : Int} {tokens : List Token} {later : Lines (List Token)} {f : Fault}
      (h : DataStore.values false tokens.tail = .error f) :
      Draw ls line ⟨[], (n, tokens) :: later⟩ (.error f ⟨[], if n = 0 then ls else later⟩)
  | empty {n : Int} {tokens : List Token} {later : Lines (List Token)}
      (h : DataStore.values false tokens.tail = .ok []) :
      Draw ls line ⟨[], (n, tokens) :: later⟩ (.error .noValue ⟨[], if n = 0 then ls else later⟩)
  | line {n : Int} {tokens : List Token} {later : Lines (List Token)} {v : Value}
      {left : List Value} (h : DataStore.values false tokens.tail = .ok (v :: left)) :
      Draw ls line ⟨[], (n, tokens) :: later⟩ (.ok v ⟨left, if n = 0 then ls else later⟩)

theorem draw_next (ls : Lines (List Token)) (line : String) (s : Supply) :
    Draw ls line s (next ls line s) := by
  obtain ⟨_ | ⟨v, left⟩, ahead⟩ := s
  · obtain _ | ⟨⟨n, tokens⟩, later⟩ := ahead
    · exact .none
    · rw [next]
      cases hv : DataStore.values false tokens.tail with
      | error f => exact .unreadable hv
      | ok vs =>
          cases vs with
          | nil => exact .empty hv
          | cons v left => exact .line hv
  · cases ahead <;> exact .left

namespace Draw

theorem mem {r : EStateM.Result Fault Supply Value} (h : Draw ls line s r)
    (hs : ∀ l ∈ s.ahead, l ∈ ls) : ∀ l ∈ (state r).ahead, l ∈ ls := by
  have hahead {n : Int} {tokens : List Token} {later : Lines (List Token)}
      (hs : ∀ l ∈ (n, tokens) :: later, l ∈ ls) : ∀ l ∈ if n = 0 then ls else later, l ∈ ls := by
    split
    · exact fun _ hl => hl
    · exact fun l hl => hs l (.tail _ hl)
  cases h with
  | left | none => exact hs
  | unreadable | empty | line => exact hahead hs

theorem readFault (h : Draw ls line s (.error f s')) (hs : ∀ l ∈ s.ahead, l ∈ ls) :
    ReadFault ls line f := by
  cases h with
  | none => exact .noData
  | unreadable hv => exact .unreadable (hs _ (.head _)) hv
  | empty hv => exact .noValue (hs _ (.head _)) hv

end Draw

section Serve

variable {name : String} {names : List String} {table : Symbols}

theorem serve_stop (h : next ls line s = .error f s') :
    serve ls line (name :: names) (s, table) = .error f (s', table) := by
  simp only [serve, h]

theorem serve_refuse (h : next ls line s = .ok v s') (hv : Exec.asDatum name line v = .error f) :
    serve ls line (name :: names) (s, table) = .error f (s', table) := by
  simp only [serve, h, hv]

theorem serve_cons {w : Value} (h : next ls line s = .ok v s')
    (hv : Exec.asDatum name line v = .ok w) :
    serve ls line (name :: names) (s, table) = serve ls line names (s', table.insert name w) := by
  simp only [serve, h, hv]

theorem serve_fault (hs : ∀ l ∈ s.ahead, l ∈ ls)
    (h : fault? (serve ls line names (s, table)) = some f) : ReadFault ls line f := by
  induction names generalizing s table with
  | nil => cases h
  | cons name names ih =>
      have hdraw := draw_next ls line s
      cases hn : next ls line s with
      | error g s' =>
          rw [hn] at hdraw
          rw [serve_stop hn] at h
          cases h
          exact hdraw.readFault hs
      | ok v s' =>
          rw [hn] at hdraw
          cases hv : Exec.asDatum name line v with
          | error g =>
              rw [serve_refuse hn hv] at h
              cases h
              exact Exec.raises_asDatum ls name line v f hv
          | ok w =>
              rw [serve_cons hn hv] at h
              exact ih (hdraw.mem hs) h

end Serve

def all (s : Supply) : List Value := s.left ++ DataStore.stream s.ahead

namespace Draw

theorem all_eq (h : Draw ls line s (.ok v s')) (hs : ∀ l ∈ s.ahead, l.1 ≠ 0) :
    s.all = v :: s'.all ∧ ∀ l ∈ s'.ahead, l.1 ≠ 0 := by
  cases h with
  | left => exact ⟨rfl, hs⟩
  | line hv =>
      rw [if_neg (hs _ (.head _))]
      refine ⟨?_, fun l hl => hs l (.tail _ hl)⟩
      simp only [all, DataStore.stream, List.flatMap_cons, hv, Except.toOption, Option.getD_some,
        List.nil_append, List.cons_append]

theorem eq_noData (h : Draw ls line s (.error f s')) (hf : f.isOfLine = false) :
    f = .noData line ∧ s.all = [] ∧ s' = s := by
  cases h with
  | none => exact ⟨rfl, rfl, rfl⟩
  | unreadable hv =>
      have hline := Fault.isOfLine_of_isOfLiteral (DataStore.raises_values _ _ f hv)
      rw [hf] at hline
      cases hline
  | empty hv => cases hf

end Draw

/-- Without a line 0, READ hands out the values of all lines to come, unless it gets to a line that
has none or that cannot be read. -/
theorem serve_handOut {names : List String} {table : Symbols} (hs : ∀ l ∈ s.ahead, l.1 ≠ 0)
    (h : ∀ f, fault? (serve ls line names (s, table)) = some f → f.isOfLine = false) :
    let served := serve ls line names (s, table)
    let handed := handOut line names (s.all, table)
    fault? served = fault? handed ∧ ((state served).1.all, (state served).2) = state handed := by
  dsimp only
  induction names generalizing s table with
  | nil => exact ⟨rfl, rfl⟩
  | cons name names ih =>
      have hdraw := draw_next ls line s
      cases hn : next ls line s with
      | error f s' =>
          rw [hn] at hdraw
          rw [serve_stop hn] at h ⊢
          obtain ⟨rfl, hall, rfl⟩ := hdraw.eq_noData (h f rfl)
          rw [hall]
          exact ⟨rfl, congrArg (·, table) hall⟩
      | ok v s' =>
          rw [hn] at hdraw
          obtain ⟨hall, hs'⟩ := hdraw.all_eq hs
          rw [hall]
          cases hv : Exec.asDatum name line v with
          | error f =>
              rw [serve_refuse hn hv]
              simp only [handOut, hv]
              exact ⟨rfl, rfl⟩
          | ok w =>
              rw [serve_cons hn hv] at h ⊢
              simp only [handOut, hv]
              exact ih hs' h

end Supply

/-- A line that has no value or cannot be read is the only cause of such a fault. -/
theorem ReadFault.isOfLine_eq_false {ls : Lines (List Token)} {line : String} {f : Fault}
    (h : ReadFault ls line f)
    (hls : ∀ l ∈ ls, ∃ v vs, DataStore.values false l.2.tail = .ok (v :: vs)) :
    f.isOfLine = false := by
  cases h with
  | noData | textRead | numberRead | integerTooLarge => rfl
  | noValue hl hv =>
      obtain ⟨v, vs, hvs⟩ := hls _ hl
      cases hv.symm.trans hvs
  | unreadable hl hv =>
      obtain ⟨v, vs, hvs⟩ := hls _ hl
      cases hv.symm.trans hvs

namespace Program

/-- After any calls on an empty program, a READ that a run comes to takes the values left of the
line that was read last, and then those of the line after it. It has no fault but those of
`ReadFault`: the pointer is never lost. If no line has number 0 and READ does not get to a line
without a value or with one that cannot be read, it takes the next values of all lines to come, and
fails where there are no more of them. So it is if all lines have values that can be read. -/
theorem read_served (disk : Disk) (terminal : Terminal) (generator : Generator) (clock : Clock)
    (as : List Action) (t : Terminal) (g : Generator) :
    let p := (as.foldl (fun p a => state (carryOut a p))
      (fresh (.fresh .empty disk terminal generator clock))).again t g
    let ls := p.machine.data.lines
    ∀ site part m names, p.Reaches site part m → IsRead part names →
      let outcome := Machine.runPart site part m
      let served := Supply.serve ls site.label names (m.supply, m.symbols)
      let handed := handOut site.label names (m.supply.all, m.symbols)
      let asHanded := fault? outcome = fault? handed ∧
        ((state outcome).supply.all, (state outcome).symbols) = state handed
      (fault? outcome = fault? served ∧
        ((state outcome).supply, (state outcome).symbols) = state served) ∧
      (∀ f, fault? outcome = some f → ReadFault ls site.label f) ∧
      (0 ∉ ls.numbers → (∀ f, fault? outcome = some f → f.isOfLine = false) → asHanded) ∧
      (0 ∉ ls.numbers → (∀ l ∈ ls, ∃ v vs, DataStore.values false l.2.tail = .ok (v :: vs)) →
        asHanded) := by
  intro p ls site part m names hreach hread outcome served handed asHanded
  obtain ⟨hsound, hlines⟩ := hreach.aligned
  have hmem : ∀ l ∈ m.supply.ahead, l ∈ ls := by
    obtain ⟨us, hus⟩ := hsound.exists_append
    intro l hl
    rw [show ls = us ++ m.supply.ahead from hlines.symm.trans hus]
    exact List.mem_append_right us hl
  have hserved : fault? outcome = fault? served ∧
      ((state outcome).supply, (state outcome).symbols) = state served := by
    have h := @Machine.runPart_serve site part m names hsound hread
    rwa [hlines] at h
  have hfaults : ∀ f, fault? outcome = some f → ReadFault ls site.label f :=
    fun f hf => Supply.serve_fault hmem (hserved.1.symm.trans hf)
  have hhanded (hzero : 0 ∉ ls.numbers)
      (hline : ∀ f, fault? outcome = some f → f.isOfLine = false) : asHanded := by
    have hahead : ∀ l ∈ m.supply.ahead, l.1 ≠ 0 := fun l hl hl0 =>
      hzero (hl0 ▸ List.mem_map_of_mem (hmem l hl))
    obtain ⟨hfault, hstate⟩ := Supply.serve_handOut hahead fun f hf => hline f (hserved.1.trans hf)
    refine ⟨hserved.1.trans hfault, ?_⟩
    rw [← hstate, ← hserved.2]
  exact ⟨hserved, hfaults, hhanded, fun hzero hls =>
    hhanded hzero fun f hf => (hfaults f hf).isOfLine_eq_false hls⟩

/-- The second READ takes the rest of one line and goes on to the next. -/
theorem read_served_across :
    let t : Terminal := .ofDevice .teletype [] none
    let g : Generator := ⟨[], []⟩
    let as : List Action := [.edit (.add "5 READ A: READ B$, C".toList),
      .edit (.add "10 DATA 1, \"X\"".toList), .edit (.add "20 DATA -7".toList)]
    let p := (as.foldl (fun p a => state (carryOut a p))
      (fresh (.fresh .empty ⟨[], []⟩ t g 0))).again t g
    ∃ site part m, p.Reaches site part m ∧ IsRead part ["B$", "C"] ∧
      0 ∉ p.machine.data.lines.numbers ∧ m.supply.left.length = 1 ∧ m.supply.ahead.length = 1 ∧
      fault? (Machine.runPart site part m) = none ∧
      fault? (handOut site.label ["B$", "C"] (m.supply.all, m.symbols)) = none := by
  intro t g as p
  let q : Program := { p.prepare with next := .int 5 }
  let m := state q.machine.poll
  let first : List Token := [⟨2, some (.keyword .READ), "READ"⟩, ⟨7, some .name, "A"⟩]
  let second : List Token := [⟨10, some (.keyword .READ), "READ"⟩, ⟨15, some .name, "B$"⟩,
    ⟨17, some (.mark .comma), ","⟩, ⟨19, some .name, "C"⟩]
  let m' := state (Machine.runPart { q.site with after := 1 } first m)
  have hnumbers : p.numbers = [5, 10, 20] := by decide +kernel
  have hopening : p.opening = .more 0 q := by rw [opening, hnumbers]
  have hparts : splitColons q.standing = [first, second] := by decide +kernel
  have hfirst : Machine.runPart { q.site with after := 1 } first m = .ok none m' :=
    eq_of_value? (by decide +kernel)
  have hrun : Leads p.numbers p.opening [] (.more 0 q) := hopening ▸ .refl _
  have hgoing : q.machine.poll = .ok () m := eq_of_value? (by decide +kernel)
  have hreach : p.Reaches { q.site with after := 0 } second m' :=
    ⟨hrun, hgoing, hparts ▸ .later hfirst .here⟩
  have hread : IsRead second ["B$", "C"] := ⟨rfl, .more rfl rfl (.one rfl)⟩
  have hzero : 0 ∉ p.machine.data.lines.numbers := by decide +kernel
  have hfault : fault? (Machine.runPart { q.site with after := 0 } second m') = none := by
    decide +kernel
  obtain ⟨-, -, hhanded, -⟩ := read_served ⟨[], []⟩ t g 0 as t g _ _ _ _ hreach hread
  have hsame := (hhanded hzero fun f hf => nomatch hfault.symm.trans hf).1
  exact ⟨_, _, _, hreach, hread, hzero, by decide +kernel, by decide +kernel, hfault,
    hsame.symm.trans hfault⟩

/-- READ gives up at a line without a value, though the next line has one. -/
theorem empty_line_stops_read :
    let t : Terminal := .ofDevice .teletype [] none
    let g : Generator := ⟨[], []⟩
    let as : List Action := [.edit (.add "10 DATA".toList), .edit (.add "20 DATA 5".toList),
      .edit (.add "30 READ A".toList)]
    let p := (as.foldl (fun p a => state (carryOut a p))
      (fresh (.fresh .empty ⟨[], []⟩ t g 0))).again t g
    (p.runWithin 9).1 = .failed .noValue := by
  decide +kernel

end Program

end LineBasic

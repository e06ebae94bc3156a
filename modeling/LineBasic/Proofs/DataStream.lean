import LineBasic.Program.Run
import LineBasic.Proofs.Lines
import LineBasic.Proofs.Numeral
import LineBasic.Proofs.VariableList

namespace LineBasic

open Outcome

namespace DataStore

def stream (ls : Lines (List Token)) : List Value :=
  ls.flatMap fun l => (values false l.2.tail).toOption.getD []

def streamFrom? (ls : Lines (List Token)) (target : Value) : Option (List Value) :=
  if target.isZero then some (stream ls)
  else match ls.dropWhile fun l => !target.same (.int l.1) with
    | [] => none
    | l :: ls => some (stream (l :: ls))

structure Readable (ls : Lines (List Token)) : Prop where
  positive : ∀ n ∈ ls.numbers, 0 < n
  values : ∀ l ∈ ls, ∃ v vs, DataStore.values false l.2.tail = .ok (v :: vs)

def lastNumber (previous : Int) (ls : Lines (List Token)) : Int :=
  ls.foldl (fun _ l => l.1) previous

section Lookup

variable {read ahead : Lines (List Token)} {n : Int} {tokens : List Token} {l : Int × List Token}

theorem after?_append (h : n ∉ Lines.numbers read) :
    after? (read ++ (n, tokens) :: ahead) n = some (Lines.numbers ahead).head? := by
  induction read with
  | nil => simp [after?]
  | cons l read ih =>
      rw [Lines.numbers, List.map_cons, List.mem_cons, not_or] at h
      rw [List.cons_append, after?, if_neg (Ne.symm h.1), ih h.2]

theorem before_append (previous : Int) (h : n ∉ Lines.numbers read) :
    before previous (read ++ (n, tokens) :: ahead) n = some (lastNumber previous read) := by
  induction read generalizing previous with
  | nil => simp [before, lastNumber]
  | cons l read ih =>
      rw [Lines.numbers, List.map_cons, List.mem_cons, not_or] at h
      rw [List.cons_append, before, if_neg (Ne.symm h.1), ih l.1 h.2]
      rfl

theorem get?_append (h : n ∉ Lines.numbers read) :
    Lines.get? (read ++ (n, tokens) :: ahead) n = some tokens := by
  induction read with
  | nil => simp [Lines.get?]
  | cons l read ih =>
      rw [Lines.numbers, List.map_cons, List.mem_cons, not_or] at h
      rw [List.cons_append, Lines.get?, if_neg (Ne.symm h.1), ih h.2]

theorem lastNumber_append (previous : Int) (read : Lines (List Token)) (l : Int × List Token) :
    lastNumber previous (read ++ [l]) = l.1 := by
  rw [lastNumber, List.foldl_append]
  rfl

theorem notMem_read {d : DataStore} (h : d.lines = read ++ (n, tokens) :: ahead) :
    n ∉ Lines.numbers read := by
  intro hn
  have ha := d.ascending_lines
  rw [h] at ha
  exact absurd (ha.sides.1 n hn) (Int.lt_irrefl n)

end Lookup

section Read

variable {d : DataStore} {read ahead : Lines (List Token)} {n : Int} {tokens : List Token}

theorem nextLine_append (hlines : d.lines = read ++ (n, tokens) :: ahead) (hpointer : d.pointer = n)
    (hn : n ≠ 0) (line : String) :
    d.nextLine line = ahead.head?.elim (.error (.noData line)) fun l => .ok l.1 := by
  have hafter : after? d.lines d.pointer = some (Lines.numbers ahead).head? := by
    rw [hpointer, hlines]
    exact after?_append (notMem_read hlines)
  unfold nextLine
  split
  · rename_i hnil
    simp [hnil] at hlines
  · rw [if_neg (by rwa [hpointer]), hafter]
    cases ahead <;> rfl

theorem nextLine_eq (h : Readable d.lines) (hlines : d.lines = read ++ ahead)
    (hpointer : d.pointer = lastNumber 0 read) (line : String) :
    d.nextLine line = ahead.head?.elim (.error (.noData line)) fun l => .ok l.1 := by
  rcases List.eq_nil_or_concat read with rfl | ⟨pre, ⟨n, tokens⟩, rfl⟩
  · rw [nextLine, hlines, hpointer]
    cases ahead <;> rfl
  · rw [List.concat_eq_append, lastNumber_append] at hpointer
    rw [List.concat_eq_append, List.append_assoc, List.singleton_append] at hlines
    have hpositive : 0 < n := h.positive n (by simp [hlines, Lines.numbers])
    exact nextLine_append hlines hpointer (Int.ne_of_gt hpositive) line

theorem read_nil (h : Readable d.lines) (hpointer : d.pointer = lastNumber 0 d.lines)
    (line : String) : DataStore.read line d = .error (.noData line) d := by
  rw [DataStore.read, nextLine_eq h (List.append_nil _).symm hpointer]
  rfl

/-- The next line is read, and it is not empty. -/
theorem read_cons (h : Readable d.lines) (hlines : d.lines = read ++ (n, tokens) :: ahead)
    (hpointer : d.pointer = lastNumber 0 read) (line : String) :
    ∃ v vs, stream ((n, tokens) :: ahead) = v :: vs ++ stream ahead ∧
      DataStore.read line d = .ok (v :: vs) { d with pointer := n } := by
  obtain ⟨v, vs, hvalues⟩ := h.values (n, tokens) (by simp [hlines])
  refine ⟨v, vs, ?_, ?_⟩
  · rw [stream, List.flatMap_cons, hvalues]
    rfl
  · rw [DataStore.read, nextLine_eq h hlines hpointer, List.head?_cons, Option.elim_some]
    dsimp only
    rw [tokens?_eq, hlines, get?_append (notMem_read hlines), Option.getD_some, hvalues]

theorem lineOf?_of_dropWhile {ls : Lines (List Token)} {l : Int × List Token} {target : Value}
    (h : (ls.dropWhile fun l => !target.same (.int l.1)) = l :: ahead) :
    lineOf? ls.numbers target = some l.1 := by
  induction ls with
  | nil => cases h
  | cons k ls ih =>
      by_cases hk : target.same (.int k.1)
      · have hcons : k :: ls = l :: ahead := by simpa [List.dropWhile_cons, hk] using h
        cases hcons
        simp [lineOf?, Lines.numbers, hk]
      · have hrest := ih (by simpa [List.dropWhile_cons, hk] using h)
        simpa [lineOf?, Lines.numbers, hk] using hrest

theorem restore_of_some {target : Value} {vs : List Value}
    (hvs : streamFrom? d.lines target = some vs) :
    ∃ read ahead, d.lines = read ++ ahead ∧ vs = stream ahead ∧
      d.restore target = .ok { d with pointer := lastNumber 0 read } := by
  rw [streamFrom?] at hvs
  by_cases hz : target.isZero
  · rw [if_pos hz] at hvs
    cases hvs
    refine ⟨[], d.lines, rfl, rfl, ?_⟩
    rw [restore, if_pos hz]
    rfl
  · rw [if_neg hz] at hvs
    split at hvs
    · cases hvs
    · rename_i l ahead hahead
      cases hvs
      have hline := lineOf?_of_dropWhile hahead
      have hlines :
          d.lines = d.lines.takeWhile (fun l => !target.same (.int l.1)) ++ l :: ahead := by
        rw [← hahead, List.takeWhile_append_dropWhile]
      generalize d.lines.takeWhile (fun l => !target.same (.int l.1)) = read at hlines
      refine ⟨read, l :: ahead, hlines, rfl, ?_⟩
      rw [restore, if_neg hz, hline]
      dsimp only
      rw [hlines, before_append 0 (notMem_read hlines)]
      rfl

end Read

end DataStore

def Machine.Serves (ls : Lines (List Token)) (vs : List Value) (m : Machine) : Prop :=
  ∃ read ahead, ls = read ++ ahead ∧ m.data.lines = ls ∧
    m.data.pointer = DataStore.lastNumber 0 read ∧ vs = m.pending ++ DataStore.stream ahead

def handOut (line : String) :
    List String → List Value × Symbols → EStateM.Result Fault (List Value × Symbols) Unit
  | [], s => .ok () s
  | _ :: _, ([], table) => .error (.noData line) ([], table)
  | name :: names, (v :: vs, table) =>
      match Exec.asDatum name line v with
      | .error f => .error f (vs, table)
      | .ok w => handOut line names (vs, table.insert name w)

inductive Handed {σ α : Type} (ls : Lines (List Token)) (look : σ → Machine) :
    EStateM.Result Fault (List Value × Symbols) Unit → EStateM.Result Fault σ α → Prop
  | ok {a : α} {s : σ} {vs : List Value} (h : (look s).Serves ls vs) :
      Handed ls look (.ok () (vs, (look s).symbols)) (.ok a s)
  | error {f : Fault} {s : σ} {vs : List Value} (h : (look s).Serves ls vs) :
      Handed ls look (.error f (vs, (look s).symbols)) (.error f s)

namespace Exec

variable {ls : Lines (List Token)} {vs : List Value} {v : Value} {site : Site} {c : Cursor}
  {m : Machine}

theorem nextDatum_pending {ps : List Value} (hp : m.pending = v :: ps) :
    nextDatum site ⟨c, m⟩ = .ok v ⟨c, { m with pending := ps }⟩ := by
  obtain ⟨⟩ := m
  cases hp
  rfl

theorem nextDatum_error {f : Fault} {d : DataStore} (hp : m.pending = [])
    (hr : DataStore.read site.label m.data = .error f d) :
    nextDatum site ⟨c, m⟩ = .error f ⟨c, { m with data := d }⟩ := by
  have hdata : onData (DataStore.read site.label) site ⟨c, m⟩ =
      .error f ⟨c, { m with data := d }⟩ := by
    rw [onData, hr]
  obtain ⟨⟩ := m
  cases hp
  exact bind_error (x := onData (DataStore.read site.label)) hdata

theorem nextDatum_read {ps : List Value} {d : DataStore} (hp : m.pending = [])
    (hr : DataStore.read site.label m.data = .ok (v :: ps) d) :
    nextDatum site ⟨c, m⟩ = .ok v ⟨c, { m with data := d, pending := ps }⟩ := by
  have hdata : onData (DataStore.read site.label) site ⟨c, m⟩ =
      .ok (v :: ps) ⟨c, { m with data := d }⟩ := by
    rw [onData, hr]
  obtain ⟨⟩ := m
  cases hp
  exact bind_ok (x := onData (DataStore.read site.label)) hdata

theorem nextDatum_nil (hls : DataStore.Readable ls) (h : m.Serves ls []) :
    nextDatum site ⟨c, m⟩ = .error (.noData site.label) ⟨c, m⟩ := by
  obtain ⟨read, ahead, hsplit, rfl, hpointer, hvs⟩ := h
  obtain ⟨hpending, hstream⟩ := List.append_eq_nil_iff.mp hvs.symm
  cases ahead with
  | cons l ahead =>
      obtain ⟨w, ws, hcons, -⟩ := DataStore.read_cons hls hsplit hpointer site.label
      rw [hstream] at hcons
      cases hcons
  | nil =>
      rw [List.append_nil] at hsplit
      rw [← hsplit] at hpointer
      exact nextDatum_error hpending (DataStore.read_nil hls hpointer site.label)

theorem nextDatum_cons (hls : DataStore.Readable ls) (h : m.Serves ls (v :: vs)) :
    ∃ m', nextDatum site ⟨c, m⟩ = .ok v ⟨c, m'⟩ ∧ m'.Serves ls vs ∧ m'.symbols = m.symbols := by
  obtain ⟨read, ahead, hsplit, rfl, hpointer, hvs⟩ := h
  cases hp : m.pending with
  | cons w ps =>
      rw [hp] at hvs
      cases hvs
      exact ⟨_, nextDatum_pending hp, ⟨read, ahead, hsplit, rfl, hpointer, rfl⟩, rfl⟩
  | nil =>
      rw [hp, List.nil_append] at hvs
      cases ahead with
      | nil => cases hvs
      | cons l ahead =>
          obtain ⟨w, ws, hstream, hread⟩ := DataStore.read_cons hls hsplit hpointer site.label
          rw [hstream] at hvs
          cases hvs
          refine ⟨_, nextDatum_read hp hread, ⟨read ++ [l], ahead, ?_, rfl, ?_, rfl⟩, rfl⟩
          · rw [List.append_assoc, List.singleton_append, hsplit]
          · rw [DataStore.lastNumber_append]

theorem readAll_handed (hls : DataStore.Readable ls) (names : List String) (h : m.Serves ls vs) :
    Handed ls Job.machine (handOut site.label names (vs, m.symbols))
      (readAll names site ⟨c, m⟩) := by
  induction names generalizing m vs with
  | nil => exact .ok (s := Job.mk c m) h
  | cons name names ih =>
      rw [readAll]
      cases vs with
      | nil =>
          rw [bind_error (nextDatum_nil hls h), handOut]
          exact .error (s := Job.mk c m) h
      | cons v vs =>
          obtain ⟨m', hnext, hserves, hsymbols⟩ := @nextDatum_cons _ _ _ site c _ hls h
          rw [bind_ok hnext, handOut, ← hsymbols]
          show Handed ls _ _ ((ofExcept (asDatum name site.label v) >>= _) site ⟨c, m'⟩)
          cases asDatum name site.label v with
          | error f => exact .error (s := Job.mk c m') hserves
          | ok w =>
              have hassigned : Machine.Serves ls vs
                  { m' with symbols := m'.symbols.insert name w } := hserves
              exact ih hassigned

end Exec

namespace Exec

variable {α β : Type}

def Still (x : Exec α) : Prop :=
  ∀ site c, Apart Job.cursor (fun j => { j with cursor := c }) (x site)

theorem still_pure (a : α) : Still (pure a : Exec α) := fun _ _ => ⟨fun _ => rfl, fun _ => rfl⟩

theorem still_throw (f : Fault) : Still (throw f : Exec α) :=
  fun _ _ => ⟨fun _ => rfl, fun _ => rfl⟩

theorem still_line : Still line := fun _ _ => ⟨fun _ => rfl, fun _ => rfl⟩

theorem still_machine : Still machine := fun _ _ => ⟨fun _ => rfl, fun _ => rfl⟩

theorem still_modifyMachine (f : Machine → Machine) : Still (modifyMachine f) :=
  fun _ _ => ⟨fun _ => rfl, fun _ => rfl⟩

theorem Still.bind {x : Exec α} {f : α → Exec β} (hx : Still x) (hf : ∀ a, Still (f a)) :
    Still (x >>= f) :=
  fun site c => (hx site c).bind fun a => hf a site c

theorem still_ofExcept (r : Except Fault α) : Still (ofExcept r) := by
  cases r with
  | ok a => exact still_pure a
  | error f => exact still_throw f

theorem still_onData (act : EStateM Fault DataStore α) : Still (onData act) := by
  intro site c
  constructor
  · intro j
    rw [onData]
    split <;> rfl
  · intro j
    simp only [onData]
    cases act j.machine.data <;> rfl

theorem still_takePending : Still takePending := by
  refine still_machine.bind fun m => ?_
  split
  · exact still_throw _
  · exact (still_modifyMachine _).bind fun _ => still_pure _

theorem still_nextDatum : Still nextDatum := by
  refine still_machine.bind fun m => ?_
  dsimp only
  split
  · refine still_line.bind fun l => (still_onData _).bind fun vs => ?_
    exact (still_modifyMachine _).bind fun _ => still_takePending
  · exact still_takePending

theorem still_readAll (names : List String) : Still (readAll names) := by
  induction names with
  | nil => exact still_pure ()
  | cons name names ih =>
      refine still_nextDatum.bind fun v => still_line.bind fun l => ?_
      exact (still_ofExcept _).bind fun w => (still_modifyMachine _).bind fun _ => ih

theorem readAll_append (names names' : List String) :
    readAll (names ++ names') = readAll names >>= fun _ => readAll names' := by
  induction names with
  | nil => rfl
  | cons name names ih => simp only [List.cons_append, readAll, ih, bind_assoc]

end Exec

inductive NameList : List Token → List String → Prop
  | one {t : Token} (name : t.category = some .name) : NameList [t] [t.lexeme]
  | more {t u : Token} {ts : List Token} {names : List String} (name : t.category = some .name)
      (comma : u.category = some (.mark .comma)) (rest : NameList ts names) :
      NameList (t :: u :: ts) (t.lexeme :: names)

/-- The loop over the names takes them all and ends behind them. -/
theorem NameList.gathers {ts : List Token} {names : List String} (h : NameList ts names)
    (last : Token) (k : Nat) :
    ∃ rest c, names = (Cursor.current ⟨last, ts, k⟩).lexeme :: rest ∧
      Gathers (Cursor.advance ⟨last, ts, k⟩) rest c := by
  induction h generalizing last with
  | @one t name =>
      have hmark : ¬ t.isMark .comma := by simp [Token.isMark, name]
      exact ⟨[], _, rfl, .stop hmark⟩
  | @more t u ts names name comma list ih =>
      obtain ⟨rest, c, rfl, hgathers⟩ := ih u
      exact ⟨_, c, rfl, .more (beq_iff_eq.mpr comma) hgathers⟩

theorem Exec.nameList_ok {site : Site} {m : Machine} {ts : List Token} {names : List String}
    (h : NameList ts names) (k : Nat) (last : Token) :
    ∃ c, nameList site ⟨⟨last, ts, k⟩, m⟩ = .ok names ⟨c, m⟩ := by
  obtain ⟨rest, c, rfl, hgathers⟩ := h.gathers last k
  exact ⟨c, nameList_of_gathers hgathers⟩

inductive IsRead : List Token → List String → Prop
  | intro {t : Token} {ts : List Token} {names : List String}
      (keyword : t.category = some (.keyword .READ)) (list : NameList ts names) :
      IsRead (t :: ts) names

theorem IsRead.exists_cons {tokens : List Token} {names : List String} (h : IsRead tokens names) :
    ∃ name rest, names = name :: rest := by
  obtain ⟨-, list⟩ := h
  cases list <;> exact ⟨_, _, rfl⟩

section Statements

variable {site : Site} {m : Machine} {t : Token} {ts : List Token}

theorem Exec.statement_read {names : List String} (keyword : t.category = some (.keyword .READ))
    (list : NameList ts names) :
    ∃ c, statement site ⟨⟨t, t :: ts, 0⟩, m⟩ =
      (readAll names >>= fun _ => pure none) site ⟨c, m⟩ := by
  obtain ⟨c, hc⟩ := @nameList_ok site m ts names list 0 t
  have hread : readData site ⟨⟨t, t :: ts, 0⟩, m⟩ = readAll names site ⟨c, m⟩ := by
    have hmore : ts.isEmpty = false := by cases list <;> rfl
    unfold readData
    rw [advance_bind, atEnd_bind]
    show (if ts.isEmpty then _ else _ : Exec Unit) site _ = _
    rw [hmore]
    exact bind_ok hc
  exact ⟨c, (statement_readData keyword).trans (bind_congr hread _)⟩

theorem Exec.statement_restore {j : Job} {v : Value} {d : DataStore}
    (keyword : t.category = some (.keyword .RESTORE))
    (hv : arithmetic site ⟨⟨t, ts, 0⟩, m⟩ = .ok v j) (hd : j.machine.data.restore v = .ok d) :
    statement site ⟨⟨t, t :: ts, 0⟩, m⟩ =
      .ok none ⟨j.cursor, { j.machine with pending := [], data := d }⟩ := by
  have hcategory : (Cursor.current ⟨t, t :: ts, 0⟩).category = some (.keyword .RESTORE) := keyword
  have hrestore : restore site ⟨⟨t, t :: ts, 0⟩, m⟩ =
      .ok () ⟨j.cursor, { j.machine with pending := [], data := d }⟩ := by
    unfold restore
    rw [advance_bind]
    refine (bind_ok hv).trans ?_
    show (ofExcept (j.machine.data.restore v) >>= _) site _ = _
    rw [hd]
    rfl
  rw [statement, current_bind, hcategory]
  exact bind_ok hrestore

theorem Exec.machine_of_arithmetic {c : Cursor} {j : Job} {v : Value}
    (hv : arithmetic site ⟨c, m⟩ = .ok v j) :
    ∃ s : Scan, j = ⟨s.cursor, m.evaluated site s⟩ := by
  unfold arithmetic evaluate at hv
  split at hv
  · rename_i s _
    cases hv
    exact ⟨s, rfl⟩
  · cases hv

end Statements

namespace Machine

variable {ls : Lines (List Token)} {vs : List Value} {site : Site} {m : Machine}
  {tokens : List Token} {names : List String}

/-- Where the names stand in the statement makes no difference. -/
theorem runPart_read (h : IsRead tokens names) (c : Cursor) :
    runPart site tokens m = match Exec.readAll names site ⟨c, m⟩ with
      | .ok _ j => .ok none j.machine
      | .error f j => .error f j.machine := by
  cases h with
  | @intro t ts _ keyword list =>
      obtain ⟨c', hc'⟩ := @Exec.statement_read site m t ts names keyword list
      have hblind := (Exec.still_readAll names site c).blind ⟨c', m⟩
      dsimp only at hblind
      rw [runPart_cons, hc', hblind]
      cases hr : Exec.readAll names site ⟨c', m⟩ with
      | ok u j => rw [Exec.bind_ok hr]; rfl
      | error f j => rw [Exec.bind_error hr]; rfl

theorem read_handed (hls : DataStore.Readable ls) (hread : IsRead tokens names)
    (h : m.Serves ls vs) :
    Handed ls id (handOut site.label names (vs, m.symbols)) (runPart site tokens m) := by
  have c : Cursor := ⟨⟨0, none, ""⟩, [], 0⟩
  have hhanded := @Exec.readAll_handed ls vs site c m hls names h
  rw [runPart_read hread c]
  generalize handOut site.label names (vs, m.symbols) = r at hhanded
  cases hr : Exec.readAll names site ⟨c, m⟩ with
  | ok u j =>
      rw [hr] at hhanded
      cases hhanded with
      | ok hj => exact .ok (s := j.machine) hj
  | error f j =>
      rw [hr] at hhanded
      cases hhanded with
      | error hj => exact .error (s := j.machine) hj

/-- A READ statement does as two that share its variables. -/
theorem runPart_read_append {tokens' whole : List Token} {names' : List String}
    (h : IsRead tokens names) (h' : IsRead tokens' names')
    (hwhole : IsRead whole (names ++ names')) :
    runPart site whole m = (runPart site tokens >>= fun _ => runPart site tokens') m := by
  have c : Cursor := ⟨⟨0, none, ""⟩, [], 0⟩
  have hfirst := @runPart_read site m tokens names h c
  rw [runPart_read hwhole c, Exec.readAll_append]
  cases hr : Exec.readAll names site ⟨c, m⟩ with
  | ok u j =>
      rw [hr] at hfirst
      rw [Exec.bind_ok hr, Outcome.bind_ok hfirst, runPart_read h' j.cursor]
  | error f j =>
      rw [hr] at hfirst
      rw [Exec.bind_error hr, Outcome.bind_error hfirst]

/-- RESTORE to a line of the store, or to its start, does not fail. -/
theorem restore_serves {t : Token} {ts : List Token} {v : Value} {j : Job} {vs' : List Value}
    (h : m.Serves ls vs) (keyword : t.category = some (.keyword .RESTORE))
    (hv : Exec.arithmetic site ⟨⟨t, ts, 0⟩, m⟩ = .ok v j)
    (hvs : DataStore.streamFrom? ls v = some vs') :
    ∃ m', runPart site (t :: ts) m = .ok none m' ∧ m'.Serves ls vs' ∧ m'.symbols = m.symbols := by
  obtain ⟨-, -, -, rfl, -, -⟩ := h
  obtain ⟨read, ahead, hsplit, rfl, hrestore⟩ := DataStore.restore_of_some hvs
  obtain ⟨s, rfl⟩ := Exec.machine_of_arithmetic hv
  have hpart : runPart site (t :: ts) m = .ok none { m.evaluated site s with
      pending := [], data := { m.data with pointer := DataStore.lastNumber 0 read } } := by
    rw [runPart_cons, Exec.statement_restore keyword hv hrestore]
  exact ⟨_, hpart, ⟨read, ahead, hsplit, rfl, rfl, rfl⟩, rfl⟩

/-- Other statements do not move the place in the stream. -/
theorem other_serves {part : List Token} (h : m.Serves ls vs)
    (hneeds : needs? part ≠ some .data) :
    (state (runPart site part m)).Serves ls vs := by
  have hinvariant : Exec.Invariant site (· ≠ .data) fun j =>
      j.machine.data = m.data ∧ j.machine.pending = m.pending :=
    { files := by decide
      grids := by decide
      advance := fun j hj => hj
      evaluated := fun j s hj _ => hj
      frame := fun j n hj _ _ hdata hpending => ⟨hdata.trans hj.1, hpending.trans hj.2⟩
      store := fun j name v hj _ => hj
      grid := fun j key g hj => hj
      pointer := fun hne => absurd rfl hne
      pending := fun hne => absurd rfl hne }
  have hkept := invariant_runPart (J := fun n => n.data = m.data ∧ n.pending = m.pending)
    hinvariant (fun c hc => Exec.meets_same
      (fun f hf heq => hneeds ((needs?_of_start? hc).trans (heq ▸ hf))) fun _ _ _ hj => hj)
    ⟨rfl, rfl⟩
  obtain ⟨read, ahead, hls, hlines, hpointer, hvs⟩ := h
  refine ⟨read, ahead, hls, ?_, ?_, ?_⟩
  · rw [hkept.1, hlines]
  · rw [hkept.1, hpointer]
  · rw [hkept.2, hvs]

end Machine

/-- The machines that a run can get to by READ, by RESTORE to a line of the store, by other
statements and by what it does between lines, each with the values that are then still to come. -/
inductive Turns (p : Program) : List Value → Machine → Prop
  | start : Turns p (DataStore.stream p.machine.data.lines) p.prepare.machine
  | read {vs : List Value} {m : Machine} {tokens : List Token} {names : List String} (site : Site)
      (h : Turns p vs m) (hread : IsRead tokens names) :
      Turns p (state (handOut site.label names (vs, m.symbols))).1 
        (state (Machine.runPart site tokens m))
  | restore {vs vs' : List Value} {m : Machine} {t : Token} {ts : List Token} {v : Value} {j : Job}
      (site : Site) (h : Turns p vs m) (keyword : t.category = some (.keyword .RESTORE))
      (target : Exec.arithmetic site ⟨⟨t, ts, 0⟩, m⟩ = .ok v j)
      (found : DataStore.streamFrom? p.machine.data.lines v = some vs') :
      Turns p vs' (state (Machine.runPart site (t :: ts) m))
  | other {vs : List Value} {m : Machine} {part : List Token} (site : Site) (h : Turns p vs m)
      (hneeds : needs? part ≠ some .data) :
      Turns p vs (state (Machine.runPart site part m))
  | between {vs : List Value} {m : Machine} (terminal : Terminal) (flow : Option Flow)
      (h : Turns p vs m) : Turns p vs { m with terminal := terminal, lastFlow := flow }

theorem Turns.serves {p : Program} {vs : List Value} {m : Machine}
    (hls : DataStore.Readable p.machine.data.lines) (h : Turns p vs m) :
    m.Serves p.machine.data.lines vs := by
  induction h with
  | start => exact ⟨[], _, rfl, rfl, rfl, rfl⟩
  | @read vs m tokens names site _ hread ih =>
      have hhanded := @Machine.read_handed _ vs site m tokens names hls hread ih
      generalize handOut site.label names (vs, m.symbols) = r at hhanded
      generalize Machine.runPart site tokens m = r' at hhanded
      cases hhanded with
      | ok h => exact h
      | error h => exact h
  | restore site _ keyword target found ih =>
      obtain ⟨m', hm', hserves, -⟩ := Machine.restore_serves ih keyword target found
      rw [hm']
      exact hserves
  | other site _ hneeds ih => exact Machine.other_serves ih hneeds
  | between terminal flow _ ih => exact ih

theorem DataStore.streamFrom?_line {d : DataStore} {before after : Lines (List Token)} {n : Int}
    {tokens : List Token} (h : Readable d.lines)
    (hlines : d.lines = before ++ (n, tokens) :: after) :
    streamFrom? d.lines (.int n) = some (stream ((n, tokens) :: after)) := by
  have hpositive : 0 < n := h.positive n (by simp [hlines, Lines.numbers])
  have hdrop : ((before ++ (n, tokens) :: after).dropWhile fun l =>
      !(Value.int n).same (.int l.1)) = (n, tokens) :: after := by
    rw [List.dropWhile_append_of_pos, List.dropWhile_cons_of_neg]
    · simp [Value.same_int]
    · intro l hl
      have hne : ¬ (Value.int n).same (.int l.1) := fun hsame =>
        notMem_read hlines (Value.same_int.mp hsame ▸ List.mem_map_of_mem hl)
      simpa using hne
  have hzero : (Value.int n).isZero = false := by
    exact Bool.eq_false_iff.mpr fun hsame => Int.ne_of_gt hpositive (Value.same_int.mp hsame)
  rw [streamFrom?, hzero, hlines, hdrop]
  rfl

/-- Wherever a run has got to, READ takes the next values of the stream for its variables, one after
the other. It may as well be two statements that share the variables, and it fails once the stream
is used up. RESTORE goes to the start of the stream or to the first value of a line. -/
theorem read_takes_stream (p : Program) (vs : List Value) (m : Machine)
    (hls : DataStore.Readable p.machine.data.lines) (h : Turns p vs m) :
    (∀ site tokens names, IsRead tokens names →
      Handed p.machine.data.lines id (handOut site.label names (vs, m.symbols))
        (Machine.runPart site tokens m)) ∧
    (∀ site tokens tokens' whole names names', IsRead tokens names → IsRead tokens' names' →
      IsRead whole (names ++ names') →
      Machine.runPart site whole m =
        (Machine.runPart site tokens >>= fun _ => Machine.runPart site tokens') m) ∧
    (vs = [] → ∀ site tokens names, IsRead tokens names →
      ∃ m', Machine.runPart site tokens m = .error (.noData site.label) m' ∧ Turns p [] m') ∧
    (∀ site t ts v j vs', t.category = some (.keyword .RESTORE) →
      Exec.arithmetic site ⟨⟨t, ts, 0⟩, m⟩ = .ok v j →
      DataStore.streamFrom? p.machine.data.lines v = some vs' →
      ∃ m', Machine.runPart site (t :: ts) m = .ok none m' ∧ Turns p vs' m') ∧
    DataStore.streamFrom? p.machine.data.lines (.int 0) =
      some (DataStore.stream p.machine.data.lines) ∧
    ∀ before n tokens after, p.machine.data.lines = before ++ (n, tokens) :: after →
      DataStore.streamFrom? p.machine.data.lines (.int n) =
        some (DataStore.stream ((n, tokens) :: after)) := by
  have hserves := h.serves hls
  refine ⟨fun site tokens names hread => Machine.read_handed hls hread hserves,
    fun site tokens tokens' whole names names' hread hread' hwhole =>
      Machine.runPart_read_append hread hread' hwhole, fun hnil site tokens names hread => ?_,
    fun site t ts v j vs' keyword target found => ?_, rfl,
    fun before n tokens after hlines => DataStore.streamFrom?_line hls hlines⟩
  · subst hnil
    have hhanded := @Machine.read_handed _ [] site m tokens names hls hread hserves
    have hturns := Turns.read site h hread
    obtain ⟨name, names, rfl⟩ := hread.exists_cons
    rw [handOut] at hhanded hturns
    generalize Machine.runPart site tokens m = r at hhanded hturns
    generalize m.symbols = table at hhanded
    cases hhanded with
    | error _ => exact ⟨_, rfl, hturns⟩
  · obtain ⟨m', hm', -, -⟩ := Machine.restore_serves hserves keyword target found
    have hturns := Turns.restore site h keyword target found
    rw [hm'] at hturns
    exact ⟨m', hm', hturns⟩

/-- The second READ takes the rest of one line and the first value of the next. -/
theorem read_takes_stream_across :
    let ls : Lines (List Token) :=
      [(10, [.word .DATA "DATA", .text "P", .mark .comma ",", .text "Q"]),
        (20, [.word .DATA "DATA", .text "R"])]
    let p : Program := .fresh { Machine.blank with data := ⟨ls, 0⟩ }
    let read : List Token := [.word .READ "READ", .name "B$", .mark .comma ",", .name "C$"]
    DataStore.Readable ls ∧ ∃ m, Turns p [.text "Q", .text "R"] m ∧
      ∃ flow m', Machine.runPart "40" read m = .ok flow m' ∧
        m'.symbols.get? "C$" = some (.scalar (.text "R")) := by
  intro ls p read
  have hls : DataStore.Readable ls := by
    refine ⟨by decide, fun l hl => ?_⟩
    rcases List.mem_cons.mp hl with rfl | hl
    · exact ⟨_, _, rfl⟩
    · cases List.mem_singleton.mp hl
      exact ⟨_, _, rfl⟩
  have hread : IsRead [.word .READ "READ", .name "A$"] ["A$"] := ⟨rfl, .one rfl⟩
  have hreads : IsRead read ["B$", "C$"] := ⟨rfl, .more rfl rfl (.one rfl)⟩
  have hturns : Turns p [.text "Q", .text "R"] _ := Turns.read "30" (.start) hread
  refine ⟨hls, _, hturns, ?_⟩
  have hhanded := (read_takes_stream p _ _ hls hturns).1 "40" _ _ hreads
  generalize Machine.runPart "40" read _ = r at hhanded ⊢
  generalize state (Machine.runPart "30" [.word .READ "READ", .name "A$"] p.prepare.machine) = m
    at hhanded
  have hout : handOut "40" ["B$", "C$"] ([.text "Q", .text "R"], m.symbols) =
      .ok () ([], (m.symbols.insert "B$" (.text "Q")).insert "C$" (.text "R")) := rfl
  have hhanded' : Handed ls id (.ok () ([], _)) r := hout ▸ hhanded
  generalize htable : (m.symbols.insert "B$" (.text "Q")).insert "C$" (.text "R") = table
    at hhanded'
  cases hhanded' with
  | ok h => exact ⟨_, _, rfl, htable ▸ Assoc.get?_put_self _ _ _⟩

/-- READ fails if any value of the next line cannot be read. -/
theorem Machine.read_unreadable {site : Site} {m : Machine} {n : Int} {tokens part : List Token}
    {ls : Lines (List Token)} {names : List String} {f : Fault} (hpending : m.pending = [])
    (hlines : m.data.lines = (n, tokens) :: ls) (hpointer : m.data.pointer = 0)
    (hvalues : DataStore.values false tokens.tail = .error f) (hread : IsRead part names) :
    ∃ m', runPart site part m = .error f m' := by
  have hline : DataStore.read site.label m.data = .error f { m.data with pointer := n } := by
    simp [DataStore.read, DataStore.nextLine, DataStore.tokens?_eq, hlines, hpointer, Lines.get?,
      hvalues, pure, Except.pure]
  have c : Cursor := ⟨⟨0, none, ""⟩, [], 0⟩
  obtain ⟨name, rest, rfl⟩ := hread.exists_cons
  have hall : Exec.readAll (name :: rest) site ⟨c, m⟩ = .error f ⟨c, _⟩ :=
    Exec.bind_error (Exec.nextDatum_error hpending hline)
  exact ⟨_, by rw [runPart_read hread c, hall]⟩

theorem DataStore.values_of_unread {t u : Token} {n : Int} {f : Fault} {comma : Token}
    (ht : t.category = some .integer) (hn : Decimal.readInt t.lexeme.toList = .ok n)
    (hcomma : comma.category = some (.mark .comma)) (hu : u.category = some .integer)
    (hf : Decimal.readInt u.lexeme.toList = .error f) :
    values false [t, comma, u] = .error f := by
  simp [values, ht, hn, hcomma, hu, hf, bind, Except.bind]

/-- A number of 4301 digits keeps READ from the values in front of it. -/
theorem long_value_spoils_line :
    let ls : Lines (List Token) := [(10, [.word .DATA "DATA", .number "1", .mark .comma ",",
      .number (String.ofList (List.replicate 4301 '1'))])]
    let m : Machine := { Machine.blank with data := ⟨ls, 0⟩ }
    ∃ m', Machine.runPart "20" [.word .READ "READ", .name "A"] m =
      .error (.digitsFromText 4301) m' := by
  intro ls m
  have hlong : Decimal.readInt (String.ofList (List.replicate 4301 '1')).toList =
      .error (.digitsFromText 4301) := by
    rw [String.toList_ofList]
    exact Decimal.readInt_long (by decide)
  have hone : Decimal.readInt "1".toList = .ok 1 := rfl
  have hlines : m.data.lines = [(10, _)] := rfl
  exact Machine.read_unreadable rfl hlines rfl (DataStore.values_of_unread rfl hone rfl rfl hlong)
    ⟨rfl, .one rfl⟩

end LineBasic

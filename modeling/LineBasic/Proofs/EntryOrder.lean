import LineBasic.Proofs.Editing
import LineBasic.Proofs.Lines
import LineBasic.Proofs.Simulation

namespace LineBasic

open Outcome

namespace Lines

variable {β : Type} {ls ls' : Lines β}

theorem perm_put {n : Int} (h : n ∉ ls.numbers) (b : β) : (ls.put n b).Perm ((n, b) :: ls) := by
  induction ls with
  | nil => exact .refl _
  | cons l ls ih =>
      rw [numbers, List.map_cons, List.mem_cons, not_or] at h
      rw [put]
      split
      · exact .refl _
      · rw [if_neg h.1]
        exact ((ih h.2).cons l).trans (.swap _ _ _)

theorem Ascending.eq_of_perm (h : Ascending ls) (h' : Ascending ls') (hperm : ls.Perm ls') :
    ls = ls' := by
  refine hperm.eq_of_pairwise (fun a b _ _ hab hba => ?_) (List.pairwise_map.mp h)
    (List.pairwise_map.mp h')
  exact absurd hab (Int.not_lt.mpr (Int.le_of_lt hba))

end Lines

namespace Ledger

open Lines

variable {β : Type} {d e : Ledger β}

theorem perm_sorted (h : (numbers d).Nodup) : d.sorted.Perm d := by
  induction d with
  | nil => exact .refl _
  | cons l d ih =>
      obtain ⟨hl, hd⟩ := List.nodup_cons.mp h
      have hperm := ih hd
      have hnew : l.1 ∉ (sorted d).numbers := fun hmem => hl ((hperm.map _).mem_iff.mp hmem)
      exact (perm_put hnew l.2).trans (hperm.cons l)

theorem sorted_of_ascending (h : Ascending d) : d.sorted = d := by
  induction d with
  | nil => rfl
  | cons l d ih =>
      obtain ⟨hl, hd⟩ := ascending_cons.mp h
      rw [sorted_cons, ih hd]
      exact put_eq_cons hl l.2

theorem sorted_sorted (d : Ledger β) : sorted d.sorted = d.sorted :=
  sorted_of_ascending (ascending_sorted d)

/-- The order of what is stored under different numbers does not show. -/
theorem sorted_of_perm (h : (numbers d).Nodup) (hperm : e.Perm d) : e.sorted = d.sorted := by
  have he := perm_sorted ((hperm.map _).nodup_iff.mpr h)
  exact (ascending_sorted e).eq_of_perm (ascending_sorted d)
    (he.trans (hperm.trans (perm_sorted h).symm))

theorem put_of_notMem {n : Int} (h : n ∉ numbers d) (b : β) : d.put n b = d ++ [(n, b)] := by
  induction d with
  | nil => rfl
  | cons l d ih =>
      rw [numbers, List.map_cons, List.mem_cons, not_or] at h
      rw [Assoc.put, if_neg (by simpa using Ne.symm h.1), ih h.2]
      rfl

theorem foldl_put (h : (numbers (d ++ e)).Nodup) :
    e.foldl (fun d l => Assoc.put d l.1 l.2) d = d ++ e := by
  induction e generalizing d with
  | nil => exact (List.append_nil d).symm
  | cons l e ih =>
      have hnew : l.1 ∉ numbers d := by
        rw [numbers, List.map_append, List.nodup_append] at h
        exact fun hmem => h.2.2 l.1 hmem l.1 List.mem_cons_self rfl
      have hrest : (numbers (d ++ [l] ++ e)).Nodup := by
        rwa [List.append_assoc, List.singleton_append]
      rw [List.foldl_cons, put_of_notMem hnew, ih hrest, List.append_assoc, List.singleton_append]

end Ledger

def Machine.sorted (m : Machine) : Machine :=
  { m with data := ⟨m.data.lines, m.data.pointer⟩ }

namespace Machine

variable {m n : Machine}

/-- The machines are the same but for the order in which DATA lines came. -/
def Alike (m n : Machine) : Prop := m.sorted = n.sorted

theorem lines_sorted (m : Machine) : m.sorted.data.lines = m.data.lines := Ledger.sorted_sorted _

theorem Alike.lines (h : m.Alike n) : m.data.lines = n.data.lines := by
  rw [← lines_sorted, h, lines_sorted]

theorem Alike.same {α : Type} (h : m.Alike n) (look : Machine → α)
    (hlook : ∀ k, look k.sorted = look k) : look m = look n := by
  rw [← hlook m, h, hlook]

theorem Alike.map (h : m.Alike n) {f : Machine → Machine} (hf : ∀ k, (f k).sorted = f k.sorted) :
    (f m).Alike (f n) := by
  rw [Alike, hf, hf, h]

end Machine

namespace Exec

open Machine

variable {site : Site}

theorem keeps_alike_modify {f : Machine → Machine} (hf : ∀ k, (f k).sorted = f k.sorted) :
    Keeps ⟨site, site, Job.Beside Alike⟩ (modifyMachine f) :=
  fun _ _ h => .ok () ⟨h.1, h.2.map hf⟩

theorem keeps_alike_evaluate {α : Type} {e : Eval α} (he : e.Tame) :
    Keeps ⟨site, site, Job.Beside Alike⟩ (evaluate e) := by
  rintro ⟨c, m⟩ ⟨_, n⟩ ⟨rfl, h⟩
  have hsymbols : m.symbols = n.symbols := h.same symbols fun _ => rfl
  have hgenerator : m.generator = n.generator := h.same generator fun _ => rfl
  have hordinary := he.ordinary ⟨n.symbols, site.label⟩ ⟨c, false, n.generator, []⟩
  simp only [evaluate, hsymbols, hgenerator]
  cases hr : e ⟨n.symbols, site.label⟩ ⟨c, false, n.generator, []⟩ with
  | ok a s => exact .ok a ⟨rfl, h.map (f := fun k => k.evaluated site s) fun _ => rfl⟩
  | error f s =>
      exact .error (fun _ => f) (fun _ => hordinary f s hr)
        ⟨rfl, h.map (f := fun k => k.evaluated site s) fun _ => rfl⟩

theorem keeps_alike_terminal {α : Type} {act : Terminal.Act α} (ha : Terminal.Steady act) :
    Keeps ⟨site, site, Job.Beside Alike⟩ (onTerminal act) := by
  rintro ⟨c, m⟩ ⟨_, n⟩ ⟨rfl, h⟩
  have hterminal : m.terminal = n.terminal := h.same terminal fun _ => rfl
  simp only [onTerminal, hterminal]
  cases hr : act n.terminal with
  | ok a t => exact .ok a ⟨rfl, h.map (f := fun k => { k with terminal := t }) fun _ => rfl⟩
  | error f t =>
      exact .error (fun _ => f) (fun _ => ha.ordinary _ _ _ hr)
        ⟨rfl, h.map (f := fun k => { k with terminal := t }) fun _ => rfl⟩

theorem stable_alike (site : Site) : Stable ⟨site, site, Job.Beside Alike⟩ fun _ => True where
  cursor h := h.1
  symbols h := h.2.same symbols fun _ => rfl
  channels h := h.2.same channels fun _ => rfl
  supply h := h.2.same (·.terminal.supply) fun _ => rfl
  advance _ _ h := .ok () ⟨congrArg Cursor.advance h.1, h.2⟩
  evaluate := keeps_alike_evaluate
  terminal := keeps_alike_terminal
  assign _ := keeps_alike_modify fun _ => rfl
  generator _ := keeps_alike_modify fun _ => rfl
  clock _ := keeps_alike_modify fun _ => rfl
  noFile h := absurd trivial h
  disk _ _ _ h := h.2.same disk fun _ => rfl
  files _ _ _ h channels disk := ⟨h.1, h.2.map
    (f := fun k => { k with channels := channels, disk := disk }) fun _ => rfl⟩
  noGrid h := absurd trivial h
  compared _ _ _ h _ := by rw [h.2.same Machine.compared fun _ => rfl]
  grid _ _ _ := keeps_alike_modify fun _ => rfl
  lines _ _ _ h := h.2.lines
  reading _ _ _ h := ⟨h.2.same (·.data.pointer) fun _ => rfl, h.2.same pending fun _ => rfl⟩
  pointer _ _ _ h pointer _ := ⟨h.1, h.2.map
    (f := fun k => { k with data := { k.data with pointer := pointer } }) fun _ => rfl⟩
  pending _ _ := keeps_alike_modify fun _ => rfl

end Exec

theorem Machine.simulation_alike : Simulation Alike fun _ => True where
  stable := Exec.stable_alike
  assign _ _ _ := Exec.keeps_alike_modify fun _ => rfl
  flow h := h.same lastFlow fun _ => rfl
  withFlow h flow := h.map (f := withFlow flow) fun _ => rfl

namespace Program

def sorted (p : Program) : Program := { p with ledger := p.lines, machine := p.machine.sorted }

def Visit.sorted (v : Visit) : Visit := { v with program := v.program.sorted }

section Sorted

variable {p q : Program} {numbers : List Int}

theorem lines_sorted (p : Program) : p.sorted.lines = p.lines := Ledger.sorted_sorted _

theorem resumed_of_sorted (h : p.sorted = q.sorted) : Resumed Machine.Alike [] p q :=
  ⟨by rw [← lines_sorted, ← h, lines_sorted],
    (congrArg returns h).symm.trans (List.append_nil _).symm, (congrArg next h).symm,
    congrArg machine h⟩

theorem Resumed.sorted_eq (h : Resumed Machine.Alike [] p q) : q.sorted = p.sorted := by
  rw [sorted, sorted, h.lines, h.machine, h.returns, h.next, List.append_nil]

theorem within_all (p : Program) : p.Within fun _ => True := fun _ _ _ _ _ _ => trivial

/-- Lines are visited in the same way whatever the order of the stores. -/
theorem sorted_walk (n : Nat) {st st' : Step} (h : st.Resumed Machine.Alike [] st') :
    (walk numbers n st').1.map Visit.sorted = (walk numbers n st).1.map Visit.sorted := by
  induction n generalizing st st' with
  | zero => cases h <;> rfl
  | succ n ih =>
      cases h with
      | done | failed => rfl
      | @more i p q h =>
          have hvisit := Machine.simulation_alike.visit p.site p.within_all.standing h.machine
          rw [walk, walk, h.site, h.standing]
          obtain ⟨flow, m, n', hm, hn, hmn⟩ | ⟨f, f', m, n', hm, hn⟩ := hvisit
          · have hnow : Resumed Machine.Alike [] { p with machine := m.withFlow flow }
                { q with machine := n'.withFlow flow } :=
              { h with machine := Machine.simulation_alike.withFlow hmn flow }
            rw [hm, hn]
            rcases resumed_follow hnow i flow with hfollow | ⟨hbelow, -⟩
            · dsimp only
              rw [List.map_cons, List.map_cons, ih hfollow, Visit.sorted, Visit.sorted,
                h.sorted_eq]
            · exact absurd rfl hbelow
          · rw [hm, hn]

theorem resumed_prepare (h : Resumed Machine.Alike [] p q) :
    Resumed Machine.Alike [] p.prepare q.prepare where
  lines := h.lines
  returns := h.returns
  next := h.next
  machine := h.machine.map (f := fun m => { m with
    symbols := []
    pending := []
    data := { m.data with pointer := 0 }
    channels := []
    disk := m.channels.flushAll m.disk
    lastFlow := none }) fun _ => rfl

theorem resumed_opening (h : Resumed Machine.Alike [] p q) :
    p.opening.Resumed Machine.Alike [] q.opening := by
  have hnumbers : q.numbers = p.numbers := congrArg Lines.numbers h.lines
  rw [opening, opening, hnumbers]
  split
  · exact .failed _ (resumed_prepare h)
  · exact .more 0 { resumed_prepare h with next := rfl }

/-- A run ends in the same way whatever the order of the stores. -/
theorem sorted_runWithin (n : Nat) (h : Resumed Machine.Alike [] p q) :
    (q.runWithin n).1 = (p.runWithin n).1 ∧
      (q.runWithin n).2.sorted = (p.runWithin n).2.sorted := by
  have hnumbers : q.numbers = p.numbers := congrArg Lines.numbers h.lines
  have hopening := resumed_opening h
  rw [Leads.runWithin_eq, Leads.runWithin_eq, hnumbers]
  generalize p.opening = st at hopening
  generalize q.opening = st' at hopening
  cases hopening with
  | done h => exact ⟨rfl, h.sorted_eq⟩
  | failed f h => exact ⟨rfl, h.sorted_eq⟩
  | @more i p q h =>
      obtain ⟨hending, hresumed⟩ :=
        resumed_runFor Machine.simulation_alike n p.within_all h (.inl rfl)
      exact ⟨hending, hresumed.sorted_eq⟩

theorem listLine_eq (p : Program) (n : Int) : p.listLine n = p.sorted.listLine n := by
  have htokens : p.sorted.machine.data.tokens? n = p.machine.data.tokens? n := by
    rw [DataStore.tokens?_eq, DataStore.tokens?_eq]
    exact congrArg (Lines.get? · n) p.machine.lines_sorted
  rw [listLine, listLine, get?_ledger, get?_ledger, lines_sorted, htokens]
  refine congrArg _ (funext fun number => ?_)
  cases p.lines.get? n with
  | none => rfl
  | some ts =>
      cases ts with
      | nil => rfl
      | cons t ts => simp only [lineText, shownTokens, htokens]

theorem listAll_eq (h : p.sorted = q.sorted) : p.listAll = q.listAll := by
  have hnumbers : p.numbers = q.numbers := by
    rw [numbers, numbers, ← lines_sorted, h, lines_sorted]
  rw [listAll, listAll, hnumbers, funext p.listLine_eq, funext q.listLine_eq, h]

end Sorted

def lineNumber? (tokens : List Token) : Option Int :=
  tokens.head?.bind fun t => (Decimal.readInt t.lexeme.toList).toOption

def addEach (p : Program) (tss : List (List Token)) : Except Fault Program := tss.foldlM add p

section Entry

variable {p q : Program} {ts : List Token} {s : Int × List Token}

theorem isSome_numbered? (h : p.add ts = .ok q) : (numbered? ts).isSome := by
  cases ts with
  | nil => cases h
  | cons t ts =>
      obtain ⟨n, first, rest, hn, rfl⟩ := of_add_eq_ok h
      simp [numbered?, hn, Except.toOption]

theorem readInt_of_numbered? (h : numbered? ts = some s) :
    ∃ t first rest, ts = t :: first :: rest ∧ Decimal.readInt t.lexeme.toList = .ok s.1 ∧
      s.2 = first :: rest := by
  unfold numbered? at h
  split at h
  · rename_i t first rest
    cases hn : Decimal.readInt t.lexeme.toList with
    | error f => simp [hn, Except.toOption] at h
    | ok n =>
        obtain rfl : (n, first :: rest) = s := by simpa [hn, Except.toOption] using h
        exact ⟨t, first, rest, rfl, hn, rfl⟩
  · cases h

theorem lineNumber?_of_numbered? (h : numbered? ts = some s) : lineNumber? ts = some s.1 := by
  obtain ⟨t, first, rest, rfl, hn, -⟩ := readInt_of_numbered? h
  simp [lineNumber?, hn, Except.toOption]

end Entry

theorem addEach_eq {tss : List (List Token)} (h : ∀ ts ∈ tss, (numbered? ts).isSome) (p : Program) :
    p.addEach tss = .ok ((tss.filterMap numbered?).foldl store p) := by
  induction tss generalizing p with
  | nil => rfl
  | cons ts tss ih =>
      obtain ⟨s, hs⟩ := Option.isSome_iff_exists.mp (h ts List.mem_cons_self)
      rw [addEach, List.foldlM_cons, add_of_some hs, List.filterMap_cons_some hs]
      exact ih (fun us hus => h us (List.mem_cons_of_mem _ hus)) (p.store s)

theorem map_lineNumber? {tss : List (List Token)} (h : ∀ ts ∈ tss, (numbered? ts).isSome) :
    tss.map lineNumber? = ((tss.filterMap numbered?).map (·.1)).map some := by
  induction tss with
  | nil => rfl
  | cons ts tss ih =>
      obtain ⟨s, hs⟩ := Option.isSome_iff_exists.mp (h ts List.mem_cons_self)
      rw [List.map_cons, List.filterMap_cons_some hs, List.map_cons, List.map_cons,
        lineNumber?_of_numbered? hs, ih fun us hus => h us (List.mem_cons_of_mem _ hus)]

/-- Entries go to the two stores independently of each other, each in its order. -/
theorem foldl_store (ss : List (Int × List Token)) {p : Program} (h : p.machine.compared = []) :
    ss.foldl store p = { p with
      ledger := (ss.map fun s => (s.1, stored s.2)).foldl (fun d l => Assoc.put d l.1 l.2) p.ledger
      machine := { p.machine with data := { p.machine.data with
        ledger := (ss.filter fun s => saysData s.2).foldl (fun d l => Assoc.put d l.1 l.2)
          p.machine.data.ledger } } } := by
  induction ss generalizing p with
  | nil => rfl
  | cons s ss ih =>
      have hstore : (p.store s).machine.compared = [] := by simp [store, Machine.forget, h]
      have hforget : p.machine.forget s.1 = p.machine := by
        rw [Machine.forget, h, List.filter_nil, ← h]
      rw [List.foldl_cons, ih hstore]
      by_cases hd : saysData s.2
      · simp [store, hd, hforget, DataStore.add]
      · simp [store, hd, hforget]

section Distinct

variable {ss ss' : List (Int × List Token)} {p : Program}

theorem nodup_stored (h : (ss.map (·.1)).Nodup) :
    (Lines.numbers (ss.map fun s => (s.1, stored s.2))).Nodup := by
  simpa [Lines.numbers, Function.comp_def] using h

theorem nodup_saysData (h : (ss.map (·.1)).Nodup) :
    (Lines.numbers (ss.filter fun s => saysData s.2)).Nodup :=
  h.sublist (List.filter_sublist.map _)

def holding (p : Program) (ss : List (Int × List Token)) : Program :=
  { p with
    ledger := ss.map fun s => (s.1, stored s.2)
    machine := { p.machine with data := { p.machine.data with
      ledger := ss.filter fun s => saysData s.2 } } }

/-- Entries under different numbers are stored as they come. -/
theorem foldl_store_distinct (hlines : p.ledger = []) (hdata : p.machine.data.ledger = [])
    (hcompared : p.machine.compared = []) (h : (ss.map (·.1)).Nodup) :
    ss.foldl store p = p.holding ss := by
  rw [foldl_store ss hcompared, hlines, hdata, Ledger.foldl_put (nodup_stored h),
    Ledger.foldl_put (nodup_saysData h)]
  rfl

theorem sorted_holding (p : Program) (h : (ss.map (·.1)).Nodup) (hperm : ss'.Perm ss) :
    (p.holding ss').sorted = (p.holding ss).sorted := by
  have hlines : (p.holding ss').lines = (p.holding ss).lines :=
    Ledger.sorted_of_perm (nodup_stored h) (hperm.map _)
  have hdata : (p.holding ss').machine.data.lines = (p.holding ss).machine.data.lines :=
    Ledger.sorted_of_perm (nodup_saysData h) (hperm.filter _)
  rw [sorted, sorted, Machine.sorted, Machine.sorted, hlines, hdata]
  rfl

end Distinct

/-- Lines of different numbers are added to an empty program, in two orders. The program and its
DATA store keep them as they came; sorted, they are the same for both orders, and so are line
numbers and listing. A run ends in the same way and in the same state, its output included, and
comes to the same lines, each with the same place in the DATA and the same values read; only the
stores keep their order. -/
theorem entry_order_irrelevant (disk : Disk) (terminal : Terminal) (generator : Generator)
    (clock : Clock) {tss uss : List (List Token)} :
    let start := fresh (.fresh .empty disk terminal generator clock)
    (∀ ts ∈ tss, ∃ q, start.add ts = .ok q) → (tss.map lineNumber?).Nodup → uss.Perm tss →
    ∃ p q, start.addEach tss = .ok p ∧ start.addEach uss = .ok q ∧
      p.ledger = (tss.filterMap numbered?).map (fun s => (s.1, stored s.2)) ∧
      q.ledger = (uss.filterMap numbered?).map (fun s => (s.1, stored s.2)) ∧
      p.machine.data.ledger = (tss.filterMap numbered?).filter (fun s => saysData s.2) ∧
      q.machine.data.ledger = (uss.filterMap numbered?).filter (fun s => saysData s.2) ∧
      p.lines.Ascending ∧ p.lines.Perm p.ledger ∧
      p.machine.data.lines.Ascending ∧ p.machine.data.lines.Perm p.machine.data.ledger ∧
      q.lines = p.lines ∧ q.machine.data.lines = p.machine.data.lines ∧
      q.numbers = p.numbers ∧ q.listAll = p.listAll ∧
      ∀ n, (q.runWithin n).1 = (p.runWithin n).1 ∧
        (q.runWithin n).2.sorted = (p.runWithin n).2.sorted ∧
        (walk q.numbers n q.opening).1.map Visit.sorted =
          (walk p.numbers n p.opening).1.map Visit.sorted := by
  intro start haccepted hdistinct hperm
  have hentries : ∀ ts ∈ tss, (numbered? ts).isSome := by
    intro ts hts
    obtain ⟨q, hq⟩ := haccepted ts hts
    exact isSome_numbered? hq
  have hentries' : ∀ ts ∈ uss, (numbered? ts).isSome := fun ts hts =>
    hentries ts (hperm.mem_iff.mp hts)
  have hnodup : ((tss.filterMap numbered?).map (·.1)).Nodup := by
    rw [map_lineNumber? hentries] at hdistinct
    exact List.Pairwise.of_map some (fun _ _ hne heq => hne (congrArg some heq)) hdistinct
  have hperm' : (uss.filterMap numbered?).Perm (tss.filterMap numbered?) := hperm.filterMap _
  have hnodup' : ((uss.filterMap numbered?).map (·.1)).Nodup :=
    (hperm'.map _).nodup_iff.mpr hnodup
  have hsame := sorted_holding start hnodup hperm'
  have hresumed := resumed_of_sorted hsame.symm
  have hnumbers : (start.holding (uss.filterMap numbered?)).numbers =
      (start.holding (tss.filterMap numbered?)).numbers := congrArg Lines.numbers hresumed.lines
  refine ⟨start.holding (tss.filterMap numbered?), start.holding (uss.filterMap numbered?), ?_, ?_,
    rfl, rfl, rfl, rfl, ascending_lines _, Ledger.perm_sorted (nodup_stored hnodup),
    DataStore.ascending_lines _, Ledger.perm_sorted (nodup_saysData hnodup), hresumed.lines,
    hresumed.machine.lines.symm, hnumbers, listAll_eq hsame, fun n => ?_⟩
  · rw [addEach_eq hentries, foldl_store_distinct rfl rfl rfl hnodup]
  · rw [addEach_eq hentries', foldl_store_distinct rfl rfl rfl hnodup']
  · obtain ⟨hending, hstate⟩ := sorted_runWithin n hresumed
    refine ⟨hending, hstate, ?_⟩
    rw [hnumbers]
    exact sorted_walk n (resumed_opening hresumed)

/-- Two DATA lines and the lines that read them, entered from the last to the first. -/
theorem entry_order_irrelevant_backwards :
    let start := fresh .blank
    let tss := ["5 DATA 1", "30 READ A , B", "20 DATA 2", "40 PRINT A - B"].map tokensOf
    ∃ p q, start.addEach tss = .ok p ∧ start.addEach tss.reverse = .ok q ∧
      p.numbers = [5, 20, 30, 40] ∧ q.listAll = p.listAll ∧
      q.machine.data.ledger.map (·.1) = [20, 5] ∧
      (p.runWithin 9).2.machine.terminal.output = "-1\n" ∧
      (q.runWithin 9).2.sorted = (p.runWithin 9).2.sorted := by
  intro start tss
  have haccepted : ∀ ts ∈ tss, ∃ q, start.add ts = .ok q := by
    have hall : ∀ ts ∈ tss, (start.add ts).toOption.isSome := by decide +kernel
    intro ts hts
    have hsome := hall ts hts
    cases hadd : start.add ts with
    | ok q => exact ⟨q, rfl⟩
    | error f =>
        rw [hadd] at hsome
        cases hsome
  have hdistinct : (tss.map lineNumber?).Nodup := by decide +kernel
  have hseen : (start.addEach tss).toOption.map (fun p =>
      (p.numbers, (p.runWithin 9).2.machine.terminal.output)) = some ([5, 20, 30, 40], "-1\n") := by
    decide +kernel
  have hordered : (((tss.reverse.filterMap numbered?).filter fun s => saysData s.2).map (·.1)) =
      [20, 5] := by
    decide +kernel
  obtain ⟨p, q, hp, hq, -, -, -, hdata, -, -, -, -, -, -, -, hlist, hrun⟩ :=
    entry_order_irrelevant _ _ _ _ haccepted hdistinct tss.reverse_perm
  rw [show start.addEach tss = .ok p from hp] at hseen
  obtain ⟨hnumbers, houtput⟩ := Prod.mk.inj (Option.some.inj hseen)
  exact ⟨p, q, hp, hq, hnumbers, hlist, hdata ▸ hordered, houtput, (hrun 9).2.1⟩

end Program

end LineBasic

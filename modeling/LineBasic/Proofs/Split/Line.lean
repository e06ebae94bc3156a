import LineBasic.Proofs.Signals
import LineBasic.Proofs.Trail

namespace LineBasic

open Outcome

section Colons

theorem splitColons_ne_nil (tokens : List Token) : splitColons tokens ≠ [] := by
  cases tokens with
  | nil => exact List.cons_ne_nil _ _
  | cons t ts =>
      rw [splitColons]
      split
      · exact List.cons_ne_nil _ _
      · split <;> exact List.cons_ne_nil _ _

theorem splitColons_append {colon : Token} (h : colon.isMark .colon) (a b : List Token) :
    splitColons (a ++ colon :: b) = splitColons a ++ splitColons b := by
  induction a with
  | nil => simp [splitColons, h]
  | cons t ts ih =>
      rw [List.cons_append, splitColons, splitColons, ih]
      split
      · rfl
      · cases hs : splitColons ts with
        | nil => exact absurd hs (splitColons_ne_nil ts)
        | cons part parts => rfl

theorem mem_of_mem_splitColons {tokens part : List Token} {t : Token}
    (hpart : part ∈ splitColons tokens) (ht : t ∈ part) : t ∈ tokens := by
  induction tokens generalizing part with
  | nil =>
      cases List.mem_singleton.mp hpart
      cases ht
  | cons u us ih =>
      rw [splitColons] at hpart
      split at hpart
      · rcases List.mem_cons.mp hpart with rfl | hpart
        · cases ht
        · exact List.mem_cons_of_mem _ (ih hpart ht)
      · cases hs : splitColons us with
        | nil => exact absurd hs (splitColons_ne_nil us)
        | cons p ps =>
            rw [hs] at hpart ih
            rcases List.mem_cons.mp hpart with rfl | hpart
            · rcases List.mem_cons.mp ht with rfl | ht
              · exact List.mem_cons_self
              · exact List.mem_cons_of_mem _ (ih List.mem_cons_self ht)
            · exact List.mem_cons_of_mem _ (ih (List.mem_cons_of_mem _ hpart) ht)

end Colons

structure Cut where
  line : Int
  rest : Int
  size : Nat

namespace Cut

variable (c : Cut)

def sign (s : Sign) : Sign :=
  if s.line = c.line then
    if s.after < c.size then { s with line := c.rest } else { s with after := s.after - c.size }
  else s

variable {c}

theorem sign_inj {s t : Sign} (hs : s.line ≠ c.rest) (ht : t.line ≠ c.rest) :
    c.sign s = c.sign t ↔ s = t := by
  refine ⟨fun h => ?_, congrArg c.sign⟩
  obtain ⟨line, after, place⟩ := s
  obtain ⟨line', after', place'⟩ := t
  unfold sign at h
  grind

def Moves (c : Cut) (site site' : Site) : Prop :=
  ∃ l l', site.line = some l ∧ site'.line = some l' ∧ l ≠ c.rest ∧
    ∀ place, c.sign ⟨l, site.after, place⟩ = ⟨l', site'.after, place⟩

theorem moves_apart {site : Site} {l : Int} (h : site.line = some l) (hl : l ≠ c.line)
    (hl' : l ≠ c.rest) (after : Nat) :
    c.Moves { site with after := after } { site with after := after } :=
  ⟨l, l, h, h, hl', fun _ => if_neg hl⟩

theorem moves_first {site site' : Site} (h : site.line = some c.line)
    (h' : site'.line = some c.line) (hne : c.line ≠ c.rest) (after : Nat) :
    c.Moves { site with after := after + c.size } { site' with after := after } := by
  refine ⟨c.line, c.line, h, h', hne, fun place => ?_⟩
  have hafter : ¬ after + c.size < c.size := by omega
  simp [sign, hafter]

theorem moves_rest {site site' : Site} (h : site.line = some c.line)
    (h' : site'.line = some c.rest) (hne : c.line ≠ c.rest) {after : Nat}
    (hafter : after < c.size) :
    c.Moves { site with after := after } { site' with after := after } := by
  refine ⟨c.line, c.rest, h, h', hne, fun place => ?_⟩
  simp [sign, hafter]

/-- The same machine, but that signs are noted in their new places. The last signal is the same
where it matters, and nobody will press escape. -/
def Relates (c : Cut) (keep : Prop) (m n : Machine) : Prop :=
  ∃ signs flow, n = { m with compared := signs, lastFlow := flow } ∧ (keep → flow = m.lastFlow) ∧
    m.terminal.patience = none ∧ ∀ s : Sign, s.line ≠ c.rest → (s ∈ m.compared ↔ c.sign s ∈ signs)

section Relates

variable {keep : Prop} {m n : Machine}

theorem Relates.same {α : Type} (h : c.Relates keep m n) (look : Machine → α)
    (hlook : ∀ m signs flow, look { m with compared := signs, lastFlow := flow } = look m) :
    look m = look n := by
  obtain ⟨signs, flow, rfl, -⟩ := h
  exact (hlook m signs flow).symm

theorem Relates.map (h : c.Relates keep m n) {f : Machine → Machine}
    (hf : ∀ m signs flow, f { m with compared := signs, lastFlow := flow } =
      { f m with compared := signs, lastFlow := flow })
    (hkept : ∀ m, (f m).compared = m.compared ∧ (f m).lastFlow = m.lastFlow ∧
      (f m).terminal = m.terminal) : c.Relates keep (f m) (f n) := by
  obtain ⟨signs, flow, rfl, hflow, hpatient, hsigns⟩ := h
  obtain ⟨hcompared, hlast, hterminal⟩ := hkept m
  exact ⟨signs, flow, hf m signs flow, by rwa [hlast], by rwa [hterminal], by rwa [hcompared]⟩

theorem Relates.lastFlow (h : c.Relates True m n) : m.lastFlow = n.lastFlow := by
  obtain ⟨signs, flow, rfl, hflow, -⟩ := h
  exact (hflow trivial).symm

theorem Relates.withFlow (h : c.Relates keep m n) (flow : Option Flow) :
    c.Relates True (m.withFlow flow) (n.withFlow flow) := by
  obtain ⟨signs, _, rfl, -, hpatient, hsigns⟩ := h
  exact ⟨signs, flow, rfl, fun _ => rfl, hpatient, hsigns⟩

/-- Where no loop begins, the last signal does not matter. -/
theorem Relates.forget (h : c.Relates keep m n) (flow : Option Flow) :
    c.Relates False m (n.withFlow flow) := by
  obtain ⟨signs, _, rfl, -, hpatient, hsigns⟩ := h
  exact ⟨signs, flow, rfl, False.elim, hpatient, hsigns⟩

theorem Relates.patient (h : c.Relates keep m n) :
    m.terminal.patience = none ∧ n.terminal.patience = none := by
  obtain ⟨signs, flow, rfl, -, hpatient, -⟩ := h
  exact ⟨hpatient, hpatient⟩

end Relates

end Cut

theorem mem_foldr_insert {s : Sign} {new old : List Sign} :
    s ∈ new.foldr List.insert old ↔ s ∈ new ∨ s ∈ old := by
  induction new with
  | nil => simp
  | cons t new ih => rw [List.foldr_cons, List.mem_insert_iff, ih, List.mem_cons, or_assoc]

namespace Exec

variable {c : Cut} {keep : Prop} {left right : Site}

theorem keeps_cut_modify {f : Machine → Machine}
    (hf : ∀ m signs flow, f { m with compared := signs, lastFlow := flow } =
      { f m with compared := signs, lastFlow := flow })
    (hkept : ∀ m, (f m).compared = m.compared ∧ (f m).lastFlow = m.lastFlow ∧
      (f m).terminal = m.terminal) :
    Keeps ⟨left, right, Job.Beside (c.Relates keep)⟩ (modifyMachine f) :=
  fun _ _ h => .ok () ⟨h.1, h.2.map hf hkept⟩

theorem keeps_cut_assign (name : String) (v : Value) :
    Keeps ⟨left, right, Job.Beside (c.Relates keep)⟩ (assign name v) :=
  keeps_cut_modify (fun _ _ _ => rfl) fun _ => ⟨rfl, rfl, rfl⟩

theorem relates_evaluated (hsites : c.Moves left right) {m n : Machine} (h : c.Relates keep m n)
    (s : Scan) : c.Relates keep (m.evaluated left s) (n.evaluated right s) := by
  obtain ⟨l, l', hl, hl', hne, hplace⟩ := hsites
  obtain ⟨signs, flow, rfl, hflow, hpatient, hsigns⟩ := h
  refine ⟨_, flow, rfl, hflow, hpatient, fun t ht => ?_⟩
  have hnew : t ∈ left.signs s.compared ↔ c.sign t ∈ right.signs s.compared := by
    simp only [Site.signs, hl, hl', List.mem_map]
    refine exists_congr fun place => and_congr_right fun _ => ?_
    rw [← hplace, Cut.sign_inj (show _ ≠ c.rest from hne) ht]
  rw [Machine.evaluated, mem_foldr_insert, mem_foldr_insert, hnew, hsigns t ht]

theorem keeps_cut_evaluate (hsites : c.Moves left right) {α : Type} {e : Eval α} (he : e.Tame) :
    Keeps ⟨left, right, Job.Beside (c.Relates keep)⟩ (evaluate e) := by
  rintro ⟨cursor, m⟩ ⟨_, n⟩ ⟨rfl, h⟩
  have hsymbols : m.symbols = n.symbols := h.same Machine.symbols fun _ _ _ => rfl
  have hgenerator : m.generator = n.generator := h.same Machine.generator fun _ _ _ => rfl
  simp only [evaluate, ← hsymbols, ← hgenerator]
  obtain ⟨a, s, hok⟩ | ⟨f, s, herror⟩ := he.labelled m.symbols ⟨cursor, false, m.generator, []⟩
  · have hok (l : String) : e ⟨m.symbols, l⟩ ⟨cursor, false, m.generator, []⟩ = .ok a s := hok l
    rw [hok, hok]
    exact .ok a ⟨rfl, relates_evaluated hsites h s⟩
  · have herror (l : String) :
        e ⟨m.symbols, l⟩ ⟨cursor, false, m.generator, []⟩ = .error (f l) s ∧
          (f l).isAstray = false := herror l
    rw [(herror _).1, (herror _).1]
    exact .error f (fun l => (herror l).2) ⟨rfl, relates_evaluated hsites h s⟩

theorem keeps_cut_terminal {α : Type} {act : Terminal.Act α} (ha : Terminal.Steady act) :
    Keeps ⟨left, right, Job.Beside (c.Relates keep)⟩ (onTerminal act) := by
  rintro ⟨cursor, m⟩ ⟨_, _⟩ ⟨rfl, signs, flow, rfl, hflow, hpatient, hsigns⟩
  have hstill := ha.patient m.terminal hpatient
  simp only [onTerminal]
  cases hact : act m.terminal with
  | ok a t =>
      rw [hact] at hstill
      exact .ok a ⟨rfl, signs, flow, rfl, hflow, hstill, hsigns⟩
  | error f t =>
      rw [hact] at hstill
      exact .error (fun _ => f) (fun _ => ha.ordinary _ _ _ hact)
        ⟨rfl, signs, flow, rfl, hflow, hstill, hsigns⟩

theorem stable_cut (hsites : c.Moves left right) :
    Stable ⟨left, right, Job.Beside (c.Relates keep)⟩ fun _ => True where
  cursor h := h.1
  symbols h := h.2.same Machine.symbols fun _ _ _ => rfl
  channels h := h.2.same Machine.channels fun _ _ _ => rfl
  supply h := h.2.same (·.terminal.supply) fun _ _ _ => rfl
  advance _ _ h := .ok () ⟨congrArg Cursor.advance h.1, h.2⟩
  evaluate := keeps_cut_evaluate hsites
  terminal := keeps_cut_terminal
  assign _ := keeps_cut_assign _ _
  generator _ := keeps_cut_modify (fun _ _ _ => rfl) fun _ => ⟨rfl, rfl, rfl⟩
  clock _ := keeps_cut_modify (fun _ _ _ => rfl) fun _ => ⟨rfl, rfl, rfl⟩
  noFile h := absurd trivial h
  disk _ _ _ h := h.2.same Machine.disk fun _ _ _ => rfl
  files _ _ _ h channels disk := ⟨h.1, h.2.map
    (f := fun m => { m with channels := channels, disk := disk }) (fun _ _ _ => rfl)
    fun _ => ⟨rfl, rfl, rfl⟩⟩
  noGrid h := absurd trivial h
  compared := by
    rintro - j k ⟨-, signs, flow, hk, -, -, hsigns⟩ place
    obtain ⟨l, l', hl, hl', hne, hplace⟩ := hsites
    have hmem := hsigns ⟨l, left.after, place⟩ hne
    rw [hplace] at hmem
    rw [Bool.eq_iff_iff]
    simpa [Site.signs, hl, hl', hk] using hmem
  grid _ _ _ := keeps_cut_modify (fun _ _ _ => rfl) fun _ => ⟨rfl, rfl, rfl⟩
  lines _ _ _ h := h.2.same (·.data.lines) fun _ _ _ => rfl
  reading _ _ _ h := ⟨h.2.same (·.data.pointer) fun _ _ _ => rfl,
    h.2.same Machine.pending fun _ _ _ => rfl⟩
  pointer _ _ _ h pointer _ := ⟨h.1, h.2.map
    (f := fun m => { m with data := { m.data with pointer := pointer } }) (fun _ _ _ => rfl)
    fun _ => ⟨rfl, rfl, rfl⟩⟩
  pending _ _ := keeps_cut_modify (fun _ _ _ => rfl) fun _ => ⟨rfl, rfl, rfl⟩

end Exec

def Unstarted (k : Keyword) (tokens : List Token) : Prop :=
  ∀ part ∈ splitColons tokens, ∀ t ∈ part.head?, ¬ t.isKeyword k

theorem Unstarted.current {k : Keyword} {tokens part : List Token} (h : Unstarted k tokens)
    (hpart : part ∈ splitColons tokens) {c : Cursor} (hc : Cursor.start? part = some c) :
    ¬ c.current.isKeyword k := by
  cases part with
  | nil => cases hc
  | cons t ts =>
      cases hc
      exact h _ hpart t rfl

theorem not_isKeyword_of_colon {t : Token} (h : t.isMark .colon) (k : Keyword) :
    ¬ t.isKeyword k := by
  simp [Token.isKeyword, beq_iff_eq.mp h]

theorem Unstarted.head {k : Keyword} {tokens : List Token} (h : Unstarted k tokens) :
    ∀ t ∈ tokens.head?, ¬ t.isKeyword k := by
  cases tokens with
  | nil => exact nofun
  | cons t ts =>
      rintro _ ⟨⟩
      by_cases ht : t.isMark .colon
      · exact not_isKeyword_of_colon ht k
      · rw [Unstarted, splitColons, if_neg ht] at h
        split at h <;> exact h _ List.mem_cons_self t rfl

namespace Machine

variable {c : Cut} {m n m' : Machine} {site site' : Site}

theorem visit_eq (h : m.terminal.patience = none) (site : Site) (tokens : List Token) :
    visit site tokens m = runLine site tokens m := by
  have hpoll : poll m = .ok () m := by rw [poll, Terminal.escaped_eq h]
  rw [visit, bind_ok hpoll]

/-- Any line but the one that is cut. -/
theorem agree_apart {l : Int} (hsite : site.line = some l) (hl : l ≠ c.line) (hl' : l ≠ c.rest)
    (tokens : List Token) (h : c.Relates True m n) :
    Agree site.label site.label (c.Relates True) (runLine site tokens m)
      (runLine site tokens n) := by
  have hmoves := Cut.moves_apart hsite hl hl'
  refine agree_runLine (fun after => Exec.stable_cut (hmoves after))
    (fun after part _ cursor _ => ?_) h
  exact .of_assign (fun _ _ => trivial) (fun hjk => hjk.2.lastFlow) Exec.keeps_cut_assign

/-- Up to a place between two statements of a line, if the statements before it do the same in
another place. -/
theorem runParts_append {T : Machine → Machine → Prop} {xs ys : List (List Token)}
    {flow : Option Flow}
    (h : ∀ part after, part :: after <:+ xs → ∀ m n, T m n →
      Agree site.label site'.label T
        (runPart { site with after := after.length + ys.length } part m)
        (runPart { site' with after := after.length } part n)) (hmn : T m n)
    (hrun : runParts site (xs ++ ys) m = .ok flow m') :
    (∃ f n', flow = some f ∧ runParts site' xs n = .ok (some f) n' ∧ T m' n') ∨
      ∃ m₁ n₁, runParts site' xs n = .ok none n₁ ∧ T m₁ n₁ ∧ runParts site ys m₁ = .ok flow m' := by
  induction xs generalizing m n with
  | nil => exact .inr ⟨m, n, rfl, hmn, hrun⟩
  | cons part xs ih =>
      rw [List.cons_append, runParts] at hrun
      obtain ⟨o, m₁, hpart, hrest⟩ := of_bind_ok hrun
      have hagree := h part xs List.suffix_rfl m n hmn
      rw [← List.length_append, hpart] at hagree
      generalize hn : runPart { site' with after := xs.length } part n = r at hagree
      cases hagree with
      | ok _ hmn₁ =>
          rw [runParts]
          simp only [bind_ok hn]
          cases o with
          | some f =>
              cases hrest
              exact .inl ⟨f, _, rfl, rfl, hmn₁⟩
          | none =>
              exact ih (fun p ps hp => h p ps (hp.trans (List.suffix_cons part xs))) hmn₁ hrest

/-- A statement of the first half. -/
theorem agree_first (hsite : site.line = some c.line) (hsite' : site'.line = some c.line)
    (hne : c.line ≠ c.rest) (part : List Token) (after : Nat) (h : c.Relates True m n) :
    Agree site.label site'.label (c.Relates True)
      (runPart { site with after := after + c.size } part m)
      (runPart { site' with after := after } part n) :=
  agree_runPart (Exec.stable_cut (Cut.moves_first hsite hsite' hne after)) h (fun _ _ => ⟨rfl, h⟩)
    (fun _ _ hjk => hjk.2) fun _ _ =>
      .of_assign (fun _ _ => trivial) (fun hjk => hjk.2.lastFlow) Exec.keeps_cut_assign

/-- The statements of the second half. The signal of the first half is not the last signal any more,
which only FOR would ask for. -/
theorem agree_rest (hsite : site.line = some c.line) (hsite' : site'.line = some c.rest)
    (hne : c.line ≠ c.rest) {b : List Token} (hsize : c.size = (splitColons b).length)
    (hb : Unstarted .FOR b) (h : c.Relates False m n) :
    Agree site.label site'.label (c.Relates False) (runParts site (splitColons b) m)
      (runParts site' (splitColons b) n) := by
  refine agree_runParts (fun part after hp m n h => ?_) h
  have hafter : after.length < c.size := by
    have hlength := hp.length_le
    rw [List.length_cons] at hlength
    omega
  refine agree_runPart (Exec.stable_cut (Cut.moves_rest hsite hsite' hne hafter)) h
    (fun _ _ => ⟨rfl, h⟩) (fun _ _ hjk => hjk.2) fun cursor hcursor => ?_
  refine ⟨fun _ _ => trivial, fun hfor => ?_, fun _ _ _ => Exec.keeps_cut_assign _,
    fun _ _ _ _ _ => Exec.keeps_cut_assign _ _⟩
  exact absurd (beq_iff_eq.mpr hfor) (hb.current (hp.subset List.mem_cons_self) hcursor)

/-- The line that is cut does what its two halves do one after the other, each in its place. -/
theorem runLine_cut {a b : List Token} {colon : Token} {flow : Option Flow} {site'' : Site}
    (hcolon : colon.isMark .colon) (hsize : c.size = (splitColons b).length)
    (hne : c.line ≠ c.rest) (hb : Unstarted .FOR b) (hsite : site.line = some c.line)
    (hsite' : site'.line = some c.line) (hsite'' : site''.line = some c.rest)
    (h : c.Relates True m n) (hrun : runLine site (a ++ colon :: b) m = .ok flow m') :
    (∃ f n', flow = some f ∧ runLine site' a n = .ok (some f) n' ∧ c.Relates True m' n') ∨
      ∃ n₁ n', runLine site' a n = .ok none n₁ ∧ n₁.terminal.patience = none ∧
        runLine site'' b (n₁.withFlow none) = .ok flow n' ∧ c.Relates False m' n' := by
  rw [runLine, splitColons_append hcolon] at hrun
  have hfirst (part : List Token) (after : List (List Token)) (_ : part :: after <:+ splitColons a)
      (m n : Machine) (h : c.Relates True m n) : Agree site.label site'.label (c.Relates True)
        (runPart { site with after := after.length + (splitColons b).length } part m)
        (runPart { site' with after := after.length } part n) :=
    hsize ▸ agree_first hsite hsite' hne part after.length h
  obtain hsignal | ⟨m₁, n₁, hn₁, h₁, hm'⟩ := runParts_append hfirst h hrun
  · exact .inl hsignal
  · have hagree := agree_rest hsite hsite'' hne hsize hb (h₁.forget none)
    rw [hm'] at hagree
    generalize hn' : runParts site'' (splitColons b) (n₁.withFlow none) = r at hagree
    cases hagree with
    | ok _ h' => exact .inr ⟨n₁, _, hn₁, h₁.patient.2, hn', h'⟩

end Machine

end LineBasic

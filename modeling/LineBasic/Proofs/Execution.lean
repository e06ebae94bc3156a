import LineBasic.Proofs.Evaluation
import LineBasic.Proofs.Lines

namespace LineBasic

inductive Outcome.Agree {σ α : Type} (l l' : String) (R : σ → σ → Prop) :
    EStateM.Result Fault σ α → EStateM.Result Fault σ α → Prop
  | ok (a : α) {s t : σ} (h : R s t) : Agree l l' R (.ok a s) (.ok a t)
  | error (f : String → Fault) (hf : ∀ l, (f l).isAstray = false) {s t : σ} (h : R s t) :
      Agree l l' R (.error (f l) s) (.error (f l') t)

open Outcome

/-- The second step is looked at only after the results that the first one can have. -/
theorem Outcome.Agree.bind {σ α β : Type} {l l' : String} {R : σ → σ → Prop}
    {x y : EStateM Fault σ α} {f g : α → EStateM Fault σ β} {s t : σ}
    (h : Agree l l' R (x s) (y t))
    (hf : ∀ a s' t', x s = .ok a s' → R s' t' → Agree l l' R (f a s') (g a t')) :
    Agree l l' R ((x >>= f) s) ((y >>= g) t) := by
  generalize hx : x s = r, hy : y t = r' at h
  cases h with
  | ok a hst =>
      rw [bind_ok hx, bind_ok hy]
      exact hf a _ _ hx hst
  | error e he hst =>
      rw [bind_error hx, bind_error hy]
      exact .error e he hst

/-- What a statement may need that some relations do not survive: open files, arrays, the values of
the DATA lines, and the clock. -/
inductive Feature
  | files | grids | data | clock
  deriving DecidableEq

def Cursor.needs? (c : Cursor) : Option Feature :=
  match c.current.category with
  | some (.keyword .OPEN) => some .files
  | some (.keyword .DIM) => some .grids
  | some (.keyword .READ) | some (.keyword .RESTORE) => some .data
  | some (.keyword .RANDOMIZE) => if c.advance.atEnd then some .clock else none
  | _ => none

def needs? (part : List Token) : Option Feature := (Cursor.start? part).bind Cursor.needs?

namespace Exec

variable {α β : Type}

structure Pairing where
  left : Site
  right : Site
  R : Job → Job → Prop

def Keeps (B : Pairing) (x : Exec α) : Prop :=
  ∀ j k, B.R j k → Agree B.left.label B.right.label B.R (x B.left j) (x B.right k)

/-- A relation that the steps of a statement keep as long as they store nothing, and as far as they
need no other features than the allowed ones. Where files are not allowed none is open, and so with
arrays. -/
structure Passive (B : Pairing) (allows : Feature → Prop) : Prop where
  cursor : ∀ {j k}, B.R j k → j.cursor = k.cursor
  symbols : ∀ {j k}, B.R j k → j.machine.symbols = k.machine.symbols
  channels : ∀ {j k}, B.R j k → j.machine.channels = k.machine.channels
  supply : ∀ {j k}, B.R j k → j.machine.terminal.supply = k.machine.terminal.supply
  advance : Keeps B advance
  evaluate : ∀ {α : Type} {e : Eval α}, e.Tame → Keeps B (evaluate e)
  terminal : ∀ {α : Type} {act : Terminal.Act α}, Terminal.Steady act → Keeps B (onTerminal act)
  generator : ∀ g, Keeps B (modifyMachine fun m => { m with generator := g })
  clock : allows .clock → Keeps B (modifyMachine fun m =>
    { m with generator := Generator.seed m.clock.now, clock := m.clock.later })
  noFile : ¬ allows .files → ∀ {j k}, B.R j k → j.machine.channels = []
  disk : allows .files → ∀ {j k}, B.R j k → j.machine.disk = k.machine.disk
  files : allows .files → ∀ {j k}, B.R j k → ∀ channels disk,
    B.R { j with machine := { j.machine with channels := channels, disk := disk } }
      { k with machine := { k.machine with channels := channels, disk := disk } }
  noGrid : ¬ allows .grids → ∀ {j k}, B.R j k → ∀ key g,
    j.machine.symbols.get? key ≠ some (.grid g)
  compared : allows .grids → ∀ {j k}, B.R j k → ∀ place,
    (B.left.signs [place]).any j.machine.compared.contains =
      (B.right.signs [place]).any k.machine.compared.contains
  lines : allows .data → ∀ {j k}, B.R j k → j.machine.data.lines = k.machine.data.lines
  reading : allows .data → ∀ {j k}, B.R j k →
    j.machine.data.pointer = k.machine.data.pointer ∧ j.machine.pending = k.machine.pending
  pointer : allows .data → ∀ {j k}, B.R j k → ∀ pointer, j.machine.data.Points pointer →
    B.R { j with machine := { j.machine with data := { j.machine.data with pointer := pointer } } }
      { k with machine := { k.machine with data := { k.machine.data with pointer := pointer } } }
  pending : allows .data → ∀ vs, Keeps B (modifyMachine fun m => { m with pending := vs })

/-- A relation that the steps of a statement keep, also where they give a variable what its name
says. -/
structure Stable (B : Pairing) (allows : Feature → Prop) : Prop extends Passive B allows where
  assign : ∀ {name : String} {v : Value}, v.isText = Symbols.isTextName name →
    Keeps B (assign name v)
  grid : allows .grids → ∀ key g,
    Keeps B (modifyMachine fun m => { m with symbols := m.symbols.insertGrid key g })

section Steps

variable {B : Pairing}

theorem keeps_pure (a : α) : Keeps B (pure a : Exec α) := fun _ _ h => .ok a h

theorem keeps_throw {f : Fault} (hf : f.isAstray = false) : Keeps B (throw f : Exec α) :=
  fun _ _ h => .error (fun _ => f) (fun _ => hf) h

theorem Keeps.ok {x : Exec α} (hx : Keeps B x) {j k j' : Job} {a : α} (h : B.R j k)
    (hj : x B.left j = .ok a j') : ∃ k', x B.right k = .ok a k' ∧ B.R j' k' := by
  have hxjk := hx j k h
  rw [hj] at hxjk
  generalize x B.right k = r at hxjk
  cases hxjk with
  | ok _ h' => exact ⟨_, rfl, h'⟩

theorem Keeps.agree_bind {x : Exec α} {f : α → Exec β} (hx : Keeps B x) {j k : Job} (h : B.R j k)
    (hf : ∀ a j' k', x B.left j = .ok a j' → B.R j' k' →
      Agree B.left.label B.right.label B.R (f a B.left j') (f a B.right k')) :
    Agree B.left.label B.right.label B.R ((x >>= f) B.left j) ((x >>= f) B.right k) :=
  (hx j k h).bind hf

theorem Keeps.bind_of_ok {x : Exec α} {f : α → Exec β} (hx : Keeps B x)
    (hf : ∀ j k a j', B.R j k → x B.left j = .ok a j' → Keeps B (f a)) : Keeps B (x >>= f) :=
  fun j k h => hx.agree_bind h fun a j' k' hj h' => hf j k a j' h hj j' k' h'

theorem Keeps.bind {x : Exec α} {f : α → Exec β} (hx : Keeps B x) (hf : ∀ a, Keeps B (f a)) :
    Keeps B (x >>= f) :=
  hx.bind_of_ok fun _ _ a _ _ _ => hf a

theorem keeps_ite {c : Prop} [Decidable c] {x y : Exec α} (hx : Keeps B x) (hy : Keeps B y) :
    Keeps B (if c then x else y) := by
  split
  · exact hx
  · exact hy

theorem keeps_ofExcept {r : Except Fault α} (h : Ordinary r) : Keeps B (ofExcept r) := by
  cases r with
  | ok a => exact keeps_pure a
  | error f => exact keeps_throw (h f rfl)

theorem of_ofExcept {r : Except Fault α} {site : Site} {j j' : Job} {a : α}
    (h : ofExcept r site j = .ok a j') : r = .ok a := by
  cases r <;> cases h
  rfl

theorem of_expect {c : Category} {site : Site} {j j' : Job} (h : expect c site j = .ok () j') :
    j.cursor.current.category = some c := by
  unfold expect at h
  rw [current_bind] at h
  split at h
  · assumption
  · cases h

/-- The label of the line may show in a fault and nowhere else. -/
theorem keeps_labelled {r : String → Except Fault α} (h : Labelled r) :
    Keeps B (line >>= fun l => ofExcept (r l)) := by
  obtain ⟨a, ha⟩ | ⟨f, hf⟩ := h
  · simp only [ha]
    exact fun _ _ hjk => .ok a hjk
  · simp only [fun l => (hf l).1]
    exact fun _ _ hjk => .error f (fun l => (hf l).2) hjk

theorem keeps_line {f : String → Exec α} {g : α → Exec β} (hf : Keeps B (line >>= f))
    (hg : ∀ a, Keeps B (g a)) : Keeps B (line >>= fun l => f l >>= g) := hf.bind hg

theorem keeps_fault {f : String → Fault} (h : ∀ line, (f line).isAstray = false) :
    Keeps B (line >>= fun line => throw (f line) : Exec α) :=
  fun _ _ hjk => .error f h hjk

theorem keeps_guard {c : Prop} [Decidable c] {f : String → Fault}
    (h : ∀ line, (f line).isAstray = false) {x : Exec α} (hx : ¬ c → Keeps B x) :
    Keeps B (if c then line >>= fun l => throw (f l) >>= fun _ : Unit => x else x) := by
  split
  · exact fun _ _ hjk => .error f h hjk
  · exact hx ‹_›

theorem keeps_modify {f : Machine → Machine}
    (h : ∀ j k, B.R j k → B.R { j with machine := f j.machine } { k with machine := f k.machine }) :
    Keeps B (modifyMachine f) :=
  fun j k hjk => .ok () (h j k hjk)

theorem keeps_machine {f : Machine → Exec α}
    (hf : ∀ j k, B.R j k → f j.machine = f k.machine ∧ Keeps B (f j.machine)) :
    Keeps B (machine >>= f) := by
  intro j k hjk
  obtain ⟨heq, hkeeps⟩ := hf j k hjk
  show Agree _ _ B.R (f j.machine B.left j) (f k.machine B.right k)
  rw [← heq]
  exact hkeeps j k hjk

theorem keeps_checkKind (name : String) (v : Value) {text number : String → Fault}
    (ht : ∀ line, (text line).isAstray = false) (hn : ∀ line, (number line).isAstray = false) :
    Keeps B (checkKind name v text number) := by
  unfold checkKind
  dsimp only
  exact keeps_guard ht fun _ => keeps_ite (keeps_fault hn) (keeps_pure ())

theorem of_checkKind {site : Site} {name : String} {v : Value} {text number : String → Fault}
    {j j' : Job} (h : checkKind name v text number site j = .ok () j') :
    v.isText = Symbols.isTextName name := by
  unfold checkKind at h
  cases hname : Symbols.isTextName name <;> cases hv : v.isText <;> rw [hname, hv] at h
  all_goals first | rfl | cases h

/-- What is stored is of the kind that the name says. -/
theorem keeps_checked {name : String} {v : Value} {text number : String → Fault} {x : Exec α}
    (ht : ∀ line, (text line).isAstray = false) (hn : ∀ line, (number line).isAstray = false)
    (hx : v.isText = Symbols.isTextName name → Keeps B x) :
    Keeps B (checkKind name v text number >>= fun _ => x) :=
  (keeps_checkKind name v ht hn).bind_of_ok fun _ _ _ _ _ h => hx (of_checkKind h)

end Steps

theorem labelled_asDatum (name : String) (v : Value) : Labelled fun l => asDatum name l v := by
  unfold asDatum
  refine .ite ?_ ?_
  · cases v with
    | int n => exact .throw fun _ => rfl
    | _ => exact .pure _
  · cases v with
    | text s =>
        dsimp only
        cases Decimal.readReal? s.toList with
        | some x => exact .pure _
        | none => exact .throw fun _ => rfl
    | _ => exact ((Value.ordinary_toReal _).bind fun _ => .pure _).labelled

theorem ordinary_selected (number : Value) (targets : List Value) :
    Ordinary (selected number targets) := by
  refine (Value.ordinary_relate _ number _).bind fun below => ?_
  dsimp only
  split
  · refine (Ordinary.pure _).bind fun above => .ite (.pure _) ?_
    split
    · exact .pure _
    · exact .throw rfl
  · refine (Value.ordinary_relate _ number _).bind fun above => .ite (.pure _) ?_
    split
    · exact .pure _
    · exact .throw rfl

theorem isText_wholeOrReal (x : Float) : (Function.wholeOrReal x).isText = false := by
  rw [Function.wholeOrReal]
  split
  · split <;> rfl
  · rfl

theorem isText_asDatum {name l : String} {w v : Value} (hname : Symbols.isTextName name = false)
    (h : asDatum name l w = .ok v) : v.isText = false := by
  unfold asDatum at h
  rw [hname, if_neg Bool.false_ne_true] at h
  split at h
  · split at h <;> cases h
    exact isText_wholeOrReal _
  · cases hx : w.toReal <;> rw [hx] at h <;> cases h
    exact isText_wholeOrReal _

theorem asDatum_ne_int {name l : String} {w v : Value} (hname : Symbols.isTextName name)
    (h : asDatum name l w = .ok v) (n : Int) : v ≠ .int n := by
  rintro rfl
  unfold asDatum at h
  rw [if_pos hname] at h
  cases w <;> cases h

theorem isText_fieldNumber? {field : List Char} {v : Value} (h : fieldNumber? field = some v) :
    v.isText = false := by
  unfold fieldNumber? at h
  split at h
  all_goals
    obtain ⟨_, -, rfl⟩ := Option.map_eq_some_iff.mp h
    rfl

/-- The names of a list are those of tokens further on in the statement. -/
theorem exists_pass_of_moreNames {site : Site} {n : Nat} {j j' : Job} {names : List String}
    (h : moreNames n site j = .ok names j') :
    ∀ name ∈ names, ∃ i, name = (j.cursor.pass i).current.lexeme := by
  induction n generalizing j names with
  | zero =>
      cases h
      exact fun _ hname => nomatch hname
  | succ n ih =>
      obtain ⟨comma, j₁, hcomma, h⟩ := of_bind_ok h
      cases hcomma
      split at h
      · rw [advance_bind, atEnd_bind] at h
        split at h
        · cases h
        · obtain ⟨name, _, hname, h⟩ := of_bind_ok h
          cases hname
          rw [advance_bind] at h
          obtain ⟨names, _, hnames, h⟩ := of_bind_ok h
          cases h
          rw [List.forall_mem_cons]
          refine ⟨⟨1, rfl⟩, fun name hname => ?_⟩
          obtain ⟨i, rfl⟩ := ih hnames name hname
          exact ⟨i + 2, rfl⟩
      · cases h
        exact fun _ hname => nomatch hname

theorem exists_pass_of_nameList {site : Site} {j j' : Job} {names : List String}
    (h : nameList site j = .ok names j') :
    ∀ name ∈ names, ∃ i, name = (j.cursor.pass i).current.lexeme := by
  unfold nameList at h
  rw [lexeme_bind, advance_bind] at h
  obtain ⟨n, j₁, hn, h⟩ := of_bind_ok h
  cases hn
  obtain ⟨names, j₂, hnames, h⟩ := of_bind_ok h
  cases h
  rw [List.forall_mem_cons]
  refine ⟨⟨0, rfl⟩, fun name hname => ?_⟩
  obtain ⟨i, rfl⟩ := exists_pass_of_moreNames hnames name hname
  exact ⟨i + 1, rfl⟩

def storeValue (name : String) : Exec Unit := do
  let v ← value
  checkKind name v .textNeeded .numberNeeded
  assign name v

def loopTurn (name : String) : Exec Flow := do
  let first ← arithmetic
  expectKeyword .TO
  let last ← arithmetic
  let (step, up) ← loopStep
  let v ← if (← machine).lastFlow = some .loopRepeat then stepped name step else pure first
  assign name v
  let past ← ofExcept (v.relate (if up then .greater else .less) last)
  pure (if past then .loopSkip (.text name) else .loopBegin)

def inputLead : Exec Value := do
  advance
  let source ← inputSource
  inputPrompt source

def KeepsAt (B : Pairing) (j k : Job) (x : Exec α) : Prop :=
  Agree B.left.label B.right.label B.R (x B.left j) (x B.right k)

structure Stores (B : Pairing) (j k : Job) : Prop where
  loop : j.cursor.current.category = some (.keyword .FOR) → KeepsAt B j k loopHead
  plain : j.cursor.current.category = some .name → KeepsAt B j k assignment
  spelled : j.cursor.current.category = some (.keyword .LET) →
    KeepsAt B j k (advance >>= fun _ => assignment)
  input : j.cursor.current.category = some (.keyword .INPUT) → KeepsAt B j k input
  array : j.cursor.current.category = some (.keyword .DIM) → KeepsAt B j k dimensions
  read : j.cursor.current.category = some (.keyword .READ) → KeepsAt B j k readData

/-- What a statement asks for besides, by its first token: the features that it needs, and where it
stores values of any kind, that the relation survives this. -/
structure Meets (B : Pairing) (allows : Feature → Prop) (c : Cursor) : Prop where
  needs : ∀ f, c.needs? = some f → allows f
  flow : c.current.category = some (.keyword .FOR) → ∀ {j k}, B.R j k →
    j.machine.lastFlow = k.machine.lastFlow
  loop : c.current.category = some (.keyword .FOR) →
    c.advance.advance.current.category = some (.mark .equals) →
    Symbols.isTextName c.advance.current.lexeme = false → ∀ v,
      Keeps B (assign c.advance.current.lexeme v)
  read : c.current.category = some (.keyword .READ) → ∀ i,
    Symbols.isTextName (c.pass i).current.lexeme → ∀ v, (∀ n, v ≠ .int n) →
      Keeps B (assign (c.pass i).current.lexeme v)

theorem Meets.of_assign {B : Pairing} {allows : Feature → Prop} {c : Cursor}
    (hneeds : ∀ f, c.needs? = some f → allows f)
    (hflow : ∀ {j k}, B.R j k → j.machine.lastFlow = k.machine.lastFlow)
    (hassign : ∀ name v, Keeps B (assign name v)) : Meets B allows c :=
  ⟨hneeds, fun _ => hflow, fun _ _ _ => hassign _, fun _ _ _ _ _ => hassign _ _⟩

namespace Passive

variable {B : Pairing} {allows : Feature → Prop} (h : Passive B allows)
include h

theorem keeps_look (g : Cursor → α) : Keeps B (fun _ j => .ok (g j.cursor) j) := by
  intro j k hjk
  dsimp only
  rw [h.cursor hjk]
  exact .ok _ hjk

theorem keeps_current : Keeps B current := h.keeps_look Cursor.current

theorem keeps_lexeme : Keeps B lexeme := h.keeps_look fun c => c.current.lexeme

theorem keeps_atEnd : Keeps B atEnd := h.keeps_look Cursor.atEnd

theorem keeps_remaining : Keeps B remaining := h.keeps_look fun c => c.rest.length

theorem keeps_isKeyword (k : Keyword) : Keeps B (isKeyword k) :=
  h.keeps_look fun c => c.current.isKeyword k

theorem keeps_isMark (m : Mark) : Keeps B (isMark m) := h.keeps_look fun c => c.current.isMark m

theorem keeps_expect (c : Category) : Keeps B (expect c) :=
  h.keeps_current.bind fun _ => keeps_ite h.advance (keeps_fault fun _ => rfl)

theorem keeps_skipKeyword (k : Keyword) : Keeps B (skipKeyword k) :=
  (h.keeps_isKeyword k).bind fun _ => keeps_ite h.advance (keeps_pure ())

theorem keeps_value : Keeps B value := h.evaluate Eval.tame_value

theorem keeps_arithmetic : Keeps B arithmetic := h.evaluate Eval.tame_arithmeticValue

theorem keeps_indices : Keeps B (Exec.evaluate (Eval.indexList Eval.arithmeticValue)) :=
  h.evaluate Eval.tame_arithmeticValue.indexList

theorem keeps_moreNames (n : Nat) : Keeps B (moreNames n) := by
  induction n with
  | zero => exact keeps_pure []
  | succ n ih =>
      refine (h.keeps_isMark _).bind fun _ => keeps_ite ?_ (keeps_pure [])
      have hname : Keeps B (lexeme >>= fun name => Exec.advance >>= fun _ =>
          moreNames n >>= fun names => pure (name :: names)) :=
        h.keeps_lexeme.bind fun _ => h.advance.bind fun _ => ih.bind fun _ => keeps_pure _
      refine h.advance.bind fun _ => h.keeps_atEnd.bind fun _ => keeps_ite ?_ hname
      exact (keeps_throw rfl).bind fun _ => hname

theorem keeps_nameList : Keeps B nameList :=
  h.keeps_lexeme.bind fun _ => h.advance.bind fun _ => h.keeps_remaining.bind fun _ =>
    (h.keeps_moreNames _).bind fun _ => keeps_pure _

section Files

theorem keeps_onChannel (hfiles : allows .files) (number : Value) (c : Channel)
    {act : EStateM Fault (Channel × Disk) α} (ha : OrdinaryStep act) :
    Keeps B (onChannel number c act) := by
  intro j k hjk
  simp only [onChannel, ← h.disk hfiles hjk, ← h.channels hjk]
  cases hact : act (c, j.machine.disk) with
  | ok a s => exact .ok a (h.files hfiles hjk _ _)
  | error f s => exact .error (fun _ => f) (fun _ => ha _ _ _ hact) (h.files hfiles hjk _ _)

theorem keeps_openChannel (verb : String) : Keeps B (openChannel verb) := by
  refine (h.keeps_expect _).bind fun _ => h.keeps_arithmetic.bind fun number => ?_
  refine keeps_machine fun j k hjk => ⟨by rw [h.channels hjk], ?_⟩
  split
  · exact keeps_pure _
  · exact (keeps_ofExcept (Value.ordinary_written number)).bind fun _ => keeps_fault fun _ => rfl

/-- A channel is open only where files are allowed. -/
theorem allows_of_get? {j k : Job} {number : Value} {c : Channel} (hjk : B.R j k)
    (hc : j.machine.channels.get? number = some c) : allows .files := by
  refine Classical.byContradiction fun hfiles => ?_
  rw [h.noFile hfiles hjk] at hc
  cases hc

theorem keeps_afterChannel (verb : String) {f : Value × Channel → Exec α}
    (hf : allows .files → ∀ c, Keeps B (f c)) : Keeps B (openChannel verb >>= f) := by
  refine (h.keeps_openChannel verb).bind_of_ok fun j k c j' hjk hj => hf ?_ c
  obtain ⟨_, j₁, hhash, hj⟩ := of_bind_ok hj
  obtain ⟨k₁, -, hjk₁⟩ := (h.keeps_expect _).ok hjk hhash
  obtain ⟨number, j₂, harith, hj⟩ := of_bind_ok hj
  obtain ⟨k₂, -, hjk₂⟩ := h.keeps_arithmetic.ok hjk₁ harith
  obtain ⟨m, j₃, hm, hj⟩ := of_bind_ok hj
  cases hm
  cases hc : j₂.machine.channels.get? number with
  | some c => exact h.allows_of_get? hjk₂ hc
  | none =>
      rw [hc] at hj
      obtain ⟨_, _, -, hj⟩ := of_bind_ok hj
      cases hj

theorem keeps_put (sink : Sink) (s : String) : Keeps B (put sink s) := by
  cases sink with
  | none => exact h.terminal (Terminal.steady_write s)
  | some number =>
      refine keeps_machine fun j k hjk => ⟨by rw [h.channels hjk], ?_⟩
      split
      · exact keeps_pure ()
      · exact h.keeps_onChannel (h.allows_of_get? hjk ‹_›) _ _ (Channel.ordinary_write s)

theorem keeps_putLine (sink : Sink) : Keeps B (putLine sink) := by
  cases sink with
  | none => exact h.terminal Terminal.steady_enter
  | some number => exact h.keeps_put (some number) "\n"

theorem keeps_printMore (sink : Sink) (n : Nat) : Keeps B (printMore sink n) := by
  induction n with
  | zero => exact keeps_pure ()
  | succ n ih =>
      refine (h.keeps_isMark _).bind fun _ => keeps_ite ?_ (h.keeps_putLine sink)
      refine h.keeps_remaining.bind fun _ => keeps_ite (keeps_pure ()) ?_
      refine h.advance.bind fun _ => h.keeps_value.bind fun v => ?_
      refine (keeps_ofExcept (Value.ordinary_written v)).bind fun s => ?_
      exact (h.keeps_put sink s).bind fun _ => ih

theorem keeps_printSink : Keeps B printSink := by
  refine (h.keeps_isMark _).bind fun _ => keeps_ite ?_ (keeps_pure none)
  refine (h.keeps_openChannel _).bind fun c => h.keeps_atEnd.bind fun _ => ?_
  exact keeps_ite ((h.keeps_expect _).bind fun _ => keeps_pure _) (keeps_pure _)

theorem keeps_print : Keeps B print := by
  refine h.advance.bind fun _ => h.keeps_printSink.bind fun sink => h.keeps_atEnd.bind fun _ => ?_
  refine keeps_ite (h.keeps_putLine sink) (h.keeps_value.bind fun v => ?_)
  refine (keeps_ofExcept (Value.ordinary_written v)).bind fun s => ?_
  exact (h.keeps_put sink s).bind fun _ => h.keeps_remaining.bind fun _ => h.keeps_printMore sink _

theorem keeps_moveCursor : Keeps B moveCursor := by
  refine h.advance.bind fun _ => h.keeps_remaining.bind fun _ => ?_
  dsimp only
  refine keeps_guard (fun _ => rfl) fun _ => h.keeps_value.bind fun x => ?_
  refine (h.keeps_expect _).bind fun _ => ?_
  exact h.keeps_value.bind fun y => h.terminal (Terminal.steady_cursor _ _)

theorem keeps_access : Keeps B access := by
  refine h.keeps_current.bind fun t => ?_
  split
  · exact keeps_pure _
  · exact keeps_pure _
  · exact keeps_pure _
  · exact keeps_fault fun _ => rfl

theorem keeps_elseTarget : Keeps B elseTarget := by
  refine (h.keeps_isKeyword _).bind fun _ => keeps_ite ?_ (keeps_pure none)
  refine h.advance.bind fun _ => (h.keeps_skipKeyword _).bind fun _ => ?_
  exact h.keeps_arithmetic.bind fun v => keeps_pure (some v)

theorem keeps_tryOpen (hfiles : allows .files) (path : Value) (mode : Access) :
    Keeps B (tryOpen path mode) := by
  unfold tryOpen
  split
  · exact keeps_machine fun j k hjk => ⟨by rw [h.disk hfiles hjk], keeps_pure _⟩
  · exact keeps_pure none

theorem keeps_openFile (hfiles : allows .files) : Keeps B openFile := by
  refine h.advance.bind fun _ => h.keeps_value.bind fun path => (h.keeps_expect _).bind fun _ => ?_
  refine h.keeps_access.bind fun mode => h.advance.bind fun _ => h.keeps_lexeme.bind fun s => ?_
  dsimp only
  refine keeps_guard (fun _ => rfl) fun _ => h.advance.bind fun _ => ?_
  refine (h.keeps_expect _).bind fun _ => ?_
  refine h.keeps_arithmetic.bind fun number => h.keeps_elseTarget.bind fun target => ?_
  refine keeps_machine fun j k hjk => ⟨by rw [h.channels hjk], keeps_ite ?_ ?_⟩
  · cases target with
    | some v => exact keeps_pure _
    | none =>
        exact (keeps_ofExcept (Value.ordinary_quoted number)).bind fun _ => keeps_fault fun _ => rfl
  · refine (h.keeps_tryOpen hfiles path mode).bind fun opened => ?_
    split
    · exact keeps_pure _
    · cases path with
      | text s => exact keeps_fault fun _ => rfl
      | _ => exact keeps_throw rfl
    · refine Keeps.bind (keeps_modify fun j k hjk => ?_) fun _ => ?_
      · rw [← h.channels hjk]
        exact h.files hfiles hjk _ _
      · have hend (c : Channel) := h.keeps_onChannel hfiles number c Channel.ordinary_seekEnd
        exact keeps_ite ((hend _).bind fun _ => keeps_pure none) (keeps_pure none)

theorem keeps_closeFile : Keeps B closeFile := by
  refine h.advance.bind fun _ => h.keeps_afterChannel _ fun hfiles c => ?_
  refine keeps_modify fun j k hjk => ?_
  rw [← h.disk hfiles hjk, ← h.channels hjk]
  exact h.files hfiles hjk _ _

theorem keeps_seekFile : Keeps B seekFile := by
  refine h.advance.bind fun _ => h.keeps_afterChannel _ fun hfiles c => ?_
  refine (h.keeps_expect _).bind fun _ => h.keeps_arithmetic.bind fun v => ?_
  exact h.keeps_onChannel hfiles _ _ (Channel.ordinary_seek v)

theorem keeps_stop : Keeps B stop := by
  refine h.advance.bind fun _ => Keeps.bind (keeps_modify fun j k hjk => ?_) fun _ => keeps_pure _
  by_cases hfiles : allows .files
  · rw [← h.disk hfiles hjk, ← h.channels hjk]
    exact h.files hfiles hjk _ _
  · have hclosed {m : Machine} (hm : m.channels = []) :
        { m with channels := [], disk := m.channels.flushAll m.disk } = m := by
      obtain ⟨symbols, pending, data, channels, rest⟩ := m
      cases hm
      rfl
    have hj := h.noFile hfiles hjk
    rw [hclosed hj, hclosed ((h.channels hjk).symm.trans hj)]
    exact hjk

end Files

section Input

variable {names : List String}

theorem keeps_takeFields
    (hassign : ∀ name ∈ names, ∀ v, v.isText = Symbols.isTextName name → Keeps B (assign name v))
    (fields : List (List Char)) : Keeps B (takeFields names fields) := by
  have hsay (s : String) : Keeps B (onTerminal (Terminal.print s) >>= fun _ => pure false) :=
    (h.terminal (Terminal.steady_print s)).bind fun _ => keeps_pure false
  induction names generalizing fields with
  | nil => exact keeps_pure true
  | cons name names ih =>
      rw [List.forall_mem_cons] at hassign
      cases fields with
      | nil => exact hsay _
      | cons field fields =>
          rw [takeFields]
          split
          · rename_i hname
            exact (hassign.1 (.text _) hname.symm).bind fun _ => ih hassign.2 fields
          · rename_i hname
            split
            · rename_i v hv
              have hkind : v.isText = Symbols.isTextName name :=
                (isText_fieldNumber? hv).trans (Bool.eq_false_iff.mpr hname).symm
              exact (hassign.1 v hkind).bind fun _ => ih hassign.2 fields
            · exact hsay _

theorem keeps_inputLines (prompt : String)
    (hassign : ∀ name ∈ names, ∀ v, v.isText = Symbols.isTextName name → Keeps B (assign name v))
    (n : Nat) : Keeps B (inputLines prompt names n) := by
  induction n with
  | zero => exact keeps_pure ()
  | succ n ih =>
      refine (h.terminal (Terminal.steady_write prompt)).bind fun _ => ?_
      refine (h.terminal Terminal.steady_input).bind fun s => ?_
      exact (h.keeps_takeFields hassign _).bind fun _ => keeps_ite (keeps_pure ()) ih

theorem keeps_inputFile (number : Value)
    (hassign : ∀ name ∈ names, ∀ v, v.isText = Symbols.isTextName name → Keeps B (assign name v)) :
    Keeps B (inputFile number names) := by
  refine keeps_machine fun j k hjk => ⟨by rw [h.channels hjk], ?_⟩
  split
  · exact keeps_pure ()
  · have hfiles := h.allows_of_get? hjk ‹_›
    refine (h.keeps_onChannel hfiles _ _ Channel.ordinary_readLine).bind fun s => ?_
    exact (h.keeps_takeFields hassign _).bind fun _ => keeps_pure ()

theorem keeps_inputPrompt (source : Option Value) : Keeps B (inputPrompt source) := by
  refine h.keeps_current.bind fun _ => keeps_ite ?_ (keeps_pure _)
  dsimp only
  refine keeps_guard (fun _ => rfl) fun _ => h.keeps_value.bind fun v => ?_
  exact (h.keeps_expect _).bind fun _ => keeps_pure v

theorem keeps_inputNames : Keeps B inputNames :=
  h.keeps_atEnd.bind fun _ => keeps_ite (keeps_pure []) <| h.keeps_current.bind fun _ =>
    keeps_ite h.keeps_nameList (keeps_fault fun _ => rfl)

theorem keeps_inputSource : Keeps B inputSource := by
  refine (h.keeps_isMark _).bind fun _ => keeps_ite ?_ (keeps_pure none)
  refine (h.keeps_openChannel _).bind fun c => ?_
  exact (h.keeps_expect _).bind fun _ => keeps_pure _

theorem agree_input {j k : Job} (hjk : B.R j k)
    (hassign : ∀ prompt j₁ names j₂, inputLead B.left j = .ok prompt j₁ →
      inputNames B.left j₁ = .ok names j₂ → ∀ name ∈ names, ∀ v,
        v.isText = Symbols.isTextName name → Keeps B (assign name v)) : KeepsAt B j k input := by
  refine h.advance.agree_bind hjk fun _ j₁ k₁ hj₁ hjk₁ => ?_
  refine h.keeps_inputSource.agree_bind hjk₁ fun source j₂ k₂ hj₂ hjk₂ => ?_
  refine (h.keeps_inputPrompt source).agree_bind hjk₂ fun prompt j₃ k₃ hj₃ hjk₃ => ?_
  refine h.keeps_inputNames.agree_bind hjk₃ fun names j₄ k₄ hj₄ hjk₄ => ?_
  have hlead : inputLead B.left j = .ok prompt j₃ := by
    rw [inputLead, bind_ok hj₁, bind_ok hj₂, hj₃]
  have hnames := hassign prompt j₃ names j₄ hlead hj₄
  cases source with
  | some number => exact h.keeps_inputFile number hnames j₄ k₄ hjk₄
  | none =>
      refine (keeps_ofExcept (Value.ordinary_written prompt)).agree_bind hjk₄ fun s j₅ k₅ _ => ?_
      refine keeps_machine (fun j k hjk => ⟨by rw [h.supply hjk], ?_⟩) j₅ k₅
      exact h.keeps_inputLines s hnames _

end Input

section Data

theorem keeps_readLine (hdata : allows .data) :
    Keeps B (line >>= fun l => onData (DataStore.read l)) := by
  intro j k hjk
  have hlines := h.lines hdata hjk
  have hnext (l : String) : k.machine.data.nextLine l = j.machine.data.nextLine l :=
    (DataStore.nextLine_congr hlines (h.reading hdata hjk).1 l).symm
  have htokens (n : Int) : k.machine.data.tokens? n = j.machine.data.tokens? n := by
    rw [DataStore.tokens?_eq, DataStore.tokens?_eq, hlines]
  have hpointer := h.pointer hdata hjk
  show Agree _ _ B.R (onData (DataStore.read B.left.label) B.left j)
    (onData (DataStore.read B.right.label) B.right k)
  simp only [onData, DataStore.read, hnext, htokens]
  obtain ⟨n, hn⟩ | ⟨f, hf⟩ := DataStore.labelled_nextLine j.machine.data
  · have hmem : j.machine.data.Points n := .inr (DataStore.mem_of_nextLine (hn B.left.label))
    simp only [hn]
    cases hv : DataStore.values false ((j.machine.data.tokens? n).getD []).tail with
    | error f =>
        exact .error (fun _ => f) (fun _ => DataStore.ordinary_values _ _ f hv) (hpointer n hmem)
    | ok vs => exact .ok vs (hpointer n hmem)
  · simp only [fun l => (hf l).1]
    exact .error f (fun l => (hf l).2) hjk

theorem keeps_takePending (hdata : allows .data) : Keeps B takePending := by
  refine keeps_machine fun j k hjk => ⟨by rw [(h.reading hdata hjk).2], ?_⟩
  split
  · exact keeps_throw rfl
  · exact (h.pending hdata _).bind fun _ => keeps_pure _

theorem keeps_nextDatum (hdata : allows .data) : Keeps B nextDatum := by
  have htake := h.keeps_takePending hdata
  refine keeps_machine fun j k hjk => ⟨by rw [(h.reading hdata hjk).2], keeps_ite ?_ htake⟩
  exact keeps_line (h.keeps_readLine hdata) fun vs => (h.pending hdata vs).bind fun _ => htake

theorem keeps_readAll (hdata : allows .data) {names : List String}
    (hassign : ∀ name ∈ names, ∀ l w v, asDatum name l w = .ok v → Keeps B (assign name v)) :
    Keeps B (readAll names) := by
  induction names with
  | nil => exact keeps_pure ()
  | cons name names ih =>
      rw [List.forall_mem_cons] at hassign
      refine (h.keeps_nextDatum hdata).bind fun w => ?_
      refine (keeps_labelled (labelled_asDatum name w)).bind_of_ok fun j k v j' _ hj => ?_
      exact (hassign.1 _ w v (of_ofExcept hj)).bind fun _ => ih hassign.2

theorem agree_readData (hdata : allows .data) {j k : Job} (hjk : B.R j k)
    (hassign : ∀ names j', ¬ j.cursor.advance.atEnd →
      nameList B.left { j with cursor := j.cursor.advance } = .ok names j' →
        ∀ name ∈ names, ∀ l w v, asDatum name l w = .ok v → Keeps B (assign name v)) :
    KeepsAt B j k readData := by
  refine h.advance.agree_bind hjk fun _ j₁ k₁ hj₁ hjk₁ => ?_
  cases hj₁
  refine h.keeps_atEnd.agree_bind hjk₁ fun ended j₂ k₂ hj₂ hjk₂ => ?_
  cases hj₂
  have hnone : Keeps B (readAll []) := h.keeps_readAll hdata fun _ hname => nomatch hname
  split
  · exact hnone _ k₂ hjk₂
  · rename_i hmore
    refine h.keeps_nameList.agree_bind hjk₂ fun names j₃ k₃ hj₃ hjk₃ => ?_
    exact h.keeps_readAll hdata (hassign names j₃ hmore hj₃) _ k₃ hjk₃

theorem keeps_restore (hdata : allows .data) : Keeps B restore := by
  refine h.advance.bind fun _ => h.keeps_arithmetic.bind fun v => ?_
  refine (h.pending hdata []).bind fun _ => ?_
  intro j k hjk
  have hpointer := h.pointer hdata hjk
  show Agree _ _ B.R ((ofExcept (j.machine.data.restore v) >>= _) B.left j)
    ((ofExcept (k.machine.data.restore v) >>= _) B.right k)
  rw [DataStore.restore_congr (h.lines hdata hjk) v]
  cases hr : j.machine.data.restore v with
  | error f => exact .error (fun _ => f) (fun _ => DataStore.ordinary_restore _ v f hr) hjk
  | ok d =>
      obtain ⟨pointer, hpoints, rfl⟩ := DataStore.exists_pointer hr
      exact .ok () (hpointer pointer hpoints)

end Data

section Assign

theorem keeps_cellSign (hgrids : allows .grids) : Keeps B cellSign := by
  have hcompared : Keeps B isCompared := by
    intro j k hjk
    show Agree _ _ B.R (.ok _ j) (.ok _ k)
    rw [h.cursor hjk, h.compared hgrids hjk]
    exact .ok _ hjk
  exact hcompared.bind fun _ => keeps_ite (keeps_fault fun _ => rfl) (h.keeps_expect _)

theorem keeps_assignCell {name : String}
    (hgrid : allows .grids → ∀ g, Keeps B (modifyMachine fun m =>
      { m with symbols := m.symbols.insertGrid (Symbols.arrayKey name) g })) :
    Keeps B (assignCell name) := by
  refine (h.keeps_expect _).bind fun _ => h.keeps_indices.bind fun indices => ?_
  refine keeps_machine fun j k hjk => ⟨by rw [h.symbols hjk], ?_⟩
  split
  · exact keeps_fault fun _ => rfl
  · exact keeps_throw rfl
  · rename_i g hg
    have hgrids : allows .grids := Classical.byContradiction fun hn => h.noGrid hn hjk _ _ hg
    refine keeps_line (keeps_labelled (Grid.labelled_checkCount g indices)) fun _ => ?_
    refine (h.keeps_expect _).bind fun _ => (h.keeps_cellSign hgrids).bind fun _ => ?_
    refine h.keeps_value.bind fun v => keeps_checked (fun _ => rfl) (fun _ => rfl) fun _ => ?_
    exact keeps_line (keeps_labelled (Grid.labelled_set g indices v)) fun g => hgrid hgrids g

theorem keeps_storeValue {name : String}
    (hassign : ∀ v, v.isText = Symbols.isTextName name → Keeps B (assign name v)) :
    Keeps B (storeValue name) :=
  h.keeps_value.bind fun v => keeps_checked (fun _ => rfl) (fun _ => rfl) (hassign v)

theorem agree_assignment {j k : Job} (hjk : B.R j k)
    (hgrid : j.cursor.advance.current.isMark .opening → allows .grids → ∀ g,
      Keeps B (modifyMachine fun m =>
        { m with symbols := m.symbols.insertGrid (Symbols.arrayKey j.cursor.current.lexeme) g }))
    (hassign : ¬ j.cursor.advance.current.isMark .opening → ∀ v,
      v.isText = Symbols.isTextName j.cursor.current.lexeme →
        Keeps B (assign j.cursor.current.lexeme v)) : KeepsAt B j k assignment := by
  refine h.keeps_lexeme.agree_bind hjk fun name j₁ k₁ hj₁ hjk₁ => ?_
  cases hj₁
  refine h.advance.agree_bind hjk₁ fun _ j₂ k₂ hj₂ hjk₂ => ?_
  cases hj₂
  refine (h.keeps_isMark _).agree_bind hjk₂ fun cell j₃ k₃ hj₃ hjk₃ => ?_
  cases hj₃
  split
  · exact h.keeps_assignCell (hgrid ‹_›) _ k₃ hjk₃
  · exact ((h.keeps_expect _).bind fun _ => h.keeps_storeValue (hassign ‹_›)) _ k₃ hjk₃

theorem keeps_dimension (hgrid : ∀ name g, Keeps B (modifyMachine fun m =>
      { m with symbols := m.symbols.insertGrid (Symbols.arrayKey name) g })) (n : Nat) :
    Keeps B (dimension n) := by
  induction n with
  | zero => exact keeps_pure ()
  | succ n ih =>
      refine h.keeps_lexeme.bind fun name => h.advance.bind fun _ => ?_
      refine (h.keeps_expect _).bind fun _ => h.keeps_indices.bind fun bounds => ?_
      refine (h.keeps_expect _).bind fun _ => ?_
      dsimp only
      refine keeps_guard (fun _ => rfl) fun _ => ?_
      refine (keeps_ofExcept (Grid.ordinary_make bounds)).bind fun g => ?_
      refine (hgrid name g).bind fun _ => ?_
      have hjust : Keeps B justEnded := h.keeps_look fun c => c.atEnd && c.overrun == 0
      refine hjust.bind fun _ => keeps_ite (keeps_pure ()) ?_
      exact (h.keeps_expect _).bind fun _ => ih

theorem keeps_dimensions (hgrid : ∀ name g, Keeps B (modifyMachine fun m =>
      { m with symbols := m.symbols.insertGrid (Symbols.arrayKey name) g })) :
    Keeps B dimensions :=
  h.advance.bind fun _ => h.keeps_remaining.bind fun _ => h.keeps_dimension hgrid _

theorem keeps_stepped (name : String) (step : Value) : Keeps B (stepped name step) := by
  refine keeps_machine fun j k hjk => ⟨by rw [h.symbols hjk], ?_⟩
  split
  · exact keeps_ofExcept (Value.ordinary_add _ step)
  · exact keeps_throw rfl
  · exact keeps_throw rfl

theorem keeps_loopStep : Keeps B loopStep := by
  refine h.keeps_atEnd.bind fun _ => keeps_ite (keeps_pure _) ?_
  refine (h.keeps_expect _).bind fun _ => h.keeps_arithmetic.bind fun step => ?_
  dsimp only
  refine keeps_guard (fun _ => rfl) fun _ => ?_
  exact (keeps_ofExcept (Value.ordinary_relate _ _ _)).bind fun _ => keeps_pure _

theorem keeps_loopTurn {name : String}
    (hflow : ∀ {j k}, B.R j k → j.machine.lastFlow = k.machine.lastFlow)
    (hassign : ∀ v, Keeps B (assign name v)) : Keeps B (loopTurn name) := by
  refine h.keeps_arithmetic.bind fun first => (h.keeps_expect _).bind fun _ => ?_
  refine h.keeps_arithmetic.bind fun last => h.keeps_loopStep.bind fun s => ?_
  have hsettle (up : Bool) (v : Value) : Keeps B (do
      assign name v
      let past ← ofExcept (v.relate (if up then .greater else .less) last)
      pure (if past then Flow.loopSkip (.text name) else .loopBegin)) :=
    (hassign v).bind fun _ =>
      (keeps_ofExcept (Value.ordinary_relate _ v last)).bind fun _ => keeps_pure _
  obtain ⟨step, up⟩ := s
  refine keeps_machine fun j k hjk => ⟨by rw [hflow hjk], ?_⟩
  dsimp only
  split
  · exact (h.keeps_stepped name step).bind fun v => hsettle up v
  · exact (keeps_pure first).bind fun v => hsettle up v

theorem agree_loopHead {j k : Job} (hjk : B.R j k)
    (hflow : ∀ {j k}, B.R j k → j.machine.lastFlow = k.machine.lastFlow)
    (hassign : j.cursor.advance.advance.current.category = some (.mark .equals) →
      Symbols.isTextName j.cursor.advance.current.lexeme = false → ∀ v,
        Keeps B (assign j.cursor.advance.current.lexeme v)) : KeepsAt B j k loopHead := by
  refine h.advance.agree_bind hjk fun _ j₁ k₁ hj₁ hjk₁ => ?_
  cases hj₁
  refine h.keeps_lexeme.agree_bind hjk₁ fun name j₂ k₂ hj₂ hjk₂ => ?_
  cases hj₂
  dsimp only
  split
  · exact .error .loopOverText (fun _ => rfl) hjk₂
  · rename_i hname
    refine h.advance.agree_bind hjk₂ fun _ j₃ k₃ hj₃ hjk₃ => ?_
    cases hj₃
    refine (h.keeps_expect _).agree_bind hjk₃ fun _ j₄ k₄ hj₄ hjk₄ => ?_
    exact h.keeps_loopTurn hflow (hassign (of_expect hj₄) (Bool.eq_false_iff.mpr hname)) j₄ k₄ hjk₄

end Assign

section Flow

theorem keeps_branch : Keeps B branch := by
  refine h.advance.bind fun _ => h.keeps_value.bind fun v => (h.keeps_expect _).bind fun _ => ?_
  refine (h.keeps_skipKeyword _).bind fun _ => h.keeps_arithmetic.bind fun target => ?_
  refine keeps_ite (keeps_pure _) ((h.keeps_isKeyword _).bind fun _ => keeps_ite ?_ (keeps_pure _))
  refine h.advance.bind fun _ => (h.keeps_skipKeyword _).bind fun _ => ?_
  exact h.keeps_arithmetic.bind fun _ => keeps_pure _

theorem keeps_multiway : Keeps B multiway := by
  refine h.advance.bind fun _ => h.keeps_arithmetic.bind fun number => ?_
  refine (h.keeps_isKeyword _).bind fun _ => (h.keeps_expect _).bind fun _ => ?_
  refine h.keeps_indices.bind fun targets => ?_
  exact (keeps_ofExcept (ordinary_selected number targets)).bind fun _ => keeps_pure _

theorem agree_randomize {j k : Job} (hjk : B.R j k)
    (hclock : j.cursor.advance.atEnd → allows .clock) : KeepsAt B j k randomize := by
  refine h.advance.agree_bind hjk fun _ j₁ k₁ hj₁ hjk₁ => ?_
  cases hj₁
  refine h.keeps_atEnd.agree_bind hjk₁ fun ended j₂ k₂ hj₂ hjk₂ => ?_
  cases hj₂
  split
  · exact h.clock (hclock ‹_›) _ k₂ hjk₂
  · exact (h.keeps_arithmetic.bind fun v => h.generator (Eval.reseed v)) _ k₂ hjk₂

theorem agree_statement {j k : Job} (hjk : B.R j k)
    (hneeds : ∀ f, j.cursor.needs? = some f → allows f) (hstores : Stores B j k) :
    KeepsAt B j k statement := by
  have hsilent {x : Exec Unit} (hx : KeepsAt B j k x) :
      KeepsAt B j k (x >>= fun _ => pure (none : Option Flow)) :=
    hx.bind fun _ _ _ _ => .ok _
  have hsome {x : Exec Flow} (hx : KeepsAt B j k x) :
      KeepsAt B j k (x >>= fun flow => pure (some flow)) :=
    hx.bind fun _ _ _ _ => .ok _
  have hallows {f : Feature} (hf : j.cursor.needs? = some f) : allows f := hneeds f hf
  obtain ⟨hloop, hplain, hspelled, hinput, harray, hread⟩ := hstores
  unfold Cursor.needs? at hallows
  unfold KeepsAt statement
  rw [current_bind, current_bind, ← h.cursor hjk]
  generalize j.cursor.current.category = c at hallows hloop hplain hspelled hinput harray hread
  split
  · exact hsome (hloop rfl)
  · exact (h.advance.bind fun _ => keeps_pure _) j k hjk
  · exact h.keeps_branch j k hjk
  · exact h.keeps_multiway j k hjk
  · exact hsilent (hplain rfl)
  · exact hsilent (h.keeps_print j k hjk)
  · exact hsilent (hspelled rfl)
  · exact hsome ((h.advance.bind fun _ => h.keeps_arithmetic.bind fun _ => keeps_pure _) j k hjk)
  · exact hsome ((h.advance.bind fun _ => h.keeps_arithmetic.bind fun _ => keeps_pure _) j k hjk)
  · exact (h.advance.bind fun _ => keeps_pure _) j k hjk
  · exact hsome (h.keeps_stop j k hjk)
  · exact hsilent (hinput rfl)
  · exact hsilent (harray rfl)
  · exact hsilent (h.agree_randomize hjk fun hend => hallows (if_pos hend))
  · exact keeps_pure _ j k hjk
  · exact hsilent (hread rfl)
  · exact hsilent (h.keeps_restore (hallows rfl) j k hjk)
  · exact h.keeps_openFile (hallows rfl) j k hjk
  · exact hsilent (h.keeps_closeFile j k hjk)
  · exact hsilent (h.keeps_seekFile j k hjk)
  · exact hsilent (h.terminal Terminal.steady_clear j k hjk)
  · exact hsilent (h.keeps_moveCursor j k hjk)
  · exact keeps_pure _ j k hjk
  · exact keeps_fault (fun _ => rfl) j k hjk

end Flow

end Passive

namespace Stable

variable {B : Pairing} {allows : Feature → Prop} (h : Stable B allows)
include h

theorem keeps_storeValue (name : String) : Keeps B (storeValue name) :=
  h.toPassive.keeps_storeValue fun _ hkind => h.assign hkind

theorem keeps_assignment : Keeps B assignment := fun _ _ hjk =>
  h.agree_assignment hjk (fun _ hgrids g => h.grid hgrids _ g) fun _ _ hkind => h.assign hkind

theorem agree_readData (hdata : allows .data) {j k : Job} (hjk : B.R j k)
    (hassign : ∀ i, Symbols.isTextName (j.cursor.pass i).current.lexeme → ∀ v, (∀ n, v ≠ .int n) →
      Keeps B (Exec.assign (j.cursor.pass i).current.lexeme v)) : KeepsAt B j k readData := by
  refine h.toPassive.agree_readData hdata hjk fun names j' _ hnames name hmem l w v hv => ?_
  obtain ⟨i, rfl⟩ := exists_pass_of_nameList hnames name hmem
  cases hname : Symbols.isTextName (j.cursor.pass (i + 1)).current.lexeme with
  | true => exact hassign (i + 1) hname v (asDatum_ne_int hname hv)
  | false => exact h.assign ((isText_asDatum hname hv).trans hname.symm)

theorem agree_statement {j k : Job} (hjk : B.R j k) (hmeets : Meets B allows j.cursor) :
    Agree B.left.label B.right.label B.R (statement B.left j) (statement B.right k) := by
  have hgrids (hc : j.cursor.current.category = some (.keyword .DIM)) : allows .grids :=
    hmeets.needs .grids (by rw [Cursor.needs?, hc])
  have hdata (hc : j.cursor.current.category = some (.keyword .READ)) : allows .data :=
    hmeets.needs .data (by rw [Cursor.needs?, hc])
  refine h.toPassive.agree_statement hjk hmeets.needs
    { loop := fun hc => h.agree_loopHead hjk (hmeets.flow hc) (hmeets.loop hc)
      plain := fun _ => h.keeps_assignment j k hjk
      spelled := fun _ => (h.advance.bind fun _ => h.keeps_assignment) j k hjk
      input := fun _ => h.agree_input hjk fun _ _ _ _ _ _ _ _ _ hkind => h.assign hkind
      array := fun hc => h.keeps_dimensions (fun name g => h.grid (hgrids hc) _ g) j k hjk
      read := fun hc => h.agree_readData (hdata hc) hjk (hmeets.read hc) }

end Stable

end Exec

end LineBasic

import LineBasic.Proofs.Lines
import LineBasic.Proofs.Split.Line
import LineBasic.Token.Lexer

namespace LineBasic

open Outcome

namespace Machine

def Renoted (S : List Sign → List Sign → Prop) (m n : Machine) : Prop :=
  ∃ signs, n = { m with compared := signs } ∧ S m.compared signs

structure Notes (S : List Sign → List Sign → Prop) (left right : Site) : Prop where
  note : ∀ places cs ds, S cs ds →
    S ((left.signs places).foldr List.insert cs) ((right.signs places).foldr List.insert ds)
  look : ∀ place cs ds, S cs ds →
    (left.signs [place]).any cs.contains = (right.signs [place]).any ds.contains

section Renoted

variable {S : List Sign → List Sign → Prop} {m n : Machine}

theorem Renoted.same {α : Type} (h : Renoted S m n) (look : Machine → α)
    (hlook : ∀ m signs, look { m with compared := signs } = look m) : look m = look n := by
  obtain ⟨signs, rfl, -⟩ := h
  exact (hlook m signs).symm

theorem Renoted.map (h : Renoted S m n) {f : Machine → Machine}
    (hf : ∀ m signs, f { m with compared := signs } = { f m with compared := signs })
    (hkept : ∀ m, (f m).compared = m.compared) : Renoted S (f m) (f n) := by
  obtain ⟨signs, rfl, hsigns⟩ := h
  exact ⟨signs, hf m signs, by rwa [hkept]⟩

end Renoted

end Machine

namespace Exec

open Machine

variable {S : List Sign → List Sign → Prop} {left right : Site}

theorem keeps_renoted_modify {f : Machine → Machine}
    (hf : ∀ m signs, f { m with compared := signs } = { f m with compared := signs })
    (hkept : ∀ m, (f m).compared = m.compared) :
    Keeps ⟨left, right, Job.Beside (Renoted S)⟩ (modifyMachine f) :=
  fun _ _ h => .ok () ⟨h.1, h.2.map hf hkept⟩

theorem keeps_renoted_assign (name : String) (v : Value) :
    Keeps ⟨left, right, Job.Beside (Renoted S)⟩ (assign name v) :=
  keeps_renoted_modify (fun _ _ => rfl) fun _ => rfl

theorem renoted_evaluated (hnotes : Notes S left right) {m n : Machine} (h : Renoted S m n)
    (s : Scan) : Renoted S (m.evaluated left s) (n.evaluated right s) := by
  obtain ⟨signs, rfl, hsigns⟩ := h
  exact ⟨_, rfl, hnotes.note s.compared _ _ hsigns⟩

theorem keeps_renoted_evaluate (hnotes : Notes S left right) {α : Type} {e : Eval α}
    (he : e.Tame) : Keeps ⟨left, right, Job.Beside (Renoted S)⟩ (evaluate e) := by
  rintro ⟨cursor, m⟩ ⟨_, n⟩ ⟨rfl, h⟩
  have hsymbols : m.symbols = n.symbols := h.same Machine.symbols fun _ _ => rfl
  have hgenerator : m.generator = n.generator := h.same Machine.generator fun _ _ => rfl
  simp only [evaluate, ← hsymbols, ← hgenerator]
  obtain ⟨a, s, hok⟩ | ⟨f, s, herror⟩ := he.labelled m.symbols ⟨cursor, false, m.generator, []⟩
  · have hok (l : String) : e ⟨m.symbols, l⟩ ⟨cursor, false, m.generator, []⟩ = .ok a s := hok l
    rw [hok, hok]
    exact .ok a ⟨rfl, renoted_evaluated hnotes h s⟩
  · have herror (l : String) :
        e ⟨m.symbols, l⟩ ⟨cursor, false, m.generator, []⟩ = .error (f l) s ∧
          (f l).isAstray = false := herror l
    rw [(herror _).1, (herror _).1]
    exact .error f (fun l => (herror l).2) ⟨rfl, renoted_evaluated hnotes h s⟩

theorem keeps_renoted_terminal {α : Type} {act : Terminal.Act α} (ha : Terminal.Steady act) :
    Keeps ⟨left, right, Job.Beside (Renoted S)⟩ (onTerminal act) := by
  rintro ⟨cursor, m⟩ ⟨_, _⟩ ⟨rfl, signs, rfl, hsigns⟩
  simp only [onTerminal]
  cases hact : act m.terminal with
  | ok a t => exact .ok a ⟨rfl, signs, rfl, hsigns⟩
  | error f t =>
      exact .error (fun _ => f) (fun _ => ha.ordinary _ _ _ hact) ⟨rfl, signs, rfl, hsigns⟩

theorem stable_renoted (hnotes : Notes S left right) :
    Stable ⟨left, right, Job.Beside (Renoted S)⟩ fun _ => True where
  cursor h := h.1
  symbols h := h.2.same Machine.symbols fun _ _ => rfl
  channels h := h.2.same Machine.channels fun _ _ => rfl
  supply h := h.2.same (·.terminal.supply) fun _ _ => rfl
  advance _ _ h := .ok () ⟨congrArg Cursor.advance h.1, h.2⟩
  evaluate := keeps_renoted_evaluate hnotes
  terminal := keeps_renoted_terminal
  assign _ := keeps_renoted_assign _ _
  generator _ := keeps_renoted_modify (fun _ _ => rfl) fun _ => rfl
  clock _ := keeps_renoted_modify (fun _ _ => rfl) fun _ => rfl
  noFile h := absurd trivial h
  disk _ _ _ h := h.2.same Machine.disk fun _ _ => rfl
  files _ _ _ h channels disk := ⟨h.1, h.2.map
    (f := fun m => { m with channels := channels, disk := disk }) (fun _ _ => rfl) fun _ => rfl⟩
  noGrid h := absurd trivial h
  compared := by
    rintro - j k ⟨-, signs, hk, hsigns⟩ place
    rw [hk]
    exact hnotes.look place _ _ hsigns
  grid _ _ _ := keeps_renoted_modify (fun _ _ => rfl) fun _ => rfl
  lines _ _ _ h := h.2.same (·.data.lines) fun _ _ => rfl
  reading _ _ _ h := ⟨h.2.same (·.data.pointer) fun _ _ => rfl,
    h.2.same Machine.pending fun _ _ => rfl⟩
  pointer _ _ _ h pointer _ := ⟨h.1, h.2.map
    (f := fun m => { m with data := { m.data with pointer := pointer } }) (fun _ _ => rfl)
    fun _ => rfl⟩
  pending _ _ := keeps_renoted_modify (fun _ _ => rfl) fun _ => rfl

end Exec

namespace Machine

def goOn (next : EStateM Fault Machine (Option Flow)) :
    Option Flow → EStateM Fault Machine (Option Flow)
  | some flow => pure (some flow)
  | none => next

theorem runParts_cons (site : Site) (part : List Token) (parts : List (List Token)) :
    runParts site (part :: parts) =
      runPart { site with after := parts.length } part >>= goOn (runParts site parts) := by
  rw [runParts]
  exact congrArg _ (funext fun flow => by cases flow <;> rfl)

section Halves

variable {S : List Sign → List Sign → Prop} {m n : Machine}

theorem agree_renoted {left right : Site} (hnotes : Notes S left right) (part : List Token)
    (h : Renoted S m n) :
    Agree left.label right.label (Renoted S) (runPart left part m) (runPart right part n) := by
  refine agree_runPart (Exec.stable_renoted hnotes) h (fun _ _ => ⟨rfl, h⟩) (fun _ _ hjk => hjk.2)
    fun _ _ => .of_assign (fun _ _ => trivial) (fun hjk => ?_) Exec.keeps_renoted_assign
  exact hjk.2.same Machine.lastFlow fun _ _ => rfl

/-- The statements of both halves, in one line and each half by itself. -/
theorem agree_halves (whole first second : Site) (hfirst : first.label = whole.label)
    (hsecond : second.label = whole.label) {xs ys : List (List Token)}
    (hxs : ∀ after, Notes S { whole with after := after + ys.length }
      { first with after := after })
    (hys : ∀ after < ys.length, Notes S { whole with after := after }
      { second with after := after }) (h : Renoted S m n) :
    Agree whole.label whole.label (Renoted S) (runParts whole (xs ++ ys) m)
      ((runParts first xs >>= goOn (runParts second ys)) n) := by
  obtain ⟨label, line, after⟩ := whole
  obtain ⟨_, line₁, after₁⟩ := first
  obtain ⟨_, line₂, after₂⟩ := second
  cases hfirst
  cases hsecond
  induction xs generalizing m n with
  | nil =>
      -- The first half is done without a signal, and `goOn` goes on with the second.
      show Agree (Site.mk label line after).label (Site.mk label line₂ after₂).label (Renoted S)
        (runParts ⟨label, line, after⟩ ys m) (runParts ⟨label, line₂, after₂⟩ ys n)
      refine agree_runParts (fun part after hp m n h => ?_) h
      have hafter : after.length < ys.length := hp.length_le
      exact agree_renoted (hys after.length hafter) part h
  | cons part xs ih =>
      have hpart := agree_renoted (hxs xs.length) part h
      rw [← List.length_append] at hpart
      rw [List.cons_append, runParts_cons, runParts_cons, bind_assoc]
      refine hpart.bind fun flow m' n' _ h' => ?_
      cases flow with
      | some flow => exact .ok (some flow) h'
      | none => exact ih h'

end Halves

def unnoted (m : Machine) : Machine := { m with compared := [] }

theorem unnoted_of_agree {α : Type} {l : String} {S : List Sign → List Sign → Prop}
    {r r' : EStateM.Result Fault Machine α} (h : Agree l l (Renoted S) r r') :
    mapState unnoted r = mapState unnoted r' := by
  cases h with
  | ok a h =>
      obtain ⟨signs, rfl, -⟩ := h
      rfl
  | error f _ h =>
      obtain ⟨signs, rfl, -⟩ := h
      rfl

theorem eq_of_agree {α : Type} {l : String} {r r' : EStateM.Result Fault Machine α}
    (h : Agree l l (Renoted Eq) r r') : r = r' := by
  cases h with
  | ok a h =>
      obtain ⟨_, rfl, rfl⟩ := h
      rfl
  | error f _ h =>
      obtain ⟨_, rfl, rfl⟩ := h
      rfl

/-- A statement that is not part of a program notes no signs. -/
theorem notes_eq (label : String) (i k : Nat) :
    Notes Eq ⟨label, none, i⟩ ⟨label, none, k⟩ :=
  ⟨fun _ _ _ h => h, fun _ _ _ _ => rfl⟩

end Machine

/-- A line and its two halves, which can stand by themselves. The second half has `size`
statements. -/
structure Halves where
  whole : Site
  first : Site
  second : Site
  size : Nat

namespace Halves

inductive Pairs (h : Halves) : Site → Site → Prop
  | first (after : Nat) :
      h.Pairs { h.whole with after := after + h.size } { h.first with after := after }
  | second (after : Nat) (hafter : after < h.size) :
      h.Pairs { h.whole with after := after } { h.second with after := after }

/-- The three have one label. If they are stored, each half notes its signs under a number of its
own. -/
structure Apart (h : Halves) : Prop where
  firstLabel : h.first.label = h.whole.label
  secondLabel : h.second.label = h.whole.label
  firstStored : h.first.line.isSome = h.whole.line.isSome
  secondStored : h.second.line.isSome = h.whole.line.isSome
  lines : ∀ l, h.first.line = some l → h.second.line ≠ some l

def SameSigns (h : Halves) (cs ds : List Sign) : Prop :=
  ∀ left right, h.Pairs left right → ∀ place,
    (left.signs [place]).any cs.contains = (right.signs [place]).any ds.contains

variable {h : Halves}

theorem mem_signs {site : Site} {places : List Nat} {s : Sign} :
    s ∈ site.signs places ↔
      site.line = some s.line ∧ s.after = site.after ∧ s.place ∈ places := by
  obtain ⟨line, after, place⟩ := s
  cases hline : site.line with
  | none => simp [Site.signs, hline]
  | some l => simp [Site.signs, hline]; grind

theorem any_signs {site : Site} {place : Nat} {cs : List Sign} :
    (site.signs [place]).any cs.contains = true ↔
      ∃ l, site.line = some l ∧ ⟨l, site.after, place⟩ ∈ cs := by
  simp only [List.any_eq_true, mem_signs, List.contains_iff_mem, List.mem_singleton]
  constructor
  · rintro ⟨⟨l, after, place⟩, ⟨hl, rfl, rfl⟩, hs⟩
    exact ⟨l, hl, hs⟩
  · rintro ⟨l, hl, hs⟩
    exact ⟨_, ⟨hl, rfl, rfl⟩, hs⟩

/-- Statements that share their signs in the line do so in its halves. -/
theorem Pairs.unique (ha : h.Apart) {left left' right right' : Site} (hp : h.Pairs left right)
    (hp' : h.Pairs left' right') :
    (left.line.isSome ∧ left'.line = left.line ∧ left'.after = left.after) ↔
      right.line.isSome ∧ right'.line = right.line ∧ right'.after = right.after := by
  have happart : h.first.line.isSome → h.first.line ≠ h.second.line := by
    intro hsome heq
    obtain ⟨l, hl⟩ := Option.isSome_iff_exists.mp hsome
    exact ha.lines l hl (heq ▸ hl)
  cases hp with
  | first after =>
      cases hp' with
      | first after' => simp [ha.firstStored]
      | second after' hafter' =>
          have hne : ¬ after' = after + h.size := by omega
          simp only [hne, and_false, false_iff]
          exact fun hright => happart hright.1 hright.2.1.symm
  | second after hafter =>
      cases hp' with
      | first after' =>
          have hne : ¬ after' + h.size = after := by omega
          simp only [hne, and_false, false_iff]
          exact fun hright => happart (hright.2.1 ▸ hright.1) hright.2.1
      | second after' hafter' => simp [ha.secondStored]

theorem any_note {site site' : Site} {places : List Nat} {place : Nat} {cs : List Sign} :
    (site'.signs [place]).any ((site.signs places).foldr List.insert cs).contains = true ↔
      (site'.signs [place]).any cs.contains = true ∨
        (site.line.isSome ∧ site'.line = site.line ∧ site'.after = site.after) ∧
          place ∈ places := by
  simp only [any_signs, mem_foldr_insert, mem_signs]
  constructor
  · rintro ⟨l, hl', ⟨hl, hafter, hplace⟩ | hs⟩
    · exact .inr ⟨⟨hl ▸ rfl, hl'.trans hl.symm, hafter⟩, hplace⟩
    · exact .inl ⟨l, hl', hs⟩
  · rintro (⟨l, hl, hs⟩ | ⟨⟨hsome, hline, hafter⟩, hplace⟩)
    · exact ⟨l, hl, .inr hs⟩
    · obtain ⟨l, hl⟩ := Option.isSome_iff_exists.mp hsome
      exact ⟨l, hline.trans hl, .inl ⟨hl, hafter, hplace⟩⟩

theorem SameSigns.note (ha : h.Apart) {left right : Site} (hp : h.Pairs left right)
    {cs ds : List Sign} (hs : h.SameSigns cs ds) (places : List Nat) :
    h.SameSigns ((left.signs places).foldr List.insert cs)
      ((right.signs places).foldr List.insert ds) := by
  intro left' right' hp' place
  rw [Bool.eq_iff_iff, any_note, any_note, hs left' right' hp' place, hp.unique ha hp']

theorem notes (ha : h.Apart) {left right : Site} (hp : h.Pairs left right) :
    Machine.Notes h.SameSigns left right :=
  ⟨fun places _ _ hs => hs.note ha hp places, fun place _ _ hs => hs left right hp place⟩

end Halves

/-- A line with a colon does what its two halves do in turn, each by itself: the result of the first
half if it fails or gives a signal, and else the result of the second half, from the machine that
the first one leaves. A half of a stored line has to be told which of its signs were read as
comparisons before; all but such notes is the same then. -/
theorem Machine.runLine_colon {colon : Token} (hcolon : colon.isMark .colon) (a b : List Token)
    (m : Machine) :
    (∀ label : String, runLine label (a ++ colon :: b) m =
      (runLine label a >>= goOn (runLine label b)) m) ∧
    ∀ h : Halves, h.Apart → h.size = (splitColons b).length → h.SameSigns m.compared m.compared →
      mapState unnoted (runLine h.whole (a ++ colon :: b) m) =
        mapState unnoted ((runLine h.first a >>= goOn (runLine h.second b)) m) := by
  unfold runLine
  rw [splitColons_append hcolon]
  constructor
  · intro label
    exact eq_of_agree (agree_halves label label label rfl rfl (fun _ => notes_eq label _ _)
      (fun _ _ => notes_eq label _ _) ⟨m.compared, rfl, rfl⟩)
  · intro h ha hsize hsigns
    refine unnoted_of_agree (agree_halves h.whole h.first h.second ha.firstLabel ha.secondLabel
      (fun after => ?_) (fun after hafter => ?_) ⟨m.compared, rfl, hsigns⟩)
    · rw [← hsize]
      exact h.notes ha (.first after)
    · exact h.notes ha (.second after (hsize ▸ hafter))

theorem Machine.runLine_colon_signal :
    let m := blank
    let colon : Token := .mark .colon ":"
    let line := tokensOf "A = 5" ++ colon :: tokensOf "GOTO A * 6: PRINT A"
    let h : Halves := ⟨⟨"10", some 10, 0⟩, ⟨"10", some 10, 0⟩, ⟨"10", some 11, 0⟩, 2⟩
    value? (runLine "10" line m) = some (some (.jump (.int 30))) ∧
      runLine "10" line m =
        (runLine "10" (tokensOf "A = 5") >>=
          goOn (runLine "10" (tokensOf "GOTO A * 6: PRINT A"))) m ∧
      h.Apart ∧ h.SameSigns m.compared m.compared ∧
      mapState unnoted (runLine h.whole line m) =
        mapState unnoted ((runLine h.first (tokensOf "A = 5") >>=
          goOn (runLine h.second (tokensOf "GOTO A * 6: PRINT A"))) m) := by
  intro m colon line h
  have hcolon : colon.isMark .colon := rfl
  have hline := Machine.runLine_colon hcolon (tokensOf "A = 5") (tokensOf "GOTO A * 6: PRINT A") m
  have hapart : h.Apart := ⟨rfl, rfl, rfl, rfl, by simp [h]⟩
  have hsigns : h.SameSigns m.compared m.compared := by
    intro left right _ place
    rw [Bool.eq_iff_iff, Halves.any_signs, Halves.any_signs]
    simp [m, blank, fresh]
  refine ⟨by decide +kernel, hline.1 "10", hapart, hsigns, hline.2 h hapart ?_ hsigns⟩
  decide +kernel

end LineBasic

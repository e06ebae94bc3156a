import LineBasic.Proofs.Execution

namespace LineBasic

open Outcome

def Job.Beside (T : Machine → Machine → Prop) (j k : Job) : Prop :=
  j.cursor = k.cursor ∧ T j.machine k.machine

def Within (allows : Feature → Prop) (tokens : List Token) : Prop :=
  ∀ part ∈ splitColons tokens, ∀ f, needs? part = some f → allows f

theorem needs?_of_start? {part : List Token} {c : Cursor} (h : Cursor.start? part = some c) :
    needs? part = c.needs? := by
  rw [needs?, h, Option.bind_some]

namespace Machine

variable {site site' : Site} {allows : Feature → Prop} {T : Machine → Machine → Prop}
  {part : List Token} {m n : Machine}

theorem runPart_cons {t : Token} {ts : List Token} :
    runPart site (t :: ts) m = match Exec.statement site ⟨⟨t, t :: ts, 0⟩, m⟩ with
      | .ok flow j => .ok flow j.machine
      | .error f j => .error f j.machine := rfl

theorem runPart_of_statement {t : Token} {ts : List Token} {x : Exec Unit} {j : Job}
    (h : Exec.statement site ⟨⟨t, t :: ts, 0⟩, m⟩ =
      (x >>= fun _ => pure none) site ⟨⟨t, t :: ts, 0⟩, m⟩)
    (hx : x site ⟨⟨t, t :: ts, 0⟩, m⟩ = .ok () j) :
    runPart site (t :: ts) m = .ok none j.machine := by
  rw [runPart_cons, h, Exec.bind_ok hx]
  rfl

theorem state_runPart_cons {t : Token} {ts : List Token} :
    state (runPart site (t :: ts) m) =
      (state (Exec.statement site ⟨⟨t, t :: ts, 0⟩, m⟩)).machine := by
  rw [runPart_cons]
  cases Exec.statement site ⟨⟨t, t :: ts, 0⟩, m⟩ <;> rfl

theorem agree_runPart_of_statement {B : Exec.Pairing} (hmn : T m n)
    (hend : ∀ j k, B.R j k → T j.machine k.machine)
    (hstatement : ∀ c, Cursor.start? part = some c →
      Exec.KeepsAt B ⟨c, m⟩ ⟨c, n⟩ Exec.statement) :
    Agree B.left.label B.right.label T (runPart B.left part m) (runPart B.right part n) := by
  cases part with
  | nil => exact .error (fun _ => .emptyStatement) (fun _ => rfl) hmn
  | cons t ts =>
      have hagree := hstatement _ rfl
      unfold Exec.KeepsAt at hagree
      rw [runPart_cons, runPart_cons]
      generalize Exec.statement B.left ⟨⟨t, t :: ts, 0⟩, m⟩ = r at hagree
      generalize Exec.statement B.right ⟨⟨t, t :: ts, 0⟩, n⟩ = r' at hagree
      cases hagree with
      | ok flow hjk => exact .ok flow (hend _ _ hjk)
      | error f hf hjk => exact .error f hf (hend _ _ hjk)

theorem agree_runPart {B : Exec.Pairing} (h : Exec.Stable B allows) (hmn : T m n)
    (hstart : ∀ c, Cursor.start? part = some c → B.R ⟨c, m⟩ ⟨c, n⟩)
    (hend : ∀ j k, B.R j k → T j.machine k.machine)
    (hmeets : ∀ c, Cursor.start? part = some c → Exec.Meets B allows c) :
    Agree B.left.label B.right.label T (runPart B.left part m) (runPart B.right part n) :=
  agree_runPart_of_statement hmn hend fun c hc => h.agree_statement (hstart c hc) (hmeets c hc)

theorem agree_runParts {parts : List (List Token)}
    (h : ∀ part after, part :: after <:+ parts → ∀ m n, T m n →
      Agree site.label site'.label T (runPart { site with after := after.length } part m)
        (runPart { site' with after := after.length } part n)) (hmn : T m n) :
    Agree site.label site'.label T (runParts site parts m) (runParts site' parts n) := by
  induction parts generalizing m n with
  | nil => exact .ok none hmn
  | cons part parts ih =>
      refine (h part parts List.suffix_rfl m n hmn).bind fun flow m' n' _ hmn' => ?_
      cases flow with
      | some flow => exact .ok _ hmn'
      | none => exact ih (fun p ps hp => h p ps (hp.trans (List.suffix_cons part parts))) hmn'

theorem agree_runLine {tokens : List Token}
    (h : ∀ after, Exec.Stable ⟨{ site with after := after }, { site with after := after },
      Job.Beside T⟩ allows)
    (hmeets : ∀ after, ∀ part ∈ splitColons tokens, ∀ c, Cursor.start? part = some c →
      Exec.Meets ⟨{ site with after := after }, { site with after := after }, Job.Beside T⟩
        allows c)
    (hmn : T m n) :
    Agree site.label site.label T (runLine site tokens m) (runLine site tokens n) := by
  refine agree_runParts (fun part after hp m n hmn => ?_) hmn
  exact agree_runPart (h after.length) hmn (fun c _ => ⟨rfl, hmn⟩) (fun _ _ hjk => hjk.2)
    (hmeets _ part (hp.subset List.mem_cons_self))

end Machine

namespace Exec

/-- What is said of a job by its place in the statement, its variables, the DATA lines and the signs
that were compared stays true as long as nothing is stored. -/
structure Lasting (site : Site) (allows : Feature → Prop) (I : Job → Prop) : Prop where
  files : allows .files
  grids : allows .grids
  advance : ∀ j, I j → I { j with cursor := j.cursor.advance }
  evaluated : ∀ j s, I j → Scan.Follows ⟨j.cursor, false, j.machine.generator, []⟩ s →
    I ⟨s.cursor, j.machine.evaluated site s⟩
  frame : ∀ j m, I j → m.symbols = j.machine.symbols → m.compared = j.machine.compared →
    m.data = j.machine.data → m.pending = j.machine.pending → I { j with machine := m }
  pointer : allows .data → ∀ j pointer, I j → j.machine.data.Points pointer →
    I { j with machine := { j.machine with data := { j.machine.data with pointer := pointer } } }
  pending : allows .data → ∀ j vs, I j →
    I { j with machine := { j.machine with pending := vs } }

structure Invariant (site : Site) (allows : Feature → Prop) (I : Job → Prop) : Prop
    extends Lasting site allows I where
  store : ∀ j name v, I j → v.isText = Symbols.isTextName name →
    I { j with machine := { j.machine with symbols := j.machine.symbols.insert name v } }
  grid : ∀ j key g, I j →
    I { j with machine := { j.machine with symbols := j.machine.symbols.insertGrid key g } }

def Pairing.same (site : Site) (I : Job → Prop) : Pairing := ⟨site, site, fun j k => j = k ∧ I j⟩

variable {site : Site} {allows : Feature → Prop} {I : Job → Prop}

theorem keeps_of_invariant {α : Type} {x : Exec α} (hx : OrdinaryStep (x site))
    (hI : ∀ j, I j → I (state (x site j))) : Keeps (.same site I) x := by
  rintro j _ ⟨rfl, hj⟩
  have hI' := hI j hj
  show Agree site.label site.label _ (x site j) (x site j)
  cases h : x site j with
  | ok a j' =>
      rw [h] at hI'
      exact .ok a ⟨rfl, hI'⟩
  | error f j' =>
      rw [h] at hI'
      exact .error (fun _ => f) (fun _ => hx j f j' h) ⟨rfl, hI'⟩

theorem keeps_modify_of_invariant {f : Machine → Machine}
    (hI : ∀ j, I j → I { j with machine := f j.machine }) :
    Keeps (.same site I) (modifyMachine f) :=
  keeps_of_invariant (.of_ok fun _ => ⟨_, _, rfl⟩) hI

theorem Lasting.passive (h : Lasting site allows I) : Passive (.same site I) allows where
  cursor := fun hjk => hjk.1 ▸ rfl
  symbols := fun hjk => hjk.1 ▸ rfl
  channels := fun hjk => hjk.1 ▸ rfl
  supply := fun hjk => hjk.1 ▸ rfl
  advance := keeps_of_invariant (.of_ok fun _ => ⟨_, _, rfl⟩) h.advance
  evaluate := by
    intro α e he
    refine keeps_of_invariant (fun j f j' hj => ?_) fun j hj => ?_
    · unfold Exec.evaluate at hj
      cases hr : e ⟨j.machine.symbols, site.label⟩ ⟨j.cursor, false, j.machine.generator, []⟩ with
      | ok a s =>
          rw [hr] at hj
          cases hj
      | error f' s =>
          rw [hr] at hj
          cases hj
          exact he.ordinary _ _ _ _ hr
    · have hs := h.evaluated j _ hj (he.follows ⟨j.machine.symbols, site.label⟩ _)
      unfold Exec.evaluate
      cases hr : e ⟨j.machine.symbols, site.label⟩ ⟨j.cursor, false, j.machine.generator, []⟩ <;>
        rwa [hr] at hs
  terminal := by
    intro α act ha
    refine keeps_of_invariant (fun j f j' hj => ?_) fun j hj => ?_
    · unfold onTerminal at hj
      cases hr : act j.machine.terminal with
      | ok a t =>
          rw [hr] at hj
          cases hj
      | error f' t =>
          rw [hr] at hj
          cases hj
          exact ha.ordinary _ _ _ hr
    · unfold onTerminal
      cases act j.machine.terminal <;> exact h.frame j _ hj rfl rfl rfl rfl
  generator := fun _ => keeps_modify_of_invariant fun j hj => h.frame j _ hj rfl rfl rfl rfl
  clock := fun _ => keeps_modify_of_invariant fun j hj => h.frame j _ hj rfl rfl rfl rfl
  noFile := fun hf => absurd h.files hf
  disk := fun _ _ _ hjk => hjk.1 ▸ rfl
  files := by
    rintro - j _ ⟨rfl, hj⟩ channels disk
    exact ⟨rfl, h.frame j _ hj rfl rfl rfl rfl⟩
  noGrid := fun hg => absurd h.grids hg
  compared := fun _ _ _ hjk _ => hjk.1 ▸ rfl
  lines := fun _ _ _ hjk => hjk.1 ▸ rfl
  reading := fun _ _ _ hjk => hjk.1 ▸ ⟨rfl, rfl⟩
  pointer := by
    rintro hd j _ ⟨rfl, hj⟩ pointer hpoints
    exact ⟨rfl, h.pointer hd j pointer hj hpoints⟩
  pending := fun hd vs => keeps_modify_of_invariant fun j hj => h.pending hd j vs hj

theorem Invariant.stable (h : Invariant site allows I) : Stable (.same site I) allows where
  toPassive := h.passive
  assign := fun hkind => keeps_modify_of_invariant fun j hj => h.store j _ _ hj hkind
  grid := fun _ key g => keeps_modify_of_invariant fun j hj => h.grid j key g hj

/-- Where the values of the variables do not matter, any statement will do. -/
theorem meets_same {c : Cursor} (hneeds : ∀ f, c.needs? = some f → allows f)
    (hstore : ∀ j name v, I j →
      I { j with machine := { j.machine with symbols := j.machine.symbols.insert name v } }) :
    Meets (.same site I) allows c :=
  .of_assign hneeds (fun hjk => hjk.1 ▸ rfl) fun name v =>
    keeps_modify_of_invariant fun j => hstore j name v

end Exec

theorem Machine.runPart_keeps {site : Site} {J : Machine → Prop} {part : List Token} {m : Machine}
    (hm : J m) (hstatement : ∀ c, Cursor.start? part = some c →
      Exec.KeepsAt (.same site fun j => J j.machine) ⟨c, m⟩ ⟨c, m⟩ Exec.statement) :
    J (state (runPart site part m)) := by
  have hagree : Agree site.label site.label (fun m n => m = n ∧ J m) (runPart site part m)
      (runPart site part m) :=
    agree_runPart_of_statement ⟨rfl, hm⟩ (fun _ _ hjk => ⟨congrArg Job.machine hjk.1, hjk.2⟩)
      hstatement
  generalize runPart site part m = r at hagree
  cases hagree with
  | ok _ hJ => exact hJ.2
  | error _ _ hJ => exact hJ.2

theorem Machine.invariant_runPart {site : Site} {allows : Feature → Prop} {J : Machine → Prop}
    {part : List Token} {m : Machine} (h : Exec.Invariant site allows fun j => J j.machine)
    (hmeets : ∀ c, Cursor.start? part = some c →
      Exec.Meets (.same site fun j => J j.machine) allows c)
    (hm : J m) : J (state (runPart site part m)) :=
  runPart_keeps hm fun c hc => h.stable.agree_statement ⟨rfl, hm⟩ (hmeets c hc)

/-- No line fails as a run that lost its place does. -/
theorem Machine.ordinary_runLine (site : Site) (tokens : List Token) :
    OrdinaryStep (runLine site tokens) := by
  have hinvariant (after : Nat) :
      Exec.Invariant { site with after := after } (fun _ => True) fun _ => True :=
    ⟨⟨trivial, trivial, fun _ _ => trivial, fun _ _ _ _ => trivial, fun _ _ _ _ _ _ _ => trivial,
      fun _ _ _ _ _ => trivial, fun _ _ _ _ => trivial⟩, fun _ _ _ _ _ => trivial,
      fun _ _ _ _ => trivial⟩
  intro m f m' hm
  have hagree : Agree site.label site.label Eq (runLine site tokens m) (runLine site tokens m) := by
    refine agree_runParts (fun part after _ m n hmn => ?_) rfl
    exact agree_runPart (hinvariant after.length).stable hmn (fun _ _ => ⟨by rw [hmn], trivial⟩)
      (fun _ _ hjk => congrArg Job.machine hjk.1)
      fun _ _ => Exec.meets_same (fun _ _ => trivial) fun _ _ _ _ => trivial
  rw [hm] at hagree
  cases hagree with
  | error f hf _ => exact hf _

end LineBasic

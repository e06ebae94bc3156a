import LineBasic.Proofs.Lines
import LineBasic.Proofs.Loop.Head
import LineBasic.Proofs.Signs

namespace LineBasic

open Outcome

namespace Machine

/-- The same but for the random numbers and the notes of signs: the variables and arrays, DATA, the
files and the terminal are as they were. -/
def Intact (m n : Machine) : Prop :=
  ∃ generator signs, n = { m with generator := generator, compared := signs }

structure SameBut (key : String) (m n : Machine) : Prop where
  rest : m.Intact { n with symbols := m.symbols }
  entries : ∀ k ≠ key, n.symbols.get? k = m.symbols.get? k

theorem Intact.refl (m : Machine) : m.Intact m := ⟨_, _, rfl⟩

theorem Intact.symbols {m n : Machine} (h : m.Intact n) : n.symbols = m.symbols := by
  obtain ⟨_, _, rfl⟩ := h
  rfl

theorem Intact.evaluated {m n : Machine} (h : m.Intact n) (site : Site) (s : Scan) :
    m.Intact (n.evaluated site s) := by
  obtain ⟨_, _, rfl⟩ := h
  exact ⟨_, _, rfl⟩

theorem Intact.sameBut {m n : Machine} (h : m.Intact n) (key : String) (e : Entry) :
    m.SameBut key { n with symbols := Assoc.put n.symbols key e } := by
  obtain ⟨_, _, rfl⟩ := h
  exact ⟨⟨_, _, rfl⟩, fun _ hk => Assoc.get?_put_of_ne _ e hk⟩

end Machine

structure Grid.SameBut (place : List Nat) (g g' : Grid) : Prop where
  sizes : g'.sizes = g.sizes
  cells : ∀ other ≠ place, g'.cell other = g.cell other

theorem Grid.sameBut_of_set {line : String} {g g' : Grid} {indices : List Value} {v : Value}
    (h : g.set line indices v = .ok g') : ∃ place, g.SameBut place g' := by
  unfold set at h
  cases hp : places line g.sizes indices with
  | error f =>
      rw [hp] at h
      cases h
  | ok place =>
      rw [hp] at h
      cases h
      refine ⟨place, rfl, fun other hother => ?_⟩
      rw [cell, cell, Assoc.get?_put_of_ne _ _ hother]

def Machine.VariableSet (name : String) (m n : Machine) : Prop :=
  m.SameBut name n ∧ ∃ v, n.symbols.get? name = some (.scalar v)

def Machine.CellSet (name : String) (m n : Machine) : Prop :=
  m.SameBut (Symbols.arrayKey name) n ∧ ∃ g g' place,
    m.symbols.get? (Symbols.arrayKey name) = some (.grid g) ∧
    n.symbols.get? (Symbols.arrayKey name) = some (.grid g') ∧ g.SameBut place g'

def Machine.Assigned (target : Token) (rest : List Token) (m n : Machine) : Prop :=
  if rest.head?.any (·.isMark .opening) then m.CellSet target.lexeme n
  else m.VariableSet target.lexeme n

inductive Outcome.Settles {α : Type} (m : Machine) (Q : Machine → Prop) :
    EStateM.Result Fault Job α → Prop
  | ok {a : α} {j : Job} (h : Q j.machine) : Settles m Q (.ok a j)
  | error {f : Fault} {j : Job} (h : m.Intact j.machine) : Settles m Q (.error f j)

namespace Exec

open Machine

variable {α β : Type} {m : Machine} {Q : Machine → Prop}

def Atomic (m : Machine) (Q : Machine → Prop) (x : Exec α) : Prop :=
  ∀ site j, m.Intact j.machine → Settles m Q (x site j)

theorem Atomic.bind {x : Exec α} {f : α → Exec β} (hx : Atomic m m.Intact x)
    (hf : ∀ a, Atomic m Q (f a)) : Atomic m Q (x >>= f) := by
  intro site j hj
  have hsettles := hx site j hj
  cases h : x site j with
  | error e j' =>
      rw [h] at hsettles
      rw [bind_error h]
      cases hsettles with
      | error hj' => exact .error hj'
  | ok a j' =>
      rw [h] at hsettles
      rw [bind_ok h]
      cases hsettles with
      | ok hj' => exact hf a site j' hj'

theorem Atomic.intact {x : Exec α} (hx : Atomic m m.Intact x) {site : Site} {j j' : Job} {a : α}
    (hj : m.Intact j.machine) (h : x site j = .ok a j') : m.Intact j'.machine := by
  have hsettles := hx site j hj
  rw [h] at hsettles
  cases hsettles with
  | ok hj' => exact hj'

theorem atomic_pure (a : α) : Atomic m m.Intact (pure a : Exec α) := fun _ _ hj => .ok hj

theorem atomic_look (g : Site → Job → α) : Atomic m m.Intact (fun site j => .ok (g site j) j) :=
  fun _ _ hj => .ok hj

theorem atomic_throw (f : Fault) : Atomic m Q (throw f : Exec α) := fun _ _ hj => .error hj

theorem atomic_line : Atomic m m.Intact line := atomic_look fun site _ => site.label

theorem atomic_fault (f : String → Fault) : Atomic m Q (line >>= fun l => throw (f l) : Exec α) :=
  atomic_line.bind fun _ => atomic_throw _

theorem atomic_ite {c : Prop} [Decidable c] {x y : Exec α} (hx : Atomic m Q x)
    (hy : Atomic m Q y) : Atomic m Q (if c then x else y) := by
  split
  · exact hx
  · exact hy

theorem atomic_machine {f : Machine → Exec α} (hf : ∀ n, m.Intact n → Atomic m Q (f n)) :
    Atomic m Q (machine >>= f) :=
  fun site j hj => hf j.machine hj site j hj

theorem atomic_modify {f : Machine → Machine} (hf : ∀ n, m.Intact n → Q (f n)) :
    Atomic m Q (modifyMachine f) :=
  fun _ j hj => .ok (j := { j with machine := f j.machine }) (hf j.machine hj)

theorem atomic_ofExcept (r : Except Fault α) : Atomic m m.Intact (ofExcept r) := by
  cases r with
  | ok a => exact atomic_pure a
  | error f => exact atomic_throw f

theorem atomic_advance : Atomic m m.Intact advance :=
  fun _ j hj => .ok (j := { j with cursor := j.cursor.advance }) hj

theorem atomic_expect (c : Category) : Atomic m m.Intact (expect c) :=
  Atomic.bind (atomic_look fun _ j => j.cursor.current) fun _ =>
    atomic_ite atomic_advance (atomic_fault _)

theorem atomic_evaluate (e : Eval α) : Atomic m m.Intact (evaluate e) := by
  intro site j hj
  unfold evaluate
  split
  · exact .ok (hj.evaluated site _)
  · exact .error (hj.evaluated site _)

theorem atomic_checkKind (name : String) (v : Value) (text number : String → Fault) :
    Atomic m m.Intact (checkKind name v text number) := by
  -- The second check comes after the first, which may have ended the step.
  have hnumber : Atomic m m.Intact (if !Symbols.isTextName name && v.isText then
      line >>= fun l => throw (number l) else pure ()) :=
    atomic_ite (atomic_fault _) (atomic_pure ())
  exact atomic_ite (atomic_line.bind fun _ => (atomic_throw _).bind fun _ => hnumber) hnumber

theorem atomic_cellSign : Atomic m m.Intact cellSign := by
  have hcompared : Atomic m m.Intact isCompared := atomic_look _
  exact hcompared.bind fun _ => atomic_ite (atomic_fault _) (atomic_expect _)

/-- The write comes last, and the indices are looked up before it. -/
theorem atomic_setCell {name : String} {g : Grid} (indices : List Value) (v : Value)
    (hg : m.symbols.get? (Symbols.arrayKey name) = some (.grid g)) :
    Atomic m (m.CellSet name) (line >>= fun l => ofExcept (g.set l indices v) >>= fun g' =>
      modifyMachine fun n =>
        { n with symbols := n.symbols.insertGrid (Symbols.arrayKey name) g' }) := by
  refine atomic_line.bind fun l => ?_
  cases hset : g.set l indices v with
  | error f => exact atomic_throw f
  | ok g' =>
      obtain ⟨place, hplace⟩ := Grid.sameBut_of_set hset
      have hmodify : Atomic m (m.CellSet name) (modifyMachine fun n =>
          { n with symbols := n.symbols.insertGrid (Symbols.arrayKey name) g' }) :=
        atomic_modify fun n hn =>
          ⟨hn.sameBut _ (.grid g'), g, g', place, hg, Assoc.get?_put_self _ _ _, hplace⟩
      exact hmodify

theorem atomic_assignCell (name : String) : Atomic m (m.CellSet name) (assignCell name) := by
  refine (atomic_expect _).bind fun _ => (atomic_evaluate _).bind fun indices => ?_
  refine atomic_machine fun n hn => ?_
  split
  · exact atomic_fault _
  · exact atomic_throw _
  · rename_i g hg
    rw [hn.symbols] at hg
    refine atomic_line.bind fun l => (atomic_ofExcept _).bind fun _ => ?_
    refine (atomic_expect _).bind fun _ => atomic_cellSign.bind fun _ => ?_
    refine (atomic_evaluate _).bind fun v => (atomic_checkKind name v _ _).bind fun _ => ?_
    exact atomic_setCell indices v hg

theorem atomic_storeValue (name : String) :
    Atomic m (m.VariableSet name) (storeValue name) := by
  refine (atomic_evaluate _).bind fun v => (atomic_checkKind name v _ _).bind fun _ => ?_
  refine atomic_modify fun n hn => ⟨hn.sameBut name (.scalar v), v, ?_⟩
  exact Assoc.get?_put_self _ _ _

variable {site : Site} {lead : Option Token} {target : Token}

theorem isMark_next (htarget : target.category = some .name) (rest : List Token) :
    (Cursor.current ⟨target, rest, 0⟩).isMark .opening = rest.head?.any (·.isMark .opening) := by
  cases rest with
  | nil => simp [Cursor.current, Token.isMark, htarget]
  | cons t ts => rfl

theorem settles_assignment (htarget : target.category = some .name) (last : Token)
    (rest : List Token) :
    Settles m (m.Assigned target rest) (assignment site ⟨⟨last, target :: rest, 0⟩, m⟩) := by
  unfold assignment
  rw [lexeme_bind, advance_bind]
  show Settles _ _ ((if (Cursor.current ⟨target, rest, 0⟩).isMark .opening then
    assignCell target.lexeme else _ : Exec Unit) site ⟨⟨target, rest, 0⟩, m⟩)
  rw [isMark_next htarget]
  unfold Assigned
  split
  · exact atomic_assignCell _ site _ (.refl m)
  · exact (atomic_expect _).bind (fun _ => atomic_storeValue _) site _ (.refl m)

theorem statement_assignment (hlead : ∀ t ∈ lead, t.isKeyword .LET)
    (htarget : target.category = some .name) (rest : List Token) :
    ∃ t ts last, lead.toList ++ target :: rest = t :: ts ∧
      statement site ⟨⟨t, t :: ts, 0⟩, m⟩ =
        (assignment >>= fun _ => pure none) site ⟨⟨last, target :: rest, 0⟩, m⟩ := by
  cases lead with
  | none => exact ⟨target, rest, target, rfl, statement_name htarget⟩
  | some t =>
      have hlet : t.category = some (.keyword .LET) := beq_iff_eq.mp (hlead t rfl)
      exact ⟨t, target :: rest, t, rfl, statement_let hlet⟩

end Exec

namespace Machine

variable {site : Site} {m : Machine} {lead : Option Token} {target : Token} {rest : List Token}

theorem runPart_assignment (hlead : ∀ t ∈ lead, t.isKeyword .LET)
    (htarget : target.category = some .name) :
    (∀ f n, runPart site (lead.toList ++ target :: rest) m = .error f n → m.Intact n) ∧
      ∀ flow n, runPart site (lead.toList ++ target :: rest) m = .ok flow n →
        flow = none ∧ m.Assigned target rest n := by
  obtain ⟨t, ts, last, htokens, hstatement⟩ := Exec.statement_assignment hlead htarget rest
  rw [htokens, runPart_cons, hstatement]
  have hsettles : Settles m (m.Assigned target rest)
      (Exec.assignment site ⟨⟨last, target :: rest, 0⟩, m⟩) :=
    Exec.settles_assignment htarget last rest
  cases h : Exec.assignment site ⟨⟨last, target :: rest, 0⟩, m⟩ with
  | error f j =>
      rw [h] at hsettles
      rw [Exec.bind_error h]
      cases hsettles with
      | error hj =>
          refine ⟨fun _ _ heq => ?_, fun _ _ heq => ?_⟩
          · cases heq
            exact hj
          · cases heq
  | ok u j =>
      rw [h] at hsettles
      rw [Exec.bind_ok h]
      cases hsettles with
      | ok hj =>
          refine ⟨fun _ _ heq => ?_, fun _ _ heq => ?_⟩
          · cases heq
          · cases heq
            exact ⟨rfl, hj⟩

/-- An assignment writes last: one that fails leaves all as it was, and one that succeeds changes
the variable or one cell of the array that it names. -/
theorem runLine_assignment (hlead : ∀ t ∈ lead, t.isKeyword .LET)
    (htarget : target.category = some .name) (hrest : ∀ t ∈ rest, ¬ t.isMark .colon) :
    (∀ f n, runLine site (lead.toList ++ target :: rest) m = .error f n → m.Intact n) ∧
      ∀ flow n, runLine site (lead.toList ++ target :: rest) m = .ok flow n →
        flow = none ∧ m.Assigned target rest n := by
  have hwithout : Without .colon ((lead.toList ++ target :: rest).map Token.face) := by
    intro face hface
    obtain ⟨t, ht, rfl⟩ := List.mem_map.mp hface
    rcases List.mem_append.mp ht with ht | ht
    · have hlet := hlead t (Option.mem_toList.mp ht)
      simp [Token.face, beq_iff_eq.mp hlet]
    · rcases List.mem_cons.mp ht with rfl | ht
      · simp [Token.face, htarget]
      · exact fun hcolon => hrest t ht (beq_iff_eq.mpr hcolon)
  rw [runLine_of_split (splitColons_of_without hwithout)]
  exact runPart_assignment hlead htarget

theorem runLine_assignment_cell :
    let cell (i : String) : List Token :=
      [.mark .opening "(", .number i, .mark .closing ")", .mark .equals "=", .number "7"]
    let set : Token := .word .LET "LET"
    let a : Token := .name "A"
    let m : Machine :=
      { Machine.blank with
        symbols := [("A", .scalar (.int 3)), (Symbols.arrayKey "A", .grid ⟨[4], []⟩)] }
    (∃ n, runLine "10" ([set] ++ a :: cell "1") m = .ok none n ∧ m.CellSet "A" n ∧
      n.symbols.get? "A" = some (.scalar (.int 3))) ∧
    ∃ n, runLine "10" ([] ++ a :: cell "9") m = .error (.indexRange "10") n ∧ m.Intact n := by
  intro cell set a m
  have hcolon (i : String) : ∀ t ∈ cell i, ¬ t.isMark .colon := by
    simp [cell, Token.mark, Token.number, Token.isMark]
  have hinner := eq_of_value? (r := runLine "10" ([set] ++ a :: cell "1") m) (a := none)
    (by decide +kernel)
  have houter := eq_of_fault? (r := runLine "10" ([] ++ a :: cell "9") m)
    (e := .indexRange "10") (by decide +kernel)
  have hlet : ∀ t ∈ some set, t.isKeyword .LET := by simp [set, Token.word, Token.isKeyword]
  have hnone : ∀ t ∈ (none : Option Token), t.isKeyword .LET := by simp
  have hset := (runLine_assignment hlet rfl (hcolon "1")).2 _ _ hinner
  have hintact := (runLine_assignment hnone rfl (hcolon "9")).1 _ _ houter
  exact ⟨⟨_, hinner, hset.2, hset.2.1.entries "A" (by decide)⟩, _, houter, hintact⟩

end Machine

end LineBasic

import LineBasic.Proofs.Agreement
import LineBasic.Proofs.Lines
import LineBasic.Token.Lexer

namespace LineBasic

open Outcome

def Value.passesForText : Value → Bool
  | real _ | truth _ => true
  | int _ | text _ => false

theorem Value.passesForText_iff {v : Value} :
    v.passesForText ↔ v.isText = false ∧ ∀ n, v ≠ .int n := by
  cases v <;> simp [passesForText, isText]

namespace Symbols

def scalar? (table : Symbols) (name : String) : Option Value :=
  match table.get? name with
  | some (.scalar v) => some v
  | _ => none

def Holds (P : String → Value → Prop) (table : Symbols) : Prop :=
  ∀ name v, table.scalar? name = some v → P name v

def Typed (table : Symbols) : Prop := table.Holds fun name v => v.isText = isTextName name

variable {P Q : String → Value → Prop} {table : Symbols}

theorem holds_nil : Holds P [] := fun _ _ h => nomatch h

theorem scalar?_insert (table : Symbols) (key name : String) (v : Value) :
    (table.insert key v).scalar? name = if name = key then some v else table.scalar? name := by
  by_cases h : name = key
  · simp [h, scalar?, insert]
  · simp [h, scalar?, insert, Assoc.get?_put_of_ne]

theorem scalar?_insertGrid (table : Symbols) (key name : String) (g : Grid) :
    (table.insertGrid key g).scalar? name = if name = key then none else table.scalar? name := by
  by_cases h : name = key
  · simp [h, scalar?, insertGrid]
  · simp [h, scalar?, insertGrid, Assoc.get?_put_of_ne]

theorem Holds.insert (h : table.Holds P) {key : String} {v : Value} (hv : P key v) :
    (table.insert key v).Holds P := by
  intro name w hw
  rw [scalar?_insert] at hw
  split at hw
  · rename_i hname
    cases hw
    exact hname ▸ hv
  · exact h name w hw

theorem Holds.insertGrid (h : table.Holds P) (key : String) (g : Grid) :
    (table.insertGrid key g).Holds P := by
  intro name w hw
  rw [scalar?_insertGrid] at hw
  split at hw
  · cases hw
  · exact h name w hw

end Symbols

/-- Whether a statement may have stored the value in the variable against its name: a text in the
variable of a loop, or a number in a text variable that is read. -/
def strays (part : List Token) (name : String) (v : Value) : Bool :=
  part.head?.any fun t =>
    if t.isKeyword .FOR then
      part[1]?.any (·.lexeme == name) && !Symbols.isTextName name && v.isText
    else t.isKeyword .READ && part.any (·.lexeme == name) && Symbols.isTextName name &&
      v.passesForText

def slips (part : List Token) (table : Symbols) : Bool :=
  part.any fun u => (table.scalar? u.lexeme).any (strays part u.lexeme)

section Strays

variable {part : List Token} {name : String} {v : Value}

theorem kind_or_strays_of_for {t u : Token} {us : List Token}
    (ht : t.category = some (.keyword .FOR)) (hu : Symbols.isTextName u.lexeme = false) :
    v.isText = Symbols.isTextName u.lexeme ∨ strays (t :: u :: us) u.lexeme v := by
  cases hv : v.isText <;> simp [strays, Token.isKeyword, ht, hu, hv]

theorem kind_or_strays_of_read {t u : Token} {ts : List Token}
    (ht : t.category = some (.keyword .READ)) (hu : u ∈ t :: ts)
    (hname : Symbols.isTextName u.lexeme) (hv : ∀ n, v ≠ .int n) :
    v.isText = Symbols.isTextName u.lexeme ∨ strays (t :: ts) u.lexeme v := by
  cases v with
  | text s => exact .inl hname.symm
  | int n => exact absurd rfl (hv n)
  | real | truth =>
      right
      have hany : (t :: ts).any (·.lexeme == u.lexeme) := List.any_eq_true.mpr ⟨u, hu, by simp⟩
      simp [strays, Token.isKeyword, ht, hname, Value.passesForText, hany]

theorem isText_ne_of_strays (h : strays part name v) : v.isText ≠ Symbols.isTextName name := by
  obtain ⟨t, -, h⟩ := (Option.any_eq_true _ _).mp h
  split at h
  · simp only [Bool.and_eq_true, Bool.not_eq_true'] at h
    simp [h]
  · simp only [Bool.and_eq_true, Value.passesForText_iff] at h
    simp [h]

theorem exists_of_strays (h : strays part name v) : ∃ u ∈ part, u.lexeme = name := by
  obtain ⟨t, -, h⟩ := (Option.any_eq_true _ _).mp h
  split at h
  · simp only [Bool.and_eq_true] at h
    obtain ⟨u, hu, hname⟩ := (Option.any_eq_true _ _).mp h.1.1
    exact ⟨u, List.mem_of_getElem? hu, beq_iff_eq.mp hname⟩
  · simp only [Bool.and_eq_true, List.any_eq_true, beq_iff_eq] at h
    exact h.1.1.2

theorem typed_iff_not_slips {table : Symbols}
    (h : table.Holds fun name v => v.isText = Symbols.isTextName name ∨ strays part name v) :
    table.Typed ↔ slips part table = false := by
  rw [Bool.eq_false_iff]
  constructor
  · intro htyped hslips
    obtain ⟨u, -, hu⟩ := List.any_eq_true.mp hslips
    obtain ⟨v, hv, hstrays⟩ := (Option.any_eq_true _ _).mp hu
    exact isText_ne_of_strays hstrays (htyped _ _ hv)
  · intro hslips name v hv
    refine (h name v hv).resolve_right fun hstrays => hslips ?_
    obtain ⟨u, hu, rfl⟩ := exists_of_strays hstrays
    exact List.any_eq_true.mpr ⟨u, hu, (Option.any_eq_true _ _).mpr ⟨v, hv, hstrays⟩⟩

end Strays

namespace Exec

variable {site : Site} {P : String → Value → Prop}

theorem invariant_holds (hP : ∀ name v, v.isText = Symbols.isTextName name → P name v) :
    Invariant site (fun _ => True) fun j => j.machine.symbols.Holds P where
  files := trivial
  grids := trivial
  advance := fun _ h => h
  evaluated := fun _ _ h _ => h
  frame := fun _ m h hsymbols _ _ _ => by rwa [hsymbols]
  store := fun _ name v h hkind => h.insert (hP name v hkind)
  grid := fun _ key g h => h.insertGrid key g
  pointer := fun _ _ _ h _ => h
  pending := fun _ _ _ h => h

theorem meets_strays {t : Token} {ts : List Token} :
    Meets (.same site fun j => j.machine.symbols.Holds fun name v =>
      v.isText = Symbols.isTextName name ∨ strays (t :: ts) name v) (fun _ => True)
      ⟨t, t :: ts, 0⟩ where
  needs := fun _ _ => trivial
  flow := fun _ _ _ hjk => hjk.1 ▸ rfl
  loop := by
    intro hfor hequals hname v
    refine keeps_modify_of_invariant fun j hj => hj.insert ?_
    cases ts with
    | nil => cases (show t.category = _ from hfor).symm.trans hequals
    | cons u us => exact kind_or_strays_of_for hfor hname
  read := by
    intro hread i hname v hv
    refine keeps_modify_of_invariant fun j hj => hj.insert ?_
    have hmem : (Cursor.pass i ⟨t, t :: ts, 0⟩).current ∈ t :: ts := by
      simpa [Cursor.current] using Cursor.current_pass_mem ⟨t, t :: ts, 0⟩ i
    exact kind_or_strays_of_read hread hmem hname hv

end Exec

/-- Where the variables hold what their names say, they do so after a statement as well, unless it
is a FOR or a READ that slips. -/
theorem Machine.typed_runPart_iff {site : Site} {part : List Token} {m : Machine}
    (hm : m.symbols.Typed) :
    (state (runPart site part m)).symbols.Typed ↔
      slips part (state (runPart site part m)).symbols = false := by
  refine typed_iff_not_slips ?_
  refine invariant_runPart (J := fun n => n.symbols.Holds fun name v =>
      v.isText = Symbols.isTextName name ∨ strays part name v)
    (Exec.invariant_holds fun _ _ => .inl) (fun c hc => ?_) fun name v hv => .inl (hm name v hv)
  cases part <;> cases hc
  exact Exec.meets_strays

structure Turn where
  site : Site
  part : List Token
  machine : Machine

def Turn.after (t : Turn) : Machine := state (t.machine.runPart t.site t.part)

/-- Each statement finds the variables as the one before it left them. All else may have changed in
between. -/
def Consecutive : Symbols → List Turn → Prop
  | _, [] => True
  | table, t :: ts => t.machine.symbols = table ∧ Consecutive t.after.symbols ts

/-- From no variables on, and whatever statements are carried out: all variables hold what their
names say all the time, exactly if no FOR gives its variable a text and no READ gives a text
variable a number. -/
theorem kinds_follow_names_iff (turns : List Turn) (h : Consecutive [] turns) :
    (∀ t ∈ turns, t.after.symbols.Typed) ↔
      ∀ t ∈ turns, slips t.part t.after.symbols = false := by
  have htyped : Symbols.Typed [] := Symbols.holds_nil
  generalize ([] : Symbols) = table at h htyped
  induction turns generalizing table with
  | nil => simp
  | cons t ts ih =>
      obtain ⟨rfl, hrest⟩ := h
      rw [List.forall_mem_cons, List.forall_mem_cons]
      have hstep : t.after.symbols.Typed ↔ slips t.part t.after.symbols = false :=
        Machine.typed_runPart_iff htyped
      rw [← hstep]
      exact and_congr_right fun hafter => ih _ hrest hafter

theorem kinds_follow_names_iff_loop :
    let m : Machine :=
      { Machine.blank with data := DataStore.empty.add 10 (tokensOf "DATA 1.5, 2") }
    let first : Turn := ⟨"10", tokensOf "FOR I = 1 TO 2", m⟩
    let second : Turn := ⟨"20", tokensOf "READ A, B", first.after⟩
    Consecutive [] [first, second] ∧ ∀ t ∈ [first, second], t.after.symbols.Typed := by
  intro m first second
  have hturns : Consecutive [] [first, second] := ⟨rfl, rfl, trivial⟩
  refine ⟨hturns, (kinds_follow_names_iff _ hturns).mpr ?_⟩
  simp only [List.forall_mem_cons]
  refine ⟨by decide +kernel, by decide +kernel, fun _ h => nomatch h⟩

/-- A loop from one text to another gives its variable a text, and READ gives a text variable a
number with a fraction. -/
theorem kinds_slip :
    let m : Machine := { Machine.blank with data := DataStore.empty.add 10 (tokensOf "DATA 1.5") }
    let first : Turn := ⟨"10", tokensOf "READ A$", m⟩
    let second : Turn := ⟨"20", tokensOf "FOR I = \"A\" TO \"B\"", m⟩
    (∃ x, first.after.symbols.scalar? "A$" = some (.real x)) ∧
      second.after.symbols.scalar? "I" = some (.text "A") := by
  intro m first second
  refine ⟨?_, by decide +kernel⟩
  have hreal : (first.after.symbols.scalar? "A$").map Value.kind = some "float" := by
    decide +kernel
  obtain ⟨v, hv, hkind⟩ := Option.map_eq_some_iff.mp hreal
  cases v with
  | real x => exact ⟨x, hv⟩
  | _ => simp [Value.kind] at hkind

end LineBasic

import LineBasic.Proofs.Assignment
import LineBasic.Proofs.Kinds
import LineBasic.Proofs.Lines
import LineBasic.Proofs.Spelling
import LineBasic.Proofs.Split.Line
import LineBasic.Proofs.VariableList

namespace LineBasic

open Outcome Text

namespace Text

def Capital (s : List Char) : Prop := ∀ c ∈ s, c.toUpper = c

theorem capital_upper {s : List Char} (h : ∀ c ∈ s, c.toNat < 128) : Capital (upper s) := by
  intro d hd
  rw [upper_eq_map h] at hd
  obtain ⟨c, hc, rfl⟩ := List.mem_map.mp hd
  exact toUpper_toUpper (h c hc)

end Text

namespace Token

def IsWord (c : Option Category) : Prop := c = some .name ∨ ∃ k, k ≠ .REM ∧ c = some (.keyword k)

theorem Lexeme.capital {src after : List Char} {f : Face} (h : Lexeme src f after)
    (hs : ∀ c ∈ src, c.toNat < 128) (hf : IsWord f.1) : Capital f.2.toList := by
  cases h with
  | @word c s after letter digit name stops plain =>
      show Capital (String.ofList (upper (c :: s))).toList
      rw [String.toList_ofList]
      refine capital_upper fun b hb => hs b ?_
      rw [← List.cons_append]
      exact List.mem_append_left after hb
  | _ => simp [IsWord] at hf

theorem Lexemes.capital {s : List Char} {fs : List Face} (h : Lexemes s fs)
    (hs : ∀ c ∈ s, c.toNat < 128) {f : Face} (hmem : f ∈ fs) (hf : IsWord f.1) :
    Capital f.2.toList := by
  induction h with
  | done => cases hmem
  | blank =>
      cases List.mem_singleton.mp hmem
      simp [IsWord] at hf
  | @token s src after f' fs skip head tail ih =>
      have hsrc : ∀ c ∈ src, c.toNat < 128 := fun c hc =>
        hs c ((skip ▸ List.dropWhile_suffix isBlank).subset hc)
      rcases List.mem_cons.mp hmem with rfl | hmem
      · exact head.capital hsrc hf
      · exact ih (fun c hc => hsrc c (head.suffix.subset hc)) hmem

end Token

def FromAscii (part : List Token) : Prop :=
  ∃ text tokens, (∀ c ∈ text.toList, c.toNat < 128) ∧ tokenize text = .ok tokens ∧
    part ∈ splitColons tokens

theorem FromAscii.capital {part : List Token} (h : FromAscii part) {t : Token} (ht : t ∈ part)
    (hword : Token.IsWord t.category) : Capital t.lexeme.toList := by
  obtain ⟨text, tokens, hascii, htokens, hpart⟩ := h
  have hmem : t.face ∈ tokens.map Token.face :=
    List.mem_map_of_mem (mem_of_mem_splitColons hpart ht)
  exact (Token.lexemes_of_scanAll htokens).capital hascii hmem hword

namespace Symbols

def grid? (table : Symbols) (key : String) : Option Grid :=
  match table.get? key with
  | some (.grid g) => some g
  | _ => none

theorem grid?_insert (table : Symbols) (key k : String) (v : Value) :
    (table.insert key v).grid? k = if k = key then none else table.grid? k := by
  by_cases h : k = key
  · simp [h, grid?, insert]
  · simp [h, grid?, insert, Assoc.get?_put_of_ne]

theorem grid?_insertGrid (table : Symbols) (key k : String) (g : Grid) :
    (table.insertGrid key g).grid? k = if k = key then some g else table.grid? k := by
  by_cases h : k = key
  · simp [h, grid?, insertGrid]
  · simp [h, grid?, insertGrid, Assoc.get?_put_of_ne]

theorem not_capital_arrayKey (name : String) : ¬ Capital (arrayKey name).toList := by
  intro h
  have hy : 'y' ∈ (arrayKey name).toList := by simp [arrayKey]
  exact absurd (h 'y' hy) (by decide)

structure Separate (table : Symbols) : Prop where
  scalars : ∀ key v, table.scalar? key = some v → Capital key.toList
  grids : ∀ key g, table.grid? key = some g → ∃ name, key = arrayKey name

namespace Separate

variable {table : Symbols} {name : String}

theorem nil : Separate [] := ⟨fun _ _ h => (nomatch h), fun _ _ h => (nomatch h)⟩

theorem grid?_eq_none (h : table.Separate) (hname : Capital name.toList) :
    table.grid? name = none := by
  refine Option.eq_none_iff_forall_ne_some.mpr fun g hg => ?_
  obtain ⟨key, rfl⟩ := h.grids name g hg
  exact not_capital_arrayKey key hname

theorem scalar?_arrayKey (h : table.Separate) (name : String) :
    table.scalar? (arrayKey name) = none :=
  Option.eq_none_iff_forall_ne_some.mpr fun v hv =>
    not_capital_arrayKey name (h.scalars _ v hv)

/-- A variable does not take the place of an array. -/
theorem grid?_insert (h : table.Separate) (hname : Capital name.toList) (v : Value)
    (key : String) : (table.insert name v).grid? key = table.grid? key := by
  rw [Symbols.grid?_insert]
  split
  · rename_i hkey
    rw [hkey, h.grid?_eq_none hname]
  · rfl

/-- An array does not take the place of a variable. -/
theorem scalar?_insertGrid (h : table.Separate) (name : String) (g : Grid) (key : String) :
    (table.insertGrid (arrayKey name) g).scalar? key = table.scalar? key := by
  rw [Symbols.scalar?_insertGrid]
  split
  · rename_i hkey
    rw [hkey, h.scalar?_arrayKey]
  · rfl

theorem insert (h : table.Separate) (hname : Capital name.toList) (v : Value) :
    (table.insert name v).Separate := by
  refine ⟨fun key w hw => ?_, fun key g hg => h.grids key g ?_⟩
  · rw [scalar?_insert] at hw
    split at hw
    · rename_i hkey
      rwa [hkey]
    · exact h.scalars key w hw
  · rwa [h.grid?_insert hname] at hg

theorem insertGrid (h : table.Separate) (name : String) (g : Grid) :
    (table.insertGrid (arrayKey name) g).Separate := by
  refine ⟨fun key v hv => h.scalars key v ?_, fun key g' hg => ?_⟩
  · rwa [h.scalar?_insertGrid] at hv
  · rw [grid?_insertGrid] at hg
    split at hg
    · exact ⟨name, ‹_›⟩
    · exact h.grids key g' hg

end Separate

end Symbols

def behindCommas : List Token → List Token
  | comma :: t :: ts => if comma.isMark .comma then t :: behindCommas ts else []
  | _ => []

def variableList : List Token → List Token
  | [] => []
  | t :: ts => t :: behindCommas ts

/-- The tokens under which LET, FOR, READ or INPUT is to store something. Those of INPUT come after
its file and its prompt. -/
def Machine.targets (site : Site) (m : Machine) : List Token → List Token
  | [] => []
  | t :: ts =>
      if t.isKeyword .LET || t.isKeyword .FOR then ts.take 1
      else if t.isKeyword .READ then variableList ts
      else if t.isKeyword .INPUT then
        match Exec.inputLead site ⟨⟨t, t :: ts, 0⟩, m⟩ with
        | .ok _ j => variableList j.cursor.rest
        | .error _ _ => []
      else []

inductive Stored
  | scalars | grids
  deriving DecidableEq

def assigned (rest : List Token) : Stored :=
  if rest.head?.any (·.isMark .opening) then .grids else .scalars

def stores? : List Token → Option Stored
  | [] => none
  | t :: ts =>
      match t.category with
      | some (.keyword .FOR) | some (.keyword .READ) | some (.keyword .INPUT) => some .scalars
      | some (.keyword .DIM) => some .grids
      | some (.keyword .LET) => some (assigned ts.tail)
      | some .name => some (assigned ts)
      | _ => none

theorem behindCommas_subset : ∀ ts : List Token, behindCommas ts ⊆ ts
  | [] | [_] => List.nil_subset _
  | comma :: t :: ts => by
      rw [behindCommas]
      split
      · have hrest := List.cons_subset_cons t (behindCommas_subset ts)
        exact List.Subset.trans hrest (List.subset_cons_self _ _)
      · exact List.nil_subset _

theorem variableList_subset (ts : List Token) : variableList ts ⊆ ts := by
  cases ts with
  | nil => exact List.nil_subset _
  | cons t ts => exact List.cons_subset_cons t (behindCommas_subset ts)

namespace Exec

variable {site : Site} {m : Machine}

theorem exists_behindCommas {n : Nat} {c : Cursor} {names : List String} {j : Job}
    (h : moreNames n site ⟨c, m⟩ = .ok names j) :
    ∀ name ∈ names, ∃ t ∈ behindCommas c.rest, t.lexeme = name := by
  induction n generalizing c names with
  | zero =>
      cases h
      exact fun _ hname => nomatch hname
  | succ n ih =>
      rw [moreNames_succ] at h
      split at h
      · rename_i hcomma
        split at h
        · cases h
        · rename_i hend
          obtain ⟨names, j', hnames, h⟩ := of_bind_ok h
          cases h
          -- A comma with a token behind it is there, or else the list would have ended.
          obtain ⟨last, rest, k⟩ := c
          match rest with
          | [] => exact absurd rfl hend
          | [_] => exact absurd rfl hend
          | comma :: t :: ts =>
              have hlist : behindCommas (comma :: t :: ts) = t :: behindCommas ts := if_pos hcomma
              rw [hlist, List.forall_mem_cons]
              refine ⟨⟨t, List.mem_cons_self, rfl⟩, fun name hname => ?_⟩
              obtain ⟨u, hu, hlexeme⟩ := ih hnames name hname
              exact ⟨u, List.mem_cons_of_mem t hu, hlexeme⟩
      · cases h
        exact fun _ hname => nomatch hname

theorem exists_variableList {c : Cursor} {names : List String} {j : Job} (hc : ¬ c.atEnd)
    (h : nameList site ⟨c, m⟩ = .ok names j) :
    ∀ name ∈ names, ∃ t ∈ variableList c.rest, t.lexeme = name := by
  obtain ⟨last, rest, k⟩ := c
  cases rest with
  | nil => exact absurd rfl hc
  | cons t ts =>
      rw [nameList_eq] at h
      obtain ⟨names, j', hnames, h⟩ := of_bind_ok h
      cases h
      rw [variableList, List.forall_mem_cons]
      refine ⟨⟨t, List.mem_cons_self, rfl⟩, fun name hname => ?_⟩
      obtain ⟨u, hu, hlexeme⟩ := exists_behindCommas hnames name hname
      exact ⟨u, List.mem_cons_of_mem t hu, hlexeme⟩

theorem exists_variableList_of_inputNames {c : Cursor} {names : List String} {j : Job}
    (h : inputNames site ⟨c, m⟩ = .ok names j) :
    ∀ name ∈ names, ∃ t ∈ variableList c.rest, t.lexeme = name := by
  unfold inputNames at h
  rw [atEnd_bind] at h
  split at h
  · cases h
    exact fun _ hname => nomatch hname
  · rename_i hc
    rw [current_bind] at h
    split at h
    · exact exists_variableList hc h
    · cases h

theorem exists_pass_of_inputLead {c : Cursor} {prompt : Value} {j : Job}
    (h : inputLead site ⟨c, m⟩ = .ok prompt j) : ∃ k, j.cursor = c.pass k := by
  have hpassive := (invariant_noted site m.compared c).passive
  have hlead : Keeps (.same site (Noted site m.compared c)) inputLead :=
    hpassive.advance.bind fun _ => hpassive.keeps_inputSource.bind fun source =>
      hpassive.keeps_inputPrompt source
  have hstart : Noted site m.compared c ⟨c, m⟩ := ⟨⟨0, rfl⟩, fun _ hsign => .inl hsign⟩
  obtain ⟨_, -, -, hnoted⟩ := hlead.ok ⟨rfl, hstart⟩ h
  exact hnoted.cursor

theorem lasting_symbols (site : Site) (Q : Symbols → Prop) :
    Lasting site (fun _ => True) fun j => Q j.machine.symbols where
  files := trivial
  grids := trivial
  advance := fun _ h => h
  evaluated := fun _ _ h _ => h
  frame := fun _ _ h hsymbols _ _ _ => hsymbols ▸ h
  pointer := fun _ _ _ h _ => h
  pending := fun _ _ _ h => h

end Exec

structure Stored.Admits (stored : Option Stored) (Q : Symbols → Prop) : Prop where
  scalars : stored = some .scalars → ∀ table name v, Capital name.toList → Q table →
    Q (table.insert name v)
  grids : stored = some .grids → ∀ table name g, Q table →
    Q (table.insertGrid (Symbols.arrayKey name) g)

namespace Exec

open Stored (Admits)

variable {site : Site} {m : Machine} {Q : Symbols → Prop}

theorem keeps_scalar {name : String} (h : Admits (some .scalars) Q)
    (hname : Capital name.toList) (v : Value) :
    Keeps (.same site fun j => Q j.machine.symbols) (assign name v) :=
  keeps_modify_of_invariant fun _ hj => h.scalars rfl _ name v hname hj

theorem keeps_grid (h : Admits (some .grids) Q) (name : String) (g : Grid) :
    Keeps (.same site fun j => Q j.machine.symbols) (modifyMachine fun m =>
      { m with symbols := m.symbols.insertGrid (Symbols.arrayKey name) g }) :=
  keeps_modify_of_invariant fun _ hj => h.grids rfl _ name g hj

theorem keepsAt_assignment {c : Cursor} {stored : Stored} (h : Admits (some stored) Q)
    (hstored : stored = if c.advance.current.isMark .opening then .grids else .scalars)
    (hname : Capital c.current.lexeme.toList) (hm : Q m.symbols) :
    KeepsAt (.same site fun j => Q j.machine.symbols) ⟨c, m⟩ ⟨c, m⟩ assignment := by
  refine (lasting_symbols site Q).passive.agree_assignment ⟨rfl, hm⟩ (fun hopen _ g => ?_)
    fun hopen v _ => ?_
  · rw [if_pos hopen] at hstored
    subst hstored
    exact keeps_grid h _ g
  · rw [if_neg hopen] at hstored
    subst hstored
    exact keeps_scalar h hname v

variable {t : Token} {ts : List Token}

theorem assigned_eq (ht : t.category = some .name) (rest : List Token) :
    assigned rest =
      if (Cursor.current ⟨t, rest, 0⟩).isMark .opening then .grids else .scalars := by
  rw [isMark_next ht]
  rfl

/-- Where nothing follows LET or FOR, it stays the current token itself. -/
theorem capital_target (hascii : FromAscii (t :: ts))
    (hnames : ∀ u ∈ m.targets site (t :: ts), u.category = some .name) {k : Keyword}
    (hk : k = .LET ∨ k = .FOR) (ht : t.category = some (.keyword k)) :
    Capital (Cursor.current ⟨t, ts, 0⟩).lexeme.toList := by
  cases ts with
  | nil =>
      refine hascii.capital List.mem_cons_self (.inr ⟨k, ?_, ht⟩)
      rcases hk with rfl | rfl <;> decide
  | cons u us =>
      have hlead : (t.isKeyword .LET || t.isKeyword .FOR) = true := by
        rcases hk with rfl | rfl <;> simp [Token.isKeyword, ht]
      have hu : u ∈ m.targets site (t :: u :: us) := by simp [Machine.targets, hlead]
      exact hascii.capital (List.mem_cons_of_mem t List.mem_cons_self) (.inl (hnames u hu))

/-- The only place where the six statements that store something are gone through. -/
theorem stores_symbols (hascii : FromAscii (t :: ts))
    (hnames : ∀ u ∈ m.targets site (t :: ts), u.category = some .name)
    (h : Admits (stores? (t :: ts)) Q) (hm : Q m.symbols) :
    Stores (.same site fun j => Q j.machine.symbols) ⟨⟨t, t :: ts, 0⟩, m⟩
      ⟨⟨t, t :: ts, 0⟩, m⟩ := by
  have hpassive := (lasting_symbols site Q).passive
  have hlist {us : List Token} (hus : us ⊆ t :: ts)
      (htargets : variableList us ⊆ m.targets site (t :: ts)) {u : Token}
      (hu : u ∈ variableList us) : Capital u.lexeme.toList :=
    hascii.capital (hus (variableList_subset us hu)) (.inl (hnames u (htargets hu)))
  unfold stores? at h
  refine ⟨fun hc => ?_, fun hc => ?_, fun hc => ?_, fun hc => ?_, fun hc => ?_, fun hc => ?_⟩
  all_goals
    have ht : t.category = _ := hc
    simp only [ht] at h
  · -- FOR
    refine hpassive.agree_loopHead ⟨rfl, hm⟩ (fun hjk => hjk.1 ▸ rfl) fun _ _ v => ?_
    exact keeps_scalar h (capital_target hascii hnames (.inr rfl) ht) v
  · -- An assignment that starts with its target.
    refine keepsAt_assignment h ?_ (hascii.capital List.mem_cons_self (.inl ht)) hm
    exact assigned_eq ht ts
  · -- LET
    refine keepsAt_assignment (c := ⟨t, ts, 0⟩) h ?_
      (capital_target hascii hnames (.inl rfl) ht) hm
    cases ts with
    | nil => simp [assigned, Cursor.advance, Cursor.current, Token.isMark, ht]
    | cons u us =>
        have hu : u ∈ m.targets site (t :: u :: us) := by
          simp [Machine.targets, Token.isKeyword, ht]
        exact assigned_eq (hnames u hu) us
  · -- INPUT
    refine hpassive.agree_input ⟨rfl, hm⟩ fun prompt j₁ names j₂ hlead hj₂ name hname v _ => ?_
    obtain ⟨k, hk⟩ := exists_pass_of_inputLead hlead
    obtain ⟨u, hu, rfl⟩ := exists_variableList_of_inputNames hj₂ name hname
    refine keeps_scalar h (hlist ?_ ?_ hu) v
    · rw [hk]
      exact (Cursor.rest_pass_suffix ⟨t, t :: ts, 0⟩ k).subset
    · have hlead' : inputLead site ⟨⟨t, t :: ts, 0⟩, m⟩ = .ok prompt j₁ := hlead
      simp [Machine.targets, Token.isKeyword, ht, hlead']
  · exact hpassive.keeps_dimensions (keeps_grid h) _ _ ⟨rfl, hm⟩
  · -- READ
    refine hpassive.agree_readData trivial ⟨rfl, hm⟩ fun names j' hmore hj' name hname _ _ v _ => ?_
    obtain ⟨u, hu, rfl⟩ := exists_variableList hmore hj' name hname
    refine keeps_scalar h (hlist (List.subset_cons_self t ts) ?_ hu) v
    simp [Machine.targets, Token.isKeyword, ht]

end Exec

namespace Machine

variable {site : Site} {m : Machine} {part : List Token}

/-- What a statement stores is all that it does to the table. -/
theorem symbols_runPart {Q : Symbols → Prop} (hascii : FromAscii part)
    (hnames : ∀ u ∈ m.targets site part, u.category = some .name)
    (h : Stored.Admits (stores? part) Q) (hm : Q m.symbols) :
    Q (state (runPart site part m)).symbols := by
  refine runPart_keeps (J := fun n => Q n.symbols) hm fun c hc => ?_
  cases part <;> cases hc
  exact (Exec.lasting_symbols site Q).passive.agree_statement ⟨rfl, hm⟩ (fun _ _ => trivial)
    (Exec.stores_symbols hascii hnames h hm)

theorem separate_runPart (hascii : FromAscii part)
    (hnames : ∀ u ∈ m.targets site part, u.category = some .name) (hm : m.symbols.Separate) :
    (state (runPart site part m)).symbols.Separate :=
  symbols_runPart hascii hnames
    ⟨fun _ _ _ v hname h => h.insert hname v, fun _ _ name g h => h.insertGrid name g⟩ hm

theorem grid?_runPart (hascii : FromAscii part)
    (hnames : ∀ u ∈ m.targets site part, u.category = some .name) (hm : m.symbols.Separate)
    (hstores : stores? part ≠ some .grids) (key : String) :
    (state (runPart site part m)).symbols.grid? key = m.symbols.grid? key := by
  have hadmits : Stored.Admits (stores? part) fun table =>
      table.Separate ∧ table.grid? key = m.symbols.grid? key :=
    { scalars := fun _ _ _ v hname h =>
        ⟨h.1.insert hname v, (h.1.grid?_insert hname v key).trans h.2⟩
      grids := fun hgrids => absurd hgrids hstores }
  exact (symbols_runPart hascii hnames hadmits ⟨hm, rfl⟩).2

theorem scalar?_runPart (hascii : FromAscii part)
    (hnames : ∀ u ∈ m.targets site part, u.category = some .name) (hm : m.symbols.Separate)
    (hstores : stores? part ≠ some .scalars) (key : String) :
    (state (runPart site part m)).symbols.scalar? key = m.symbols.scalar? key := by
  have hadmits : Stored.Admits (stores? part) fun table =>
      table.Separate ∧ table.scalar? key = m.symbols.scalar? key :=
    { scalars := fun hscalars => absurd hscalars hstores
      grids := fun _ _ name g h =>
        ⟨h.1.insertGrid name g, (h.1.scalar?_insertGrid name g key).trans h.2⟩ }
  exact (symbols_runPart hascii hnames hadmits ⟨hm, rfl⟩).2

end Machine

def Turn.targets (t : Turn) : List Token := t.machine.targets t.site t.part

/-- From no variables on, and whatever statements of ASCII lines are carried out, as long as LET,
FOR, READ and INPUT store under names: a statement that stores no arrays leaves all arrays as they
are, one that stores no variables leaves all variables as they are, and no variable has the key of
an array. -/
theorem variables_and_arrays_apart (turns : List Turn) (h : Consecutive [] turns)
    (hascii : ∀ t ∈ turns, FromAscii t.part)
    (hnames : ∀ t ∈ turns, ∀ u ∈ t.targets, u.category = some .name) :
    ∀ t ∈ turns,
      (stores? t.part ≠ some .grids → ∀ key,
        t.after.symbols.grid? key = t.machine.symbols.grid? key) ∧
      (stores? t.part ≠ some .scalars → ∀ key,
        t.after.symbols.scalar? key = t.machine.symbols.scalar? key) ∧
      t.after.symbols.Separate := by
  have hseparate : Symbols.Separate [] := .nil
  generalize ([] : Symbols) = table at h hseparate
  induction turns generalizing table with
  | nil => exact fun _ ht => nomatch ht
  | cons t ts ih =>
      obtain ⟨rfl, hrest⟩ := h
      rw [List.forall_mem_cons] at hascii hnames ⊢
      have hafter : t.after.symbols.Separate :=
        Machine.separate_runPart hascii.1 hnames.1 hseparate
      refine ⟨⟨?_, ?_, hafter⟩, ih hascii.2 hnames.2 _ hrest hafter⟩
      · exact Machine.grid?_runPart hascii.1 hnames.1 hseparate
      · exact Machine.scalar?_runPart hascii.1 hnames.1 hseparate

/-- A variable and an array of one name, and a variable that spells the key of the array. -/
theorem variables_and_arrays_apart_shared :
    let texts := ["dim a(2): a_array = 5", "LET A(1) = 7", "FOR A = 3 TO 4", "READ A, A_2$",
      "INPUT \"?\"; A, A_ARRAY", "DIM A_ARRAY(1)"]
    let parts := texts.flatMap fun s => splitColons (tokensOf s)
    let part (i : Nat) : List Token := parts.getD i []
    let m : Machine := { Machine.blank with
      data := DataStore.empty.add 10 (tokensOf "DATA 8, \"X\"")
      terminal := .ofDevice .teletype ["9,10"] none }
    let t₁ : Turn := ⟨"20", part 0, m⟩
    let t₂ : Turn := ⟨"20", part 1, t₁.after⟩
    let t₃ : Turn := ⟨"30", part 2, t₂.after⟩
    let t₄ : Turn := ⟨"40", part 3, t₃.after⟩
    let t₅ : Turn := ⟨"50", part 4, t₄.after⟩
    let t₆ : Turn := ⟨"60", part 5, t₅.after⟩
    let t₇ : Turn := ⟨"70", part 6, t₆.after⟩
    let turns := [t₁, t₂, t₃, t₄, t₅, t₆, t₇]
    ((turns.map fun t => stores? t.part) = [some .grids, some .scalars, some .grids,
        some .scalars, some .scalars, some .scalars, some .grids] ∧
      t₇.after.symbols.scalar? "A" = some (.int 9) ∧
      t₇.after.symbols.scalar? "A_ARRAY" = some (.int 10) ∧
      (t₇.after.symbols.grid? (Symbols.arrayKey "A")).map (·.cell [1]) = some (.int 7)) ∧
    ∀ t ∈ turns,
      (stores? t.part ≠ some .grids → ∀ key,
        t.after.symbols.grid? key = t.machine.symbols.grid? key) ∧
      (stores? t.part ≠ some .scalars → ∀ key,
        t.after.symbols.scalar? key = t.machine.symbols.scalar? key) ∧
      t.after.symbols.Separate := by
  intro texts parts part m t₁ t₂ t₃ t₄ t₅ t₆ t₇ turns
  have hturns : Consecutive [] turns := ⟨rfl, rfl, rfl, rfl, rfl, rfl, rfl, trivial⟩
  have hfacts : (∀ t ∈ turns, ∃ s ∈ texts, (s.toList.all fun c => c.toNat < 128) = true ∧
        (tokenize s).toOption.isSome = true ∧ t.part ∈ splitColons (tokensOf s)) ∧
      ∀ t ∈ turns, ∀ u ∈ t.targets, u.category = some .name := by
    decide +kernel
  obtain ⟨htexts, hnames⟩ := hfacts
  have hascii : ∀ t ∈ turns, FromAscii t.part := by
    intro t ht
    obtain ⟨s, -, hs, hok, hpart⟩ := htexts t ht
    refine ⟨s, tokensOf s, ascii_of_all hs, ?_, hpart⟩
    rw [tokensOf]
    cases h : tokenize s with
    | ok tokens => rfl
    | error f =>
        rw [h] at hok
        cases hok
  exact ⟨by decide +kernel, variables_and_arrays_apart turns hturns hascii hnames⟩

end LineBasic

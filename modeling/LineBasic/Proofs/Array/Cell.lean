import LineBasic.Proofs.Assignment
import LineBasic.Proofs.Operand
import LineBasic.Proofs.UnaryMinus

namespace LineBasic

theorem Value.map_int_natCast (is : List Nat) :
    (is.map fun i : Nat => int i) = (is.map Int.ofNat).map int := by
  rw [List.map_map]
  rfl

namespace Grid

/-- Each index is at most the bound, and a negative one reaches back to the first place at most. -/
def Reaches (bounds : List Nat) (indices : List Int) : Prop :=
  ∀ p ∈ bounds.zip indices, -(p.1 + 1 : Int) ≤ p.2 ∧ p.2 ≤ p.1

instance (bounds : List Nat) (indices : List Int) : Decidable (Reaches bounds indices) :=
  inferInstanceAs (Decidable (∀ _ ∈ _, _))

def placeOf (bounds : List Nat) (indices : List Int) : List Nat :=
  (bounds.zip indices).map fun p => (if 0 ≤ p.2 then p.2 else p.2 + (p.1 + 1)).toNat

def write (g : Grid) (place : List Nat) (v : Value) : Grid :=
  { g with cells := g.cells.put place v }

theorem reaches_cons {b : Nat} {bs : List Nat} {i : Int} {is : List Int} :
    Reaches (b :: bs) (i :: is) ↔ (-(b + 1 : Int) ≤ i ∧ i ≤ b) ∧ Reaches bs is := by
  rw [Reaches, List.zip_cons_cons, List.forall_mem_cons]
  rfl

theorem reaches_natCast {bounds is : List Nat} (h : ∀ p ∈ bounds.zip is, p.2 ≤ p.1) :
    Reaches bounds (is.map Int.ofNat) := by
  intro p hp
  rw [List.zip_map_right] at hp
  obtain ⟨q, hq, rfl⟩ := List.mem_map.mp hp
  have hle := h q hq
  simp only [Prod.map, id_eq, Int.ofNat_eq_natCast]
  omega

theorem placeOf_natCast {bounds is : List Nat} (h : is.length = bounds.length) :
    placeOf bounds (is.map Int.ofNat) = is := by
  induction bounds generalizing is with
  | nil => rw [List.eq_nil_of_length_eq_zero h]; rfl
  | cons b bs ih =>
      cases is with
      | nil => cases h
      | cons i is =>
          have htail : placeOf bs (is.map Int.ofNat) = is := ih (Nat.succ.inj h)
          simpa [placeOf] using htail

variable {line : String} {g : Grid} {bounds : List Nat} {indices : List Int} {v : Value}

theorem place_int (b : Nat) (i : Int) :
    place line (b + 1) (.int i) =
      if -(b + 1 : Int) ≤ i ∧ i ≤ b then .ok (if 0 ≤ i then i else i + (b + 1)).toNat
      else .error (.indexRange line) := by
  show (if 0 ≤ i ∧ i < ((b + 1 : Nat) : Int) then pure i.toNat
    else if i < 0 ∧ 0 ≤ i + ((b + 1 : Nat) : Int) then pure (i + ((b + 1 : Nat) : Int)).toNat
    else throw (.indexRange line) : Except Fault Nat) = _
  by_cases hi : 0 ≤ i
  · by_cases hb : i ≤ b
    · rw [if_pos (by omega), if_pos (by omega), if_pos hi]
      rfl
    · rw [if_neg (by omega), if_neg (by omega), if_neg (by omega)]
      rfl
  · by_cases hb : -(b + 1 : Int) ≤ i
    · rw [if_neg (by omega), if_pos (by omega), if_pos (by omega), if_neg hi]
      rfl
    · rw [if_neg (by omega), if_neg (by omega), if_neg (by omega)]
      rfl

theorem places_int (line : String) (bounds : List Nat) (indices : List Int) :
    places line (bounds.map (· + 1)) (indices.map .int) =
      if Reaches bounds indices then .ok (placeOf bounds indices)
      else .error (.indexRange line) := by
  induction bounds generalizing indices with
  | nil => exact (if_pos nofun).symm
  | cons b bs ih =>
      cases indices with
      | nil => exact (if_pos nofun).symm
      | cons i is =>
          rw [List.map_cons, List.map_cons, places, place_int, ih]
          by_cases hi : -(b + 1 : Int) ≤ i ∧ i ≤ b
          · by_cases his : Reaches bs is
            · rw [if_pos hi, if_pos his, if_pos (reaches_cons.mpr ⟨hi, his⟩)]
              rfl
            · rw [if_pos hi, if_neg his, if_neg fun h => his (reaches_cons.mp h).2]
              rfl
          · rw [if_neg hi, if_neg fun h => hi (reaches_cons.mp h).1]
            rfl

theorem get_int (hsizes : g.sizes = bounds.map (· + 1)) (hcount : indices.length = bounds.length) :
    g.get line (indices.map .int) =
      if Reaches bounds indices then .ok (g.cell (placeOf bounds indices))
      else .error (.indexRange line) := by
  have hdimensions : g.dimensions = (indices.map Value.int).length := by
    rw [dimensions, hsizes, List.length_map, List.length_map, hcount]
  rw [get, checkCount, if_pos hdimensions, hsizes, places_int]
  by_cases h : Reaches bounds indices
  · rw [if_pos h, if_pos h]
    rfl
  · rw [if_neg h, if_neg h]
    rfl

theorem set_int (hsizes : g.sizes = bounds.map (· + 1)) :
    g.set line (indices.map .int) v =
      if Reaches bounds indices then .ok (g.write (placeOf bounds indices) v)
      else .error (.indexRange line) := by
  have hplaces := places_int line bounds indices
  rw [← hsizes] at hplaces
  rw [set, hplaces]
  by_cases h : Reaches bounds indices
  · rw [if_pos h, if_pos h]
    rfl
  · rw [if_neg h, if_neg h]
    rfl

@[simp] theorem sizes_write (place : List Nat) : (g.write place v).sizes = g.sizes := rfl

@[simp] theorem cell_write_self (place : List Nat) : (g.write place v).cell place = v := by
  rw [write, cell, Assoc.get?_put_self, Option.getD_some]

theorem cell_write_of_ne {place other : List Nat} (h : other ≠ place) :
    (g.write place v).cell other = g.cell other := by
  rw [write, cell, cell, Assoc.get?_put_of_ne _ _ h]

end Grid

structure Machine.Holds (m : Machine) (name : String) (bounds : List Nat) (g : Grid) : Prop where
  entry : m.symbols.get? (Symbols.arrayKey name) = some (.grid g)
  sizes : g.sizes = bounds.map (· + 1)

def Exec.cellParts : Exec (List Value × Value) := do
  let indices ← evaluate (Eval.indexList Eval.arithmeticValue)
  expectMark .closing
  cellSign
  let v ← value
  pure (indices, v)

inductive Machine.CellStatement (site : Site) (m : Machine) :
    List Token → String → List Value → Value → Prop
  | intro {lead : Option Token} {target u : Token} {ts : List Token} {indices : List Value}
      {v : Value} {j : Job} (word : ∀ t ∈ lead, t.isKeyword .LET)
      (name : target.category = some .name) (opening : u.isMark .opening)
      (parts : Exec.cellParts site ⟨⟨u, ts, 0⟩, m⟩ = .ok (indices, v) j) :
      CellStatement site m (lead.toList ++ target :: u :: ts) target.lexeme indices v

namespace Exec

variable {site : Site} {j : Job} {name : String} {v : Value} {g : Grid} {indices : List Value}

theorem checkKind_ok (text number : String → Fault) (h : v.isText = Symbols.isTextName name) :
    checkKind name v text number site j = .ok () j := by
  unfold checkKind
  cases hname : Symbols.isTextName name <;> rw [h, hname] <;> rfl

def storeCell (name : String) (g : Grid) (indices : List Value) (v : Value) : Exec Unit := do
  let g ← ofExcept (g.set (← line) indices v)
  modifyMachine fun m => { m with symbols := m.symbols.insertGrid (Symbols.arrayKey name) g }

theorem storeCell_ok {g' : Grid} (h : g.set site.label indices v = .ok g') :
    storeCell name g indices v site j = .ok () { j with machine := { j.machine with
      symbols := j.machine.symbols.insertGrid (Symbols.arrayKey name) g' } } := by
  show (ofExcept (g.set site.label indices v) >>= _) site j = _
  rw [h]
  rfl

theorem storeCell_error {f : Fault} (h : g.set site.label indices v = .error f) :
    storeCell name g indices v site j = .error f j := by
  show (ofExcept (g.set site.label indices v) >>= _) site j = _
  rw [h]
  rfl

theorem atomic_cellParts (m : Machine) : Atomic m m.Intact cellParts := by
  refine (atomic_evaluate _).bind fun indices => (atomic_expect _).bind fun _ => ?_
  exact atomic_cellSign.bind fun _ => (atomic_evaluate _).bind fun v => atomic_pure _

/-- The array is looked up between the indices and the rest, but that changes nothing. -/
theorem assignCell_eq {j' : Job} (opening : j.cursor.current.isMark .opening)
    (parts : cellParts site { j with cursor := j.cursor.advance } = .ok (indices, v) j')
    (array : j.machine.symbols.get? (Symbols.arrayKey name) = some (.grid g))
    (count : g.dimensions = indices.length) :
    assignCell name site j =
      (checkKind name v .textCellNeeded .numberCellNeeded >>= fun _ =>
        storeCell name g indices v) site j' := by
  obtain ⟨is, j₁, hindices, hrest⟩ := of_bind_ok parts
  obtain ⟨⟨⟩, j₂, hclosing, hrest⟩ := of_bind_ok hrest
  obtain ⟨⟨⟩, j₃, hequals, hrest⟩ := of_bind_ok hrest
  obtain ⟨w, j₄, hvalue, hpure⟩ := of_bind_ok hrest
  cases hpure
  have hintact : j.machine.Intact j₁.machine :=
    (atomic_evaluate _).intact (j := { j with cursor := j.cursor.advance }) (.refl _) hindices
  rw [← hintact.symbols] at array
  have hcount : g.checkCount site.label indices = .ok () := if_pos count
  rw [assignCell, expectMark, expect_bind (beq_iff_eq.mp opening), bind_ok hindices, machine_bind,
    array]
  show (ofExcept (g.checkCount site.label indices) >>= _) site j₁ = _
  rw [hcount]
  refine (bind_ok hclosing).trans ?_
  rw [bind_ok hequals, bind_ok hvalue]
  rfl

end Exec

theorem Eval.elementFrom_error {x : Eval Value} {scope : Scope} {s s' : Scan} {entry : Entry}
    {f : Fault} (h : (commaList (sum x) >>= signedCell entry) scope s = .error f s')
    (hf : f.isRuntime = false) (line : String) :
    elementFrom x entry line scope s = .error f s' := by
  have hruntime : replaceRuntime (.bareArray line) (commaList (sum x) >>= signedCell entry)
      scope s = .error f s' := by
    simp only [replaceRuntime, h, hf, Bool.false_eq_true, if_false]
  rw [elementFrom, bind_error hruntime]

namespace Machine

variable {site : Site} {m : Machine} {tokens : List Token} {name : String} {indices : List Value}
  {v : Value} {g : Grid}

/-- The indices, the sign and the value change nothing, and then the value is checked and stored. -/
theorem CellStatement.runPart_eq (h : CellStatement site m tokens name indices v)
    (array : m.symbols.get? (Symbols.arrayKey name) = some (.grid g))
    (count : g.dimensions = indices.length) :
    ∃ t ts j, tokens = t :: ts ∧ m.Intact j.machine ∧
      Exec.statement site ⟨⟨t, t :: ts, 0⟩, m⟩ =
        (Exec.checkKind name v .textCellNeeded .numberCellNeeded >>= fun _ =>
          Exec.storeCell name g indices v >>= fun _ => pure none) site j := by
  obtain @⟨lead, target, u, ts, indices, v, j, word, hname, opening, parts⟩ := h
  obtain ⟨t, ts', last, htokens, hstatement⟩ :=
    @Exec.statement_assignment m site lead target word hname (u :: ts)
  refine ⟨t, ts', j, htokens, (Exec.atomic_cellParts m).intact (.refl m) parts, ?_⟩
  have hassignment : Exec.assignment site ⟨⟨last, target :: u :: ts, 0⟩, m⟩ =
      Exec.assignCell target.lexeme site ⟨⟨target, u :: ts, 0⟩, m⟩ := by
    rw [Exec.assignment, Exec.lexeme_bind, Exec.advance_bind]
    show (if u.isMark .opening then _ else _ : Exec Unit) site _ = _
    rw [if_pos opening]
    rfl
  have hcell : Exec.assignCell target.lexeme site ⟨⟨target, u :: ts, 0⟩, m⟩ = _ :=
    Exec.assignCell_eq opening parts array count
  rw [hstatement, Exec.bind_congr (hassignment.trans hcell), bind_assoc]

theorem CellStatement.stores {g' : Grid} (h : CellStatement site m tokens name indices v)
    (array : m.symbols.get? (Symbols.arrayKey name) = some (.grid g))
    (count : g.dimensions = indices.length) (kind : v.isText = Symbols.isTextName name)
    (hset : g.set site.label indices v = .ok g') :
    ∃ n, m.Intact n ∧ runPart site tokens m = .ok none
      { n with symbols := m.symbols.insertGrid (Symbols.arrayKey name) g' } := by
  obtain ⟨t, ts, j, rfl, hj, hstatement⟩ := h.runPart_eq array count
  refine ⟨j.machine, hj, ?_⟩
  rw [runPart_cons, hstatement, Exec.bind_ok (Exec.checkKind_ok _ _ kind),
    Exec.bind_ok (Exec.storeCell_ok hset), ← hj.symbols]
  rfl

theorem CellStatement.fails {f : Fault} (h : CellStatement site m tokens name indices v)
    (array : m.symbols.get? (Symbols.arrayKey name) = some (.grid g))
    (count : g.dimensions = indices.length) (kind : v.isText = Symbols.isTextName name)
    (hset : g.set site.label indices v = .error f) :
    ∃ n, m.Intact n ∧ runPart site tokens m = .error f n := by
  obtain ⟨t, ts, j, rfl, hj, hstatement⟩ := h.runPart_eq array count
  refine ⟨j.machine, hj, ?_⟩
  rw [runPart_cons, hstatement, Exec.bind_ok (Exec.checkKind_ok _ _ kind),
    Exec.bind_error (Exec.storeCell_error hset)]

/-- At the cursor stands an element of the array. Its indices are read up to the scan, which is in
front of the closing parenthesis. -/
inductive ElementAt (site : Site) (m : Machine) (c : Cursor) :
    String → List Value → Scan → Prop
  | intro {t u w : Token} {ts : List Token} {indices : List Value} {s : Scan}
      (rest : c.rest = t :: u :: w :: ts) (name : t.category = some .name)
      (opening : u.isMark .opening)
      (read : Eval.commaList (Eval.sum (Eval.nested 974 2)) ⟨m.symbols, site.label⟩
        ⟨c.advance.advance, false, m.generator, []⟩ = .ok indices s) :
      ElementAt site m c t.lexeme indices s

variable {c : Cursor} {s : Scan}

theorem ElementAt.value_ok (h : ElementAt site m c name indices s)
    (array : m.symbols.get? (Symbols.arrayKey name) = some (.grid g))
    (hget : g.get site.label indices = .ok v)
    (ended : s.cursor.advance.current.face.binding = 0) :
    Exec.value site ⟨c, m⟩ =
      .ok (v.signed s.negative) ⟨s.cursor.advance, m.evaluated site s⟩ := by
  obtain @⟨t, u, w, ts, indices, s, rest, hname, opening, read⟩ := h
  have hfactor : Eval.factor 975 ⟨m.symbols, site.label⟩
      ⟨c, false, m.generator, []⟩ = _ :=
    (Eval.factor_element rest hname opening array 974).trans
      (@Eval.element_ok _ ⟨m.symbols, site.label⟩ _ _ _ _ _ read hget)
  have hnot := @Cursor.isKeyword_eq_false t _ c .NOT rest (by simp [hname])
  rw [Exec.value, Eval.value_eq, Exec.evaluate, Eval.logic_ok hnot hfactor ended]
  rfl

theorem value_element_error {t u w : Token} {ts : List Token} {entry : Entry} {f : Fault}
    (rest : c.rest = t :: u :: w :: ts) (hname : t.category = some .name)
    (opening : u.isMark .opening)
    (array : m.symbols.get? (Symbols.arrayKey t.lexeme) = some entry)
    (h : (Eval.commaList (Eval.sum (Eval.nested 974 2)) >>= Eval.signedCell entry)
      ⟨m.symbols, site.label⟩ ⟨c.advance.advance, false, m.generator, []⟩ = .error f s)
    (hf : f.isRuntime = false) :
    Exec.value site ⟨c, m⟩ = .error f ⟨s.cursor, m.evaluated site s⟩ := by
  have hfactor : Eval.factor 975 ⟨m.symbols, site.label⟩
      ⟨c, false, m.generator, []⟩ = _ :=
    (Eval.factor_element rest hname opening array 974).trans (Eval.elementFrom_error h hf _)
  have hnot := @Cursor.isKeyword_eq_false t _ c .NOT rest (by simp [hname])
  rw [Exec.value, Eval.value_eq, Exec.evaluate, Eval.logic_error hnot hfactor]

theorem ElementAt.value_error {f : Fault} (h : ElementAt site m c name indices s)
    (array : m.symbols.get? (Symbols.arrayKey name) = some (.grid g))
    (hget : g.get site.label indices = .error f) (hf : f.isRuntime = false) :
    Exec.value site ⟨c, m⟩ = .error f ⟨s.cursor, m.evaluated site s⟩ := by
  obtain @⟨t, u, w, ts, indices, s, rest, hname, opening, read⟩ := h
  refine value_element_error rest hname opening array ?_ hf
  rw [Eval.bind_ok read]
  show (Eval.ofExcept (g.get site.label indices) >>= _) _ s = _
  rw [hget]
  rfl

section Bounds

variable {bounds : List Nat} {indices : List Int}

theorem Holds.dimensions {vs : List Value} (array : m.Holds name bounds g)
    (count : vs.length = bounds.length) : g.dimensions = vs.length := by
  rw [Grid.dimensions, array.sizes, List.length_map, count]

theorem Holds.get_inside {is : List Nat} (array : m.Holds name bounds g)
    (count : is.length = bounds.length) (inside : ∀ p ∈ bounds.zip is, p.2 ≤ p.1)
    (line : String) : g.get line (is.map fun i : Nat => .int i) = .ok (g.cell is) := by
  rw [Value.map_int_natCast, Grid.get_int array.sizes (by rw [List.length_map, count]),
    if_pos (Grid.reaches_natCast inside), Grid.placeOf_natCast count]

theorem CellStatement.reached {tokens : List Token} {v : Value}
    (h : CellStatement site m tokens name (indices.map .int) v) (array : m.Holds name bounds g)
    (count : indices.length = bounds.length) (kind : v.isText = Symbols.isTextName name)
    (hreaches : Grid.Reaches bounds indices) :
    ∃ n, runPart site tokens m = .ok none n ∧ m.SameBut (Symbols.arrayKey name) n ∧
      n.Holds name bounds (g.write (Grid.placeOf bounds indices) v) := by
  have hset : g.set site.label (indices.map .int) v =
      .ok (g.write (Grid.placeOf bounds indices) v) := by
    rw [Grid.set_int array.sizes, if_pos hreaches]
  have hcount : g.dimensions = (indices.map Value.int).length :=
    array.dimensions (by rw [List.length_map, count])
  obtain ⟨n, hn, hrun⟩ := h.stores array.entry hcount kind hset
  refine ⟨_, hrun, ?_, Assoc.get?_put_self _ _ _, array.sizes⟩
  rw [← hn.symbols]
  exact hn.sameBut _ (.grid (g.write (Grid.placeOf bounds indices) v))

theorem CellStatement.refused {tokens : List Token} {v : Value}
    (h : CellStatement site m tokens name (indices.map .int) v) (array : m.Holds name bounds g)
    (count : indices.length = bounds.length) (kind : v.isText = Symbols.isTextName name)
    (hreaches : ¬ Grid.Reaches bounds indices) :
    ∃ n, runPart site tokens m = .error (.indexRange site.label) n ∧ m.Intact n := by
  have hset : g.set site.label (indices.map .int) v = .error (.indexRange site.label) := by
    rw [Grid.set_int array.sizes, if_neg hreaches]
  have hcount : g.dimensions = (indices.map Value.int).length :=
    array.dimensions (by rw [List.length_map, count])
  obtain ⟨n, hn, hrun⟩ := h.fails array.entry hcount kind hset
  exact ⟨n, hrun, hn⟩

theorem ElementAt.reached {c : Cursor} {s : Scan}
    (h : ElementAt site m c name (indices.map .int) s) (array : m.Holds name bounds g)
    (count : indices.length = bounds.length)
    (ended : s.cursor.advance.current.face.binding = 0) (hreaches : Grid.Reaches bounds indices) :
    ∃ j, Exec.value site ⟨c, m⟩ = .ok ((g.cell (Grid.placeOf bounds indices)).signed s.negative) j ∧
      m.Intact j.machine := by
  have hget : g.get site.label (indices.map .int) = .ok (g.cell (Grid.placeOf bounds indices)) := by
    rw [Grid.get_int array.sizes count, if_pos hreaches]
  exact ⟨_, h.value_ok array.entry hget ended, (Intact.refl m).evaluated site s⟩

theorem ElementAt.refused {c : Cursor} {s : Scan}
    (h : ElementAt site m c name (indices.map .int) s) (array : m.Holds name bounds g)
    (count : indices.length = bounds.length) (hreaches : ¬ Grid.Reaches bounds indices) :
    ∃ j, Exec.value site ⟨c, m⟩ = .error (.indexRange site.label) j ∧ m.Intact j.machine := by
  have hget : g.get site.label (indices.map .int) = .error (.indexRange site.label) := by
    rw [Grid.get_int array.sizes count, if_neg hreaches]
  exact ⟨_, h.value_error array.entry hget rfl, (Intact.refl m).evaluated site s⟩

end Bounds

end Machine

end LineBasic

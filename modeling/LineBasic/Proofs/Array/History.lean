import LineBasic.Proofs.Array.Declaration
import LineBasic.Proofs.Lines

namespace LineBasic

theorem Value.signed_false {v : Value} (h : ∀ b, v ≠ .truth b) : v.signed false = v := by
  cases v with
  | truth b => exact absurd rfl (h b)
  | _ => rfl

namespace Eval

variable {scope : Scope} {s : Scan} {ts rest : List Token} {u : Token}

def commaFaces (ns : List Numeral) : List Face :=
  ns.flatMap fun n => [(some (.mark .comma), ","), (some .integer, n.lexeme)]

def elementFaces (name : String) (n : Numeral) (ns : List Numeral) : List Face :=
  (some .name, name) :: (some (.mark .opening), "(") :: (some .integer, n.lexeme) ::
    (commaFaces ns ++ [(some (.mark .closing), ")")])

theorem closed_elementFaces (name : String) (n : Numeral) (ns : List Numeral) :
    Face.Closed (elementFaces name n ns) := by
  have hclosing : Face.Closed [(some (.mark .closing), ")")] := ⟨_, rfl, rfl⟩
  exact (((hclosing.append (commaFaces ns)).cons _).cons _).cons _

/-- The last token of an element is its closing parenthesis. -/
theorem advance_pass_elementFaces {name : String} {n : Numeral} {ns : List Numeral}
    (hts : ts.map Token.face = elementFaces name n ns) (c : Cursor) :
    (c.pass (ts.length - 1)).advance = c.pass ts.length := by
  have hpos : ts.length = (ts.length - 1) + 1 := by
    have hlength := congrArg List.length hts
    rw [List.length_map, elementFaces, List.length_cons] at hlength
    omega
  rw [hpos, Cursor.pass_add]
  rfl

theorem length_commaFaces (ns : List Numeral) : (commaFaces ns).length = 2 * ns.length := by
  induction ns with
  | nil => rfl
  | cons n ns ih =>
      have hcons : (commaFaces (n :: ns)).length = (commaFaces ns).length + 2 := by
        simp [commaFaces]
      rw [hcons, ih, List.length_cons]
      omega

theorem stops_commaFaces {ns : List Numeral} (hts : ts.map Token.face = commaFaces ns)
    (hu : u.isMark .closing) : Stops 3 (ts ++ u :: rest) := by
  cases ns with
  | nil =>
      rw [List.map_eq_nil_iff.mp hts]
      exact stops_cons (by simp [Token.face, Face.binding, beq_iff_eq.mp hu, Category.binding])
  | cons n ns =>
      obtain ⟨t, ts, rfl, ht, -⟩ := List.map_eq_cons_iff.mp hts
      exact stops_cons (by simp [ht, Face.binding, Category.binding])

theorem afterCommas_numerals {ns : List Numeral} (hts : ts.map Token.face = commaFaces ns)
    (hrest : s.cursor.rest = ts ++ u :: rest) (hu : u.isMark .closing)
    (hsign : s.negative = false) {n : Nat} (hn : ns.length ≤ n) (d : Nat) :
    afterCommas (sum (factor (d + 1))) n scope s =
      .ok (ns.map fun n => .int n.value) { s with cursor := s.cursor.pass ts.length } := by
  induction ns generalizing s ts n with
  | nil =>
      rw [List.map_eq_nil_iff.mp hts] at hrest ⊢
      cases n with
      | zero => rfl
      | succ n =>
          have hcomma : isMark .comma scope s = .ok false s := by
            show EStateM.Result.ok (s.cursor.current.isMark .comma) s = _
            simp [Cursor.current_eq hrest, Token.isMark, beq_iff_eq.mp hu]
          rw [afterCommas, bind_ok hcomma]
          rfl
  | cons x ns ih =>
      obtain ⟨t, _, rfl, ht, htail⟩ := List.map_eq_cons_iff.mp hts
      obtain ⟨w, ts, rfl, hw, htail⟩ := List.map_eq_cons_iff.mp htail
      rw [List.length_cons] at hn
      obtain ⟨n, rfl⟩ := Nat.exists_eq_add_of_le' (Nat.le_of_add_left_le hn)
      have hcomma : isMark .comma scope s = .ok true s := by
        show EStateM.Result.ok (s.cursor.current.isMark .comma) s = _
        simp [Cursor.current_eq hrest, Token.isMark, (Token.face_eq.mp ht).1]
      let s₁ : Scan := { s with cursor := s.cursor.advance }
      have hrest₁ : s₁.cursor.rest = w :: (ts ++ u :: rest) := Cursor.rest_advance hrest
      have hsum : sum (factor (d + 1)) scope s₁ = _ :=
        sum_numeral x hrest₁ hw (stops_commaFaces htail hu) d
      have htails : afterCommas (sum (factor (d + 1))) n scope _ = _ :=
        ih (s := { s₁ with cursor := s₁.cursor.advance, negative := false }) htail
          (Cursor.rest_advance hrest₁) rfl (Nat.le_of_succ_le_succ hn)
      rw [afterCommas, bind_ok hcomma]
      show (sum (factor (d + 1)) >>= _) scope s₁ = _
      rw [bind_ok hsum, bind_ok htails, hsign]
      rfl

theorem commaList_numerals {n : Numeral} {ns : List Numeral} {t : Token}
    (ht : t.face = (some .integer, n.lexeme)) (hts : ts.map Token.face = commaFaces ns)
    (hrest : s.cursor.rest = t :: (ts ++ u :: rest)) (hu : u.isMark .closing) (d : Nat) :
    commaList (sum (factor (d + 1))) scope s = .ok ((n :: ns).map fun n => .int n.value)
      { s with cursor := s.cursor.pass (ts.length + 1), negative := false } := by
  have hsum : sum (factor (d + 1)) scope s = _ :=
    sum_numeral n hrest ht (stops_commaFaces hts hu) d
  have hlength : ns.length ≤ s.cursor.advance.rest.length + 1 := by
    have hfaces := congrArg List.length hts
    rw [List.length_map, length_commaFaces] at hfaces
    rw [Cursor.rest_advance hrest, List.length_append]
    omega
  have hafter : afterCommas (sum (factor (d + 1))) (s.cursor.advance.rest.length + 1) scope
      { s with cursor := s.cursor.advance, negative := false } = _ :=
    afterCommas_numerals hts (Cursor.rest_advance hrest) hu rfl hlength d
  rw [commaList, bind_ok hsum, remaining_bind, bind_ok hafter]
  rfl

end Eval

theorem Decimal.digitsValue_zeros (n : Nat) : digitsValue (List.replicate n '0') = 0 := by
  induction n with
  | zero => rfl
  | succ n ih => exact ih

namespace Machine

variable {name : String} {bounds : List Nat} {log : List (List Nat × Value)} {m n : Machine}
  {site : Site} {tokens : List Token} {indices : List Value} {v : Value}

/-- The assignments to cells of an array since its DIM, the newest first, and the machine after
them. There may be statements for other arrays among them. -/
inductive Filled (name : String) (bounds : List Nat) : List (List Nat × Value) → Machine → Prop
  | dim {site : Site} {m n : Machine} {tokens : List Token} {arrays : List (String × List Value)}
      (statement : DimStatement site m tokens arrays)
      (array : arrays.reverse.lookup name = some (bounds.map fun b : Nat => .int b))
      (success : runPart site tokens m = .ok none n) : Filled name bounds [] n
  | dimOther {log : List (List Nat × Value)} {site : Site} {m n : Machine} {tokens : List Token}
      {arrays : List (String × List Value)} (before : Filled name bounds log m)
      (statement : DimStatement site m tokens arrays)
      (apart : arrays.reverse.lookup name = none)
      (success : runPart site tokens m = .ok none n) : Filled name bounds log n
  | assign {log : List (List Nat × Value)} {site : Site} {m n : Machine} {tokens : List Token}
      {indices : List Nat} {v : Value} (before : Filled name bounds log m)
      (statement : CellStatement site m tokens name (indices.map fun i : Nat => .int i) v)
      (count : indices.length = bounds.length) (inside : ∀ p ∈ bounds.zip indices, p.2 ≤ p.1)
      (plain : ∀ b, v ≠ .truth b) (success : runPart site tokens m = .ok none n) :
      Filled name bounds ((indices, v) :: log) n
  | assignOther {log : List (List Nat × Value)} {site : Site} {m n : Machine} {tokens : List Token}
      {other : String} {indices : List Value} {v : Value} (before : Filled name bounds log m)
      (statement : CellStatement site m tokens other indices v) (apart : name ≠ other)
      (success : runPart site tokens m = .ok none n) : Filled name bounds log n

theorem CellStatement.sameBut (h : CellStatement site m tokens name indices v)
    (success : runPart site tokens m = .ok none n) : m.SameBut (Symbols.arrayKey name) n := by
  obtain @⟨lead, target, u, ts, indices, v, j, word, hname, opening, parts⟩ := h
  have hassigned := ((runPart_assignment word hname).2 _ _ success).2
  rw [Assigned, if_pos (by simp [opening])] at hassigned
  exact hassigned.1

theorem CellStatement.kind {g : Grid} (h : CellStatement site m tokens name indices v)
    (array : m.symbols.get? (Symbols.arrayKey name) = some (.grid g))
    (count : g.dimensions = indices.length) (success : runPart site tokens m = .ok none n) :
    v.isText = Symbols.isTextName name := by
  obtain ⟨t, ts, j, rfl, hj, hstatement⟩ := h.runPart_eq array count
  rw [runPart_cons, hstatement] at success
  cases hkind : Exec.checkKind name v .textCellNeeded .numberCellNeeded site j with
  | ok u j' => exact Exec.of_checkKind hkind
  | error f j' =>
      rw [Exec.bind_error hkind] at success
      cases success

theorem Holds.of_get? {g : Grid} (h : m.Holds name bounds g)
    (hget : n.symbols.get? (Symbols.arrayKey name) = m.symbols.get? (Symbols.arrayKey name)) :
    n.Holds name bounds g :=
  ⟨hget.trans h.entry, h.sizes⟩

theorem CellStatement.writes {g : Grid} {is : List Nat}
    (h : CellStatement site m tokens name (is.map fun i : Nat => .int i) v)
    (array : m.Holds name bounds g) (count : is.length = bounds.length)
    (inside : ∀ p ∈ bounds.zip is, p.2 ≤ p.1) (success : runPart site tokens m = .ok none n) :
    n.Holds name bounds (g.write is v) := by
  have hkind := h.kind array.entry (array.dimensions (by rw [List.length_map, count])) success
  rw [Value.map_int_natCast] at h
  obtain ⟨n', hrun, -, hholds⟩ :=
    h.reached array (by rw [List.length_map, count]) hkind (Grid.reaches_natCast inside)
  rw [Grid.placeOf_natCast count] at hholds
  cases success.symm.trans hrun
  exact hholds

/-- Each cell holds what the newest assignment to it says. -/
theorem Filled.holds (h : Filled name bounds log m) :
    ∃ g, m.Holds name bounds g ∧ ∀ place, g.cell place = (log.lookup place).getD (.int 0) ∧
      (g.cell place).signed false = g.cell place := by
  induction h with
  | dim statement array success =>
      exact ⟨_, statement.holds success array, fun _ => ⟨rfl, rfl⟩⟩
  | dimOther before statement apart success ih =>
      obtain ⟨g, hholds, hcells⟩ := ih
      exact ⟨g, hholds.of_get? (statement.entry_of_none success apart), hcells⟩
  | @assign log site m n tokens indices v before statement count inside plain success ih =>
      obtain ⟨g, hholds, hcells⟩ := ih
      refine ⟨_, statement.writes hholds count inside success, fun place => ?_⟩
      by_cases hplace : place = indices
      · subst hplace
        simp [Value.signed_false plain]
      · rw [Grid.cell_write_of_ne hplace]
        simpa [List.lookup_cons, beq_false_of_ne hplace] using hcells place
  | assignOther before statement apart success ih =>
      obtain ⟨g, hholds, hcells⟩ := ih
      have hkey : Symbols.arrayKey name ≠ _ := fun h => apart (Symbols.arrayKey_inj.mp h)
      exact ⟨g, hholds.of_get? ((statement.sameBut success).entries _ hkey), hcells⟩

theorem elementAt_numerals {c : Cursor} {ts rest : List Token} {x : Numeral} {xs : List Numeral}
    (hts : ts.map Token.face = Eval.elementFaces name x xs) (hrest : c.rest = ts ++ rest) :
    ElementAt site m c name ((x :: xs).map fun n => .int n.value)
      ⟨c.pass (ts.length - 1), false, m.generator, []⟩ := by
  obtain ⟨t, _, rfl, ht, htail⟩ := List.map_eq_cons_iff.mp hts
  obtain ⟨u, _, rfl, hu, htail⟩ := List.map_eq_cons_iff.mp htail
  obtain ⟨w, _, rfl, hw, htail⟩ := List.map_eq_cons_iff.mp htail
  obtain ⟨ts, _, rfl, hcommas, hlast⟩ := List.map_eq_append_iff.mp htail
  obtain ⟨z, rfl, hz⟩ := List.map_eq_singleton_iff.mp hlast
  obtain ⟨hname, rfl⟩ := Token.face_eq.mp ht
  have hopening : u.isMark .opening := beq_iff_eq.mpr (Token.face_eq.mp hu).1
  have hclosing : z.isMark .closing := beq_iff_eq.mpr (Token.face_eq.mp hz).1
  have happend : (t :: u :: w :: (ts ++ [z])) ++ rest = t :: u :: w :: (ts ++ z :: rest) := by simp
  rw [happend] at hrest
  have hindices : c.advance.advance.rest = w :: (ts ++ z :: rest) :=
    Cursor.rest_advance (Cursor.rest_advance hrest)
  refine .intro hrest hname hopening ?_
  rw [Eval.nested_eq_factor]
  refine (Eval.commaList_numerals hw hcommas hindices hclosing _).trans ?_
  simp [Cursor.pass]

/-- Reading a cell with whole numbers for its indices gives what was assigned to exactly this cell
last since the array was made, and 0 if nothing was; nothing else changes. -/
theorem Filled.read_cell (h : Filled name bounds log m) {x : Numeral} {xs : List Numeral}
    (count : (x :: xs).length = bounds.length)
    (inside : ∀ p ∈ bounds.zip (x :: xs), p.2.value ≤ p.1) {c : Cursor} {ts rest : List Token}
    (hts : ts.map Token.face = Eval.elementFaces name x xs) (hrest : c.rest = ts ++ rest)
    (hstops : Eval.Stops 1 rest) :
    Exec.value site ⟨c, m⟩ = .ok ((log.lookup ((x :: xs).map Numeral.value)).getD (.int 0))
      ⟨c.pass ts.length, m⟩ := by
  obtain ⟨g, hholds, hcells⟩ := h.holds
  let is := (x :: xs).map Numeral.value
  have hcount : is.length = bounds.length := by rw [List.length_map, count]
  have hinside : ∀ p ∈ bounds.zip is, p.2 ≤ p.1 := by
    intro p hp
    rw [List.zip_map_right] at hp
    obtain ⟨q, hq, rfl⟩ := List.mem_map.mp hp
    exact inside q hq
  have hget : g.get site.label ((x :: xs).map fun n => .int n.value) = .ok (g.cell is) := by
    have hinto := hholds.get_inside hcount hinside site.label
    rwa [List.map_map] at hinto
  have hadvance := Eval.advance_pass_elementFaces hts c
  have hended : (c.pass (ts.length - 1)).advance.current.face.binding = 0 := by
    have hclosed : Face.Closed (ts.map Token.face) := hts ▸ Eval.closed_elementFaces name x xs
    have hlt := Eval.binding_current_pass (by decide) hrest hclosed hstops
    rw [hadvance]
    omega
  rw [(elementAt_numerals hts hrest).value_ok hholds.entry hget hended, (hcells is).2,
    (hcells is).1, hadvance, m.evaluated_of_nil site rfl]

/-- Two assignments to a cell with one to another array between them. -/
theorem Filled.read_cell_twice :
    let cell (x : String) (is : List Token) (v : Token) : List Token :=
      Token.element x is ++ [.mark .equals "=", v]
    let pair (x y : String) : List Token := [.number x, .mark .comma ",", .number y]
    let dim : Token := .word .DIM "DIM"
    let print : Token := .word .PRINT "PRINT"
    let m₀ : Machine :=
      { Machine.blank with symbols := [(Symbols.arrayKey "B$", .grid ⟨[3], []⟩)] }
    let m₁ : Machine := Outcome.state (runPart "10" (dim :: Token.element "A" (pair "1" "1")) m₀)
    let m₂ : Machine := Outcome.state (runPart "20" (cell "A" (pair "0" "1") (.number "7")) m₁)
    let m₃ : Machine :=
      Outcome.state (runPart "30" (cell "B$" [.number "1"] (.text "X")) m₂)
    let m₄ : Machine := Outcome.state (runPart "40" (cell "A" (pair "0" "1") (.number "9")) m₃)
    Filled "A" [1, 1] [([0, 1], .int 9), ([0, 1], .int 7)] m₄ ∧
      Exec.value "50" ⟨⟨print, Token.element "A" (pair "0" "1"), 0⟩, m₄⟩ =
        .ok (.int 9) ⟨⟨.mark .closing ")", [], 0⟩, m₄⟩ ∧
      Exec.value "50" ⟨⟨print, Token.element "A" (pair "1" "0"), 0⟩, m₄⟩ =
        .ok (.int 0) ⟨⟨.mark .closing ")", [], 0⟩, m₄⟩ := by
  intro cell pair dim print m₀ m₁ m₂ m₃ m₄
  let bounds :=
    Exec.boundList "10" ⟨(Cursor.mk dim (Token.element "A" (pair "1" "1")) 0).advance, m₀⟩
  let parts (site : Site) (m : Machine) (tokens : List Token) :=
    Outcome.value? (Exec.cellParts site ⟨⟨.mark .opening "(", tokens.drop 2, 0⟩, m⟩)
  have hruns : (Outcome.value? bounds = some [.int 1, .int 1] ∧
      (Outcome.state bounds).cursor.rest = [] ∧ (Outcome.state bounds).cursor.overrun = 0) ∧
      parts "20" m₁ (cell "A" (pair "0" "1") (.number "7")) =
        some ([0, 1].map fun i : Nat => .int i, .int 7) ∧
      parts "30" m₂ (cell "B$" [.number "1"] (.text "X")) = some ([.int 1], .text "X") ∧
      parts "40" m₃ (cell "A" (pair "0" "1") (.number "9")) =
        some ([0, 1].map fun i : Nat => .int i, .int 9) ∧
      Outcome.value? (runPart "10" (dim :: Token.element "A" (pair "1" "1")) m₀) = some none ∧
      Outcome.value? (runPart "20" (cell "A" (pair "0" "1") (.number "7")) m₁) = some none ∧
      Outcome.value? (runPart "30" (cell "B$" [.number "1"] (.text "X")) m₂) = some none ∧
      Outcome.value? (runPart "40" (cell "A" (pair "0" "1") (.number "9")) m₃) = some none := by
    decide +kernel
  obtain ⟨hbounds, hseven, htext, hnine, hrun₁, hrun₂, hrun₃, hrun₄⟩ := hruns
  have hmake : Grid.make [.int 1, .int 1] = .ok ⟨[2, 2], []⟩ := rfl
  have hdim :
      DimStatement "10" m₀ (dim :: Token.element "A" (pair "1" "1")) [("A", [.int 1, .int 1])] :=
    .single rfl hbounds (by decide) hmake
  have hnone : ∀ t ∈ (none : Option Token), t.isKeyword .LET := by simp
  have hfirst : CellStatement "20" m₁ (none.toList ++ cell "A" (pair "0" "1") (.number "7")) "A"
      ([0, 1].map fun i : Nat => .int i) (.int 7) :=
    .intro hnone rfl rfl (Outcome.eq_of_value? hseven)
  have hother : CellStatement "30" m₂ (none.toList ++ cell "B$" [.number "1"] (.text "X"))
      "B$" [.int 1] (.text "X") :=
    .intro hnone rfl rfl (Outcome.eq_of_value? htext)
  have hsecond : CellStatement "40" m₃ (none.toList ++ cell "A" (pair "0" "1") (.number "9")) "A"
      ([0, 1].map fun i : Nat => .int i) (.int 9) :=
    .intro hnone rfl rfl (Outcome.eq_of_value? hnine)
  have hinside : ∀ p ∈ [1, 1].zip [0, 1], p.2 ≤ p.1 := by decide
  have hbefore : Filled "A" [1, 1] [([0, 1], .int 7)] m₂ :=
    .assign (.dim hdim rfl (Outcome.eq_of_value? hrun₁)) hfirst rfl hinside nofun
      (Outcome.eq_of_value? hrun₂)
  have hfilled : Filled "A" [1, 1] [([0, 1], .int 9), ([0, 1], .int 7)] m₄ :=
    .assign (.assignOther hbefore hother (by decide) (Outcome.eq_of_value? hrun₃)) hsecond rfl
      hinside nofun (Outcome.eq_of_value? hrun₄)
  let digit (c : Char) (h : (Text.decimalValue? c).isSome) : Numeral :=
    ⟨[c], List.cons_ne_nil _ _, List.forall_mem_singleton.mpr h, Nat.succ_pos _⟩
  have hread (x y : Numeral) (hx : x.value ≤ 1) (hy : y.value ≤ 1) :
      Exec.value "50" ⟨⟨print, Token.element "A" (pair x.lexeme y.lexeme), 0⟩, m₄⟩ = _ :=
    hfilled.read_cell (rfl : [x, y].length = 2) (by simp [hx, hy]) rfl (List.append_nil _).symm
      nofun
  exact ⟨hfilled, hread (digit '0' rfl) (digit '1' rfl) (by decide) (by decide),
    hread (digit '1' rfl) (digit '0' rfl) (by decide) (by decide)⟩

theorem value_unread_index {c : Cursor} {t u w : Token} {ts : List Token} {g : Grid} {f : Fault}
    (rest : c.rest = t :: u :: w :: ts) (hname : t.category = some .name)
    (opening : u.isMark .opening)
    (array : m.symbols.get? (Symbols.arrayKey t.lexeme) = some (.grid g))
    (hw : w.category = some .integer) (hread : Decimal.readInt w.lexeme.toList = .error f)
    (hf : f.isRuntime = false) : ∃ j, Exec.value site ⟨c, m⟩ = .error f j := by
  have hindices : c.advance.advance.rest = w :: ts :=
    Cursor.rest_advance (Cursor.rest_advance rest)
  let s : Scan := ⟨c.advance.advance, false, m.generator, []⟩
  have hfirst : Eval.commaList (Eval.sum (Eval.nested 974 2)) ⟨m.symbols, site.label⟩ s =
      .error f s := by
    rw [Eval.nested_eq_factor]
    exact Eval.bind_error (Eval.sum_error (Eval.factor_unread hindices hw hread _))
  exact ⟨_, value_element_error rest hname opening array (Eval.bind_error hfirst) hf⟩

/-- An index of 4301 digits has no value, though all of them are 0 and the array has a cell 0. -/
theorem long_index_unread :
    let zeros := List.replicate 4301 '0'
    let element (x : String) : List Token := Token.element "A" [.number x]
    let dim : Token := .word .DIM "DIM"
    let print : Token := .word .PRINT "PRINT"
    let m₀ := blank
    let m : Machine := Outcome.state (runPart "10" (dim :: element "2") m₀)
    Filled "A" [2] [] m ∧ Decimal.digitsValue zeros = 0 ∧
      ∃ j, Exec.value "20" ⟨⟨print, element (String.ofList zeros), 0⟩, m⟩ =
        .error (.digitsFromText 4301) j := by
  intro zeros element dim print m₀ m
  let bounds := Exec.boundList "10" ⟨(Cursor.mk dim (element "2") 0).advance, m₀⟩
  have hbounds : Outcome.value? bounds = some [.int 2] ∧ (Outcome.state bounds).cursor.rest = [] ∧
      (Outcome.state bounds).cursor.overrun = 0 := by
    decide +kernel
  have hmake : Grid.make [.int 2] = .ok ⟨[3], []⟩ := rfl
  have hdim : DimStatement "10" m₀ (dim :: element "2") [("A", [.int 2])] :=
    .single rfl hbounds (by decide) hmake
  have hfilled : Filled "A" [2] [] m := by
    obtain ⟨c, j, -, hrun⟩ := hdim.runPart_eq
    refine .dim hdim rfl ?_
    simp only [m, hrun]
    rfl
  obtain ⟨g, hholds, -⟩ := hfilled.holds
  have hread : Decimal.readInt (String.ofList zeros).toList = .error (.digitsFromText 4301) := by
    rw [String.toList_ofList, Decimal.readInt_digits (by decide) fun c hc => ?_,
      List.length_replicate, if_pos (by decide)]
    rw [List.eq_of_mem_replicate hc]
    rfl
  exact ⟨hfilled, Decimal.digitsValue_zeros 4301,
    value_unread_index rfl rfl rfl hholds.entry rfl hread rfl⟩

end Machine

end LineBasic

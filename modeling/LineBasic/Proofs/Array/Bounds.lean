import LineBasic.Proofs.Array.Declaration
import LineBasic.Proofs.Lines

namespace LineBasic

namespace Grid

def Inside (bounds : List Nat) (indices : List Int) : Prop :=
  ∀ p ∈ bounds.zip indices, 0 ≤ p.2 ∧ p.2 ≤ p.1

instance (bounds : List Nat) (indices : List Int) : Decidable (Inside bounds indices) :=
  inferInstanceAs (Decidable (∀ _ ∈ _, _))

theorem inside_iff {bounds : List Nat} {indices : List Int}
    (h : indices.length = bounds.length) :
    Inside bounds indices ↔ Reaches bounds indices ∧ ∀ i ∈ indices, 0 ≤ i := by
  constructor
  · intro hinside
    refine ⟨fun p hp => ?_, fun i hi => ?_⟩
    · have hbounds := hinside p hp
      omega
    · have hsnd : (bounds.zip indices).map Prod.snd = indices :=
        List.map_snd_zip (Nat.le_of_eq h)
      rw [← hsnd] at hi
      obtain ⟨p, hp, rfl⟩ := List.mem_map.mp hi
      exact (hinside p hp).1
  · rintro ⟨hreaches, hpositive⟩ p hp
    exact ⟨hpositive p.2 (List.of_mem_zip hp).2, (hreaches p hp).2⟩

end Grid

namespace Machine

open Grid (Reaches Inside placeOf)
open Outcome

/-- DIM makes an array with the given bounds. As long as there is one, a cell can be assigned and
read exactly if each index is at most its bound and a negative one does not count back beyond the
first place; else both fail with nothing changed. Without negative indices this means that all lie
between 0 and their bounds. -/
theorem cell_reached_iff (name : String) (bounds : List Nat) :
    (∀ site m tokens arrays, DimStatement site m tokens arrays →
      arrays.reverse.lookup name = some (bounds.map fun b : Nat => .int b) →
        ∃ n, runPart site tokens m = .ok none n ∧ n.Holds name bounds ⟨bounds.map (· + 1), []⟩) ∧
    ∀ m g, m.Holds name bounds g → ∀ indices : List Int, indices.length = bounds.length →
      (∀ site tokens v, CellStatement site m tokens name (indices.map .int) v →
        v.isText = Symbols.isTextName name →
          ((∃ n, runPart site tokens m = .ok none n) ↔ Reaches bounds indices) ∧
          (Reaches bounds indices → ∃ n, runPart site tokens m = .ok none n ∧
            m.SameBut (Symbols.arrayKey name) n ∧
            n.Holds name bounds (g.write (placeOf bounds indices) v)) ∧
          (¬ Reaches bounds indices → ∃ n,
            runPart site tokens m = .error (.indexRange site.label) n ∧ m.Intact n)) ∧
      (∀ site c s, ElementAt site m c name (indices.map .int) s →
        s.cursor.advance.current.face.binding = 0 →
          ((∃ v j, Exec.value site ⟨c, m⟩ = .ok v j) ↔ Reaches bounds indices) ∧
          (Reaches bounds indices → ∃ j, Exec.value site ⟨c, m⟩ =
            .ok ((g.cell (placeOf bounds indices)).signed s.negative) j ∧ m.Intact j.machine) ∧
          (¬ Reaches bounds indices → ∃ j,
            Exec.value site ⟨c, m⟩ = .error (.indexRange site.label) j ∧ m.Intact j.machine)) ∧
      (Inside bounds indices ↔ Reaches bounds indices ∧ ∀ i ∈ indices, 0 ≤ i) := by
  refine ⟨fun site m tokens arrays hdim harray => ?_, fun m g array indices count =>
    ⟨fun site tokens v h kind => ?_, fun site c s h ended => ?_, Grid.inside_iff count⟩⟩
  · obtain ⟨c, j, -, hrun⟩ := hdim.runPart_eq
    exact ⟨_, hrun, hdim.holds hrun harray⟩
  · have hreached := h.reached array count kind
    have hrefused := h.refused array count kind
    refine ⟨⟨fun ⟨n, hn⟩ => ?_, fun hr => (hreached hr).imp fun _ hn => hn.1⟩, hreached, hrefused⟩
    by_cases hr : Reaches bounds indices
    · exact hr
    · obtain ⟨n', hn', -⟩ := hrefused hr
      cases hn.symm.trans hn'
  · have hreached := h.reached array count ended
    have hrefused := h.refused array count
    refine ⟨⟨fun ⟨v, j, hj⟩ => ?_, fun hr => (hreached hr).elim fun j hj => ⟨_, j, hj.1⟩⟩,
      hreached, hrefused⟩
    by_cases hr : Reaches bounds indices
    · exact hr
    · obtain ⟨j', hj', -⟩ := hrefused hr
      cases hj.symm.trans hj'

/-- Of an array of three rows and two columns, a cell of the first row counted from the end, and one
behind the last column. -/
theorem cell_reached_iff_plane :
    let element (is : List Token) : List Token := Token.element "A" is
    let cell (is : List Token) : List Token := element is ++ [.mark .equals "=", .number "7"]
    let back : List Token := [.mark .minus "-", .number "3", .mark .comma ",", .number "1"]
    let beyond : List Token := [.number "2", .mark .comma ",", .number "2"]
    let sizes : List Token := [.number "2", .mark .comma ",", .number "1"]
    let dim : Token := .word .DIM "DIM"
    let print : Token := .word .PRINT "PRINT"
    let m₀ := blank
    ∃ m g, runPart "10" (dim :: element sizes) m₀ = .ok none m ∧ m.Holds "A" [2, 1] g ∧
      (∃ n, runPart "20" (cell back) m = .ok none n ∧
        n.Holds "A" [2, 1] (g.write [0, 1] (.int 7))) ∧
      (∃ n, runPart "20" (cell beyond) m = .error (.indexRange "20") n ∧ m.Intact n) ∧
      ∃ j, Exec.value "30" ⟨⟨print, element beyond, 0⟩, m⟩ = .error (.indexRange "30") j ∧
        m.Intact j.machine := by
  intro element cell back beyond sizes dim print m₀
  let m : Machine := state (runPart "10" (dim :: element sizes) m₀)
  let c : Cursor := ⟨print, element beyond, 0⟩
  let bounds := Exec.boundList "10" ⟨(Cursor.mk dim (element sizes) 0).advance, m₀⟩
  let parts (is : List Token) :=
    Exec.cellParts "20" ⟨⟨.mark .opening "(", (cell is).drop 2, 0⟩, m⟩
  let indices := Eval.commaList (Eval.sum (Eval.nested 974 2)) ⟨m.symbols, "30"⟩
    ⟨c.advance.advance, false, m.generator, []⟩
  have hruns : (value? bounds = some [.int 2, .int 1] ∧ (state bounds).cursor.rest = [] ∧
      (state bounds).cursor.overrun = 0) ∧
      value? (parts back) = some ([-3, 1].map .int, .int 7) ∧
      value? (parts beyond) = some ([2, 2].map .int, .int 7) ∧
      value? indices = some ([2, 2].map .int) ∧
      (state indices).cursor.advance.current.face.binding = 0 := by
    decide +kernel
  obtain ⟨hbounds, hback, hbeyond, hindices, hended⟩ := hruns
  have hmake : Grid.make [.int 2, .int 1] = .ok ⟨[3, 2], []⟩ := rfl
  have hdim : DimStatement "10" m₀ (dim :: element sizes) [("A", [.int 2, .int 1])] :=
    .single rfl hbounds (by decide) hmake
  have hdeclared : runPart "10" (dim :: element sizes) m₀ = .ok none m ∧
      m.Holds "A" [2, 1] ⟨[3, 2], []⟩ := by
    obtain ⟨n, hrun, hn⟩ := (cell_reached_iff "A" [2, 1]).1 _ _ _ _ hdim rfl
    simp only [m, hrun]
    exact ⟨rfl, hn⟩
  have hnone : ∀ t ∈ (none : Option Token), t.isKeyword .LET := by simp
  have hfirst : CellStatement "20" m (none.toList ++ cell back) "A" ([-3, 1].map .int) (.int 7) :=
    .intro hnone rfl rfl (eq_of_value? hback)
  have hlast : CellStatement "20" m (none.toList ++ cell beyond) "A" ([2, 2].map .int) (.int 7) :=
    .intro hnone rfl rfl (eq_of_value? hbeyond)
  have hread : ElementAt "30" m c (Token.name "A").lexeme ([2, 2].map .int) _ :=
    .intro rfl rfl rfl (eq_of_value? hindices)
  have hcells := (cell_reached_iff "A" [2, 1]).2 m _ hdeclared.2
  refine ⟨m, _, hdeclared.1, hdeclared.2, ?_, ?_, ?_⟩
  · have hreached := ((hcells [-3, 1] rfl).1 "20" _ _ hfirst rfl).2.1 (by decide)
    exact hreached.imp fun n hn => ⟨hn.1, hn.2.2⟩
  · exact ((hcells [2, 2] rfl).1 "20" _ _ hlast rfl).2.2 (by decide)
  · exact ((hcells [2, 2] rfl).2.1 "30" _ _ hread hended).2.2 (by decide)

/-- An array with the cells 0 to 2 takes an assignment to cell -1, which goes to cell 2. -/
theorem negative_index_accepted :
    let dim := runLine "10" (tokensOf "DIM A(2)") blank
    let assigned := runLine "20" (tokensOf "A(-1) = 7") (state dim)
    ¬ Inside [2] [-1] ∧ value? dim = some none ∧ value? assigned = some none ∧
      (state (runLine "30" (tokensOf "PRINT A(2)") (state assigned))).terminal.output = "7\n" := by
  decide +kernel

end Machine

end LineBasic

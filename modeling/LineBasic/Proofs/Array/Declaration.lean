import LineBasic.Proofs.Array.Cell
import LineBasic.Proofs.Signals

namespace LineBasic

theorem Symbols.arrayKey_inj {a b : String} : arrayKey a = arrayKey b ↔ a = b := by
  refine ⟨fun h => ?_, congrArg arrayKey⟩
  have hlist := congrArg String.toList h
  rw [arrayKey, arrayKey, String.toList_append, String.toList_append, List.append_left_inj] at hlist
  exact String.toList_inj.mp hlist

theorem Cursor.length_rest_pass_le (c : Cursor) (n : Nat) :
    (c.pass n).rest.length ≤ c.rest.length := (c.rest_pass_suffix n).length_le

namespace Grid

theorem bound_natCast (b : Nat) : bound (.int b) = .ok b := by
  have hless : (Value.int b).relate .less (.int 0) = .ok false := by
    rw [Relation.relate_int]
    simp [Relation.test]
  rw [bound, hless]
  show (if (Value.int b).same (.int b) then pure (Int.toNat b) else _ : Except Fault Nat) = _
  rw [if_pos (Value.same_int.mpr rfl)]
  rfl

theorem mapM_bound_natCast (bounds : List Nat) :
    (bounds.map fun b : Nat => Value.int b).mapM bound = .ok bounds := by
  induction bounds with
  | nil => rfl
  | cons b bs ih =>
      rw [List.map_cons, List.mapM_cons, bound_natCast, ih]
      rfl

theorem eq_of_make {bounds : List Nat} {g : Grid}
    (h : make (bounds.map fun b : Nat => .int b) = .ok g) (hfew : bounds.length ≤ 3) :
    g = ⟨bounds.map (· + 1), []⟩ := by
  unfold make at h
  split at h
  · cases h
  · rw [List.take_of_length_le (by rw [List.length_map]; exact hfew), mapM_bound_natCast] at h
    cases h
    rfl

end Grid

namespace Exec

def boundList : Exec (List Value) := do
  expectMark .opening
  let bounds ← evaluate (Eval.indexList Eval.arithmeticValue)
  expectMark .closing
  pure bounds

inductive DeclaresArray (site : Site) (j : Job) : String → List Value → Job → Prop
  | intro {k : Job} {bounds : List Value} {g : Grid}
      (read : boundList site { j with cursor := j.cursor.advance } = .ok bounds k)
      (few : bounds.length ≤ 3) (made : Grid.make bounds = .ok g) :
      DeclaresArray site j j.cursor.current.lexeme bounds { k with machine := { k.machine with
        symbols := k.machine.symbols.insertGrid (Symbols.arrayKey j.cursor.current.lexeme) g } }

inductive Declares (site : Site) : Job → List (String × List Value) → Job → Prop
  | last {j k : Job} {name : String} {bounds : List Value}
      (array : DeclaresArray site j name bounds k) (ended : k.cursor.rest = [])
      (within : k.cursor.overrun = 0) : Declares site j [(name, bounds)] k
  | more {j k l : Job} {name : String} {bounds : List Value} {u : Token} {ts : List Token}
      {arrays : List (String × List Value)} (array : DeclaresArray site j name bounds k)
      (rest : k.cursor.rest = u :: ts) (comma : u.isMark .comma)
      (others : Declares site { k with cursor := k.cursor.advance } arrays l) :
      Declares site j ((name, bounds) :: arrays) l

variable {site : Site} {j k : Job} {name : String} {bounds : List Value}
  {arrays : List (String × List Value)}

theorem cursor_of_expect {c : Category} (h : expect c site j = .ok () k) :
    k.cursor = j.cursor.advance := by
  have hok : (expect c >>= fun _ => (pure () : Exec Unit)) site j = _ :=
    expect_bind (of_expect h) _
  rw [bind_ok h] at hok
  cases hok
  rfl

theorem atomic_boundList (m : Machine) : Atomic m m.Intact boundList :=
  (atomic_expect _).bind fun _ => (atomic_evaluate _).bind fun _ => (atomic_expect _).bind fun _ =>
    atomic_pure _

theorem exists_pass_of_boundList (h : boundList site j = .ok bounds k) :
    ∃ i, k.cursor = j.cursor.pass i := by
  obtain ⟨⟨⟩, j₁, hopening, hrest⟩ := of_bind_ok h
  obtain ⟨bs, j₂, hbounds, hrest⟩ := of_bind_ok hrest
  obtain ⟨⟨⟩, j₃, hclosing, hpure⟩ := of_bind_ok hrest
  cases hpure
  obtain ⟨i, hi⟩ := exists_pass_of_evaluate Eval.tame_arithmeticValue.indexList hbounds
  refine ⟨1 + (i + 1), ?_⟩
  rw [cursor_of_expect hclosing, hi, cursor_of_expect hopening, Cursor.pass_add, Cursor.pass_add]
  rfl

section Step

theorem DeclaresArray.sameBut (h : DeclaresArray site j name bounds k) :
    j.machine.SameBut (Symbols.arrayKey name) k.machine := by
  obtain @⟨k, bounds, g, read, few, made⟩ := h
  have hintact : j.machine.Intact k.machine :=
    (atomic_boundList _).intact (j := { j with cursor := j.cursor.advance }) (.refl _) read
  exact hintact.sameBut _ (.grid g)

theorem DeclaresArray.entry_of_lookup {other : String} {bounds' : List Value}
    (h : DeclaresArray site j other bounds' k)
    (hsome : [(other, bounds')].lookup name = some bounds) :
    bounds.length ≤ 3 ∧ ∃ g, Grid.make bounds = .ok g ∧
      k.machine.symbols.get? (Symbols.arrayKey name) = some (.grid g) := by
  obtain @⟨k, bounds', g, read, few, made⟩ := h
  by_cases hname : name = j.cursor.current.lexeme
  · simp [hname] at hsome
    rw [hname, ← hsome]
    exact ⟨few, g, made, Assoc.get?_put_self _ _ _⟩
  · simp [List.lookup_cons, beq_false_of_ne hname] at hsome

theorem DeclaresArray.length_rest_le (h : DeclaresArray site j name bounds k) :
    k.cursor.rest.length ≤ j.cursor.rest.length := by
  obtain @⟨k, bounds, g, read, few, made⟩ := h
  obtain ⟨i, hi⟩ := exists_pass_of_boundList read
  exact hi ▸ j.cursor.length_rest_pass_le (i + 1)

def afterArray (n : Nat) : Exec Unit := do
  if ← justEnded then pure ()
  else
    expectMark .comma
    dimension n

theorem DeclaresArray.dimension_eq (h : DeclaresArray site j name bounds k) (n : Nat) :
    dimension (n + 1) site j = afterArray n site k := by
  obtain @⟨k, bounds, g, read, few, made⟩ := h
  have hdimension : dimension (n + 1) site j = (boundList >>= fun bounds => do
      if 3 < bounds.length then throw (.manyDimensions (← line))
      let g ← ofExcept (Grid.make bounds)
      modifyMachine fun m => { m with
        symbols := m.symbols.insertGrid (Symbols.arrayKey j.cursor.current.lexeme) g }
      afterArray n) site { j with cursor := j.cursor.advance } := by
    rw [dimension, lexeme_bind, advance_bind, boundList]
    simp only [bind_assoc, pure_bind]
    rfl
  rw [hdimension, bind_ok read, if_neg (Nat.not_lt.mpr few), made]
  rfl

end Step

theorem Declares.length_le (h : Declares site j arrays k) :
    arrays.length ≤ j.cursor.rest.length + 1 := by
  induction h with
  | last array ended within => exact Nat.le_add_left _ _
  | @more j k l name bounds u ts arrays array rest comma others ih =>
      -- The comma is a token of its own.
      have hle := array.length_rest_le
      rw [rest, List.length_cons] at hle
      rw [Cursor.rest_advance rest] at ih
      rw [List.length_cons]
      omega

theorem Declares.dimension_ok (h : Declares site j arrays k) {n : Nat} (hn : arrays.length ≤ n) :
    dimension n site j = .ok () k := by
  induction h generalizing n with
  | @last j k name bounds array ended within =>
      rw [List.length_cons] at hn
      obtain ⟨n, rfl⟩ := Nat.exists_eq_add_of_le' (Nat.le_of_add_left_le hn)
      have hended : justEnded site k = .ok true k := by
        show EStateM.Result.ok (k.cursor.atEnd && k.cursor.overrun == 0) k = _
        rw [Cursor.atEnd, ended, within]
        rfl
      rw [array.dimension_eq, afterArray, bind_ok hended]
      rfl
  | @more j k l name bounds u ts arrays array rest comma others ih =>
      rw [List.length_cons] at hn
      obtain ⟨n, rfl⟩ := Nat.exists_eq_add_of_le' (Nat.le_of_add_left_le hn)
      have hended : justEnded site k = .ok false k := by
        show EStateM.Result.ok (k.cursor.atEnd && k.cursor.overrun == 0) k = _
        rw [Cursor.atEnd, rest]
        rfl
      rw [array.dimension_eq, afterArray, bind_ok hended]
      show (expectMark .comma >>= fun _ => dimension n) site k = _
      rw [expectMark, expect_bind (Cursor.category_of_isMark rest comma)]
      exact ih (by omega)

/-- An array that is not among those declared stays as it was. -/
theorem Declares.entry_of_none (h : Declares site j arrays k)
    (hnone : arrays.reverse.lookup name = none) :
    k.machine.symbols.get? (Symbols.arrayKey name) =
      j.machine.symbols.get? (Symbols.arrayKey name) := by
  induction h with
  | @last j k other bounds array ended within =>
      refine array.sameBut.entries _ fun hkey => ?_
      simp [Symbols.arrayKey_inj.mp hkey] at hnone
  | @more j k l other bounds u ts arrays array rest comma others ih =>
      rw [List.reverse_cons, List.lookup_append, Option.or_eq_none_iff] at hnone
      rw [ih hnone.1]
      refine array.sameBut.entries _ fun hkey => ?_
      simp [Symbols.arrayKey_inj.mp hkey] at hnone

/-- The last array of the name is the one that counts. -/
theorem Declares.entry_of_some (h : Declares site j arrays k)
    (hsome : arrays.reverse.lookup name = some bounds) : bounds.length ≤ 3 ∧
    ∃ g, Grid.make bounds = .ok g ∧
      k.machine.symbols.get? (Symbols.arrayKey name) = some (.grid g) := by
  induction h with
  | @last j k other bounds' array ended within => exact array.entry_of_lookup hsome
  | @more j k l other bounds' u ts arrays array rest comma others ih =>
      rw [List.reverse_cons, List.lookup_append] at hsome
      cases hlater : arrays.reverse.lookup name with
      | some later =>
          rw [hlater, Option.some_or] at hsome
          exact ih (hlater.trans hsome)
      | none =>
          rw [hlater, Option.none_or] at hsome
          rw [others.entry_of_none hlater]
          exact array.entry_of_lookup hsome

end Exec

namespace Machine

inductive DimStatement (site : Site) (m : Machine) :
    List Token → List (String × List Value) → Prop
  | intro {t : Token} {ts : List Token} {arrays : List (String × List Value)} {j : Job}
      (keyword : t.category = some (.keyword .DIM))
      (declares : Exec.Declares site ⟨⟨t, ts, 0⟩, m⟩ arrays j) :
      DimStatement site m (t :: ts) arrays

variable {site : Site} {m n : Machine} {tokens : List Token} {arrays : List (String × List Value)}
  {name : String}

theorem DimStatement.runPart_eq (h : DimStatement site m tokens arrays) :
    ∃ c j, Exec.Declares site ⟨c, m⟩ arrays j ∧ runPart site tokens m = .ok none j.machine := by
  obtain @⟨t, ts, arrays, j, keyword, declares⟩ := h
  have hcategory : (Cursor.current ⟨t, t :: ts, 0⟩).category = some (.keyword .DIM) := keyword
  have hdimensions : Exec.dimensions site ⟨⟨t, t :: ts, 0⟩, m⟩ = .ok () j := by
    show Exec.dimension (ts.length + 2) site ⟨⟨t, ts, 0⟩, m⟩ = _
    have hlength : arrays.length ≤ ts.length + 1 := declares.length_le
    exact declares.dimension_ok (by omega)
  refine ⟨_, j, declares, runPart_of_statement ?_ hdimensions⟩
  rw [Exec.statement, Exec.current_bind, hcategory]

theorem DimStatement.entry_of_none (h : DimStatement site m tokens arrays)
    (success : runPart site tokens m = .ok none n) (hnone : arrays.reverse.lookup name = none) :
    n.symbols.get? (Symbols.arrayKey name) = m.symbols.get? (Symbols.arrayKey name) := by
  obtain ⟨c, j, declares, hrun⟩ := h.runPart_eq
  cases success.symm.trans hrun
  exact declares.entry_of_none hnone

theorem DimStatement.single {t : Token} {ts : List Token} {bounds : List Value} {g : Grid}
    (keyword : t.category = some (.keyword .DIM))
    (read : let r := Exec.boundList site ⟨(Cursor.mk t ts 0).advance, m⟩
      Outcome.value? r = some bounds ∧ (Outcome.state r).cursor.rest = [] ∧
        (Outcome.state r).cursor.overrun = 0)
    (few : bounds.length ≤ 3) (made : Grid.make bounds = .ok g) :
    DimStatement site m (t :: ts) [((Cursor.mk t ts 0).current.lexeme, bounds)] :=
  .intro keyword (.last (.intro (Outcome.eq_of_value? read.1) few made) read.2.1 read.2.2)

/-- A new array holds 0 everywhere. -/
theorem DimStatement.holds {bounds : List Nat} (h : DimStatement site m tokens arrays)
    (success : runPart site tokens m = .ok none n)
    (harray : arrays.reverse.lookup name = some (bounds.map fun b : Nat => .int b)) :
    n.Holds name bounds ⟨bounds.map (· + 1), []⟩ := by
  obtain ⟨c, j, declares, hrun⟩ := h.runPart_eq
  cases success.symm.trans hrun
  obtain ⟨hfew, g, hmake, hentry⟩ := declares.entry_of_some harray
  rw [List.length_map] at hfew
  exact ⟨Grid.eq_of_make hmake hfew ▸ hentry, rfl⟩

end Machine

end LineBasic

import LineBasic.Proofs.Array.Cell

namespace LineBasic.Grid

variable {line : String} {g g' : Grid} {sizes path : List Nat} {indices : List Value} {v : Value}

def Nest.get (line : String) : Nest → List Value → Except Fault Value
  | .row rows, index :: indices => do
      let i ← place line rows.length index
      (rows.getD i (.row [])).get line indices
  | .row _, [] => throw (.indexCount line)
  | .cell v, _ => pure v

/-- Writes a cell row by row: each row on the way gets one new entry. -/
def Nest.set (line : String) : Nest → List Value → Value → Except Fault Nest
  | .row rows, index :: indices, v => do
      let i ← place line rows.length index
      let row ← (rows.getD i (.row [])).set line indices v
      pure (.row (rows.set i row))
  | .row _, [], _ => throw (.indexCount line)
  | .cell _, _, v => pure (.cell v)

def Nest.zeros : List Nat → Nest
  | [] => .cell (.int 0)
  | n :: sizes => .row (List.replicate n (zeros sizes))

theorem place_lt {size i : Nat} {index : Value} (h : place line size index = .ok i) : i < size := by
  unfold place at h
  split at h
  · cases h
  · split at h
    · cases h
      omega
    · split at h
      · cases h
        omega
      · cases h

theorem getD_rows {n i : Nat} (hi : i < n) (row : Nat → Nest) (other : Nest) :
    ((List.range n).map row).getD i other = row i := by
  rw [List.getD_eq_getElem?_getD, List.getElem?_map, List.getElem?_range hi]
  rfl

theorem set_rows {n i : Nat} {row row' : Nat → Nest} (h : ∀ j, j ≠ i → row' j = row j) :
    ((List.range n).map row).set i (row' i) = (List.range n).map row' := by
  refine List.ext_getElem (by simp) fun j hj hj' => ?_
  rw [List.getElem_set]
  by_cases hij : i = j
  · simp [hij]
  · simp [hij, h j (Ne.symm hij)]

theorem nestFrom_cons (n : Nat) :
    g.nestFrom path (n :: sizes) =
      .row ((List.range n).map fun i => g.nestFrom (path ++ [i]) sizes) := rfl

theorem nestFrom_congr (h : ∀ is, g'.cell (path ++ is) = g.cell (path ++ is)) :
    g'.nestFrom path sizes = g.nestFrom path sizes := by
  induction sizes generalizing path with
  | nil => simpa [nestFrom] using h []
  | cons n sizes ih =>
      rw [nestFrom_cons, nestFrom_cons]
      refine congrArg Nest.row (List.map_congr_left fun i _ => ih fun is => ?_)
      simpa using h (i :: is)

theorem get_nestFrom (h : indices.length = sizes.length) :
    (g.nestFrom path sizes).get line indices =
      (places line sizes indices).map fun is => g.cell (path ++ is) := by
  induction sizes generalizing path indices with
  | nil =>
      cases List.eq_nil_of_length_eq_zero h
      simp [nestFrom, Nest.get, places, Except.map, pure, Except.pure]
  | cons n sizes ih =>
      cases indices with
      | nil => cases h
      | cons index indices =>
          rw [nestFrom_cons, Nest.get, places, List.length_map, List.length_range]
          cases hi : place line n index with
          | error f => rfl
          | ok i =>
              show Nest.get line (List.getD _ i _) indices = _
              rw [getD_rows (place_lt hi), ih (Nat.succ.inj h)]
              show _ = Except.map _ (places line sizes indices >>= fun is => pure (i :: is))
              cases places line sizes indices with
              | error f => rfl
              | ok is => simp [Except.map, bind, Except.bind, pure, Except.pure]

theorem set_nestFrom (h : indices.length = sizes.length) :
    (g.nestFrom path sizes).set line indices v =
      (places line sizes indices).map fun is => (g.write (path ++ is) v).nestFrom path sizes := by
  induction sizes generalizing path indices with
  | nil =>
      cases List.eq_nil_of_length_eq_zero h
      simp [nestFrom, Nest.set, places, Except.map, pure, Except.pure]
  | cons n sizes ih =>
      cases indices with
      | nil => cases h
      | cons index indices =>
          rw [nestFrom_cons, Nest.set, places, List.length_map, List.length_range]
          cases hi : place line n index with
          | error f => rfl
          | ok i =>
              show Nest.set line (List.getD _ i _) indices v >>= _ =
                Except.map _ (places line sizes indices >>= fun is => pure (i :: is))
              rw [getD_rows (place_lt hi), ih (Nat.succ.inj h)]
              cases places line sizes indices with
              | error f => rfl
              | ok is =>
                  -- Only the row of `i` holds the cell that was written.
                  have hrows (j : Nat) (hj : j ≠ i) :
                      (g.write (path ++ i :: is) v).nestFrom (path ++ [j]) sizes =
                        g.nestFrom (path ++ [j]) sizes := by
                    refine nestFrom_congr fun js => cell_write_of_ne ?_
                    simp [hj]
                  have hset := set_rows hrows (n := n)
                  simpa [Except.map, bind, Except.bind, pure, Except.pure, nestFrom_cons] using hset

theorem nested_get (h : indices.length = g.dimensions) :
    g.nested.get line indices = g.get line indices := by
  rw [nested, get_nestFrom h, get, checkCount, if_pos h.symm]
  rfl

theorem nested_set (h : indices.length = g.dimensions) :
    g.nested.set line indices v = (g.set line indices v).map nested := by
  rw [nested, set_nestFrom h, set]
  cases places line g.sizes indices <;> rfl

theorem dimensions_of_set {g' : Grid} (h : g.set line indices v = .ok g') :
    g'.dimensions = g.dimensions := by
  unfold set at h
  cases hplaces : places line g.sizes indices with
  | error f =>
      rw [hplaces] at h
      cases h
  | ok is =>
      rw [hplaces] at h
      cases h
      rfl

theorem nestFrom_fresh (h : g.cells = []) : g.nestFrom path sizes = Nest.zeros sizes := by
  induction sizes generalizing path with
  | nil => rw [nestFrom, cell, h]; rfl
  | cons n sizes ih =>
      have hrows : ((List.range n).map fun i => g.nestFrom (path ++ [i]) sizes) =
          List.replicate n (Nest.zeros sizes) := by
        rw [List.map_congr_left fun i _ => ih, List.map_const', List.length_range]
      rw [nestFrom_cons, hrows, Nest.zeros]

theorem nested_make {bounds : List Value} (h : make bounds = .ok g) :
    g.nested = Nest.zeros g.sizes := by
  refine nestFrom_fresh ?_
  unfold make at h
  split at h
  · cases h
  · cases hns : (bounds.take 3).mapM bound with
    | error f =>
        rw [hns] at h
        cases h
    | ok ns =>
        rw [hns] at h
        cases h
        rfl

/-- An array may be kept as nested rows: whatever is written to both, the same writes fail, and
otherwise the rows hold what the array does. -/
theorem nested_foldlM {writes : List (List Value × Value)}
    (h : ∀ w ∈ writes, w.1.length = g.dimensions) :
    writes.foldlM (fun n w => Nest.set line n w.1 w.2) g.nested =
      (writes.foldlM (fun g w => Grid.set line g w.1 w.2) g).map nested := by
  induction writes generalizing g with
  | nil => rfl
  | cons w writes ih =>
      rw [List.foldlM_cons, List.foldlM_cons, nested_set (h w List.mem_cons_self)]
      cases hset : g.set line w.1 w.2 with
      | error f => rfl
      | ok g' =>
          refine ih fun w' hw' => ?_
          rw [dimensions_of_set hset]
          exact h w' (List.mem_cons_of_mem _ hw')

end LineBasic.Grid

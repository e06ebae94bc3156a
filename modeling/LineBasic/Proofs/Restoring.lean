import LineBasic.Proofs.DataStream

namespace LineBasic

structure Lines.Follows {β : Type} (ls : Lines β) (k n : Int) : Prop where
  mem : k ∈ ls.numbers
  lt : k < n
  between : ∀ m ∈ ls.numbers, m ≤ k ∨ n ≤ m

theorem Lines.mem_numbers_append {β : Type} {us vs : Lines β} {n k : Int} {b : β} :
    k ∈ numbers (us ++ (n, b) :: vs) ↔ k ∈ us.numbers ∨ k = n ∨ k ∈ vs.numbers := by
  simp [numbers]

namespace DataStore

/-- What reading a given line gives: its values, or the fault of one that cannot be read. The line
is then the one that was read last. -/
def readAt (d : DataStore) (n : Int) : EStateM.Result Fault DataStore (List Value) :=
  match values false ((d.tokens? n).getD []).tail with
  | .error f => .error f { d with pointer := n }
  | .ok vs => .ok vs { d with pointer := n }

theorem read_of_nextLine {d : DataStore} {line : String} {n : Int} (h : d.nextLine line = .ok n) :
    DataStore.read line d = d.readAt n := by
  rw [DataStore.read, h]
  rfl

theorem pointer_readAt (d : DataStore) (n : Int) : (Outcome.state (d.readAt n)).pointer = n := by
  rw [readAt]
  split <;> rfl

theorem readAt_inj {d : DataStore} {k n : Int} (h : d.readAt k = d.readAt n) : k = n := by
  rw [← d.pointer_readAt k, h, pointer_readAt]

section Pointer

variable {us vs : Lines (List Token)} {n : Int} {tokens : List Token}

theorem lineOf?_line (hus : n ∉ Lines.numbers us) :
    lineOf? (Lines.numbers (us ++ (n, tokens) :: vs)) (.int n) = some n := by
  have hnone : (Lines.numbers us).find? (fun k => (Value.int n).same (.int k)) = none := by
    rw [List.find?_eq_none]
    intro k hk hsame
    exact hus (Value.same_int.mp hsame ▸ hk)
  have happend : Lines.numbers (us ++ (n, tokens) :: vs) =
      Lines.numbers us ++ n :: Lines.numbers vs := by simp [Lines.numbers]
  rw [lineOf?, happend, List.find?_append, hnone, Option.none_or]
  exact List.find?_cons_of_pos (Value.same_int.mpr rfl)

/-- The pointer is set to the number of the line before, or to zero if there is none. -/
theorem restore_line {d : DataStore} (hlines : d.lines = us ++ (n, tokens) :: vs)
    (hzero : n = 0 → us = []) :
    d.restore (.int n) = .ok { d with pointer := lastNumber 0 us } := by
  rw [restore]
  by_cases hn : n = 0
  · have hz : (Value.int n).isZero = true := Value.same_int.mpr hn
    rw [if_pos hz, hzero hn]
    rfl
  · have hz : ¬ (Value.int n).isZero = true := fun h => hn (Value.same_int.mp h)
    rw [if_neg hz, hlines, lineOf?_line (notMem_read hlines)]
    dsimp only
    rw [before_append 0 (notMem_read hlines)]
    rfl

theorem restore_missing {d : DataStore} {v : Value} (hzero : v.isZero = false)
    (hlines : ∀ n ∈ d.lines.numbers, v.same (.int n) = false) :
    ∃ f, d.restore v = .error f ∧ (∀ s, v.written = .ok s → f = .noDataAt s) ∧
      ∀ e, v.written = .error e → f = e := by
  have hline : lineOf? d.lines.numbers v = none := by
    rw [lineOf?, List.find?_eq_none]
    intro n hn
    simp [hlines n hn]
  rw [restore, hzero, hline]
  cases v.written with
  | ok s =>
      refine ⟨.noDataAt s, rfl, fun t ht => ?_, fun e he => ?_⟩
      · cases ht
        rfl
      · cases he
  | error f =>
      refine ⟨f, rfl, fun t ht => ?_, fun e he => ?_⟩
      · cases ht
      · cases he
        rfl

end Pointer

section Next

variable {us vs : Lines (List Token)} {n : Int} {tokens : List Token}

theorem eq_nil_of_nonneg (hasc : Lines.Ascending (us ++ (0, tokens) :: vs))
    (hnonneg : ∀ k ∈ Lines.numbers us, 0 ≤ k) : us = [] := by
  have hnumbers : Lines.numbers us = [] := by
    rw [List.eq_nil_iff_forall_not_mem]
    intro k hk
    have hlt := hasc.sides.1 k hk
    have hle := hnonneg k hk
    omega
  simpa [Lines.numbers] using hnumbers

/-- The line that is read next is the wanted one, unless that one follows line 0. -/
theorem nextLine_restored {d : DataStore} (hlines : d.lines = us ++ (n, tokens) :: vs)
    (hpointer : d.pointer = lastNumber 0 us) (hnonneg : ∀ k ∈ d.lines.numbers, 0 ≤ k)
    (line : String) :
    d.nextLine line = .ok n ∧ ¬ d.lines.Follows 0 n ∨
      d.nextLine line = .ok 0 ∧ d.lines.Follows 0 n := by
  have hasc := d.ascending_lines
  rw [hlines] at hasc hnonneg
  have hsides := hasc.sides
  rcases List.eq_nil_or_concat us with rfl | ⟨pre, ⟨k, ks⟩, rfl⟩
  · refine .inl ⟨?_, fun h => ?_⟩
    · rw [nextLine, hlines, hpointer]
      rfl
    · have hlt := h.lt
      have hmem := h.mem
      rw [hlines] at hmem
      rcases Lines.mem_numbers_append.mp hmem with hmem | heq | hmem
      · cases hmem
      · omega
      · have := hsides.2 0 hmem
        omega
  · rw [List.concat_eq_append] at *
    have hkn : k < n := hsides.1 k (by simp [Lines.numbers])
    have hk : 0 ≤ k := hnonneg k (by simp [Lines.numbers])
    rw [lastNumber_append] at hpointer
    rw [List.append_assoc, List.singleton_append] at hlines hasc hnonneg
    by_cases hzero : k = 0
    · -- The pointer is at line 0, which is the first one, and means the start.
      subst hzero
      obtain rfl : pre = [] :=
        eq_nil_of_nonneg hasc fun m hm => hnonneg m (Lines.mem_numbers_append.mpr (.inl hm))
      refine .inr ⟨?_, by simp [hlines, Lines.numbers], hkn, fun m hm => ?_⟩
      · rw [nextLine, hlines, hpointer]
        rfl
      · rw [hlines] at hm
        rcases hm with _ | ⟨_, _ | ⟨_, hm⟩⟩
        · exact .inl (Int.le_refl 0)
        · exact .inr (Int.le_refl n)
        · exact .inr (Int.le_of_lt (hsides.2 m hm))
    · refine .inl ⟨nextLine_append hlines hpointer hzero line, fun h => ?_⟩
      have := h.between k (by simp [hlines, Lines.numbers])
      omega

theorem restore_of_mem {d : DataStore} (hnonneg : ∀ k ∈ d.lines.numbers, 0 ≤ k)
    (hn : n ∈ d.lines.numbers) :
    ∃ d', d.restore (.int n) = .ok d' ∧ d'.lines = d.lines ∧ ∀ line,
      (DataStore.read line d' = d.readAt n ↔ ¬ d.lines.Follows 0 n) ∧
      (d.lines.Follows 0 n → DataStore.read line d' = d.readAt 0) := by
  obtain ⟨us, tokens, vs, hlines⟩ := Lines.exists_append_of_mem hn
  have hzero : n = 0 → us = [] := by
    rintro rfl
    refine eq_nil_of_nonneg (hlines ▸ d.ascending_lines) fun m hm => hnonneg m ?_
    exact hlines ▸ Lines.mem_numbers_append.mpr (.inl hm)
  let d' : DataStore := { d with pointer := lastNumber 0 us }
  refine ⟨d', restore_line hlines hzero, rfl, fun line => ?_⟩
  have hrestored : d'.nextLine line = .ok n ∧ ¬ d.lines.Follows 0 n ∨
      d'.nextLine line = .ok 0 ∧ d.lines.Follows 0 n :=
    nextLine_restored (d := d') hlines rfl hnonneg line
  rcases hrestored with ⟨hnext, hfollows⟩ | ⟨hnext, hfollows⟩
  · have hread : DataStore.read line d' = d.readAt n := read_of_nextLine hnext
    exact ⟨iff_of_true hread hfollows, fun h => absurd h hfollows⟩
  · have hread : DataStore.read line d' = d.readAt 0 := read_of_nextLine hnext
    refine ⟨iff_of_false (fun h => ?_) (not_not_intro hfollows), fun _ => hread⟩
    exact Int.ne_of_lt hfollows.lt (readAt_inj (hread.symm.trans h))

end Next

end DataStore

inductive IsRestore (site : Site) (m : Machine) : List Token → Value → Prop
  | intro {t : Token} {ts : List Token} {v : Value} {j : Job}
      (keyword : t.category = some (.keyword .RESTORE))
      (target : Exec.arithmetic site ⟨⟨t, ts, 0⟩, m⟩ = .ok v j) : IsRestore site m (t :: ts) v

namespace Machine

variable {site : Site} {m : Machine} {tokens : List Token} {v : Value}

theorem runPart_restore {d : DataStore} (h : IsRestore site m tokens v)
    (hd : m.data.restore v = .ok d) :
    ∃ n, runPart site tokens m = .ok none n ∧ n.data = d ∧ n.pending = [] := by
  obtain ⟨keyword, target⟩ := h
  obtain ⟨s, rfl⟩ := Exec.machine_of_arithmetic target
  exact ⟨_, by rw [runPart_cons, Exec.statement_restore keyword target hd], rfl, rfl⟩

theorem runPart_restore_error {f : Fault} (h : IsRestore site m tokens v)
    (hf : m.data.restore v = .error f) :
    ∃ n, runPart site tokens m = .error f n ∧ n.data = m.data ∧ n.pending = [] := by
  obtain @⟨t, ts, v, j, keyword, target⟩ := h
  obtain ⟨s, rfl⟩ := Exec.machine_of_arithmetic target
  have hcategory : (Cursor.current ⟨t, t :: ts, 0⟩).category = some (.keyword .RESTORE) := keyword
  have hrestore : Exec.restore site ⟨⟨t, t :: ts, 0⟩, m⟩ =
      .error f ⟨s.cursor, { m.evaluated site s with pending := [] }⟩ := by
    rw [Exec.restore, Exec.advance_bind]
    refine (Exec.bind_ok target).trans ?_
    show (Exec.ofExcept (m.data.restore v) >>= _) site _ = _
    rw [hf]
    rfl
  refine ⟨{ m.evaluated site s with pending := [] }, ?_, rfl, rfl⟩
  rw [runPart_cons, Exec.statement, Exec.current_bind, hcategory]
  dsimp only
  rw [Exec.bind_error hrestore]

end Machine

/-- A line of the store that was asked for is the next one that is read, exactly if it does not
follow line 0; if it does, line 0 is read. A line that is not in the store is refused, and the
pointer stays where it is. -/
theorem DataStore.read_after_restore {d : DataStore}
    (hnonneg : ∀ n ∈ d.lines.numbers, 0 ≤ n) :
    (∀ n ∈ d.lines.numbers, ∃ d', d.restore (.int n) = .ok d' ∧ d'.lines = d.lines ∧
      (∀ line, (DataStore.read line d' = d.readAt n ↔ ¬ d.lines.Follows 0 n) ∧
        (d.lines.Follows 0 n → DataStore.read line d' = d.readAt 0)) ∧
      ∀ site m tokens, m.data = d → IsRestore site m tokens (.int n) →
        ∃ m', Machine.runPart site tokens m = .ok none m' ∧ m'.data = d' ∧ m'.pending = []) ∧
    ∀ v : Value, v.isZero = false → (∀ n ∈ d.lines.numbers, v.same (.int n) = false) →
      ∃ f, d.restore v = .error f ∧
        (∀ s, v.written = .ok s → f = .noDataAt s) ∧ (∀ e, v.written = .error e → f = e) ∧
        ∀ site m tokens, m.data = d → IsRestore site m tokens v →
          ∃ m', Machine.runPart site tokens m = .error f m' ∧ m'.data = d := by
  constructor
  · intro n hn
    obtain ⟨d', hrestore, hlines, hread⟩ := restore_of_mem hnonneg hn
    refine ⟨d', hrestore, hlines, hread, fun site m tokens hm h => ?_⟩
    subst hm
    exact Machine.runPart_restore h hrestore
  · intro v hzero hmissing
    obtain ⟨f, hrestore, hwritten⟩ := restore_missing hzero hmissing
    refine ⟨f, hrestore, hwritten.1, hwritten.2, fun site m tokens hm h => ?_⟩
    subst hm
    obtain ⟨m', hpart, hdata, -⟩ := Machine.runPart_restore_error h hrestore
    exact ⟨m', hpart, hdata⟩

/-- Of three lines the last one can be asked for and the second one, after line 0, cannot. -/
theorem DataStore.read_after_restore_zero :
    let data (x : String) : List Token := [.word .DATA "DATA", .text x]
    let d : DataStore := ⟨[(0, data "A"), (5, data "B"), (10, data "C")], 5⟩
    let seven : List Token := [.word .RESTORE "RESTORE", .number "7"]
    let m : Machine := { Machine.blank with data := d }
    (∃ d', d.restore (.int 10) = .ok d' ∧
      DataStore.read "20" d' = .ok [.text "C"] { d with pointer := 10 }) ∧
    (∃ d', d.restore (.int 5) = .ok d' ∧
      DataStore.read "20" d' = .ok [.text "A"] { d with pointer := 0 }) ∧
    ∃ m', Machine.runPart "20" seven m = .error (.noDataAt "7") m' ∧ m'.data = d := by
  intro data d seven m
  have hnonneg : ∀ n ∈ d.lines.numbers, 0 ≤ n := by decide
  obtain ⟨hlines, hmissing⟩ := read_after_restore hnonneg
  refine ⟨?_, ?_, ?_⟩
  · obtain ⟨d', hrestore, -, hread, -⟩ := hlines 10 (by decide)
    have hfollows : ¬ d.lines.Follows 0 10 := fun h => absurd (h.between 5 (by decide)) (by decide)
    exact ⟨d', hrestore, (hread "20").1.mpr hfollows⟩
  · obtain ⟨d', hrestore, -, hread, -⟩ := hlines 5 (by decide)
    exact ⟨d', hrestore, (hread "20").2 ⟨by decide, by decide, by decide⟩⟩
  · obtain ⟨f, -, hf, -, hpart⟩ := hmissing (.int 7) (by decide) (by decide)
    have htarget : Exec.arithmetic "20"
        ⟨⟨.word .RESTORE "RESTORE", seven.tail, 0⟩, m⟩ = .ok (.int 7) _ :=
      Outcome.eq_of_value? (by decide +kernel)
    have hwide : (7 : Int).natAbs < Value.tooWide := by decide +kernel
    have hwritten : (Value.int 7).written = .ok "7" := by
      rw [Value.written, if_pos hwide]
      rfl
    cases hf "7" hwritten
    exact hpart "20" m seven rfl ⟨rfl, htarget⟩

/-- Line 10 is asked for and line 0 is read. -/
theorem DataStore.restore_behind_line_zero :
    let data (x : String) : List Token := [.word .DATA "DATA", .number x]
    let d : DataStore := ⟨[(0, data "1"), (10, data "2")], 0⟩
    ∃ d', d.restore (.int 10) = .ok d' ∧ DataStore.read "20" d' = .ok [.int 1] d' ∧
      d.readAt 10 = .ok [.int 2] { d with pointer := 10 } :=
  ⟨_, rfl, rfl, rfl⟩

end LineBasic

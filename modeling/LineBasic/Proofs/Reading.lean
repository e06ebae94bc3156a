import LineBasic.Expression

namespace LineBasic

namespace Cursor

def pass : Nat → Cursor → Cursor
  | 0, c => c
  | n + 1, c => pass n c.advance

theorem pass_add (m n : Nat) (c : Cursor) : c.pass (m + n) = (c.pass m).pass n := by
  induction m generalizing c with
  | zero => rw [Nat.zero_add, pass]
  | succ m ih => rw [Nat.succ_add, pass, pass, ih]

theorem length_pass (n : Nat) (c : Cursor) : (c.pass n).rest.length = c.rest.length - n := by
  induction n generalizing c with
  | zero => rfl
  | succ n ih =>
      rw [pass, ih, length_advance]
      omega

theorem rest_pass_suffix (c : Cursor) (n : Nat) : (c.pass n).rest <:+ c.rest := by
  induction n generalizing c with
  | zero => exact List.suffix_rfl
  | succ n ih =>
      have hadvance : c.advance.rest <:+ c.rest := by
        cases hr : c.rest with
        | nil => simp [advance, hr]
        | cons t ts => simp [advance, hr]
      exact (ih c.advance).trans hadvance

theorem pass_append_cons (ts us : List Token) (t : Token) (c : Cursor) :
    c.pass (ts ++ t :: us).length = (c.pass ts.length).advance.pass us.length := by
  rw [List.length_append, pass_add]
  rfl

theorem pass_eq {ts rest : List Token} {c : Cursor} (h : c.rest = ts ++ rest) :
    c.pass ts.length = ⟨ts.getLast?.getD c.last, rest, c.overrun⟩ := by
  induction ts generalizing c with
  | nil => rw [List.nil_append] at h; subst h; rfl
  | cons t ts ih =>
      have ha : c.advance = ⟨t, ts ++ rest, c.overrun⟩ := by simp [advance, h]
      rw [List.length_cons, pass, ih (by rw [ha]), ha]
      cases ts <;> simp [List.getLast?_cons]

theorem rest_pass {ts rest : List Token} {c : Cursor} (h : c.rest = ts ++ rest) :
    (c.pass ts.length).rest = rest := by
  rw [pass_eq h]

/-- At the end of the statement the last token passed stays the current one. -/
theorem current_pass {ts rest : List Token} {c : Cursor} (h : c.rest = ts ++ rest) :
    (c.pass ts.length).current = rest.headD (ts.getLast?.getD c.last) := by
  rw [pass_eq h, current]

theorem current_eq {t : Token} {ts : List Token} {c : Cursor} (h : c.rest = t :: ts) :
    c.current = t := by
  simp [current, h]

theorem rest_advance {t : Token} {ts : List Token} {c : Cursor} (h : c.rest = t :: ts) :
    c.advance.rest = ts := by
  simp [advance, h]

theorem category_of_isMark {t : Token} {ts : List Token} {c : Cursor} {k : Mark}
    (h : c.rest = t :: ts) (ht : t.isMark k) : c.current.category = some (.mark k) := by
  rw [current_eq h]
  exact beq_iff_eq.mp ht

theorem category_of_isKeyword {t : Token} {ts : List Token} {c : Cursor} {k : Keyword}
    (h : c.rest = t :: ts) (ht : t.isKeyword k) : c.current.category = some (.keyword k) := by
  rw [current_eq h]
  exact beq_iff_eq.mp ht

theorem isKeyword_eq_false {t : Token} {ts : List Token} {c : Cursor} {k : Keyword}
    (h : c.rest = t :: ts) (ht : t.category ≠ some (.keyword k)) :
    c.current.isKeyword k = false := by
  rw [current_eq h]
  exact beq_false_of_ne ht

end Cursor

abbrev Face := Option Category × String

def Token.face (t : Token) : Face := (t.category, t.lexeme)

theorem Token.face_eq {t : Token} {c : Option Category} {x : String} :
    t.face = (c, x) ↔ t.category = c ∧ t.lexeme = x := by
  rw [face, Prod.mk.injEq]

/-- How tightly a token binds to an operand on its left: a parenthesis would make it an array, the
others are operators of the five levels of the grammar. -/
def Category.binding : Category → Nat
  | .mark .opening => 5
  | .mark .times | .mark .divide | .mark .modulo => 4
  | .mark .plus | .mark .minus => 3
  | .mark .equals | .mark .notEqual | .mark .lesser | .mark .lessEqual | .mark .greater
  | .mark .greaterEqual => 2
  | .keyword .AND | .keyword .OR => 1
  | _ => 0

namespace Face

def binding (f : Face) : Nat := (f.1.map Category.binding).getD 0

/-- The last token stays in sight when a statement has ended. It must not look like an operator. -/
def Closed (fs : List Face) : Prop := ∃ f, fs.getLast? = some f ∧ binding f = 0

def Unnegated (fs : List Face) : Prop := ∃ f, fs.head? = some f ∧ f.1 ≠ some (.keyword .NOT)

theorem Closed.append {gs : List Face} (fs : List Face) (h : Closed gs) : Closed (fs ++ gs) := by
  obtain ⟨f, hf, hb⟩ := h
  exact ⟨f, by rw [List.getLast?_append, hf, Option.some_or], hb⟩

theorem Closed.cons {gs : List Face} (f : Face) (h : Closed gs) : Closed (f :: gs) :=
  h.append [f]

theorem Unnegated.append {fs : List Face} (gs : List Face) (h : Unnegated fs) :
    Unnegated (fs ++ gs) := by
  obtain ⟨f, hf, hn⟩ := h
  exact ⟨f, by rw [List.head?_append, hf, Option.some_or], hn⟩

end Face

namespace Eval

open Face

variable {α β : Type} {scope : Scope} {s s' : Scan}

theorem bind_ok {x : Eval α} {f : α → Eval β} {a : α} (h : x scope s = .ok a s') :
    (x >>= f) scope s = f a scope s' := by
  simp only [bind, ReaderT.bind, EStateM.bind, h]

theorem bind_error {x : Eval α} {f : α → Eval β} {e : Fault} (h : x scope s = .error e s') :
    (x >>= f) scope s = .error e s' := by
  simp only [bind, ReaderT.bind, EStateM.bind, h]

/-- What holds of a factor if it holds of the factors inside holds at all depths. -/
theorem nestedWith_induction {element : Eval Value → Entry → Eval Value} {P : Eval Value → Prop}
    (hlimit : P (throw .endlessNesting))
    (hfactor : ∀ nested : Nat → Eval Value, (∀ k, P (nested k)) → P (factorOf element nested))
    (room k : Nat) : P (nestedWith element room k) := by
  induction room generalizing k with
  | zero => exact hlimit
  | succ room ih =>
      cases k with
      | zero => exact hfactor _ ih
      | succ k => exact ih k

theorem nested_eq_factor (room k : Nat) : nested room k = factor (room - k) := by
  induction room generalizing k with
  | zero => rw [Nat.zero_sub]; rfl
  | succ room ih =>
      cases k with
      | zero => rfl
      | succ k => rw [Nat.add_sub_add_right, ← ih]; rfl

theorem factor_succ (room : Nat) : factor (room + 1) = factorOf element (nested room) := rfl

theorem value_eq : value = logic (factor 975) := by rw [value, nested_eq_factor]; rfl

theorem arithmeticValue_eq : arithmeticValue = sum (factor 978) := by
  rw [arithmeticValue, nested_eq_factor]; rfl

theorem remaining_bind (f : Nat → Eval β) :
    (remaining >>= f) scope s = f s.cursor.rest.length scope s := rfl

theorem category_bind (f : Option Category → Eval β) :
    (category >>= f) scope s = f s.cursor.current.category scope s := rfl

theorem current_bind (f : Token → Eval β) :
    (current >>= f) scope s = f s.cursor.current scope s := rfl

theorem setSign_bind (b : Bool) (f : Unit → Eval β) :
    (setSign b >>= f) scope s = f () scope { s with negative := b } := rfl

theorem noteComparison_bind (f : Unit → Eval β) :
    ∃ compared, (noteComparison >>= f) scope s = f () scope { s with compared := compared } := by
  show ∃ compared, f () scope (if s.cursor.current.isMark .equals then _ else _) = _
  split
  · exact ⟨_, rfl⟩
  · exact ⟨s.compared, rfl⟩

theorem read_bind (f : Scope → Eval β) : (read >>= f) scope s = f scope scope s := rfl

theorem ofExcept_ok_bind {r : Except Fault α} {a : α} (h : r = .ok a) (f : α → Eval β) :
    (ofExcept r >>= f) scope s = f a scope s := by
  rw [h]
  rfl

def Stops (k : Nat) (rest : List Token) : Prop := ∀ t, rest.head? = some t → t.face.binding < k

theorem Stops.mono {k l : Nat} {rest : List Token} (h : Stops k rest) (hkl : k ≤ l) :
    Stops l rest := fun t ht => Nat.lt_of_lt_of_le (h t ht) hkl

theorem stops_cons {k : Nat} {t : Token} {ts : List Token} (h : t.face.binding < k) :
    Stops k (t :: ts) := by
  intro u hu
  cases hu
  exact h

theorem binding_current_pass {k : Nat} {ts rest : List Token} {c : Cursor} (hk : 0 < k)
    (hs : c.rest = ts ++ rest) (hc : Closed (ts.map Token.face)) (hr : Stops k rest) :
    (c.pass ts.length).current.face.binding < k := by
  rw [Cursor.current_pass hs]
  cases rest with
  | cons t rest => exact hr t rfl
  | nil =>
      obtain ⟨f, hf, hb⟩ := hc
      rw [List.getLast?_map, Option.map_eq_some_iff] at hf
      obtain ⟨t, ht, rfl⟩ := hf
      rw [ht, List.headD_nil, Option.getD_some, hb]
      exact hk

theorem bind_category_eq_none {γ : Type} {f : Category → Option γ} {k : Nat} {t : Token}
    (hf : ∀ c : Category, c.binding < k → f c = none) (ht : t.face.binding < k) :
    t.category.bind f = none := by
  cases hc : t.category with
  | none => rfl
  | some c => exact hf c (by simpa [Token.face, Face.binding, hc] using ht)

def Gives (scope : Scope) (e : Eval Value) (s : Scan) (n : Nat) : Except Fault Value → Prop
  | .ok v => ∃ negative compared,
      e scope s = .ok v ⟨s.cursor.pass n, negative, s.generator, compared⟩
  | .error f => ∃ s', e scope s = .error f s'

/-- In front of tokens that look like `fs`, followed by nothing that binds with strength `k`, the
reader gives the outcome and passes exactly those tokens. -/
def Reads (scope : Scope) (e : Eval Value) (k : Nat) (fs : List Face) (r : Except Fault Value) :
    Prop :=
  ∀ (s : Scan) (ts rest : List Token), ts.map Token.face = fs → s.cursor.rest = ts ++ rest →
    Stops k rest → Gives scope e s ts.length r

def Begins (scope : Scope) (operand : Eval Value) (operator? : Category → Option Operator)
    (k : Nat) (fs : List Face) (r : Except Fault Value) : Prop :=
  ∀ (s : Scan) (ts rest : List Token), ts.map Token.face = fs → s.cursor.rest = ts ++ rest →
    Stops (k + 1) rest →
      match r with
      | .ok v => ∃ n negative compared, rest.length < n ∧
          level operand operator? scope s =
            chain operand operator? n v scope
              ⟨s.cursor.pass ts.length, negative, s.generator, compared⟩
      | .error f => ∃ s', level operand operator? scope s = .error f s'

section Readers

variable {e e' : Eval Value} {k : Nat} {fs : List Face} {r : Except Fault Value}

theorem Gives.congr {n : Nat} (he : e scope s = e' scope s') (hg : s.generator = s'.generator)
    {m : Nat} (hp : s.cursor.pass m = s'.cursor.pass n) (h : Gives scope e' s' n r) :
    Gives scope e s m r := by
  cases r with
  | error f => rwa [Gives, he]
  | ok v => rwa [Gives, he, hp, hg]

theorem Reads.cons {f : Face} (h : Reads scope e' k fs r)
    (he : ∀ s : Scan, s.cursor.current.face = f →
      e scope s = e' scope { s with cursor := s.cursor.advance }) :
    Reads scope e k (f :: fs) r := by
  intro s ts rest hts hs hr
  obtain ⟨t, ts, rfl, ht, hts⟩ := List.map_eq_cons_iff.mp hts
  have hg := h { s with cursor := s.cursor.advance } ts rest hts (Cursor.rest_advance hs) hr
  exact hg.congr (he s (by rw [Cursor.current_eq hs, ht])) rfl rfl

theorem Reads.of_head {f : Face} (h : Reads scope e' k fs r) (hf : fs.head? = some f)
    (he : ∀ s : Scan, s.cursor.current.face = f → e scope s = e' scope s) :
    Reads scope e k fs r := by
  intro s ts rest hts hs hr
  refine (h s ts rest hts hs hr).congr (he s ?_) rfl rfl
  rw [← hts, List.head?_map, Option.map_eq_some_iff] at hf
  obtain ⟨t, ht, rfl⟩ := hf
  cases ts with
  | nil => cases ht
  | cons u ts => cases ht; rw [Cursor.current_eq hs]

theorem Reads.map (g : Value → Value) (h : Reads scope e k fs r) :
    Reads scope (e >>= fun v => pure (g v)) k fs (do return g (← r)) := by
  intro s ts rest hts hs hr
  have hg := h s ts rest hts hs hr
  cases r with
  | error f =>
      obtain ⟨s', he⟩ := hg
      exact ⟨s', by rw [bind_error he]⟩
  | ok v =>
      obtain ⟨negative, compared, he⟩ := hg
      exact ⟨negative, compared, by rw [bind_ok he]; rfl⟩

end Readers

section Level

variable {operand : Eval Value} {operator? : Category → Option Operator} {k n : Nat} {v : Value}
variable {fs gs : List Face} {r r' : Except Fault Value}

theorem chain_operator {c : Category} {op : Operator}
    (hc : s.cursor.current.category = some c) (hop : operator? c = some op) :
    chain operand operator? (n + 1) v scope s =
      (operand >>= fun w => ofExcept (op v w) >>= chain operand operator? n) scope
        { s with cursor := s.cursor.advance } := by
  rw [chain, category_bind, hc, Option.bind_some, hop]
  rfl

theorem chain_end (h : s.cursor.current.category.bind operator? = none) :
    chain operand operator? n v scope s = .ok v s := by
  cases n with
  | zero => rfl
  | succ n =>
      rw [chain, category_bind, h]
      rfl

theorem begins_of_reads (h : Reads scope operand (k + 1) fs r) :
    Begins scope operand operator? k fs r := by
  intro s ts rest hts hs hr
  have hg := h s ts rest hts hs hr
  cases r with
  | ok v =>
      obtain ⟨negative, compared, he⟩ := hg
      refine ⟨rest.length + 1, negative, compared, Nat.lt_succ_self _, ?_⟩
      rw [level, bind_ok he, remaining_bind, Cursor.rest_pass hs]
  | error f =>
      obtain ⟨s', he⟩ := hg
      exact ⟨s', by rw [level, bind_error he]⟩

theorem Begins.append {c : Category} {op : Operator} (x : String)
    (hl : Begins scope operand operator? k fs r) (hr : Reads scope operand (k + 1) gs r')
    (hop : operator? c = some op) (hc : c.binding = k) :
    Begins scope operand operator? k (fs ++ (some c, x) :: gs)
      (do let v ← r; let w ← r'; op v w) := by
  intro s ts rest hts hs hrest
  obtain ⟨ts₁, us, rfl, h₁, hu⟩ := List.map_eq_append_iff.mp hts
  obtain ⟨t, ts₂, rfl, ht, h₂⟩ := List.map_eq_cons_iff.mp hu
  rw [List.append_assoc] at hs
  have hg := hl s ts₁ (t :: ts₂ ++ rest) h₁ hs (stops_cons (by simp [Face.binding, ht, hc]))
  cases r with
  | error f => exact hg
  | ok v =>
      obtain ⟨n, negative, compared, hn, he⟩ := hg
      -- The operator is still in front, so the chain may go on once more at least.
      obtain ⟨m, rfl⟩ : ∃ m, n = m + 1 := ⟨n - 1, by omega⟩
      have hcur : (s.cursor.pass ts₁.length).current.category = some c := by
        rw [Cursor.current_eq (Cursor.rest_pass hs)]
        exact congrArg Prod.fst ht
      rw [chain_operator hcur hop] at he
      have hg' := hr ⟨(s.cursor.pass ts₁.length).advance, negative, s.generator, compared⟩ ts₂ rest
        h₂ (Cursor.rest_advance (Cursor.rest_pass hs)) hrest
      cases r' with
      | error f =>
          obtain ⟨s', he'⟩ := hg'
          exact ⟨s', by rw [he, bind_error he']⟩
      | ok w =>
          obtain ⟨negative', compared', he'⟩ := hg'
          rw [bind_ok he'] at he
          show match op v w with
            | .ok u => _
            | .error f => _
          cases hu : op v w with
          | error f => exact ⟨_, by rw [he, hu]; rfl⟩
          | ok u =>
              refine ⟨m, negative', compared', ?_, ?_⟩
              · rw [List.length_append, List.length_cons] at hn
                omega
              · rw [he, Cursor.pass_append_cons, ofExcept_ok_bind hu]

theorem Begins.reads (h : Begins scope operand operator? k fs r) (hk : 0 < k) (hc : Closed fs)
    (hop : ∀ c : Category, c.binding < k → operator? c = none) :
    Reads scope (level operand operator?) k fs r := by
  intro s ts rest hts hs hr
  have hg := h s ts rest hts hs (hr.mono (Nat.le_succ k))
  cases r with
  | error f => exact hg
  | ok v =>
      obtain ⟨n, negative, compared, hn, he⟩ := hg
      refine ⟨negative, compared, ?_⟩
      have hb := binding_current_pass hk hs (hts ▸ hc) hr
      rw [he, chain_end (bind_category_eq_none hop hb)]

end Level

end Eval

end LineBasic

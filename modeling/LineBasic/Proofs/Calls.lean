import LineBasic.Proofs.Grammar

namespace LineBasic

namespace Face

def opening : Face := (some (.mark .opening), "(")

def closing : Face := (some (.mark .closing), ")")

def comma : Face := (some (.mark .comma), ",")

def others : List (List Face) → List Face
  | [] => [closing]
  | a :: arguments => comma :: (a ++ others arguments)

def call (f : Function) (name : String) (first : List Face) (arguments : List (List Face)) :
    List Face :=
  (some (.function f), name) :: opening :: (first ++ others arguments)

theorem closed_others (arguments : List (List Face)) : Closed (others arguments) := by
  induction arguments with
  | nil => exact ⟨closing, rfl, rfl⟩
  | cons a arguments ih => exact (ih.append a).cons comma

theorem closed_call (f : Function) (name : String) (first : List Face)
    (arguments : List (List Face)) : Closed (call f name first arguments) :=
  (((closed_others arguments).append first).cons opening).cons _

end Face

namespace Eval

open Face

variable {α β : Type} {scope : Scope} {k : Nat} {fs gs : List Face}

def Takes (scope : Scope) (e : Eval α) (k : Nat) (fs : List Face) (a : α) : Prop :=
  ∀ (s : Scan) (ts rest : List Token), ts.map Token.face = fs → s.cursor.rest = ts ++ rest →
    Stops k rest → ∃ negative compared,
      e scope s = .ok a ⟨s.cursor.pass ts.length, negative, s.generator, compared⟩

theorem takes_pure (a : α) : Takes scope (pure a) k [] a := by
  intro s ts rest hts _ _
  rw [List.map_eq_nil_iff] at hts
  subst hts
  exact ⟨s.negative, s.compared, rfl⟩

section Steps

variable {e : Eval α} {f : α → Eval β} {a : α} {b : β}

theorem Takes.congr {e e' : Eval α} (h : Takes scope e' k fs a)
    (he : ∀ s, e scope s = e' scope s) : Takes scope e k fs a := by
  intro s ts rest hts hs hr
  rw [he]
  exact h s ts rest hts hs hr

theorem Takes.of_head {e e' : Eval α} {g : Face} (h : Takes scope e' k fs a)
    (hg : fs.head? = some g) (he : ∀ s : Scan, s.cursor.current.face = g → e scope s = e' scope s) :
    Takes scope e k fs a := by
  intro s ts rest hts hs hr
  obtain ⟨gs, rfl⟩ := List.head?_eq_some_iff.mp hg
  obtain ⟨t, us, rfl, ht, -⟩ := List.map_eq_cons_iff.mp hts
  rw [he s (by rw [Cursor.current_eq hs, ht])]
  exact h s (t :: us) rest hts hs hr

theorem takes_ofExcept_bind {r : Except Fault α} (hr : r = .ok a)
    (h : Takes scope (f a) k fs b) : Takes scope (ofExcept r >>= f) k fs b :=
  h.congr fun _ => ofExcept_ok_bind hr f

theorem takes_line_bind {f : String → Eval β} (h : Takes scope (f scope.line) k fs b) :
    Takes scope (line >>= f) k fs b :=
  h.congr fun _ => rfl

theorem takes_advance_bind {f : Unit → Eval β} {g : Face} (h : Takes scope (f ()) k gs b) :
    Takes scope (advance >>= f) k (g :: gs) b := by
  intro s ts rest hts hs hr
  obtain ⟨t, ts, rfl, -, hts⟩ := List.map_eq_cons_iff.mp hts
  exact h { s with cursor := s.cursor.advance } ts rest hts (Cursor.rest_advance hs) hr

theorem takes_mark_bind {f : Unit → Eval β} {m : Mark} {x : String}
    (h : Takes scope (f ()) k gs b) :
    Takes scope (expectMark m >>= f) k ((some (.mark m), x) :: gs) b := by
  intro s ts rest hts hs hr
  obtain ⟨t, ts, rfl, ht, hts⟩ := List.map_eq_cons_iff.mp hts
  have hcurrent : s.cursor.current.category = some (.mark m) := by
    rw [Cursor.current_eq hs, (Token.face_eq.mp ht).1]
  rw [expectMark_bind hcurrent]
  exact h { s with cursor := s.cursor.advance } ts rest hts (Cursor.rest_advance hs) hr

/-- What is read first has to end where the next token stands. -/
theorem Takes.bind {g : Face} (he : Takes scope e 3 fs a) (hg : g.binding < 3)
    (h : Takes scope (f a) k (g :: gs) b) : Takes scope (e >>= f) k (fs ++ g :: gs) b := by
  intro s ts rest hts hs hr
  obtain ⟨ts₁, ts₂, rfl, h₁, h₂⟩ := List.map_eq_append_iff.mp hts
  obtain ⟨t, us, rfl, ht, -⟩ := List.map_eq_cons_iff.mp h₂
  rw [List.append_assoc] at hs
  obtain ⟨negative, compared, hread⟩ := he s ts₁ (t :: us ++ rest) h₁ hs
    (stops_cons (by rw [ht]; exact hg))
  rw [bind_ok hread, List.length_append, Cursor.pass_add]
  exact h ⟨s.cursor.pass ts₁.length, negative, s.generator, compared⟩ (t :: us) rest h₂
    (Cursor.rest_pass hs) hr

theorem takes_optional_bind {e : Eval Value} {f : Option Value → Eval β} {v : Value} {g : Face}
    (he : Takes scope e 3 fs v) (hg : g.binding < 3) (h : Takes scope (f (some v)) k (g :: gs) b) :
    Takes scope (optional e >>= f) k (Face.comma :: (fs ++ g :: gs)) b := by
  have hrest : Takes scope (advance >>= fun _ => e >>= fun v => f (some v)) k
      (Face.comma :: (fs ++ g :: gs)) b := takes_advance_bind (he.bind hg h)
  refine hrest.of_head rfl fun s hs => ?_
  have hmark : isMark .comma scope s = .ok true s := by
    have hcomma : s.cursor.current.isMark .comma = true := by
      rw [Token.isMark, (Token.face_eq.mp hs).1, beq_self_eq_true]
    rw [← hcomma]
    rfl
  rw [optional, bind_assoc, bind_ok hmark]
  simp only [if_true, bind_assoc, pure_bind]

/-- At the closing parenthesis there is nothing more. -/
theorem takes_optional_none {e : Eval Value} {f : Option Value → Eval β}
    (h : Takes scope (f none) k (closing :: gs) b) :
    Takes scope (optional e >>= f) k (closing :: gs) b := by
  refine h.of_head rfl fun s hs => ?_
  have hmark : isMark .comma scope s = .ok false s := by
    have hcomma : s.cursor.current.isMark .comma = false := by
      rw [Token.isMark, (Token.face_eq.mp hs).1]
      rfl
    rw [← hcomma]
    rfl
  rw [optional, bind_assoc, bind_ok hmark]
  rfl

/-- The end of a call. -/
theorem takes_closing {x : String → Except Fault α} (h : x scope.line = .ok a) :
    Takes scope (expectMark .closing >>= fun _ => line >>= fun l => ofExcept (x l)) k [closing]
      a := by
  have hend := takes_ofExcept_bind h (@takes_pure α scope k a)
  rw [bind_pure] at hend
  exact takes_mark_bind (takes_line_bind hend)

/-- After an argument comes a comma or the closing parenthesis. -/
theorem Takes.bind_others {arguments : List (List Face)} (he : Takes scope e 3 fs a)
    (h : Takes scope (f a) k (others arguments) b) :
    Takes scope (e >>= f) k (fs ++ others arguments) b := by
  cases arguments with
  | nil => exact he.bind (by decide) h
  | cons g arguments => exact he.bind (by decide) h

end Steps

/-- An expression that stands for a value wherever a factor is due, if at least `n` calls fit in the
one for the factor. -/
structure Operand (scope : Scope) (n : Nat) (fs : List Face) (v : Value) : Prop where
  closed : Closed fs
  reads : ∀ d, n ≤ d → Reads scope (underSign false (d + 1)) 5 fs (.ok v)

structure Expresses (scope : Scope) (n : Nat) (fs : List Face) (v : Value) : Prop where
  closed : Closed fs
  reads : ∀ d, n ≤ d → Reads scope (sum (factor (d + 1))) 3 fs (.ok v)

section Expressions

variable {m n : Nat} {u v w : Value} {fs gs : List Face}

theorem Operand.mono (h : Operand scope m fs v) (hle : m ≤ n) : Operand scope n fs v where
  closed := h.closed
  reads d hd := h.reads d (Nat.le_trans hle hd)

theorem Operand.expresses (h : Operand scope n fs v) : Expresses scope n fs v where
  closed := h.closed
  reads d hd := reads_sum_of_factor (h.reads d hd) h.closed

theorem Expresses.mono (h : Expresses scope m fs v) (hle : m ≤ n) : Expresses scope n fs v where
  closed := h.closed
  reads d hd := h.reads d (Nat.le_trans hle hd)

theorem operand_text (x : String) : Operand scope 0 [(some .text, x)] (.text x) where
  closed := ⟨_, rfl, rfl⟩
  reads d hd := by
    intro s ts rest hts hs _
    obtain ⟨t, rfl, ht⟩ := List.map_eq_singleton_iff.mp hts
    obtain ⟨hc, rfl⟩ := Token.face_eq.mp ht
    refine ⟨false, s.compared, ?_⟩
    rw [underSign, setSign_bind, factor_succ, factorOf, current_bind, Cursor.current_eq hs, hc]
    rfl

theorem operand_integer {x : String} {i : Int} (h : Decimal.readInt x.toList = .ok i) :
    Operand scope 0 [(some .integer, x)] (.int i) where
  closed := ⟨_, rfl, rfl⟩
  reads _ _ := reads_integer h

theorem operand_variable {x : String} (h : scope.symbols.get? x = some (.scalar v)) :
    Operand scope 0 [(some .name, x)] (v.signed false) where
  closed := ⟨_, rfl, rfl⟩
  reads _ _ := reads_variable h

theorem Operand.reads_product {d : Nat} (h : Operand scope n fs v) (hd : n ≤ d) :
    Reads scope (product (factor (d + 1))) 4 fs (.ok v) :=
  (begins_of_reads (h.reads d hd)).reads (by decide) h.closed multiplying?_eq_none

/-- Two operands with an operator between them. -/
theorem Operand.sum {c : Category} {op : Operator} {x : String} (hl : Operand scope n fs v)
    (hr : Operand scope n gs w) (hop : adding? c = some op) (hc : c.binding = 3)
    (h : op v w = .ok u) : Expresses scope n (fs ++ (some c, x) :: gs) u := by
  have hclosed : Closed (fs ++ (some c, x) :: gs) := (hr.closed.cons _).append _
  refine ⟨hclosed, fun d hd => ?_⟩
  have hbegins := (begins_of_reads (hl.reads_product hd)).append x (hr.reads_product hd) hop hc
  have hreads := hbegins.reads (by decide) hclosed adding?_eq_none
  have hvalue : (do let v ← Except.ok v; let w ← Except.ok w; op v w) = .ok u := h
  rw [hvalue] at hreads
  exact hreads

/-- An expression does not stand for two values. -/
theorem Expresses.unique (hv : Expresses scope m fs v) (hw : Expresses scope n fs w) : v = w := by
  let ts : List Token := fs.map fun f => ⟨0, f.1, f.2⟩
  let s : Scan := ⟨⟨⟨0, none, ""⟩, ts, 0⟩, false, ⟨[], []⟩, []⟩
  have hts : ts.map Token.face = fs := by simp [ts, Token.face, Function.comp_def]
  have hrest : s.cursor.rest = ts ++ [] := (List.append_nil ts).symm
  have hstops : Stops 3 [] := by
    intro t ht
    cases ht
  obtain ⟨_, _, hreadv⟩ := hv.reads _ (Nat.le_max_left m n) s ts [] hts hrest hstops
  obtain ⟨_, _, hreadw⟩ := hw.reads _ (Nat.le_max_right m n) s ts [] hts hrest hstops
  have hsame := hreadv.symm.trans hreadw
  injection hsame

end Expressions

section Calls

variable {n : Nat} {f : Function} {x : String} {u v w : Value} {a b c d : List Face}

/-- The arguments are reached through three calls. -/
theorem nested_argument (k : Nat) : nested (k + 4) 3 = factor (k + 1) := nested_eq_factor (k + 4) 3

/-- A call is read from its name on, whatever the sign before it. -/
theorem operand_call {arguments : List (List Face)}
    (h : ∀ k, n ≤ k → Takes scope (call (nested (k + 4)) f) 5 (Face.call f x a arguments) v) :
    Operand scope (n + 4) (Face.call f x a arguments) v where
  closed := closed_call f x a arguments
  reads k hk := by
    obtain ⟨k, rfl⟩ : ∃ m, k = m + 4 := ⟨k - 4, by omega⟩
    intro s ts rest hts hs hr
    obtain ⟨t, us, rfl, ht, -⟩ := List.map_eq_cons_iff.mp hts
    have hfactor : underSign false (k + 4 + 1) scope s =
        call (nested (k + 4)) f scope { s with negative := false } := by
      rw [underSign, setSign_bind, factor_succ, factorOf, current_bind, Cursor.current_eq hs,
        (Token.face_eq.mp ht).1]
    obtain ⟨negative, compared, hread⟩ :=
      h k (by omega) { s with negative := false } _ rest hts hs hr
    exact ⟨negative, compared, hfactor.trans hread⟩

/-- A function of one argument. -/
theorem operand_unary {g : String → Value → Except Fault Value}
    (hcall : ∀ e, call e f = (do
      advance
      let v ← parenthesised (sum (e 3))
      ofExcept (g (← line) v)))
    (ha : Expresses scope n a u) (h : g scope.line u = .ok w) :
    Operand scope (n + 4) (Face.call f x a []) w := by
  refine operand_call fun k hk => ?_
  simp only [hcall, nested_argument, parenthesised, bind_assoc, pure_bind]
  refine takes_advance_bind (takes_mark_bind ?_)
  exact Takes.bind (ha.reads k hk) (by decide) (takes_closing h)

/-- A function of two arguments. -/
theorem operand_binary {g : String → Value → Value → Except Fault Value}
    (hcall : ∀ e, call e f = (do
      advance
      let p ← parenthesised (pair (sum (e 3)))
      ofExcept (g (← line) p.1 p.2)))
    (ha : Expresses scope n a u) (hb : Expresses scope n b v) (h : g scope.line u v = .ok w) :
    Operand scope (n + 4) (Face.call f x a [b]) w := by
  refine operand_call fun k hk => ?_
  simp only [hcall, nested_argument, parenthesised, pair, comma, bind_assoc, pure_bind]
  refine takes_advance_bind (takes_mark_bind ?_)
  refine Takes.bind (ha.reads k hk) (by decide) (takes_mark_bind ?_)
  exact Takes.bind (hb.reads k hk) (by decide) (takes_closing h)

theorem operand_length (ha : Expresses scope n a u) (h : Function.length scope.line u = .ok w) :
    Operand scope (n + 4) (Face.call .LEN x a []) w :=
  operand_unary (fun _ => rfl) ha h

theorem operand_left (ha : Expresses scope n a u) (hb : Expresses scope n b v)
    (h : Function.leftPart scope.line u v = .ok w) :
    Operand scope (n + 4) (Face.call .LEFT x a [b]) w :=
  operand_binary (fun _ => rfl) ha hb h

theorem operand_right (ha : Expresses scope n a u) (hb : Expresses scope n b v)
    (h : Function.rightPart scope.line u v = .ok w) :
    Operand scope (n + 4) (Face.call .RIGHT x a [b]) w :=
  operand_binary (fun _ => rfl) ha hb h

section Middle

variable {i : Value}

/-- The count is left out. -/
theorem operand_rest (ha : Expresses scope n a u) (hb : Expresses scope n b v)
    (hi : v.sub (.int 1) = .ok i) (h : Function.middlePart scope.line u i none = .ok w) :
    Operand scope (n + 4) (Face.call .MID x a [b]) w := by
  refine operand_call fun k hk => ?_
  simp only [call, nested_argument, parenthesised, pair, comma, bind_assoc, pure_bind]
  refine takes_advance_bind (takes_mark_bind ?_)
  refine Takes.bind (ha.reads k hk) (by decide) (takes_mark_bind ?_)
  refine Takes.bind (hb.reads k hk) (by decide) ?_
  exact takes_ofExcept_bind hi (takes_optional_none (takes_closing h))

theorem operand_middle {count : Value} (ha : Expresses scope n a u) (hb : Expresses scope n b v)
    (hc : Expresses scope n c count) (hi : v.sub (.int 1) = .ok i)
    (h : Function.middlePart scope.line u i (some count) = .ok w) :
    Operand scope (n + 4) (Face.call .MID x a [b, c]) w := by
  refine operand_call fun k hk => ?_
  simp only [call, nested_argument, parenthesised, pair, comma, bind_assoc, pure_bind]
  refine takes_advance_bind (takes_mark_bind ?_)
  refine Takes.bind (ha.reads k hk) (by decide) (takes_mark_bind ?_)
  refine Takes.bind (hb.reads k hk) (by decide) ?_
  refine takes_ofExcept_bind hi ?_
  exact takes_optional_bind (hc.reads k hk) (by decide) (takes_closing h)

end Middle

section Place

theorem mapM_some {g : Value → Except Fault Value} (h : g v = .ok u) :
    (some v).mapM g = .ok (some u) := by
  rw [Option.mapM_some, h]
  rfl

variable {s : String} {start stop i j : Value}

def searchWithin (e : Eval Value) (s : String) (needle : Value) : Eval Value := do
  let start ← optional e
  let start ← ofExcept (start.mapM (Value.sub · (.int 1)))
  let p ← (if start.isSome then do
      let stop ← optional e
      let stop ← ofExcept (stop.mapM (Value.sub · (.int 1)))
      pure (s, needle, start, stop)
    else do
      let stop ← ofExcept (Option.mapM (Value.sub · (.int 1)) none)
      pure (s, needle, start, stop))
  expectMark .closing
  ofExcept (Function.placeOf (← line) p.1 p.2.1 p.2.2.1 p.2.2.2)

theorem takes_search {k : Nat} {arguments : List (List Face)} (hk : n ≤ k)
    (ha : Expresses scope n a (.text s)) (hb : Expresses scope n b v)
    (h : Takes scope (searchWithin (sum (factor (k + 1))) s v) 5 (others arguments) w) :
    Takes scope (call (nested (k + 4)) .INSTR) 5 (Face.call .INSTR x a (b :: arguments)) w := by
  simp only [call, nested_argument, parenthesised, placeArguments, bind_assoc, pure_bind]
  refine takes_advance_bind (takes_mark_bind ?_)
  refine Takes.bind (ha.reads k hk) (by decide) ?_
  simp only [comma, bind_assoc]
  exact takes_mark_bind (Takes.bind_others (hb.reads k hk) h)

theorem operand_place (ha : Expresses scope n a (.text s)) (hb : Expresses scope n b v)
    (h : Function.placeOf scope.line s v none none = .ok w) :
    Operand scope (n + 4) (Face.call .INSTR x a [b]) w := by
  refine operand_call fun k hk => ?_
  refine takes_search hk ha hb (takes_optional_none ?_)
  exact takes_closing h

theorem operand_placeFrom (ha : Expresses scope n a (.text s)) (hb : Expresses scope n b v)
    (hc : Expresses scope n c start) (hi : start.sub (.int 1) = .ok i)
    (h : Function.placeOf scope.line s v (some i) none = .ok w) :
    Operand scope (n + 4) (Face.call .INSTR x a [b, c]) w := by
  refine operand_call fun k hk => ?_
  refine takes_search hk ha hb ?_
  refine takes_optional_bind (hc.reads k hk) (by decide) ?_
  refine takes_ofExcept_bind (mapM_some hi) ?_
  simp only [Option.isSome_some, if_true, bind_assoc, pure_bind]
  exact takes_optional_none (takes_closing h)

theorem operand_placeWithin (ha : Expresses scope n a (.text s)) (hb : Expresses scope n b v)
    (hc : Expresses scope n c start) (hd : Expresses scope n d stop)
    (hi : start.sub (.int 1) = .ok i) (hj : stop.sub (.int 1) = .ok j)
    (h : Function.placeOf scope.line s v (some i) (some j) = .ok w) :
    Operand scope (n + 4) (Face.call .INSTR x a [b, c, d]) w := by
  refine operand_call fun k hk => ?_
  refine takes_search hk ha hb ?_
  refine takes_optional_bind (hc.reads k hk) (by decide) ?_
  refine takes_ofExcept_bind (mapM_some hi) ?_
  simp only [Option.isSome_some, if_true, bind_assoc, pure_bind]
  refine takes_optional_bind (hd.reads k hk) (by decide) ?_
  exact takes_ofExcept_bind (mapM_some hj) (takes_closing h)

end Place

end Calls

end Eval

end LineBasic

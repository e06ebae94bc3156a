import LineBasic.Machine

namespace LineBasic

def Raises {α : Type} (P : Fault → Prop) (r : Except Fault α) : Prop := ∀ f, r = .error f → P f

namespace Raises

variable {α β : Type} {P Q : Fault → Prop}

theorem pure (a : α) : Raises P (pure a) := fun _ h => nomatch h

theorem throw {f : Fault} (h : P f) : Raises P (throw f : Except Fault α) := by
  rintro _ ⟨⟩
  exact h

theorem bind {x : Except Fault α} {f : α → Except Fault β} (hx : Raises P x)
    (hf : ∀ a, Raises P (f a)) : Raises P (x >>= f) := by
  cases x with
  | error e => exact fun f h => hx f (by cases h; rfl)
  | ok a => exact hf a

theorem ite {c : Prop} [Decidable c] {x y : Except Fault α} (hx : Raises P x) (hy : Raises P y) :
    Raises P (if c then x else y) := by
  split
  · exact hx
  · exact hy

theorem mono {r : Except Fault α} (h : Raises P r) (hPQ : ∀ f, P f → Q f) : Raises Q r :=
  fun f hf => hPQ f (h f hf)

end Raises

def Fault.isAstray : Fault → Bool
  | missingLine _ | badReturn _ | badLoopExit _ => true
  | _ => false

def Ordinary {α : Type} (r : Except Fault α) : Prop := ∀ f, r = .error f → f.isAstray = false

namespace Ordinary

variable {α β : Type}

theorem pure (a : α) : Ordinary (pure a) := Raises.pure a

theorem throw {f : Fault} (h : f.isAstray = false) : Ordinary (throw f : Except Fault α) :=
  Raises.throw h

theorem bind {x : Except Fault α} {f : α → Except Fault β} (hx : Ordinary x)
    (hf : ∀ a, Ordinary (f a)) : Ordinary (x >>= f) := Raises.bind hx hf

theorem ite {c : Prop} [Decidable c] {x y : Except Fault α} (hx : Ordinary x) (hy : Ordinary y) :
    Ordinary (if c then x else y) := Raises.ite hx hy

theorem guard {c : Prop} [Decidable c] {f : Fault} (h : f.isAstray = false)
    {x : Except Fault α} (hx : Ordinary x) : 
    Ordinary (if c then (MonadExcept.throw f >>= fun _ : Unit => x) else x) :=
  ite ((throw h).bind fun _ : Unit => hx) hx

theorem mapM {f : α → Except Fault β} (hf : ∀ a, Ordinary (f a)) (as : List α) :
    Ordinary (as.mapM f) := by
  induction as with
  | nil => exact pure []
  | cons a as ih =>
      rw [List.mapM_cons]
      exact (hf a).bind fun b => ih.bind fun bs => pure _

theorem foldlM {f : β → α → Except Fault β} (hf : ∀ b a, Ordinary (f b a)) (b : β) (as : List α) :
    Ordinary (as.foldlM f b) := by
  induction as generalizing b with
  | nil => exact pure b
  | cons a as ih => exact (hf b a).bind fun b => ih b

theorem optionMapM {f : α → Except Fault β} (hf : ∀ a, Ordinary (f a)) (a : Option α) :
    Ordinary (a.mapM f) := by
  cases a with
  | none => exact pure none
  | some a => exact (hf a).bind fun b => pure (some b)

end Ordinary

def Labelled {α : Type} (r : String → Except Fault α) : Prop :=
  (∃ a, ∀ l, r l = .ok a) ∨ ∃ f : String → Fault, ∀ l, r l = .error (f l) ∧ (f l).isAstray = false

namespace Labelled

variable {α β : Type}

theorem pure (a : α) : Labelled fun _ => pure a := .inl ⟨a, fun _ => rfl⟩

theorem throw {f : String → Fault} (h : ∀ l, (f l).isAstray = false) :
    Labelled fun l => (throw (f l) : Except Fault α) := .inr ⟨f, fun l => ⟨rfl, h l⟩⟩

theorem bind {r : String → Except Fault α} {g : String → α → Except Fault β} (hr : Labelled r)
    (hg : ∀ a, Labelled fun l => g l a) : Labelled fun l => r l >>= g l := by
  obtain ⟨a, ha⟩ | ⟨f, hf⟩ := hr
  · simp only [ha]
    exact hg a
  · exact .inr ⟨f, fun l => ⟨by simp only [(hf l).1]; rfl, (hf l).2⟩⟩

theorem ite {c : Prop} [Decidable c] {r r' : String → Except Fault α} (hr : Labelled r)
    (hr' : Labelled r') : Labelled fun l => if c then r l else r' l := by
  split
  · exact hr
  · exact hr'

end Labelled

theorem Ordinary.labelled {α : Type} {x : Except Fault α} (h : Ordinary x) :
    Labelled fun _ => x := by
  cases x with
  | ok a => exact .pure a
  | error f => exact .throw fun _ => h f rfl

def Fault.isOfLiteral : Fault → Bool
  | badInteger _ | digitsFromText _ | leadingZeros | foreignDigit _ _ | badReal _ => true
  | _ => false

theorem Fault.isAstray_of_isOfLiteral {f : Fault} (h : f.isOfLiteral = true) :
    f.isAstray = false := by
  cases f with
  | badInteger | digitsFromText | leadingZeros | foreignDigit | badReal => rfl
  | _ => cases h

theorem Decimal.raises_readInt (s : List Char) : Raises (·.isOfLiteral = true) (readInt s) := by
  unfold readInt
  exact .ite (.throw rfl) (.ite (.throw rfl) (.ite (.pure _) (.throw rfl)))

theorem Decimal.ordinary_readInt (s : List Char) : Ordinary (readInt s) :=
  (raises_readInt s).mono fun _ => Fault.isAstray_of_isOfLiteral

namespace Value

theorem ordinary_toReal (v : Value) : Ordinary v.toReal := by
  cases v with
  | int n => exact .ite (.throw rfl) (.pure _)
  | real x => exact .pure x
  | truth b => exact .pure _
  | text s => exact .throw rfl

theorem ordinary_truncateReal (x : Float) : Ordinary (truncateReal x) := by
  unfold truncateReal
  split
  · exact .pure _
  · exact .throw rfl
  · exact .throw rfl

theorem ordinary_arithmetic (symbol : String) {f : Int → Int → Except Fault Value}
    {g : Float → Float → Except Fault Float} (hf : ∀ a b, Ordinary (f a b))
    (hg : ∀ x y, Ordinary (g x y)) (l r : Value) : Ordinary (arithmetic symbol f g l r) := by
  unfold arithmetic
  split
  · exact hf _ _
  · refine .ite (.throw rfl) ((ordinary_toReal l).bind fun x => ?_)
    exact (ordinary_toReal r).bind fun y => (hg x y).bind fun z => .pure _

theorem ordinary_add (l r : Value) : Ordinary (l.add r) := by
  unfold add
  split
  · exact .pure _
  · exact .throw rfl
  · exact ordinary_arithmetic _ (fun _ _ => .pure _) (fun _ _ => .pure _) l r

theorem ordinary_sub (l r : Value) : Ordinary (l.sub r) :=
  ordinary_arithmetic _ (fun _ _ => .pure _) (fun _ _ => .pure _) l r

theorem ordinary_repeated (s : String) (n : Int) : Ordinary (repeated s n) := by
  unfold repeated
  exact .ite (.throw rfl) (.ite (.pure _) (.ite (.throw rfl) (.ite (.throw rfl) (.pure _))))

theorem ordinary_mul (l r : Value) : Ordinary (l.mul r) := by
  unfold mul
  split
  · split
    · exact ordinary_repeated _ _
    · exact .throw rfl
  · split
    · exact ordinary_repeated _ _
    · exact .throw rfl
  · exact ordinary_arithmetic _ (fun _ _ => .pure _) (fun _ _ => .pure _) l r

theorem ordinary_quotient (a b : Int) : Ordinary (quotient a b) :=
  .ite (.throw rfl) (.ite (.throw rfl) (.pure _))

theorem ordinary_div (l r : Value) : Ordinary (l.div r) :=
  ordinary_arithmetic _ ordinary_quotient (fun _ _ => .ite (.throw rfl) (.pure _)) l r

theorem ordinary_modulo (l r : Value) : Ordinary (l.modulo r) :=
  ordinary_arithmetic _ (fun _ _ => .ite (.throw rfl) (.pure _))
    (fun _ _ => .ite (.throw rfl) (.pure _)) l r

theorem ordinary_neg (v : Value) : Ordinary v.neg := by
  cases v with
  | text s => exact .throw rfl
  | _ => exact .pure _

theorem ordinary_written (v : Value) : Ordinary v.written := by
  unfold written
  split
  · exact .ite (.pure _) (.throw rfl)
  all_goals exact .pure _

theorem ordinary_writtenIf (v : Option Value) : Ordinary (writtenIf v) := by
  cases v with
  | none => exact .pure _
  | some v => exact ordinary_written v

theorem ordinary_quoted (v : Value) : Ordinary v.quoted := by
  unfold quoted
  split
  · exact .pure _
  · exact ordinary_written _

theorem ordinary_relate (rel : Relation) (l r : Value) : Ordinary (relate rel l r) := by
  unfold relate
  exact .ite (.throw rfl) (.pure _)

theorem ordinary_best (rel : Relation) (v : Value) (vs : List Value) : Ordinary (best rel v vs) :=
  .foldlM (fun b a => (ordinary_relate rel a b).bind fun _ => .ite (.pure a) (.pure b)) v vs

section Format

theorem ordinary_takeArgument (v : Option Value) : Ordinary (takeArgument v) := by
  cases v with
  | none => exact .throw rfl
  | some v => exact .pure v

theorem ordinary_starValue (v : Value) : Ordinary v.starValue := by
  unfold starValue
  split
  · exact .pure _
  · exact .throw rfl

theorem ordinary_star {α : Type} {f : Int → Except Fault α} (v : Option Value)
    (hf : ∀ n, Ordinary (f n)) : Ordinary (takeArgument v >>= fun v => starValue v >>= f) :=
  (ordinary_takeArgument v).bind fun v => (ordinary_starValue v).bind hf

theorem ordinary_readWidth (spec : Spec) (v : Option Value) (s : List Char) :
    Ordinary (readWidth spec v s) := by
  unfold readWidth
  split
  · exact ordinary_star v fun n => .guard rfl (.pure _)
  · exact .ite (.throw rfl) (.pure _)

theorem ordinary_readPrecision (spec : Spec) (v : Option Value) (s : List Char) :
    Ordinary (readPrecision spec v s) := by
  unfold readPrecision
  split
  · exact ordinary_star v fun n => .guard rfl (.pure _)
  · exact .ite (.throw rfl) (.pure _)
  · exact .pure _

theorem ordinary_integerPiece (spec : Spec) (negative : Bool) (mark digits : List Char) :
    Ordinary (integerPiece spec negative mark digits) :=
  .ite (.throw rfl) (.pure _)

theorem ordinary_charPiece (v : Value) : Ordinary v.charPiece := by
  unfold charPiece
  split
  · exact .ite (.pure _) (.throw rfl)
  · exact .throw rfl
  · exact .ite (.throw rfl) (.pure _)

theorem ordinary_decimalPiece (spec : Spec) (c : Char) (v : Value) :
    Ordinary (decimalPiece spec c v) := by
  have hdigits (n : Int) : Ordinary (if n.natAbs < tooWide then
      integerPiece spec (n < 0) [] (Nat.toDigits 10 n.natAbs) else throw .digitsToText) :=
    .ite (ordinary_integerPiece _ _ _ _) (.throw rfl)
  unfold decimalPiece
  dsimp only
  split
  · exact (Ordinary.throw rfl).bind hdigits
  · exact (ordinary_truncateReal _).bind hdigits
  · exact (Ordinary.pure _).bind hdigits

theorem ordinary_basedPiece (spec : Spec) (c : Char) (v : Value) :
    Ordinary (basedPiece spec c v) := by
  unfold basedPiece
  split
  · exact .throw rfl
  · exact ordinary_integerPiece _ _ _ _

theorem ordinary_realPiece (spec : Spec) (c : Char) (v : Value) :
    Ordinary (realPiece spec c v) := by
  refine (ordinary_toReal v).bind fun x => ?_
  dsimp only
  split
  · exact .pure _
  · exact .pure _

theorem ordinary_convert (spec : Spec) (c : Char) (index : Nat) (v : Value) :
    Ordinary (convert spec c index v) := by
  unfold convert
  split
  · exact (ordinary_written v).bind fun _ => .pure _
  · exact (ordinary_quoted v).bind fun _ => .pure _
  · exact (ordinary_quoted v).bind fun _ => .pure _
  · exact ordinary_charPiece v
  iterate 3 exact ordinary_decimalPiece spec _ v
  iterate 3 exact ordinary_basedPiece spec _ v
  iterate 6 exact ordinary_realPiece spec _ v
  · exact .throw rfl

theorem ordinary_formatOne (size : Nat) (v : Option Value) (s : List Char) :
    Ordinary (formatOne size v s) := by
  unfold formatOne
  split
  · exact .throw rfl
  · exact .pure _
  · exact .throw rfl
  · refine (ordinary_readWidth _ _ _).bind fun w => (ordinary_readPrecision _ _ _).bind fun p => ?_
    obtain ⟨spec, v, s⟩ := p
    dsimp only
    split
    · exact .throw rfl
    · refine (ordinary_takeArgument _).bind fun v => (ordinary_convert _ _ _ v).bind fun q => ?_
      exact .guard rfl (.pure _)

theorem ordinary_formatFrom (size fuel : Nat) (v : Option Value) (s : List Char) :
    Ordinary (formatFrom size fuel v s) := by
  fun_induction formatFrom size fuel v s with
  | case1 => exact .pure _
  | case2 => exact .throw rfl
  | case3 => exact .pure _
  | case4 fuel v s ih =>
      exact (ordinary_formatOne size v s).bind fun p => (ih _ _).bind fun _ => .pure _
  | case5 fuel v c s h ih => exact ih.bind fun _ => .pure _

theorem ordinary_percent (l r : Value) : Ordinary (l.percent r) := by
  unfold percent
  split
  · exact (ordinary_formatFrom _ _ _ _).bind fun _ => .pure _
  · exact ordinary_modulo l r

end Format

end Value

namespace Grid

open Value

theorem ordinary_bound (v : Value) : Ordinary (bound v) := by
  have hwhole (n : Int) : Ordinary (if v.same (.int n) then pure n.toNat
      else throw .fractionalSize) :=
    .ite (.pure _) (.throw rfl)
  refine (ordinary_relate _ v _).bind fun b => .guard rfl ?_
  dsimp only
  split
  · exact (ordinary_truncateReal _).bind hwhole
  · exact hwhole _

theorem ordinary_make (bounds : List Value) : Ordinary (make bounds) :=
  .ite (.throw rfl) ((Ordinary.mapM ordinary_bound _).bind fun _ => .pure _)

theorem labelled_checkCount (g : Grid) (indices : List Value) :
    Labelled fun l => g.checkCount l indices :=
  .ite (.pure ()) (.throw fun _ => rfl)

theorem labelled_place (size : Nat) (v : Value) : Labelled fun l => place l size v := by
  unfold place
  cases v.integer? with
  | none => exact .throw fun _ => rfl
  | some i => exact .ite (.pure _) (.ite (.pure _) (.throw fun _ => rfl))

theorem labelled_places (sizes : List Nat) (indices : List Value) :
    Labelled fun l => places l sizes indices := by
  induction sizes generalizing indices with
  | nil => exact .pure []
  | cons size sizes ih =>
      cases indices with
      | nil => exact .pure []
      | cons v vs => exact (labelled_place size v).bind fun _ => (ih vs).bind fun _ => .pure _

theorem labelled_get (g : Grid) (indices : List Value) : Labelled fun l => g.get l indices :=
  (labelled_checkCount g indices).bind fun _ => (labelled_places _ indices).bind fun _ => .pure _

theorem labelled_set (g : Grid) (indices : List Value) (v : Value) :
    Labelled fun l => g.set l indices v :=
  (labelled_places _ indices).bind fun _ => .pure _

end Grid

namespace Function

open Value

theorem labelled_onReal (name : String) (f : Float → Float) (v : Value) :
    Labelled fun l => onReal name l f v :=
  (ordinary_toReal v).labelled.bind fun _ =>
    .ite (.throw fun _ => rfl) (.ite (.throw fun _ => rfl) (.pure _))

theorem labelled_logarithm (v : Value) : Labelled fun l => logarithm l v := by
  unfold logarithm
  cases v.integer? with
  | some n => exact .ite (.throw fun _ => rfl) (.pure _)
  | none =>
      exact (ordinary_toReal v).labelled.bind fun _ => .ite (.throw fun _ => rfl) (.pure _)

theorem labelled_power (v w : Value) : Labelled fun l => power l v w :=
  (ordinary_toReal v).labelled.bind fun _ => (ordinary_toReal w).labelled.bind fun _ =>
    .ite (.ite (.throw fun _ => rfl) (.throw fun _ => rfl)) (.pure _)

theorem ordinary_magnitude (v : Value) : Ordinary (magnitude v) := by
  cases v with
  | text s => exact .throw rfl
  | _ => exact .pure _

theorem labelled_floor (v : Value) : Labelled fun l => floor l v := by
  cases v with
  | text s => exact .throw fun _ => rfl
  | int n => exact .pure _
  | truth b => exact .pure _
  | real x =>
      simp only [floor]
      cases Double.view x with
      | finite p => exact .pure _
      | infinite b => exact .throw fun _ => rfl
      | nan => exact .throw fun _ => rfl

theorem labelled_round (v : Value) : Labelled fun l => round l v := by
  cases v with
  | text s => exact .throw fun _ => rfl
  | int n => exact .pure _
  | truth b => exact .pure _
  | real x =>
      simp only [round]
      cases Double.view x with
      | finite p => exact .pure _
      | infinite b => exact .throw fun _ => rfl
      | nan => exact .throw fun _ => rfl

theorem ordinary_numberOf (v : Value) : Ordinary (numberOf v) := by
  unfold numberOf
  split
  · split <;> exact .pure _
  · exact (ordinary_toReal v).bind fun _ => .pure _

theorem labelled_extreme (name sequence : String) (rel : Relation) (vs : List Value) :
    Labelled fun l => extreme name sequence l rel vs := by
  rcases vs with _ | ⟨v, _ | ⟨w, ws⟩⟩
  · exact .throw fun _ => rfl
  · cases v with
    | text s =>
        simp only [extreme]
        cases s.toList.map (fun c => text c.toString) with
        | nil => exact .throw fun _ => rfl
        | cons c cs => exact (ordinary_best rel c cs).labelled
    | _ => exact .throw fun _ => rfl
  · simp only [extreme]
    cases best rel v (w :: ws) with
    | ok b => exact .pure b
    | error f => exact .throw fun _ => rfl

theorem labelled_wholeBound (v : Value) : Labelled fun l => wholeBound l v := by
  cases v with
  | text s => exact .throw fun _ => rfl
  | int n => exact .pure _
  | truth b => exact .pure _
  | real x =>
      simp only [wholeBound]
      cases Double.view x with
      | finite p => exact .ite (.pure _) (.throw fun _ => rfl)
      | infinite b => exact .throw fun _ => rfl
      | nan => exact .throw fun _ => rfl

theorem labelled_character (v : Value) : Labelled fun l => character l v := by
  unfold character
  cases v.integer? with
  | none => exact .throw fun _ => rfl
  | some n => exact .ite (.throw fun _ => rfl) (.ite (.pure _) (.throw fun _ => rfl))

theorem labelled_codeOf (v : Value) : Labelled fun l => codeOf l v := by
  cases v with
  | text s =>
      simp only [codeOf]
      rcases s.toList with _ | ⟨c, _ | ⟨d, cs⟩⟩
      · exact .throw fun _ => rfl
      · exact .pure _
      · exact .throw fun _ => rfl
  | _ => exact .throw fun _ => rfl

theorem labelled_length (v : Value) : Labelled fun l => length l v := by
  cases v with
  | text s => exact .pure _
  | _ => exact .throw fun _ => rfl

theorem labelled_upperCase (v : Value) : Labelled fun l => upperCase l v := by
  cases v with
  | text s => exact .pure _
  | _ => exact .throw fun _ => rfl

theorem labelled_lowerCase (v : Value) : Labelled fun l => lowerCase l v := by
  cases v with
  | text s => exact .pure _
  | _ => exact .throw fun _ => rfl

theorem labelled_blanks (v : Value) : Labelled fun l => blanks l v := by
  unfold blanks
  cases v.integer? with
  | some n => exact (ordinary_repeated _ n).labelled
  | none => exact .throw fun _ => rfl

theorem labelled_leftPart (s n : Value) : Labelled fun l => leftPart l s n := by
  cases s with
  | text s =>
      simp only [leftPart]
      cases n.integer? with
      | some i => exact .pure _
      | none => exact .throw fun _ => rfl
  | _ => exact .throw fun _ => rfl

theorem labelled_rightPart (s n : Value) : Labelled fun l => rightPart l s n := by
  cases s with
  | text s =>
      simp only [rightPart]
      cases n.integer? with
      | some i => exact .pure _
      | none => exact .throw fun _ => rfl
  | _ => exact .throw fun _ => rfl

theorem labelled_middlePart (s start : Value) (n : Option Value) :
    Labelled fun l => middlePart l s start n := by
  unfold middlePart
  dsimp only
  cases n.filter holds with
  | none =>
      cases s <;> cases start.integer?
      all_goals first | exact .pure _ | exact .throw fun _ => rfl
  | some n =>
      dsimp only
      cases hn : start.add n with
      | error f =>
          refine .throw fun l => ?_
          split
          · rfl
          · exact ordinary_add start n f hn
      | ok stop =>
          dsimp only
          cases s <;> cases start.integer? <;> cases stop.integer?
          all_goals first | exact .pure _ | exact .throw fun _ => rfl

theorem labelled_placeOf (s : String) (needle : Value) (start stop : Option Value) :
    Labelled fun l => placeOf l s needle start stop := by
  cases needle with
  | text t =>
      simp only [placeOf]
      cases (start.getD (int 0)).integer? with
      | none => exact .throw fun _ => rfl
      | some i =>
          cases (stop.getD (int s.length)).integer? with
          | none => exact .throw fun _ => rfl
          | some j =>
              dsimp only
              cases Text.find? s.toList t.toList i j with
              | some k => exact .pure _
              | none => exact .pure _
  | _ => exact .throw fun _ => rfl

end Function

namespace Eval

theorem labelled_apply (f : Function) (v : Value) : Labelled fun l => apply f l v := by
  cases f with
  | SQR | ATN | COS | EXP | SIN | TAN => exact Function.labelled_onReal _ _ v
  | ABS => exact (Function.ordinary_magnitude v).labelled
  | INT => exact Function.labelled_floor v
  | ROUND => exact Function.labelled_round v
  | LOG => exact Function.labelled_logarithm v
  | CHR => exact Function.labelled_character v
  | ASC => exact Function.labelled_codeOf v
  | STR => exact (Value.ordinary_written v).labelled.bind fun _ => .pure _
  | VAL => exact (Function.ordinary_numberOf v).labelled
  | LEN => exact Function.labelled_length v
  | UPPER => exact Function.labelled_upperCase v
  | LOWER => exact Function.labelled_lowerCase v
  | TAB => exact Function.labelled_blanks v
  | _ => exact .pure v

end Eval

namespace DataStore

theorem raises_literal (s : List Char) : Raises (·.isOfLiteral = true) (literal s) := by
  unfold literal
  split
  · exact .ite (.throw rfl) (.throw rfl)
  · split
    · exact .pure _
    · exact .throw rfl

theorem raises_values (negative : Bool) (ts : List Token) :
    Raises (·.isOfLiteral = true) (values negative ts) := by
  induction ts generalizing negative with
  | nil => exact .pure []
  | cons t ts ih =>
      unfold values
      split
      · exact ih false
      · exact ih true
      · exact (ih negative).bind fun _ => .pure _
      · exact (Decimal.raises_readInt _).bind fun _ => (ih negative).bind fun _ => .pure _
      · exact (raises_literal _).bind fun _ => (ih negative).bind fun _ => .pure _
      · exact ih negative

theorem ordinary_values (negative : Bool) (ts : List Token) : Ordinary (values negative ts) :=
  (raises_values negative ts).mono fun _ => Fault.isAstray_of_isOfLiteral

theorem labelled_nextLine (d : DataStore) : Labelled d.nextLine := by
  unfold nextLine
  cases d.lines with
  | nil => exact .throw fun _ => rfl
  | cons first rest =>
      refine .ite (.pure _) ?_
      rcases after? (first :: rest) d.pointer with _ | _ | n
      · exact .throw fun _ => rfl
      · exact .throw fun _ => rfl
      · exact .pure n

theorem ordinary_restore (d : DataStore) (v : Value) : Ordinary (d.restore v) := by
  refine .ite (.pure _) ?_
  split
  · exact .pure _
  · exact (Value.ordinary_written v).bind fun _ => .throw rfl

def Points (d : DataStore) (n : Int) : Prop := n = 0 ∨ n ∈ d.lines.numbers

theorem mem_of_after? {ls : Lines (List Token)} {k n : Int} (h : after? ls k = some (some n)) :
    n ∈ ls.numbers := by
  induction ls with
  | nil => cases h
  | cons l ls ih =>
      rw [after?] at h
      split at h
      · exact List.mem_cons_of_mem _ (List.mem_of_mem_head? (Option.some.inj h))
      · exact List.mem_cons_of_mem _ (ih h)

theorem mem_of_nextLine {d : DataStore} {line : String} {n : Int} (h : d.nextLine line = .ok n) :
    n ∈ d.lines.numbers := by
  unfold nextLine at h
  split at h
  · cases h
  · rename_i first tokens rest hlines
    split at h
    · cases h
      rw [hlines]
      exact List.mem_cons_self
    · split at h
      · cases h
      · cases h
      · rename_i hafter
        cases h
        exact mem_of_after? hafter

theorem mem_of_before {ls : Lines (List Token)} {previous k n : Int}
    (h : before previous ls n = some k) : k = previous ∨ k ∈ ls.numbers := by
  induction ls generalizing previous with
  | nil => cases h
  | cons l ls ih =>
      rw [before] at h
      split at h
      · cases h
        exact .inl rfl
      · rcases ih h with rfl | hmem
        · exact .inr List.mem_cons_self
        · exact .inr (List.mem_cons_of_mem _ hmem)

theorem exists_pointer {d d' : DataStore} {v : Value} (h : d.restore v = .ok d') :
    ∃ pointer, d.Points pointer ∧ d' = { d with pointer := pointer } := by
  unfold restore at h
  split at h
  · cases h
    exact ⟨0, .inl rfl, rfl⟩
  · split at h
    · rename_i n _
      cases h
      refine ⟨_, ?_, rfl⟩
      cases hn : before 0 d.lines n with
      | none => exact .inl rfl
      | some k => exact mem_of_before hn
    · cases hv : v.written <;> rw [hv] at h <;> cases h

theorem nextLine_congr {d e : DataStore} (hlines : d.lines = e.lines)
    (hpointer : d.pointer = e.pointer) (line : String) : d.nextLine line = e.nextLine line := by
  rw [nextLine, nextLine, hlines, hpointer]

/-- Where to read on after RESTORE is a matter of the lines alone. -/
theorem restore_congr {d e : DataStore} (hlines : d.lines = e.lines) (v : Value) :
    e.restore v = (d.restore v).map fun r => { e with pointer := r.pointer } := by
  rw [restore, restore, hlines]
  split
  · rfl
  · split
    · rfl
    · cases v.written <;> rfl

end DataStore

end LineBasic

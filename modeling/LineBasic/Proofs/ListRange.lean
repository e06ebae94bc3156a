import LineBasic.Proofs.Conversation
import LineBasic.Proofs.Dialogue
import LineBasic.Proofs.Lines

namespace LineBasic

open Text Token Outcome

/-- The ways to ask for a listing: `LIST a-b`, `LIST a b`, `LIST a`, `LIST -b`, `LIST a-` and
`LIST`. -/
inductive ListRequest
  | range (a b : Nat)
  | pair (a b : Nat)
  | one (a : Nat)
  | upTo (b : Nat)
  | onward (a : Nat)
  | all
  deriving DecidableEq, Repr

namespace ListRequest

def numbers : ListRequest → List Nat
  | range a b | pair a b => [a, b]
  | one a | upTo a | onward a => [a]
  | all => []

def low? : ListRequest → Option Nat
  | range a _ | pair a _ | one a | onward a => some a
  | upTo _ | all => none

def high? : ListRequest → Option Nat
  | range _ b | pair _ b | one b | upTo b => some b
  | onward _ | all => none

def bounds : ListRequest → String
  | range a b => " " ++ Decimal.intText a ++ "-" ++ Decimal.intText b
  | pair a b => " " ++ Decimal.intText a ++ " " ++ Decimal.intText b
  | one a => " " ++ Decimal.intText a
  | upTo b => " -" ++ Decimal.intText b
  | onward a => " " ++ Decimal.intText a ++ "-"
  | all => ""

def text (r : ListRequest) : String := "LIST" ++ r.bounds

def Asks (r : ListRequest) (n : Int) : Prop :=
  (∀ a ∈ r.low?, a ≤ n) ∧ ∀ b ∈ r.high?, n ≤ b

/-- The lines that are shown: a bound of 0 is none. -/
def Shows (r : ListRequest) (n : Int) : Prop :=
  (∀ a ∈ r.low?, a ≠ 0 → a ≤ n) ∧ ∀ b ∈ r.high?, b ≠ 0 → n ≤ b

instance (r : ListRequest) (n : Int) : Decidable (r.Asks n) := inferInstanceAs (Decidable (_ ∧ _))

instance (r : ListRequest) (n : Int) : Decidable (r.Shows n) := inferInstanceAs (Decidable (_ ∧ _))

def faces : ListRequest → List Face
  | range a b => [.number a, (some (.mark .minus), "-"), .number b]
  | pair a b => [.number a, .number b]
  | one a => [.number a]
  | upTo b => [(some (.mark .minus), "-"), .number b]
  | onward a => [.number a, (some (.mark .minus), "-")]
  | all => []

section Tokens

variable {f : Face} {fs : List Face} {rest : List Char}

theorem toList_intText (a : Nat) : (Decimal.intText a).toList = Nat.toDigits 10 a := by
  have h := congrArg (fun f : Face => f.2.toList) (Face.number_nat a)
  rwa [String.toList_ofList] at h

theorem lexemes_blank (h : Lexemes rest (f :: fs)) : Lexemes (' ' :: rest) (f :: fs) := by
  have hskip : (' ' :: rest).dropWhile isBlank = rest.dropWhile isBlank :=
    List.dropWhile_cons_of_pos rfl
  cases h with
  | blank some blank => exact .blank (List.cons_ne_nil _ _) (hskip.trans blank)
  | token skip head tail => exact .token (hskip.trans skip) head tail

theorem lexemes_number (h : Lexemes rest fs) (stops : Stops isDigit rest)
    (whole : Stops (· == '.') rest) (a : Nat) :
    Lexemes (Nat.toDigits 10 a ++ rest) (.number a :: fs) := by
  refine .token (dropWhile_eq_self fun c hc => ?_) (Face.lexeme_digits a stops whole) h
  have hmem : c ∈ Nat.toDigits 10 a := by
    cases hs : Nat.toDigits 10 a with
    | nil => exact absurd hs Nat.toDigits_ne_nil
    | cons d ds =>
        rw [hs] at hc
        cases hc
        exact List.mem_cons_self
  exact (Face.plain_of_mem_toDigits hmem).2

theorem lexemes_minus (h : Lexemes rest fs) :
    Lexemes ('-' :: rest) ((some (.mark .minus), "-") :: fs) := by
  have hsingle : Mark.ofPair? '-' rest = none := by cases rest <;> rfl
  exact .token rfl (.mark hsingle rfl) h

theorem lexemes_bounds (r : ListRequest) : Lexemes r.bounds.toList r.faces := by
  have hend : Lexemes [] [] := .done
  have hlast (a : Nat) : Lexemes (Nat.toDigits 10 a) [.number a] := by
    have h := lexemes_number hend nofun nofun a
    rwa [List.append_nil] at h
  have hstops {p : Char → Bool} {c : Char} (rest : List Char) (hc : p c = false) :
      Stops p (c :: rest) := by
    rintro _ ⟨⟩
    exact hc
  cases r with
  | range a b =>
      have htext : (range a b).bounds.toList =
          ' ' :: (Nat.toDigits 10 a ++ '-' :: Nat.toDigits 10 b) := by
        simp [bounds, toList_intText]
      rw [htext]
      exact lexemes_blank (lexemes_number (lexemes_minus (hlast b)) (hstops _ rfl) (hstops _ rfl) a)
  | pair a b =>
      have htext : (pair a b).bounds.toList =
          ' ' :: (Nat.toDigits 10 a ++ ' ' :: Nat.toDigits 10 b) := by
        simp [bounds, toList_intText]
      rw [htext]
      exact lexemes_blank (lexemes_number (lexemes_blank (hlast b)) (hstops _ rfl) (hstops _ rfl) a)
  | one a =>
      have htext : (one a).bounds.toList = ' ' :: Nat.toDigits 10 a := by
        simp [bounds, toList_intText]
      rw [htext]
      exact lexemes_blank (hlast a)
  | upTo b =>
      have htext : (upTo b).bounds.toList = ' ' :: '-' :: Nat.toDigits 10 b := by
        simp [bounds, toList_intText]
      rw [htext]
      exact lexemes_blank (lexemes_minus (hlast b))
  | onward a =>
      have htext : (onward a).bounds.toList = ' ' :: (Nat.toDigits 10 a ++ ['-']) := by
        simp [bounds, toList_intText]
      rw [htext]
      exact lexemes_blank (lexemes_number (lexemes_minus hend) (hstops _ rfl) (hstops _ rfl) a)
  | all => exact hend

theorem tokenize_text (r : ListRequest) :
    ∃ t ts, tokenize r.text = .ok (t :: ts) ∧ t.category = some (.keyword .LIST) ∧
      ts.map Token.face = r.faces := by
  have hstops : Stops isNameChar r.bounds.toList := by
    have hblank : isNameChar ' ' = false := by decide +kernel
    intro c hc
    cases r with
    | all => cases hc
    | _ =>
        obtain rfl : ' ' = c := by simpa [bounds] using hc
        exact hblank
  have htext : r.text.toList = 'L' :: (['I', 'S', 'T'] ++ r.bounds.toList) := by simp [text]
  have hwords : Lexemes r.text.toList ((some (.keyword .LIST), "LIST") :: r.faces) := by
    rw [htext]
    exact .token rfl (.word (by decide +kernel) (by decide +kernel) (List.all_eq_true.mp rfl) hstops
      (by decide)) (lexemes_bounds r)
  obtain ⟨us, hus, hfaces⟩ := hwords.scanAll_eq 0
  obtain ⟨t, ts, rfl, ht, hts⟩ := List.map_eq_cons_iff.mp hfaces
  exact ⟨t, ts, hus, (Token.face_eq.mp ht).1, hts⟩

end Tokens

end ListRequest

namespace Session

variable {p : Program}

def firstLong? (numbers : List Nat) : Option Nat :=
  numbers.find? fun a => Decimal.digitLimit < (Nat.toDigits 10 a).length

def unlessLong {α : Type} (numbers : List Nat) (result : α) : Command α :=
  match firstLong? numbers with
  | some a => throw (.digitsFromText (Nat.toDigits 10 a).length)
  | none => pure result

theorem number_eq {t : Token} {a : Nat} (h : t.face = Face.number a) :
    number t p = if Decimal.digitLimit < (Nat.toDigits 10 a).length
      then .error (.digitsFromText (Nat.toDigits 10 a).length) p else .ok (a : Int) p := by
  have hlexeme : t.lexeme.toList = Nat.toDigits 10 a := by
    rw [(Token.face_eq.mp h).2, ListRequest.toList_intText]
  have hdecimal : ∀ c ∈ Nat.toDigits 10 a, (decimalValue? c).isSome := fun c hc => by
    rw [(Decimal.decimalValue?_of_mem_toDigits hc).1]
    rfl
  rw [number, hlexeme, Decimal.readInt_digits Nat.toDigits_ne_nil hdecimal,
    Decimal.digitsValue_toDigits]
  split <;> rfl

theorem lexeme_ne_minus {t : Token} {a : Nat} (h : t.face = Face.number a) : t.lexeme ≠ "-" := by
  intro hminus
  have hdigits : Nat.toDigits 10 a = ['-'] := by
    rw [← ListRequest.toList_intText, ← (Token.face_eq.mp h).2, hminus]
    rfl
  have hmem : '-' ∈ Nat.toDigits 10 a := by rw [hdigits]; exact List.mem_cons_self
  have hrange := Decimal.toNat_of_mem_toDigits hmem
  exact absurd hrange (by decide)

theorem number_bind {β : Type} {t : Token} {a : Nat} (h : t.face = Face.number a)
    (f : Int → Command β) :
    (number t >>= f) p = if Decimal.digitLimit < (Nat.toDigits 10 a).length
      then .error (.digitsFromText (Nat.toDigits 10 a).length) p else f a p := by
  have hnumber := @number_eq p t a h
  split at hnumber
  · rw [if_pos ‹_›, bind_error hnumber]
  · rw [if_neg ‹_›, bind_ok hnumber]

theorem number_pure {α : Type} {t : Token} {a : Nat} (h : t.face = Face.number a)
    (g : Int → α) : (number t >>= fun n => pure (g n)) p = unlessLong [a] (g a) p := by
  rw [number_bind h]
  by_cases ha : Decimal.digitLimit < (Nat.toDigits 10 a).length
  · simp [unlessLong, firstLong?, ha]
    rfl
  · simp [unlessLong, firstLong?, ha]

theorem number_number {t u : Token} {a b : Nat} (ht : t.face = Face.number a)
    (hu : u.face = Face.number b) :
    (number t >>= fun n => number u >>= fun m => pure (some n, some m)) p =
      unlessLong [a, b] (some (a : Int), some (b : Int)) p := by
  rw [number_bind ht]
  by_cases ha : Decimal.digitLimit < (Nat.toDigits 10 a).length
  · simp [unlessLong, firstLong?, ha]
    rfl
  · rw [if_neg ha, number_pure hu]
    simp [unlessLong, firstLong?, ha]

theorem listRange_eq {r : ListRequest} {ts : List Token} (h : ts.map Token.face = r.faces) :
    listRange ts p = unlessLong r.numbers (r.low?.map Int.ofNat, r.high?.map Int.ofNat) p := by
  cases r with
  | range a b =>
      obtain ⟨t, _, rfl, ht, h⟩ := List.map_eq_cons_iff.mp h
      obtain ⟨w, _, rfl, -, h⟩ := List.map_eq_cons_iff.mp h
      obtain ⟨u, rfl, hu⟩ := List.map_eq_singleton_iff.mp h
      exact number_number ht hu
  | pair a b =>
      obtain ⟨t, _, rfl, ht, h⟩ := List.map_eq_cons_iff.mp h
      obtain ⟨u, rfl, hu⟩ := List.map_eq_singleton_iff.mp h
      rw [listRange, if_neg (lexeme_ne_minus ht), if_neg (lexeme_ne_minus hu)]
      exact number_number ht hu
  | one a =>
      obtain ⟨t, rfl, ht⟩ := List.map_eq_singleton_iff.mp h
      exact number_pure ht _
  | upTo b =>
      obtain ⟨t, _, rfl, ht, h⟩ := List.map_eq_cons_iff.mp h
      obtain ⟨u, rfl, hu⟩ := List.map_eq_singleton_iff.mp h
      rw [listRange, if_pos (Token.face_eq.mp ht).2]
      exact number_pure hu _
  | onward a =>
      obtain ⟨t, _, rfl, ht, h⟩ := List.map_eq_cons_iff.mp h
      obtain ⟨u, rfl, hu⟩ := List.map_eq_singleton_iff.mp h
      rw [listRange, if_neg (lexeme_ne_minus ht), if_pos (Token.face_eq.mp hu).2]
      exact number_pure ht _
  | all =>
      obtain rfl := List.map_eq_nil_iff.mp h
      rfl

end Session

def Program.textsOf (p : Program) (shown : Int → Bool) : List String :=
  (p.lines.filter fun l => shown l.1).map fun l => p.lineText l.1 l.2

namespace Session

variable {p : Program}

def Bounded (first last : Option Int) (n : Int) : Prop :=
  (∀ a ∈ first, a ≠ 0 → a ≤ n) ∧ ∀ b ∈ last, b ≠ 0 → n ≤ b

instance (first last : Option Int) (n : Int) : Decidable (Bounded first last n) :=
  inferInstanceAs (Decidable (_ ∧ _))

theorem le_of_head? {ns : List Int} {low n : Int} (h : ns.Pairwise (· < ·))
    (hlow : ns.head? = some low) (hn : n ∈ ns) : low ≤ n := by
  obtain ⟨ms, rfl⟩ := List.head?_eq_some_iff.mp hlow
  rcases List.mem_cons.mp hn with rfl | hn
  · exact Int.le_refl _
  · exact Int.le_of_lt (List.rel_of_pairwise_cons h hn)

theorem le_of_getLast? {ns : List Int} {high n : Int} (h : ns.Pairwise (· < ·))
    (hhigh : ns.getLast? = some high) (hn : n ∈ ns) : n ≤ high := by
  obtain ⟨ms, rfl⟩ := List.getLast?_eq_some_iff.mp hhigh
  rcases List.mem_append.mp hn with hn | hn
  · exact Int.le_of_lt ((List.pairwise_append.mp h).2.2 n hn high List.mem_cons_self)
  · exact Int.le_of_eq (List.mem_singleton.mp hn)

/-- The first and the last line are bounds that no line is beyond. -/
theorem bounded_iff {first last : Option Int} {low high n : Int} (hlow : low ≤ n)
    (hhigh : n ≤ high) :
    (orElseBound first low ≤ n ∧ n ≤ orElseBound last high) ↔ Bounded first last n := by
  have hfirst : orElseBound first low ≤ n ↔ ∀ a ∈ first, a ≠ 0 → a ≤ n := by
    cases first with
    | none => simp [orElseBound, hlow]
    | some a => by_cases ha : a = 0 <;> simp [orElseBound, ha, hlow]
  have hlast : n ≤ orElseBound last high ↔ ∀ b ∈ last, b ≠ 0 → n ≤ b := by
    cases last with
    | none => simp [orElseBound, hhigh]
    | some b => by_cases hb : b = 0 <;> simp [orElseBound, hb, hhigh]
  rw [hfirst, hlast, Bounded]

theorem forM_listLine (h : p.Coherent) {ls : Lines (List Token)} (hls : ∀ l ∈ ls, l ∈ p.lines) :
    (ls.numbers.forM fun n => do print (← ofExcept (p.listLine n)) : Command Unit) =
      (ls.map fun l => p.lineText l.1 l.2).forM print := by
  induction ls with
  | nil => rfl
  | cons l ls ih =>
      have hl := h.listLine (Lines.get?_of_mem p.ascending_lines (hls l List.mem_cons_self))
      show ((ofExcept (p.listLine l.1) >>= print) >>= fun _ => (Lines.numbers ls).forM _) =
        (print _ >>= fun _ => (ls.map _).forM print)
      rw [hl, ih fun k hk => hls k (List.mem_cons_of_mem _ hk)]
      rfl

theorem list_of_some {first last : Option Int} {low high : Int} (hlow : p.numbers.head? = some low)
    (hhigh : p.numbers.getLast? = some high) :
    list first last p =
      ((p.numbers.filter fun n => orElseBound first low ≤ n && n ≤ orElseBound last high).forM
        fun n => do print (← ofExcept (p.listLine n)) : Command Unit) p := by
  have hget : (get : Command Program) p = .ok p p := rfl
  rw [list, bind_ok hget, hlow, hhigh]

theorem list_of_nil (first last : Option Int) (h : p.numbers = []) :
    list first last p = .ok () p := by
  have hget : (get : Command Program) p = .ok p p := rfl
  rw [list, bind_ok hget, h]
  rfl

theorem list_eq (h : p.Coherent) (first last : Option Int) :
    list first last p = (p.textsOf (Bounded first last ·)).forM print p := by
  by_cases hnil : p.numbers = []
  · rw [list_of_nil first last hnil, Program.textsOf, List.map_eq_nil_iff.mp hnil]
    rfl
  · obtain ⟨low, hlow⟩ := Option.ne_none_iff_exists'.mp (mt List.head?_eq_none_iff.mp hnil)
    obtain ⟨high, hhigh⟩ := Option.ne_none_iff_exists'.mp (mt List.getLast?_eq_none_iff.mp hnil)
    have hfilter : (p.numbers.filter fun n =>
        orElseBound first low ≤ n && n ≤ orElseBound last high) =
        Lines.numbers (p.lines.filter fun l => Bounded first last l.1) := by
      rw [Program.numbers, Lines.numbers, List.filter_map, Lines.numbers]
      refine congrArg _ (List.filter_congr fun l hl => ?_)
      have hn : l.1 ∈ p.numbers := List.mem_map_of_mem hl
      have hbounded := @bounded_iff first last low high l.1 (le_of_head? p.ascending_lines hlow hn)
        (le_of_getLast? p.ascending_lines hhigh hn)
      exact (Bool.decide_and _ _).symm.trans (decide_eq_decide.mpr hbounded)
    rw [list_of_some hlow hhigh, hfilter, forM_listLine h fun l hl => (List.mem_filter.mp hl).1]
    rfl

end Session

theorem ListRequest.bounded_iff_shows (r : ListRequest) (n : Int) :
    Session.Bounded (r.low?.map Int.ofNat) (r.high?.map Int.ofNat) n ↔ r.Shows n := by
  simp [Session.Bounded, Shows]

def Device.lineOf : Device → String → String
  | .tape _, s => s
  | _, s => s ++ "\n"

def Program.printing (p : Program) (lines : List String) : Program :=
  let t := p.machine.terminal
  { p with machine := { p.machine with terminal := { t with
      events := (lines.map fun s => .wrote (t.device.lineOf s)).reverse ++ t.events } } }

namespace Session

variable {p : Program}

theorem print_plain (h : p.machine.terminal.device.isPlain) (s : String) :
    print s p = .ok () (p.printing [s]) := by
  obtain ⟨lines, returns, next, m⟩ := p
  obtain ⟨symbols, pending, data, channels, disk, ⟨device, typed, patience, events⟩, g, f, c, k⟩ :=
    m
  cases device with
  | checker c => cases h
  | editor e => cases h
  | _ => rfl

theorem forM_print_plain (h : p.machine.terminal.device.isPlain) (lines : List String) :
    lines.forM print p = .ok () (p.printing lines) := by
  induction lines generalizing p with
  | nil => rfl
  | cons s lines ih =>
      show (print s >>= fun _ => lines.forM print) p = _
      rw [bind_ok (print_plain h s), ih (p := p.printing [s]) h]
      simp [Program.printing]

theorem enter_text (r : ListRequest) :
    enter r.text p = (unlessLong r.numbers (r.low?.map Int.ofNat, r.high?.map Int.ofNat) >>=
      fun bounds => list bounds.1 bounds.2 >>= fun _ => pure Answer.goOn) p := by
  obtain ⟨t, ts, htokens, hlist, hts⟩ := r.tokenize_text
  have henter : enter r.text p = perform t ts p := by
    rw [enter, htokens]
    rfl
  have hrange := @listRange_eq p r ts hts
  rw [henter, perform, hlist]
  show (listRange ts >>= _) p = _
  cases hread : unlessLong r.numbers (r.low?.map Int.ofNat, r.high?.map Int.ofNat) p with
  | error f q => rw [bind_error hread, bind_error (hrange.trans hread)]
  | ok bounds q =>
      rw [bind_ok hread, bind_ok (hrange.trans hread)]

end Session

section Listing

variable {p : Program} {r : ListRequest}

theorem shown_eq_asked_iff :
    (p.lines.filter fun l => r.Shows l.1) = (p.lines.filter fun l => r.Asks l.1) ↔
      ∀ n ∈ p.numbers, r.Shows n → (r.low? = some 0 → 0 ≤ n) ∧ (r.high? = some 0 → n ≤ 0) := by
  constructor
  · intro hsame n hn hshows
    obtain ⟨l, hl, rfl⟩ := List.mem_map.mp hn
    have hmem : l ∈ p.lines.filter fun l => r.Asks l.1 := by
      rw [← hsame]
      exact List.mem_filter.mpr ⟨hl, decide_eq_true hshows⟩
    have hasks : r.Asks l.1 := of_decide_eq_true (List.mem_filter.mp hmem).2
    exact ⟨hasks.1 0, hasks.2 0⟩
  · intro hzero
    refine List.filter_congr fun l hl => decide_eq_decide.mpr ⟨fun hshows => ?_, fun hasks => ?_⟩
    · obtain ⟨hlow, hhigh⟩ := hzero l.1 (List.mem_map_of_mem hl) hshows
      refine ⟨fun a ha => ?_, fun b hb => ?_⟩
      · by_cases ha0 : a = 0
        · subst ha0
          exact hlow ha
        · exact hshows.1 a ha ha0
      · by_cases hb0 : b = 0
        · subst hb0
          exact hhigh hb
        · exact hshows.2 b hb hb0
    · exact ⟨fun a ha _ => hasks.1 a ha, fun b hb _ => hasks.2 b hb⟩

open Session in
/-- In any conversation LIST prints the lines within its bounds, each once and in ascending order,
and does nothing else. Only a bound of 0 counts as none: the lines are those that were asked for
just if no other line comes in for that reason. A request with a number that has too many digits is
refused. -/
theorem enter_listRequest (h : Reached p) (r : ListRequest) :
    (firstLong? r.numbers = none →
      enter r.text p = ((p.textsOf (r.Shows ·)).forM print >>= fun _ => pure Answer.goOn) p ∧
      (p.machine.terminal.device.isPlain →
        enter r.text p = .ok .goOn (p.printing (p.textsOf (r.Shows ·))))) ∧
    (∀ a, firstLong? r.numbers = some a →
      enter r.text p = .error (.digitsFromText (Nat.toDigits 10 a).length) p) ∧
    Lines.Ascending (p.lines.filter fun l => r.Shows l.1) ∧
    ((p.lines.filter fun l => r.Shows l.1) = (p.lines.filter fun l => r.Asks l.1) ↔
      ∀ n ∈ p.numbers, r.Shows n → (r.low? = some 0 → 0 ≤ n) ∧ (r.high? = some 0 → n ≤ 0)) := by
  refine ⟨fun hshort => ?_, fun a hlong => ?_, ?_, shown_eq_asked_iff⟩
  · have hlist : list (r.low?.map Int.ofNat) (r.high?.map Int.ofNat) p =
        (p.textsOf (r.Shows ·)).forM print p := by
      simp only [list_eq h.coherent, Program.textsOf, r.bounded_iff_shows]
    have henter : enter r.text p =
        ((p.textsOf (r.Shows ·)).forM print >>= fun _ => pure Answer.goOn) p := by
      rw [enter_text, unlessLong, hshort]
      exact Outcome.bind_congr (x := list _ _) hlist
    refine ⟨henter, fun hplain => ?_⟩
    rw [henter, bind_ok (forM_print_plain hplain _)]
    rfl
  · rw [enter_text, unlessLong, hlong]
    rfl
  · exact p.ascending_lines.sublist (List.filter_sublist.map _)

/-- The lower bound is no line number, and a bound of 0 takes in all lines behind it. -/
theorem enter_listRequest_between :
    let p := ["30 PRINT 3", "10 PRINT 1", "40", "20 DATA 2"].foldl
      (fun p line => state (Session.enter line p)) (.fresh .blank)
    Session.enter "LIST 15-20" p = .ok .goOn (p.printing ["20 DATA 2 "]) ∧
      Session.enter "LIST 15 0" p = .ok .goOn (p.printing ["20 DATA 2 ", "30 PRINT 3 "]) := by
  intro p
  have h : Session.Reached p :=
    .entry (.entry (.entry (.entry (.start .blank rfl) "30 PRINT 3") "10 PRINT 1") "40") "20 DATA 2"
  have hplain : p.machine.terminal.device.isPlain := by decide +kernel
  have hrange := ((enter_listRequest h (.range 15 20)).1 rfl).2 hplain
  have hpair := ((enter_listRequest h (.pair 15 0)).1 rfl).2 hplain
  have hminus : (ListRequest.range 15 20).text = "LIST 15-20" := by decide +kernel
  have hblank : (ListRequest.pair 15 0).text = "LIST 15 0" := by decide +kernel
  have hbetween : p.textsOf ((ListRequest.range 15 20).Shows ·) = ["20 DATA 2 "] := by
    decide +kernel
  have hbehind : p.textsOf ((ListRequest.pair 15 0).Shows ·) = ["20 DATA 2 ", "30 PRINT 3 "] := by
    decide +kernel
  rw [hminus, hbetween] at hrange
  rw [hblank, hbehind] at hpair
  exact ⟨hrange, hpair⟩

/-- There is no line 0, but the whole program is listed. -/
theorem list_zero_shows_all :
    let p := state (Session.enter "20 PRINT 2" (state (Session.enter "10 PRINT 1" (.fresh .blank))))
    p.numbers = [10, 20] ∧
      (state (Session.enter "LIST 0" p)).machine.terminal.output = "10 PRINT 1 \n20 PRINT 2 \n" ∧
      (state (Session.enter "LIST 20-0" p)).machine.terminal.output = "20 PRINT 2 \n" ∧
      (state (Session.enter "LIST 0" p)).numbers = [10, 20] := by
  decide +kernel

end Listing

end LineBasic

import LineBasic.Proofs.Recasing

namespace LineBasic

open Text

namespace Token

/-- The text with `!=` in place of `<>` wherever that is chosen. Its first character stands in the
given column. -/
def exclaim (chosen : Nat → Bool) : Nat → List Char → List Char
  | column, '<' :: '>' :: s =>
      if chosen column then '!' :: '=' :: exclaim chosen (column + 2) s
      else '<' :: '>' :: exclaim chosen (column + 2) s
  | column, c :: s => c :: exclaim chosen (column + 1) s
  | _, [] => []

def Covers (t : Token) (place : Nat) : Prop :=
  t.column ≤ place ∧
    (t.category = some .text ∧ place < t.column + t.lexeme.length + 2 ∨ t.isKeyword .REM)

instance (t : Token) (place : Nat) : Decidable (t.Covers place) :=
  inferInstanceAs (Decidable (_ ∧ _))

section Respelling

variable {chosen : Nat → Bool} {column : Nat} {c : Char} {s after : List Char}

theorem exclaim_pair (h : chosen column = true) :
    exclaim chosen column ('<' :: '>' :: s) = '!' :: '=' :: exclaim chosen (column + 2) s := by
  rw [exclaim, if_pos h]

/-- A character stays unless it begins a chosen `<>`. -/
theorem exclaim_cons (h : chosen column = true → c = '<' → s.head? ≠ some '>') :
    exclaim chosen column (c :: s) = c :: exclaim chosen (column + 1) s := by
  by_cases hpair : c = '<' ∧ s.head? = some '>'
  · obtain ⟨rfl, hs⟩ := hpair
    obtain ⟨s, rfl⟩ := List.head?_eq_some_iff.mp hs
    have hchosen : chosen column = false := by
      cases hc : chosen column with
      | false => rfl
      | true => exact absurd hs (h hc rfl)
    have hbehind : exclaim chosen (column + 1) ('>' :: s) =
        '>' :: exclaim chosen (column + 1 + 1) s :=
      exclaim.eq_2 _ _ _ _ (by simp)
    rw [exclaim, hchosen, hbehind]
    rfl
  · refine exclaim.eq_2 _ _ _ _ fun s' hc hs => hpair ⟨hc, ?_⟩
    rw [hs]
    rfl

theorem exclaim_append {w : List Char}
    (h : ∀ i < w.length, chosen (column + i) = true → w[i]? ≠ some '<') :
    exclaim chosen column (w ++ after) = w ++ exclaim chosen (column + w.length) after := by
  induction w generalizing column with
  | nil => rfl
  | cons c w ih =>
      have hc : chosen column = true → c ≠ '<' := by
        simpa using h 0 (by simp)
      have hw := @ih (column + 1) (by
        intro i hi hchosen
        have hnext := h (i + 1) (by simpa using hi)
        rw [← Nat.add_assoc, Nat.add_right_comm] at hnext
        simpa using hnext hchosen)
      rw [List.cons_append, exclaim_cons fun hchosen heq => absurd heq (hc hchosen), hw,
        List.length_cons, Nat.add_right_comm column 1, Nat.add_assoc]
      rfl

theorem exclaim_append_of_notMem {w : List Char} (h : '<' ∉ w) :
    exclaim chosen column (w ++ after) = w ++ exclaim chosen (column + w.length) after :=
  exclaim_append fun _ _ _ hi => h (List.mem_of_getElem? hi)

theorem head?_exclaim (s : List Char) :
    (exclaim chosen column s).head? = s.head? ∨
      s.head? = some '<' ∧ (exclaim chosen column s).head? = some '!' := by
  cases s with
  | nil => exact .inl rfl
  | cons c s =>
      by_cases h : chosen column = true ∧ c = '<' ∧ s.head? = some '>'
      · obtain ⟨hchosen, rfl, hs⟩ := h
        obtain ⟨s, rfl⟩ := List.head?_eq_some_iff.mp hs
        rw [exclaim_pair hchosen]
        exact .inr ⟨rfl, rfl⟩
      · rw [exclaim_cons fun hchosen hc hs => h ⟨hchosen, hc, hs⟩]
        exact .inl rfl

theorem stops_exclaim {p : Char → Bool} (h : Stops p s) (hp : p '!' = false) :
    Stops p (exclaim chosen column s) := by
  intro c hc
  rcases @head?_exclaim chosen column s with hhead | ⟨-, hhead⟩
  · rw [hhead] at hc
    exact h c hc
  · rw [hhead] at hc
    cases hc
    exact hp

theorem length_exclaim (s : List Char) : (exclaim chosen column s).length = s.length := by
  fun_induction exclaim chosen column s <;> simp_all

theorem ofPair?_exclaim (h : Mark.ofPair? c s = none) :
    Mark.ofPair? c (exclaim chosen column s) = none := by
  cases hs : exclaim chosen column s with
  | nil => unfold Mark.ofPair?; split <;> simp_all
  | cons d u =>
      have hhead := @head?_exclaim chosen column s
      rw [hs] at hhead
      rcases hhead with hhead | ⟨-, hhead⟩
      · obtain ⟨v, rfl⟩ := List.head?_eq_some_iff.mp hhead.symm
        rw [Mark.ofPair?_cons c d u v, h]
      · obtain rfl : d = '!' := Option.some.inj hhead
        unfold Mark.ofPair?
        split <;> simp_all

/-- White space stays. -/
theorem exclaim_blank {src : List Char} (hs : s.dropWhile isBlank = src) :
    exclaim chosen column s =
      s.takeWhile isBlank ++ exclaim chosen (column + (s.length - src.length)) src := by
  have hmem : '<' ∉ s.takeWhile isBlank :=
    fun hlt => absurd (allOf_takeWhile isBlank s _ hlt) (by decide +kernel)
  have hsplit : s.takeWhile isBlank ++ src = s := by
    rw [← hs, List.takeWhile_append_dropWhile]
  have hlength : (s.takeWhile isBlank).length = s.length - src.length := by
    have hsum := congrArg List.length hsplit
    rw [List.length_append] at hsum
    omega
  have happend := @exclaim_append_of_notMem chosen column src _ hmem
  rwa [hsplit, hlength] at happend

theorem dropWhile_exclaim {src : List Char} (hs : s.dropWhile isBlank = src) :
    (exclaim chosen column s).dropWhile isBlank =
      exclaim chosen (column + (s.length - src.length)) src := by
  rw [exclaim_blank hs]
  refine dropWhile_of_stops (allOf_takeWhile isBlank s) (stops_exclaim ?_ (by decide))
  exact hs ▸ stops_dropWhile isBlank s

end Respelling

theorem ofWord_ne_notEqual (w : String) : Category.ofWord w ≠ .mark .notEqual := by
  have hwords : ∀ p ∈ Category.words, p.2 ≠ .mark .notEqual := by decide
  unfold Category.ofWord
  cases h : Category.words.lookup w with
  | none => simp
  | some c => exact hwords _ (Category.ofWord_of_lookup h)

variable {src after : List Char} {f : Face}

theorem Lexeme.notEqual (h : Lexeme src f after) (hf : f.1 = some (.mark .notEqual)) :
    src = '<' :: '>' :: after ∧ f.2 = "<>" := by
  cases h with
  | text => cases hf
  | integer => cases hf
  | decimal => cases hf
  | word => exact absurd (Option.some.inj hf) (ofWord_ne_notEqual _)
  | remark => cases hf
  | pair pair =>
      cases hf
      unfold Mark.ofPair? at pair
      split at pair <;> simp_all
  | mark single mark =>
      cases hf
      unfold Mark.ofChar? at mark
      split at mark <;> cases mark

/-- A token that is not respelled itself stays, whatever is respelled behind it. -/
theorem Lexeme.kept {chosen : Nat → Bool} {start : Nat} (h : Lexeme src f after)
    (hkept : f.1 = some (.mark .notEqual) → chosen start = false)
    (hout : ∀ place, chosen place = true → ¬ Covers ⟨start, f.1, f.2⟩ place) :
    ∃ w, src = w ++ after ∧
      exclaim chosen start src = w ++ exclaim chosen (start + w.length) after ∧
      Lexeme (w ++ exclaim chosen (start + w.length) after) f
        (exclaim chosen (start + w.length) after) := by
  cases h with
  | @text s _ unquoted =>
      have hsrc : '"' :: (s ++ '"' :: after) = ('"' :: (s ++ ['"'])) ++ after := by simp
      rw [hsrc]
      refine ⟨_, rfl, exclaim_append fun i hi hchosen => ?_, ?_⟩
      · refine absurd ⟨Nat.le_add_right start i, .inl ⟨rfl, ?_⟩⟩ (hout _ hchosen)
        simp at hi
        simp
        omega
      · simpa using Lexeme.text unquoted
  | @integer c s _ digits stops whole =>
      have hmem : '<' ∉ c :: s := fun hlt => absurd (digits _ hlt) (by decide +kernel)
      refine ⟨c :: s, rfl, exclaim_append_of_notMem hmem, ?_⟩
      exact .integer digits (stops_exclaim stops (by decide +kernel))
        (stops_exclaim whole (by decide +kernel))
  | @decimal c s u _ digits more stops =>
      have hmem : '<' ∉ c :: (s ++ '.' :: u) := by
        simp only [List.mem_cons, List.mem_append, not_or]
        have hdigit (w : List Char) (hw : AllOf isDigit w) : '<' ∉ w :=
          fun hlt => absurd (hw _ hlt) (by decide +kernel)
        have hcs := hdigit _ digits
        rw [List.mem_cons, not_or] at hcs
        exact ⟨hcs.1, hcs.2, by decide, hdigit u more⟩
      have hsrc : c :: (s ++ '.' :: (u ++ after)) = (c :: (s ++ '.' :: u)) ++ after := by simp
      rw [hsrc]
      refine ⟨_, rfl, exclaim_append_of_notMem hmem, ?_⟩
      simpa using Lexeme.decimal digits more (stops_exclaim stops (by decide +kernel))
  | @word c s _ letter digit name stops plain =>
      have hmem : '<' ∉ c :: s := by
        have hname : AllOf isNameChar (c :: s) :=
          List.forall_mem_cons.mpr ⟨isNameChar_of_isLetter letter, name⟩
        exact fun hlt => absurd (hname _ hlt) (by decide +kernel)
      refine ⟨c :: s, rfl, exclaim_append_of_notMem hmem, ?_⟩
      exact .word letter digit name (stops_exclaim stops (by decide +kernel)) plain
  | @remark c s rest letter digit name stops remark =>
      have hall := @exclaim_append chosen start [] (c :: (s ++ rest)) fun i _ hchosen =>
        absurd ⟨Nat.le_add_right start i, .inr rfl⟩ (hout _ hchosen)
      rw [List.append_nil] at hall
      refine ⟨c :: (s ++ rest), (List.append_nil _).symm, hall, ?_⟩
      simpa [exclaim] using Lexeme.remark letter digit name stops remark
  | @pair c d _ m pair =>
      have hd : d ≠ '<' := by
        rintro rfl
        unfold Mark.ofPair? at pair
        split at pair <;> simp_all
      have hc : chosen start = true → c = '<' → d ≠ '>' := by
        rintro hchosen rfl rfl
        cases pair
        exact absurd (hkept rfl) (by simp [hchosen])
      refine ⟨[c, d], rfl, ?_, .pair ((Mark.ofPair?_cons c d _ after).trans pair)⟩
      rw [exclaim_cons (by simpa using hc), exclaim_cons fun _ hlt => absurd hlt hd]
      rfl
  | @mark c _ m single mark =>
      have hc : chosen start = true → c = '<' → after.head? ≠ some '>' := by
        rintro - rfl hafter
        obtain ⟨u, rfl⟩ := List.head?_eq_some_iff.mp hafter
        cases single
      exact ⟨[c], rfl, exclaim_cons hc, .mark (ofPair?_exclaim single) mark⟩

/-- The same with the column behind the token as the lexer counts it. -/
theorem Lexeme.kept_cons {chosen : Nat → Bool} {start : Nat} {c : Char} {rest : List Char}
    (h : Lexeme (c :: rest) f after) (hafter : after.length ≤ rest.length)
    (hkept : f.1 = some (.mark .notEqual) → chosen start = false)
    (hout : ∀ place, chosen place = true → ¬ Covers ⟨start, f.1, f.2⟩ place) :
    let behind := exclaim chosen (start + 1 + (rest.length - after.length)) after
    ∃ w, rest = w ++ after ∧ exclaim chosen start (c :: rest) = c :: (w ++ behind) ∧
      Lexeme (c :: (w ++ behind)) f behind := by
  obtain ⟨w, hsrc, hexclaim, hlexeme⟩ := h.kept hkept hout
  cases w with
  | nil =>
      -- A token has a character at least.
      rw [List.nil_append] at hsrc
      rw [← hsrc, List.length_cons] at hafter
      omega
  | cons d w =>
      obtain ⟨rfl, rfl⟩ := List.cons.inj hsrc
      have hnext : start + (c :: w).length =
          start + 1 + ((w ++ after).length - after.length) := by
        rw [List.length_append, List.length_cons]
        omega
      rw [hnext, List.cons_append] at hexclaim hlexeme
      exact ⟨w, rfl, hexclaim, hlexeme⟩

/-- A fault behind the first token is a fault of the text. -/
theorem scanAll_of_lexeme {column start : Nat} {c : Char} {s rest : List Char} {e : Fault}
    (hs : s.dropWhile isBlank = c :: rest) (h : Lexeme (c :: rest) f after)
    (hstart : column + (s.length - (rest.length + 1)) = start)
    (he : scanAll (start + 1 + (rest.length - after.length)) after = .error e) :
    scanAll column s = .error e := by
  rw [scanAll_of_scan hs (h.scan_eq _), hstart, he]
  rfl

def struck (chosen : Nat → Bool) (ts : List Token) : Bool :=
  ts.any fun t => t.isMark .notEqual && chosen t.column

/-- The first token that is respelled is not read any more, and if there is none then the text is
the same. -/
theorem scanAll_exclaim {chosen : Nat → Bool} {column : Nat} {s : List Char} {ts : List Token}
    (h : scanAll column s = .ok ts)
    (hout : ∀ place, chosen place = true → ∀ t ∈ ts, ¬ t.Covers place) :
    if struck chosen ts then scanAll column (exclaim chosen column s) = .error .strangeCharacter
    else exclaim chosen column s = s := by
  fun_induction scanAll column s generalizing ts with
  | case1 column s hs =>
      have hstruck : struck chosen ts = false := by
        cases h
        split <;> rfl
      have hall := @exclaim_blank chosen column s [] hs
      rw [exclaim, ← hs, List.takeWhile_append_dropWhile] at hall
      rwa [hstruck]
  | case2 => cases h
  | case3 column s c rest hs start t after ht =>
      rename_i ih
      obtain ⟨us, hus, hts⟩ := of_bind_eq_ok h
      cases hts
      have hlexeme := lexeme_of_scan ht
      have hcolumn := column_of_scan ht
      have hdrop := @dropWhile_exclaim chosen column s (c :: rest) hs
      have hlength := @length_exclaim chosen column s
      rw [List.length_cons] at hdrop
      cases hthis : t.isMark .notEqual && chosen t.column with
      | true =>
          have hstruck : struck chosen (t :: us) = true := by simp [struck, hthis]
          rw [Bool.and_eq_true, hcolumn] at hthis
          have hmark : t.category = some (.mark .notEqual) := by simpa [isMark] using hthis.1
          have hpair := (hlexeme.notEqual hmark).1
          rw [hpair, exclaim_pair hthis.2] at hdrop
          have hrefused (u : List Char) : Refused '!' u .strangeCharacter :=
            .strange (by decide +kernel) (by decide +kernel) rfl
          rw [hstruck, if_pos rfl]
          exact scanAll_of_error hdrop ((hrefused _).scan_eq _)
      | false =>
          have hstruck : struck chosen (t :: us) = struck chosen us := by simp [struck, hthis]
          obtain ⟨w, hrest, hexclaim, hkept⟩ := @Lexeme.kept_cons _ _ chosen start _ _ hlexeme
            (scan_length ht)
            (fun hmark => by simpa [isMark, hcolumn, show t.category = _ from hmark] using hthis)
            (fun place hchosen => by
              have hcovers := hout place hchosen t List.mem_cons_self
              rwa [← hcolumn])
          rw [hexclaim] at hdrop
          have hmore := ih hus fun place hchosen u hu => hout place hchosen u (.tail _ hu)
          rw [hstruck]
          split at hmore
          · rename_i hbehind
            rw [if_pos hbehind]
            have hsame : (w ++ exclaim chosen (start + 1 + (rest.length - after.length))
                after).length = rest.length := by
              rw [List.length_append, length_exclaim, hrest, List.length_append]
            have hstart : column + ((exclaim chosen column s).length - ((w ++ exclaim chosen
                (start + 1 + (rest.length - after.length)) after).length + 1)) = start := by
              rw [hlength, hsame]
            refine scanAll_of_lexeme hdrop hkept hstart ?_
            rw [hsame, length_exclaim]
            exact hmore
          · rename_i hbehind
            rw [if_neg hbehind, exclaim_blank hs, List.length_cons]
            have hsrc' : exclaim chosen start (c :: rest) = c :: rest := by
              rw [hexclaim, hmore, hrest]
            rw [hsrc', ← hs, List.takeWhile_append_dropWhile]

/-- There is one spelling only that the lexer takes for the mark. -/
theorem Lexemes.notEqual {s : List Char} {fs : List Face} (h : Lexemes s fs) :
    ∀ f ∈ fs, f.1 = some (.mark .notEqual) → f.2 = "<>" := by
  induction h with
  | done => rintro f ⟨⟩
  | blank some blank =>
      intro f hf hmark
      rw [List.mem_singleton.mp hf] at hmark
      cases hmark
  | token skip head tail ih =>
      rw [List.forall_mem_cons]
      exact ⟨fun hmark => (head.notEqual hmark).2, ih⟩

theorem struck_eq_false {chosen : Nat → Bool} {ts : List Token} : struck chosen ts = false ↔
    ∀ t ∈ ts, t.category = some (.mark .notEqual) → chosen t.column = false := by
  simp [struck, isMark]

def respelled (chosen : Nat → Bool) (t : Token) : Token :=
  if t.category = some (.mark .notEqual) ∧ chosen t.column then { t with lexeme := "!=" } else t

/-- At any choice of places outside of the quoted texts and of the remark, `!=` is put for `<>`.
If that changes the text at all, that is if a token is chosen, then the text is refused. So the
tokens are those with the other spelling only if nothing is respelled. -/
theorem tokenize_respelled {s : String} {ts : List Token} (h : tokenize s = .ok ts)
    (chosen : Nat → Bool) (hout : ∀ place, chosen place = true → ∀ t ∈ ts, ¬ t.Covers place) :
    let u := String.ofList (exclaim chosen 0 s.toList)
    (∀ t ∈ ts, t.category = some (.mark .notEqual) → t.lexeme = "<>") ∧
    (u = s ↔ ∀ t ∈ ts, t.category = some (.mark .notEqual) → chosen t.column = false) ∧
    tokenize u = (if u = s then .ok ts else .error .strangeCharacter) ∧
    (tokenize u = .ok (ts.map (respelled chosen)) ↔ u = s) := by
  intro u
  have hlexeme : ∀ t ∈ ts, t.category = some (.mark .notEqual) → t.lexeme = "<>" := fun t ht =>
    (lexemes_of_scanAll h).notEqual t.face (List.mem_map_of_mem ht)
  refine ⟨hlexeme, ?_⟩
  have htokens : tokenize u = scanAll 0 (exclaim chosen 0 s.toList) := by
    rw [tokenize, String.toList_ofList]
  have hscan := scanAll_exclaim h hout
  rw [← struck_eq_false]
  cases hstruck : struck chosen ts with
  | true =>
      rw [hstruck, if_pos rfl, ← htokens] at hscan
      have hne : u ≠ s := by
        intro hu
        rw [hu, h] at hscan
        cases hscan
      rw [hscan]
      simp [hne]
  | false =>
      rw [hstruck, if_neg Bool.false_ne_true] at hscan
      have hu : u = s := by
        show String.ofList (exclaim chosen 0 s.toList) = s
        rw [hscan, String.ofList_toList]
      have hmap : ts.map (respelled chosen) = ts := by
        have hsame : ts.map (respelled chosen) = ts.map id := by
          refine List.map_congr_left fun t ht => if_neg fun ht' => ?_
          have hfalse := struck_eq_false.mp hstruck t ht ht'.1
          rw [ht'.2] at hfalse
          cases hfalse
        rw [hsame, List.map_id]
      rw [hu, h, hmap]
      simp

/-- The mark stands in a comparison, in quotes and in a remark. The first of them is respelled. -/
theorem tokenize_respelled_first :
    let s := "IF A<>B THEN PRINT \"<>\":REM <>"
    let ts : List Token := [⟨0, some (.keyword .IF), "IF"⟩, ⟨3, some .name, "A"⟩,
      ⟨4, some (.mark .notEqual), "<>"⟩, ⟨6, some .name, "B"⟩, ⟨8, some (.keyword .THEN), "THEN"⟩,
      ⟨13, some (.keyword .PRINT), "PRINT"⟩, ⟨19, some .text, "<>"⟩, ⟨23, some (.mark .colon), ":"⟩,
      ⟨24, some (.keyword .REM), "REM <>"⟩]
    tokenize s = .ok ts ∧ (∀ t ∈ ts, ¬ t.Covers 4) ∧
    tokenize "IF A!=B THEN PRINT \"<>\":REM <>" = .error .strangeCharacter := by
  intro s ts
  have htokens : (tokenize s).toOption = some ts := by decide +kernel
  have h : tokenize s = .ok ts := by
    cases h : tokenize s with
    | error f => simp [h, Except.toOption] at htokens
    | ok us => simpa [h, Except.toOption] using htokens
  have hout : ∀ t ∈ ts, ¬ t.Covers 4 := by decide +kernel
  have hrefused := (tokenize_respelled h (· == 4) fun place hplace => by
    rw [beq_iff_eq.mp hplace]
    exact hout).2.2.1
  have hu : String.ofList (exclaim (· == 4) 0 s.toList) =
      "IF A!=B THEN PRINT \"<>\":REM <>" := by
    decide +kernel
  rw [hu, if_neg (by decide)] at hrefused
  exact ⟨h, hout, hrefused⟩

/-- With the other spelling a comparison is refused. -/
theorem exclamation_refused :
    (tokenize "A<>B").toOption = some [⟨0, some .name, "A"⟩, ⟨1, some (.mark .notEqual), "<>"⟩,
      ⟨3, some .name, "B"⟩] ∧
    (tokenize "A!=B").toOption = none := by
  decide +kernel

end Token

end LineBasic

import LineBasic.Proofs.Spelling

namespace LineBasic

open Text

namespace Token

/-- Where a text stands after some of its characters: between names, in a name (given in capitals),
in quotes, or in a remark. -/
inductive Mode
  | between
  | name (word : List Char)
  | quotes
  | remark

namespace Mode

def enter (c : Char) : Mode :=
  if c = '"' then quotes else if isLetter c then name [c.toUpper] else between

def next : Mode → Char → Mode
  | between, c => enter c
  | name word, c =>
      if isNameChar c then name (word ++ [c.toUpper])
      else if word = "REM".toList then remark
      else enter c
  | quotes, c => if c = '"' then between else quotes
  | remark, _ => remark

def Fixed : Mode → List Char → Prop
  | quotes, rest => '"' ∈ rest
  | remark, _ => True
  | _, _ => False

instance (mode : Mode) (rest : List Char) : Decidable (mode.Fixed rest) :=
  match mode with
  | between | name _ => inferInstanceAs (Decidable False)
  | quotes => inferInstanceAs (Decidable ('"' ∈ rest))
  | remark => inferInstanceAs (Decidable True)

end Mode

open Mode

/-- The second text is the first one with letters changed in case, none of them in a quoted text or
in a remark. -/
def Recased : Mode → List Char → List Char → Prop
  | _, [], [] => True
  | mode, c :: s, d :: u =>
      c.toUpper = d.toUpper ∧ ((mode.next c).Fixed s → d = c) ∧ Recased (mode.next c) s u
  | _, [], _ :: _ | _, _ :: _, [] => False

instance decidableRecased : (mode : Mode) → (s u : List Char) → Decidable (Recased mode s u)
  | _, [], [] => inferInstanceAs (Decidable True)
  | mode, c :: s, d :: u =>
      have := decidableRecased (mode.next c) s u
      inferInstanceAs (Decidable (c.toUpper = d.toUpper ∧ ((mode.next c).Fixed s → d = c) ∧ _))
  | _, [], _ :: _ => inferInstanceAs (Decidable False)
  | _, _ :: _, [] => inferInstanceAs (Decidable False)

abbrev CaseBlind {α : Type} (g : Char → α) : Prop :=
  ∀ n < 128, g (Char.ofNat n) = g (Char.ofNat n).toUpper

def Caseless (c : Char) : Prop := c.toNat < 128 ∧ c ≠ '"' ∧ isLetter c = false

instance (c : Char) : Decidable (Caseless c) := inferInstanceAs (Decidable (_ ∧ _ ∧ _))

section Characters

variable {c d : Char} {s u : List Char}

theorem toNat_lt_of_toUpper (h : c.toUpper = d.toUpper) (hc : c.toNat < 128) : d.toNat < 128 := by
  have hd : d.toUpper.toNat < 128 := h ▸ toNat_toUpper_lt hc
  by_cases hsmall : 'a'.val ≤ d.val ∧ d.val ≤ 'z'.val
  · have hz : d.toNat ≤ 'z'.toNat := hsmall.2
    exact Nat.lt_of_le_of_lt hz (by decide)
  · have hself : d.toUpper = d := dif_neg hsmall
    rwa [hself] at hd

/-- What does not tell a letter from its capital does not tell any two cases apart. -/
theorem eq_of_toUpper {α : Type} {g : Char → α} (hg : CaseBlind g) (h : c.toUpper = d.toUpper)
    (hc : c.toNat < 128) : g d = g c := by
  have hd := toNat_lt_of_toUpper h hc
  rw [forall_ascii (P := fun c => g c = g c.toUpper) hg hd, ← h,
    ← forall_ascii (P := fun c => g c = g c.toUpper) hg hc]

theorem caseBlind_classes : CaseBlind isLetter ∧ CaseBlind isDigit ∧ CaseBlind isNameChar ∧
    CaseBlind isBlank ∧ CaseBlind (· == '.') := by
  decide +kernel

theorem caseBlind_isLetter : CaseBlind isLetter := caseBlind_classes.1

theorem caseBlind_isDigit : CaseBlind isDigit := caseBlind_classes.2.1

theorem caseBlind_isNameChar : CaseBlind isNameChar := caseBlind_classes.2.2.1

theorem caseBlind_isBlank : CaseBlind isBlank := caseBlind_classes.2.2.2.1

theorem caseBlind_point : CaseBlind (· == '.') := caseBlind_classes.2.2.2.2

/-- Digits, white space, points and marks have no other case, nor has anything but a letter. -/
theorem caseless_classes : ∀ n < 128,
    (isDigit (Char.ofNat n) ∨ isBlank (Char.ofNat n) ∨ Char.ofNat n = '.' ∨
      (Mark.ofChar? (Char.ofNat n)).isSome → Caseless (Char.ofNat n)) ∧
    (isLetter (Char.ofNat n) = false → (Char.ofNat n).toUpper = Char.ofNat n) := by
  decide +kernel

theorem caseless_of_class (hc : c.toNat < 128)
    (h : isDigit c ∨ isBlank c ∨ c = '.' ∨ (Mark.ofChar? c).isSome) : Caseless c := by
  have hall := caseless_classes c.toNat hc
  rw [Char.ofNat_toNat] at hall
  exact hall.1 h

theorem toUpper_of_not_letter (hc : c.toNat < 128) (hl : isLetter c = false) : c.toUpper = c := by
  have hall := caseless_classes c.toNat hc
  rw [Char.ofNat_toNat] at hall
  exact hall.2 hl

theorem isLetter_quote : isLetter '"' = false := by decide +kernel

theorem eq_of_not_letter (h : c.toUpper = d.toUpper) (hc : c.toNat < 128)
    (hl : isLetter c = false) : d = c := by
  have hd : isLetter d = false := (eq_of_toUpper caseBlind_isLetter h hc).trans hl
  rw [← toUpper_of_not_letter (toNat_lt_of_toUpper h hc) hd, ← h, toUpper_of_not_letter hc hl]

theorem eq_quote (h : '"'.toUpper = d.toUpper) : d = '"' :=
  eq_of_not_letter h (by decide) isLetter_quote

theorem eq_of_map_toUpper (h : u.map Char.toUpper = s.map Char.toUpper)
    (hs : ∀ c ∈ s, Caseless c) : u = s := by
  induction s generalizing u with
  | nil => simpa using h
  | cons c s ih =>
      obtain ⟨d, v, rfl, hd, hv⟩ := List.map_eq_cons_iff.mp h
      obtain ⟨hascii, -, hl⟩ := hs c List.mem_cons_self
      rw [eq_of_not_letter hd.symm hascii hl, ih hv fun b hb => hs b (List.mem_cons_of_mem _ hb)]

theorem allOf_of_map_toUpper {p : Char → Bool} (hp : CaseBlind p)
    (h : u.map Char.toUpper = s.map Char.toUpper) (hs : ∀ c ∈ s, c.toNat < 128) (ha : AllOf p s) :
    AllOf p u := by
  intro d hd
  have hd' : d.toUpper ∈ s.map Char.toUpper := h ▸ List.mem_map_of_mem hd
  obtain ⟨c, hc, he⟩ := List.mem_map.mp hd'
  rw [eq_of_toUpper hp he (hs c hc)]
  exact ha c hc

theorem upper_of_map_toUpper (h : u.map Char.toUpper = s.map Char.toUpper)
    (hs : ∀ c ∈ s, c.toNat < 128) : upper u = upper s := by
  have hu : ∀ d ∈ u, d.toNat < 128 := by
    intro d hd
    have hd' : d.toUpper ∈ s.map Char.toUpper := h ▸ List.mem_map_of_mem hd
    obtain ⟨c, hc, he⟩ := List.mem_map.mp hd'
    exact toNat_lt_of_toUpper he (hs c hc)
  rw [upper_eq_map hu, upper_eq_map hs, h]

end Characters

section Modes

variable {s : List Char}

theorem foldl_next_name (word : List Char) (h : AllOf isNameChar s) :
    s.foldl next (name word) = name (word ++ s.map Char.toUpper) := by
  induction s generalizing word with
  | nil => simp
  | cons c s ih =>
      have hc : next (name word) c = name (word ++ [c.toUpper]) := if_pos (h c List.mem_cons_self)
      rw [List.foldl_cons, hc, ih _ fun d hd => h d (List.mem_cons_of_mem _ hd)]
      simp

theorem foldl_next_between (hs : ∀ c ∈ s, Caseless c) : s.foldl next between = between := by
  induction s with
  | nil => rfl
  | cons c s ih =>
      obtain ⟨-, hq, hl⟩ := hs c List.mem_cons_self
      have hc : next between c = between := by simp [next, enter, hq, hl]
      rw [List.foldl_cons, hc]
      exact ih fun d hd => hs d (List.mem_cons_of_mem _ hd)

end Modes

namespace Recased

variable {mode : Mode} {s rest u : List Char} {c : Char}

theorem exists_cons (h : Recased mode (c :: s) u) :
    ∃ d v, u = d :: v ∧ c.toUpper = d.toUpper ∧ ((mode.next c).Fixed s → d = c) ∧
      Recased (mode.next c) s v := by
  cases u with
  | nil => exact h.elim
  | cons d v => exact ⟨d, v, rfl, h⟩

theorem eq_nil (h : Recased mode [] u) : u = [] := by
  cases u with
  | nil => rfl
  | cons d v => exact h.elim

theorem length_eq (h : Recased mode s u) : u.length = s.length := by
  induction s generalizing mode u with
  | nil => rw [h.eq_nil]
  | cons c s ih =>
      obtain ⟨d, v, rfl, -, -, hv⟩ := h.exists_cons
      rw [List.length_cons, List.length_cons, ih hv]

theorem of_append (h : Recased mode (s ++ rest) u) :
    ∃ v w, u = v ++ w ∧ v.map Char.toUpper = s.map Char.toUpper ∧
      Recased (s.foldl next mode) rest w := by
  induction s generalizing mode u with
  | nil => exact ⟨[], u, rfl, rfl, h⟩
  | cons c s ih =>
      obtain ⟨d, v, rfl, hd, -, hv⟩ := h.exists_cons
      obtain ⟨v, w, rfl, hmap, hw⟩ := ih hv
      exact ⟨d :: v, w, rfl, by rw [List.map_cons, List.map_cons, hd, hmap], hw⟩

/-- Caseless characters stay, and nothing is open after them. -/
theorem of_caseless (h : Recased between (s ++ rest) u) (hs : ∀ c ∈ s, Caseless c) :
    ∃ w, u = s ++ w ∧ Recased between rest w := by
  obtain ⟨v, w, rfl, hmap, hw⟩ := h.of_append
  rw [foldl_next_between hs] at hw
  exact ⟨w, by rw [eq_of_map_toUpper hmap hs], hw⟩

theorem eq_of_caseless (h : Recased between s u) (hs : ∀ c ∈ s, Caseless c) : u = s := by
  rw [← List.append_nil s] at h
  obtain ⟨w, rfl, hw⟩ := h.of_caseless hs
  rw [hw.eq_nil, List.append_nil]

/-- A name stays a name of the same capitals. -/
theorem of_name (h : Recased between (c :: (s ++ rest)) u) (hs : ∀ b ∈ c :: s, b.toNat < 128)
    (hc : isLetter c = true) (hname : AllOf isNameChar s) :
    ∃ d v w, u = d :: (v ++ w) ∧ isLetter d = true ∧ isDigit d = false ∧ AllOf isNameChar v ∧
      upper (d :: v) = upper (c :: s) ∧ Recased (name (upper (c :: s))) rest w := by
  obtain ⟨d, v, rfl, hd, -, hv⟩ := h.exists_cons
  obtain ⟨v, w, rfl, hmap, hw⟩ := hv.of_append
  have hcascii := hs c List.mem_cons_self
  have hsascii : ∀ b ∈ s, b.toNat < 128 := fun b hb => hs b (List.mem_cons_of_mem _ hb)
  have hupper : (d :: v).map Char.toUpper = (c :: s).map Char.toUpper := by
    rw [List.map_cons, List.map_cons, hd, hmap]
  have henter : next between c = name [c.toUpper] := by
    have hq := ne_quote_of_isNameChar (isNameChar_of_isLetter hc)
    simp [next, enter, hq, hc]
  rw [henter, foldl_next_name _ hname] at hw
  refine ⟨d, v, w, rfl, ?_, ?_, ?_, upper_of_map_toUpper hupper hs, ?_⟩
  · rw [eq_of_toUpper caseBlind_isLetter hd hcascii, hc]
  · rw [eq_of_toUpper caseBlind_isDigit hd hcascii, isDigit_of_isLetter hcascii hc]
  · exact allOf_of_map_toUpper caseBlind_isNameChar hmap hsascii hname
  · rw [upper_eq_map hs]
    exact hw

theorem eq_of_remark (h : Recased remark s u) : u = s := by
  induction s generalizing u with
  | nil => exact h.eq_nil
  | cons c s ih =>
      obtain ⟨d, v, rfl, -, hd, hv⟩ := h.exists_cons
      rw [hd trivial, ih hv]

/-- A quoted text stays as it is. -/
theorem of_quotes (hs : '"' ∉ s) (h : Recased quotes (s ++ '"' :: rest) u) :
    ∃ w, u = s ++ '"' :: w ∧ Recased between rest w := by
  induction s generalizing u with
  | nil =>
      obtain ⟨d, v, rfl, hd, -, hv⟩ := h.exists_cons
      exact ⟨v, by rw [eq_quote hd]; rfl, hv⟩
  | cons c s ih =>
      rw [List.mem_cons, not_or] at hs
      obtain ⟨d, v, rfl, -, hd, hv⟩ := h.exists_cons
      have hc : next quotes c = quotes := if_neg (Ne.symm hs.1)
      rw [hc] at hd hv
      obtain ⟨w, rfl, hw⟩ := ih hs.2 hv
      have hclosed : Fixed quotes (s ++ '"' :: rest) := List.mem_append_right s List.mem_cons_self
      exact ⟨w, by rw [hd hclosed]; rfl, hw⟩

theorem notMem_quote (h : Recased mode s u) (hs : ∀ c ∈ s, c.toNat < 128) (hq : '"' ∉ s) :
    '"' ∉ u := by
  induction s generalizing mode u with
  | nil => simp [h.eq_nil]
  | cons c s ih =>
      rw [List.mem_cons, not_or] at hq
      obtain ⟨d, v, rfl, hd, -, hv⟩ := h.exists_cons
      rw [List.mem_cons, not_or]
      refine ⟨?_, ih hv (fun b hb => hs b (List.mem_cons_of_mem _ hb)) hq.2⟩
      rintro rfl
      exact hq.1 (eq_quote hd.symm).symm

theorem stops {p : Char → Bool} (hp : CaseBlind p) (h : Recased mode s u)
    (hs : ∀ c ∈ s, c.toNat < 128) (hstop : Stops p s) : Stops p u := by
  cases s with
  | nil => rwa [h.eq_nil]
  | cons c s =>
      obtain ⟨d, v, rfl, hd, -, -⟩ := h.exists_cons
      rintro _ ⟨⟩
      rw [eq_of_toUpper hp hd (hs c List.mem_cons_self)]
      exact hstop c rfl

theorem after_name {word : List Char} (h : Recased (name word) s u) (hstop : Stops isNameChar s)
    (hword : word ≠ "REM".toList) : Recased between s u := by
  cases s with
  | nil =>
      rw [h.eq_nil]
      exact trivial
  | cons c s =>
      obtain ⟨d, v, rfl, hrest⟩ := h.exists_cons
      have hc : next (name word) c = next between c := by
        simp only [next, hstop c rfl, hword, if_false, Bool.false_eq_true]
      rw [hc] at hrest
      exact hrest

theorem after_rem (h : Recased (name "REM".toList) s u) (hstop : Stops isNameChar s) : u = s := by
  cases s with
  | nil => exact h.eq_nil
  | cons c s =>
      obtain ⟨d, v, rfl, -, hd, hv⟩ := h.exists_cons
      have hc : next (name "REM".toList) c = remark := by
        simp only [next, hstop c rfl, if_true, if_false, Bool.false_eq_true]
      rw [hc] at hd hv
      rw [hd trivial, hv.eq_of_remark]

end Recased

section Lexemes

variable {src after u : List Char} {f : Face}

theorem isSome_ofChar?_of_pair {c d : Char} {m : Mark}
    (h : Mark.ofPair? c (d :: after) = some m) : (Mark.ofChar? d).isSome := by
  unfold Mark.ofPair? at h
  split at h <;> cases h
  all_goals
    rename_i he
    cases he
    rfl

/-- A second character of a mark that the text has not got does not come from another case. -/
theorem ofPair?_recased {mode : Mode} {c : Char} (h : Recased mode after u)
    (ha : ∀ b ∈ after, b.toNat < 128) (hc : Mark.ofPair? c after = none) :
    Mark.ofPair? c u = none := by
  cases after with
  | nil => rwa [h.eq_nil]
  | cons b after =>
      obtain ⟨d, v, rfl, hd, -, -⟩ := h.exists_cons
      rw [Option.eq_none_iff_forall_ne_some]
      intro m hm
      have hascii := toNat_lt_of_toUpper hd (ha b List.mem_cons_self)
      have hcaseless := caseless_of_class hascii (.inr (.inr (.inr (isSome_ofChar?_of_pair hm))))
      have hb : b = d := eq_of_not_letter hd.symm hascii hcaseless.2.2
      rw [hb, Mark.ofPair?_cons c d after v, hm] at hc
      cases hc

/-- A text in another case begins with the same token. -/
theorem Lexeme.recased (hx : Lexeme src f after) (hs : ∀ c ∈ src, c.toNat < 128)
    (h : Recased between src u) : ∃ after', Lexeme u f after' ∧ Recased between after after' := by
  have ha : ∀ c ∈ after, c.toNat < 128 := fun c hc => hs c (hx.suffix.subset hc)
  cases hx with
  | @text s _ unquoted =>
      obtain ⟨d, v, rfl, hd, -, hv⟩ := h.exists_cons
      obtain rfl := eq_quote hd
      have hs' : '"' ∉ s := fun hq => by simpa using unquoted _ hq
      obtain ⟨w, rfl, hw⟩ := hv.of_quotes hs'
      exact ⟨w, .text unquoted, hw⟩
  | @integer c s _ digits stops whole =>
      have hcaseless : ∀ b ∈ c :: s, Caseless b := fun b hb =>
        caseless_of_class (hs b (List.mem_append_left after hb)) (.inl (digits b hb))
      obtain ⟨w, rfl, hw⟩ := Recased.of_caseless (s := c :: s) h hcaseless
      exact ⟨w, .integer digits (hw.stops caseBlind_isDigit ha stops)
        (hw.stops caseBlind_point ha whole), hw⟩
  | @decimal c s t _ digits more stops =>
      have hsrc : c :: (s ++ '.' :: (t ++ after)) = c :: s ++ ('.' :: t) ++ after := by simp
      rw [hsrc] at hs h
      have hcaseless : ∀ b ∈ c :: s ++ ('.' :: t), Caseless b := by
        intro b hb
        refine caseless_of_class (hs b (List.mem_append_left after hb)) ?_
        rcases List.mem_append.mp hb with hb | _ | ⟨_, hb⟩
        · exact .inl (digits b hb)
        · exact .inr (.inr (.inl rfl))
        · exact .inl (more b hb)
      obtain ⟨w, rfl, hw⟩ := h.of_caseless hcaseless
      refine ⟨w, ?_, hw⟩
      have hx := Lexeme.decimal digits more (hw.stops caseBlind_isDigit ha stops)
      simpa using hx
  | @word c s _ letter digit name stops plain =>
      have hcs : ∀ b ∈ c :: s, b.toNat < 128 := fun b hb => hs b (List.mem_append_left after hb)
      obtain ⟨d, v, w, rfl, hd, hdigit, hv, hupper, hw⟩ := h.of_name hcs letter name
      have hrem : upper (c :: s) ≠ "REM".toList := by
        intro heq
        rw [heq] at plain
        exact plain rfl
      have hbetween := hw.after_name stops hrem
      refine ⟨w, ?_, hbetween⟩
      rw [← hupper] at plain ⊢
      exact .word hd hdigit hv (hbetween.stops caseBlind_isNameChar ha stops) plain
  | @remark c s rest letter digit name stops remark =>
      have hcs : ∀ b ∈ c :: s, b.toNat < 128 := fun b hb => hs b (List.mem_append_left rest hb)
      obtain ⟨d, v, w, rfl, hd, hdigit, hv, hupper, hw⟩ := h.of_name hcs letter name
      have hrem : upper (c :: s) = "REM".toList := by
        rw [← remark, String.toList_ofList]
      rw [hrem] at hw
      obtain rfl := hw.after_rem stops
      exact ⟨[], .remark hd hdigit hv stops (hupper ▸ remark), trivial⟩
  | @pair c d _ m pair =>
      have hcaseless : ∀ b ∈ [c, d], Caseless b := by
        intro b hb
        refine caseless_of_class (hs b (List.mem_append_left after hb)) (.inr (.inr (.inr ?_)))
        obtain ⟨m', hm⟩ := ofChar?_of_pair pair
        rcases hb with _ | ⟨_, _ | ⟨_, hb⟩⟩
        · rw [hm]
          rfl
        · exact isSome_ofChar?_of_pair pair
        · cases hb
      obtain ⟨w, rfl, hw⟩ := Recased.of_caseless (s := [c, d]) h hcaseless
      have hpair : Mark.ofPair? c (d :: w) = some m := by rwa [Mark.ofPair?_cons c d w after]
      exact ⟨w, .pair hpair, hw⟩
  | @mark c _ m single mark =>
      have hcaseless : ∀ b ∈ [c], Caseless b := by
        intro b hb
        obtain rfl := List.mem_singleton.mp hb
        exact caseless_of_class (hs b List.mem_cons_self) (.inr (.inr (.inr (by rw [mark]; rfl))))
      obtain ⟨w, rfl, hw⟩ := Recased.of_caseless (s := [c]) h hcaseless
      exact ⟨w, .mark (ofPair?_recased hw ha single) mark, hw⟩

inductive Refused : Char → List Char → Fault → Prop
  | openQuote {rest : List Char} (unclosed : '"' ∉ rest) : Refused '"' rest .openQuote
  | strange {c : Char} {rest : List Char} (caseless : c ≠ '"' ∧ isLetter c = false)
      (digit : isDigit c = false) (mark : Mark.ofChar? c = none) : Refused c rest .strangeCharacter

theorem refused_of_scan {column : Nat} {c : Char} {rest : List Char} {e : Fault}
    (h : scan column c rest = .error e) : Refused c rest e := by
  unfold scan at h
  split at h
  · rename_i hc
    obtain rfl : c = '"' := by simpa using hc
    unfold scanText at h
    split at h
    · rename_i hrest
      cases h
      exact .openQuote fun hq => by simpa using allOf_of_dropWhile hrest _ hq
    · cases h
  · rename_i hq
    split at h
    · cases h
    · rename_i hd
      split at h
      · cases h
      · rename_i hl
        unfold scanMark at h
        split at h
        · cases h
        · cases h
        · rename_i hm
          cases h
          exact .strange ⟨by simpa using hq, by simpa using hl⟩ (by simpa using hd) hm

theorem Refused.scan_eq {c : Char} {rest : List Char} {e : Fault} (h : Refused c rest e)
    (column : Nat) : scan column c rest = .error e := by
  cases h with
  | openQuote unclosed =>
      have hall : AllOf (· != '"') rest := by
        intro b hb
        have hne : b ≠ '"' := fun heq => unclosed (heq ▸ hb)
        simpa using hne
      have hdrop : rest.dropWhile (· != '"') = [] := by
        have hend := @dropWhile_of_stops (· != '"') rest [] hall nofun
        rwa [List.append_nil] at hend
      show scanText column rest = _
      rw [scanText, hdrop]
      rfl
  | strange caseless digit mark =>
      have hq : (c == '"') = false := by simpa using caseless.1
      have hpair : Mark.ofPair? c rest = none := by
        rw [Option.eq_none_iff_forall_ne_some]
        intro m hm
        obtain ⟨m', hm'⟩ := ofChar?_of_pair hm
        cases mark.symm.trans hm'
      rw [scan, hq, digit, caseless.2]
      show scanMark column c rest = _
      rw [scanMark, hpair, mark]
      rfl

theorem Refused.recased {mode : Mode} {c : Char} {rest : List Char} {e : Fault}
    (hx : Refused c rest e) (hs : ∀ b ∈ c :: rest, b.toNat < 128)
    (h : Recased mode (c :: rest) u) : ∃ v, u = c :: v ∧ Refused c v e := by
  obtain ⟨d, v, rfl, hd, -, hv⟩ := h.exists_cons
  have hrest : ∀ b ∈ rest, b.toNat < 128 := fun b hb => hs b (List.mem_cons_of_mem _ hb)
  cases hx with
  | openQuote unclosed =>
      rw [eq_quote hd]
      exact ⟨v, rfl, .openQuote (hv.notMem_quote hrest unclosed)⟩
  | strange caseless digit mark =>
      rw [eq_of_not_letter hd (hs c List.mem_cons_self) caseless.2]
      exact ⟨v, rfl, .strange caseless digit mark⟩

end Lexemes

theorem scanAll_of_error {s rest : List Char} {c : Char} {e : Fault} {column : Nat}
    (h : s.dropWhile isBlank = c :: rest)
    (he : scan (column + (s.length - (rest.length + 1))) c rest = .error e) :
    scanAll column s = .error e := by
  rw [scanAll]
  split
  · rename_i hs
    rw [h] at hs
    cases hs
  · rename_i hs
    cases h.symm.trans hs
    dsimp only
    split
    · rename_i he'
      cases he.symm.trans he'
      rfl
    · rename_i he'
      cases he.symm.trans he'

/-- White space stays, and the text goes on in the other case. -/
theorem Recased.dropWhile {s u : List Char} (h : Recased between s u)
    (hs : ∀ c ∈ s, c.toNat < 128) :
    Recased between (s.dropWhile isBlank) (u.dropWhile isBlank) := by
  have hcut : s.takeWhile isBlank ++ s.dropWhile isBlank = s := List.takeWhile_append_dropWhile
  have hblank := allOf_takeWhile isBlank s
  rw [← hcut] at h hs
  obtain ⟨w, rfl, hw⟩ := h.of_caseless fun c hc =>
    caseless_of_class (hs c (List.mem_append_left _ hc)) (.inr (.inl (hblank c hc)))
  have hstops := hw.stops caseBlind_isBlank (fun c hc => hs c (List.mem_append_right _ hc))
    (stops_dropWhile isBlank s)
  rwa [dropWhile_of_stops hblank hstops]

theorem ascii_of_dropWhile {s src : List Char} (hs : ∀ c ∈ s, c.toNat < 128)
    (h : s.dropWhile isBlank = src) : ∀ c ∈ src, c.toNat < 128 :=
  fun c hc => hs c ((List.dropWhile_suffix isBlank).subset (h ▸ hc))

theorem scanAll_recased {column : Nat} {s u : List Char} (hs : ∀ c ∈ s, c.toNat < 128)
    (h : Recased between s u) : scanAll column u = scanAll column s := by
  fun_induction scanAll column s generalizing u with
  | case1 column s hblank =>
      have hcaseless : ∀ c ∈ s, Caseless c := fun c hc =>
        caseless_of_class (hs c hc) (.inr (.inl (allOf_of_dropWhile hblank c hc)))
      rw [h.eq_of_caseless hcaseless, scanAll_of_nil hblank]
      rfl
  | case2 column s c rest hsrc start e =>
      rename_i he
      have hdrop := h.dropWhile hs
      rw [hsrc] at hdrop
      obtain ⟨v, hv, hrefused⟩ := (refused_of_scan he).recased (ascii_of_dropWhile hs hsrc) hdrop
      rw [scanAll_of_error hv (hrefused.scan_eq _)]
      rfl
  | case3 column s c rest hsrc start t after ht =>
      rename_i ih
      have hdrop := h.dropWhile hs
      have hsuffix := ascii_of_dropWhile hs hsrc
      rw [hsrc] at hdrop
      have hlexeme := lexeme_of_scan ht
      obtain ⟨after', hlexeme', hafter⟩ := hlexeme.recased hsuffix hdrop
      obtain ⟨d, v, hv, -, -, hrest⟩ := hdrop.exists_cons
      have hstart : column + (u.length - (v.length + 1)) = start := by
        rw [h.length_eq, hrest.length_eq]
      rw [hv] at hlexeme'
      rw [scanAll_of_scan hv (hlexeme'.scan_eq _), hstart, hrest.length_eq, hafter.length_eq,
        ih (fun b hb => hsuffix b (hlexeme.suffix.subset hb)) hafter, ← column_of_scan ht]
      rfl

end Token

/-- A text in which letters outside of quoted texts and of the remark change their case has the
same tokens, in the same columns, or the same fault. -/
theorem tokenize_recased {s u : String} (hascii : ∀ c ∈ s.toList, c.toNat < 128)
    (h : Token.Recased .between s.toList u.toList) : tokenize u = tokenize s :=
  Token.scanAll_recased hascii h

/-- The word of a remark in quotes, in a longer name, and before a remark. -/
theorem tokenize_recased_mixed :
    let s := "10 print \"Rem aB\";x_1$<=Max(rem_):rEm on \"Ab"
    let u := "10 PrInt \"Rem aB\";X_1$<=mAX(rEM_):ReM on \"Ab"
    (∀ c ∈ s.toList, c.toNat < 128) ∧ Token.Recased .between s.toList u.toList ∧
      tokenize u = tokenize s := by
  intro s u
  have hascii : ∀ c ∈ s.toList, c.toNat < 128 := ascii_of_all (by decide +kernel)
  have hrecased : Token.Recased .between s.toList u.toList := by decide +kernel
  exact ⟨hascii, hrecased, tokenize_recased hascii hrecased⟩

end LineBasic

import LineBasic.Proofs.Lexeme

namespace LineBasic

open Text Token

namespace Face

def spelling (f : Face) : List Char :=
  if f.1 = some .text then '"' :: (f.2.toList ++ ['"']) else f.2.toList

theorem spelling_text (x : String) : spelling (some .text, x) = '"' :: (x.toList ++ ['"']) := rfl

theorem spelling_of_ne {c : Category} (h : c ≠ .text) (x : String) :
    spelling (some c, x) = x.toList := by
  rw [spelling, if_neg]
  simpa using h

end Face

namespace Category

theorem category_of_mem_words :
    ∀ p ∈ words, p.2 ≠ text ∧ p.2 ≠ integer ∧ (p.2 = keyword .DATA → p.1 = "DATA") := by
  decide

theorem ofWord_of_lookup {w : String} {c : Category} (h : words.lookup w = some c) :
    (w, c) ∈ words := by
  obtain ⟨l₁, l₂, hl, -⟩ := List.lookup_eq_some_iff.mp h
  rw [hl]
  simp

theorem ofWord_ne_text (w : String) : ofWord w ≠ text := by
  unfold ofWord
  cases h : words.lookup w with
  | none => simp
  | some c => exact (category_of_mem_words _ (ofWord_of_lookup h)).1

theorem ofWord_ne_integer (w : String) : ofWord w ≠ integer := by
  unfold ofWord
  cases h : words.lookup w with
  | none => simp
  | some c => exact (category_of_mem_words _ (ofWord_of_lookup h)).2.1

theorem eq_of_ofWord_data {w : String} (hw : ofWord w = keyword .DATA) : w = "DATA" := by
  unfold ofWord at hw
  cases h : words.lookup w with
  | none => simp [h] at hw
  | some c =>
      rw [h] at hw
      exact (category_of_mem_words _ (ofWord_of_lookup h)).2.2 hw

end Category

theorem Mark.ofPair?_cons (c d : Char) (s u : List Char) :
    Mark.ofPair? c (d :: s) = Mark.ofPair? c (d :: u) := by
  unfold Mark.ofPair?
  split <;> split <;> simp_all

theorem Mark.ofPair?_blank (c : Char) (s : List Char) : Mark.ofPair? c (' ' :: s) = none := by
  unfold Mark.ofPair?
  split <;> simp_all

namespace Token

abbrev Gap (rest : List Char) : Prop := Stops (· != ' ') rest

theorem Gap.stops {p : Char → Bool} {rest : List Char} (h : Gap rest) (hp : p ' ' = false) :
    Stops p rest := by
  intro c hc
  obtain rfl : c = ' ' := by simpa using h c hc
  exact hp

/-- Read from its spelling, a token is the same again. A remark takes all that follows. -/
theorem Lexeme.respell {src after rest : List Char} {f : Face} (h : Lexeme src f after)
    (ha : ∀ c ∈ src, c.toNat < 128) (hr : Gap rest) (hend : after = [] → rest = []) :
    Lexeme (f.spelling ++ rest) f rest := by
  cases h with
  | @text s _ unquoted =>
      have hx := @Lexeme.text s rest unquoted
      simpa [Face.spelling_text] using hx
  | @integer c s _ digits stops whole =>
      have hx := Lexeme.integer digits (hr.stops (by decide +kernel)) (hr.stops rfl)
      simpa [Face.spelling_of_ne] using hx
  | @decimal c s u _ digits more stops =>
      have hx := @Lexeme.decimal c s u rest digits more (hr.stops (by decide +kernel))
      simpa [Face.spelling_of_ne] using hx
  | @word c s _ letter digit name stops plain =>
      have hc := ha c List.mem_cons_self
      have hs : ∀ d ∈ s, d.toNat < 128 := fun d hd => ha d (by simp [hd])
      have hcs : ∀ d ∈ c :: s, d.toNat < 128 := by
        rintro d (_ | ⟨_, hd⟩)
        · exact hc
        · exact hs d hd
      have hname : AllOf isNameChar (s.map Char.toUpper) := by
        intro d hd
        obtain ⟨b, hb, rfl⟩ := List.mem_map.mp hd
        exact isNameChar_toUpper (hs b hb) (name b hb)
      have hu : upper (c :: s) = c.toUpper :: s.map Char.toUpper := upper_eq_map hcs
      have hl := isLetter_toUpper hc letter
      have hx := @Lexeme.word c.toUpper (s.map Char.toUpper) rest hl
        (isDigit_of_isLetter (toNat_toUpper_lt hc) hl) hname (hr.stops (by decide +kernel))
        (by rwa [← hu, upper_upper hcs])
      rw [← hu, upper_upper hcs, ← List.cons_append, ← hu] at hx
      rwa [Face.spelling_of_ne (Category.ofWord_ne_text _), String.toList_ofList]
  | @remark c s u letter digit name stops remark =>
      -- A remark ran to the end of its line, so nothing may stand behind it now.
      obtain rfl := hend rfl
      have hname : AllOf isNameChar ['E', 'M'] := List.all_eq_true.mp (by decide +kernel)
      have hx := @Lexeme.remark 'R' ['E', 'M'] u (by decide +kernel) (by decide +kernel) hname stops
        (by decide +kernel)
      simpa [Face.spelling_of_ne] using hx
  | @pair c d _ m pair =>
      have hx := Lexeme.pair ((Mark.ofPair?_cons c d rest after).trans pair)
      simpa [Face.spelling_of_ne] using hx
  | @mark c _ m single mark =>
      have hnone : Mark.ofPair? c rest = none := by
        cases rest with
        | nil => simp [Mark.ofPair?]
        | cons d rest =>
            obtain rfl : d = ' ' := by simpa using hr d rfl
            exact Mark.ofPair?_blank c rest
      have hx := Lexeme.mark hnone mark
      simpa [Face.spelling_of_ne] using hx

theorem isBlank_of_pair {c d : Char} {after : List Char} {m : Mark}
    (h : Mark.ofPair? c (d :: after) = some m) : isBlank d = false := by
  unfold Mark.ofPair? at h
  split at h <;> simp_all <;> decide

theorem Lexeme.spelling_cases {src after : List Char} {f : Face} (h : Lexeme src f after)
    (hp : ∀ c ∈ src, Plain c) (hb : Stops isBlank src) :
    (∀ c ∈ f.spelling, Plain c ∧ isBlank c = false) ∨
      (∃ s, f.spelling = '"' :: (s ++ ['"']) ∧ s ⊆ src) ∨
      ∃ s, f.spelling = 'R' :: 'E' :: 'M' :: s ∧ s <:+ src := by
  have hname : ∀ c ∈ src, isNameChar c = true → Plain c ∧ isBlank c = false :=
    fun c hc hn => ⟨hp c hc, isBlank_of_isNameChar (hp c hc).1 hn⟩
  cases h with
  | @text s _ unquoted =>
      refine .inr (.inl ⟨s, by rw [Face.spelling_text, String.toList_ofList], ?_⟩)
      intro c hc
      simp [hc]
  | @integer c s _ digits stops whole =>
      left
      intro d hd
      have hd : d ∈ c :: s := by simpa [Face.spelling_of_ne] using hd
      exact hname d (List.mem_append_left after hd) (isNameChar_of_isDigit (digits d hd))
  | @decimal c s u _ digits more stops =>
      left
      intro d hd
      have hd : d ∈ (c :: s) ++ '.' :: u := by simpa [Face.spelling_of_ne] using hd
      rcases List.mem_append.mp hd with hd | hd
      · exact hname d (List.mem_append_left _ hd) (isNameChar_of_isDigit (digits d hd))
      · rcases List.mem_cons.mp hd with rfl | hd
        · exact ⟨by decide, by decide⟩
        · exact hname d (by simp [hd]) (isNameChar_of_isDigit (more d hd))
  | @word c s _ letter digit name stops plain =>
      left
      intro d hd
      have hcs : ∀ b ∈ c :: s, Plain b := fun b hb => hp b (List.mem_append_left after hb)
      rw [Face.spelling_of_ne (Category.ofWord_ne_text _), String.toList_ofList,
        upper_eq_map fun b hb => (hcs b hb).1] at hd
      obtain ⟨b, hb, rfl⟩ := List.mem_map.mp hd
      have hn : isNameChar b = true := by
        rcases List.mem_cons.mp hb with rfl | hb
        · exact isNameChar_of_isLetter letter
        · exact name b hb
      have hu := plain_toUpper (hcs b hb)
      exact ⟨hu, isBlank_of_isNameChar hu.1 (isNameChar_toUpper (hcs b hb).1 hn)⟩
  | @remark c s u letter digit name stops remark =>
      refine .inr (.inr ⟨u, ?_, ?_⟩)
      · simp [Face.spelling_of_ne]
      · exact (List.suffix_append s u).trans (List.suffix_cons c (s ++ u))
  | @pair c d _ m pair =>
      left
      intro b hb'
      have hmem : b = c ∨ b = d := by simpa [Face.spelling_of_ne] using hb'
      rcases hmem with rfl | rfl
      · exact ⟨hp b (by simp), hb b rfl⟩
      · exact ⟨hp b (by simp), isBlank_of_pair pair⟩
  | @mark c _ m single mark =>
      left
      intro b hb'
      obtain rfl : b = c := by simpa [Face.spelling_of_ne] using hb'
      exact ⟨hp b (by simp), hb b rfl⟩

end Token

structure Face.Legible (f : Face) : Prop where
  plain : ∀ c ∈ f.spelling, Plain c
  starts : Stops isBlank f.spelling
  ends : Stops isBlank f.spelling.reverse
  back : Lexeme f.spelling f []
  data : f.1 = some (.keyword .DATA) → f.2 = "DATA"

def Face.Inner (f : Face) : Prop :=
  ∀ rest, Lexeme (f.spelling ++ ' ' :: rest) f (' ' :: rest)

namespace Token

theorem Lexeme.digits {src after : List Char} {f : Face} (h : Lexeme src f after)
    (hf : f.1 = some .integer) : f.2.toList ≠ [] ∧ AllOf isDigit f.2.toList := by
  cases h with
  | integer digits =>
      rw [String.toList_ofList]
      exact ⟨List.cons_ne_nil _ _, digits⟩
  | word => exact absurd (Option.some.inj hf) (Category.ofWord_ne_integer _)
  | _ => simp at hf

theorem Lexeme.data_eq {src after : List Char} {f : Face} (h : Lexeme src f after)
    (hf : f.1 = some (.keyword .DATA)) : f.2 = "DATA" := by
  cases h with
  | word => exact Category.eq_of_ofWord_data (by simpa using hf)
  | _ => simp at hf

theorem Lexemes.data_eq {s : List Char} {fs : List Face} (h : Lexemes s fs) {f : Face}
    (hmem : f ∈ fs) (hf : f.1 = some (.keyword .DATA)) : f.2 = "DATA" := by
  induction h with
  | done => cases hmem
  | blank =>
      cases List.mem_singleton.mp hmem
      cases hf
  | token _ head _ ih =>
      rcases List.mem_cons.mp hmem with rfl | hmem
      · exact head.data_eq hf
      · exact ih hmem

section Legible

variable {src after : List Char} {f : Face}

theorem Lexeme.plain_spelling (h : Lexeme src f after) (hp : ∀ c ∈ src, Plain c)
    (hb : Stops isBlank src) : ∀ c ∈ f.spelling, Plain c := by
  intro c hc
  rcases h.spelling_cases hp hb with hs | ⟨s, hs, hsub⟩ | ⟨s, hs, hsuf⟩
  · exact (hs c hc).1
  · rw [hs] at hc
    have hc : c = '"' ∨ c ∈ s := by simpa [or_comm, or_assoc] using hc
    rcases hc with rfl | hc
    · decide
    · exact hp c (hsub hc)
  · rw [hs] at hc
    simp only [List.mem_cons] at hc
    rcases hc with rfl | rfl | rfl | hc
    · decide
    · decide
    · decide
    · exact hp c (hsuf.subset hc)

theorem Lexeme.spelling_starts (h : Lexeme src f after) (hp : ∀ c ∈ src, Plain c)
    (hb : Stops isBlank src) : Stops isBlank f.spelling := by
  rcases h.spelling_cases hp hb with hs | ⟨s, hs, -⟩ | ⟨s, hs, -⟩
  · exact fun c hc => (hs c (List.mem_of_mem_head? hc)).2
  · rw [hs]
    rintro c ⟨⟩
    decide
  · rw [hs]
    rintro c ⟨⟩
    decide

/-- Only a remark could end in a blank, and it would end the line. -/
theorem Lexeme.spelling_ends (h : Lexeme src f after) (hp : ∀ c ∈ src, Plain c)
    (hb : Stops isBlank src) (he : Stops isBlank src.reverse) :
    Stops isBlank f.spelling.reverse := by
  rcases h.spelling_cases hp hb with hs | ⟨s, hs, -⟩ | ⟨s, hs, hsuf⟩
  · exact fun c hc => (hs c (List.mem_reverse.mp (List.mem_of_mem_head? hc))).2
  · have hr : f.spelling.reverse = '"' :: (s.reverse ++ ['"']) := by simp [hs]
    rw [hr]
    rintro c ⟨⟩
    decide
  · have hr : f.spelling.reverse = s.reverse ++ ['M', 'E', 'R'] := by simp [hs]
    obtain ⟨u, rfl⟩ := hsuf
    rw [List.reverse_append] at he
    rw [hr]
    cases hsr : s.reverse with
    | nil =>
        rintro c ⟨⟩
        decide
    | cons d v =>
        rw [hsr] at he
        exact he

theorem Lexeme.legible (h : Lexeme src f after) (hp : ∀ c ∈ src, Plain c)
    (hb : Stops isBlank src) (he : Stops isBlank src.reverse) : f.Legible := by
  have back : Lexeme (f.spelling ++ []) f [] :=
    h.respell (fun c hc => (hp c hc).1) (by rintro c ⟨⟩) fun _ => rfl
  rw [List.append_nil] at back
  exact ⟨h.plain_spelling hp hb, h.spelling_starts hp hb, h.spelling_ends hp hb he, back, h.data_eq⟩

theorem Lexeme.inner (h : Lexeme src f after) (hp : ∀ c ∈ src, Plain c) (ha : after ≠ []) :
    f.Inner := by
  intro rest
  apply h.respell (fun c hc => (hp c hc).1)
  · rintro c ⟨⟩
    rfl
  · exact fun hn => absurd hn ha

theorem Lexeme.suffix (h : Lexeme src f after) : after <:+ src := by
  cases h with
  | @text s _ _ => exact ⟨'"' :: (s ++ ['"']), by simp⟩
  | @integer c s _ _ _ _ => exact ⟨c :: s, by simp⟩
  | @decimal c s u _ _ _ _ => exact ⟨c :: (s ++ '.' :: u), by simp⟩
  | @word c s _ _ _ _ _ _ => exact ⟨c :: s, by simp⟩
  | remark => exact List.nil_suffix
  | @pair c d _ _ _ => exact ⟨[c, d], rfl⟩
  | @mark c _ _ _ _ => exact ⟨[c], rfl⟩

end Legible

end Token

structure Face.LegibleLine (fs : List Face) : Prop where
  legible : ∀ f ∈ fs, f.Legible
  inner : ∀ f ∈ fs.dropLast, f.Inner

theorem Face.LegibleLine.cons {f : Face} {fs : List Face} (hf : f.Legible)
    (hi : fs ≠ [] → f.Inner) (h : LegibleLine fs) : LegibleLine (f :: fs) := by
  refine ⟨List.forall_mem_cons.mpr ⟨hf, h.legible⟩, ?_⟩
  cases fs with
  | nil => simp
  | cons g fs =>
      rw [List.dropLast_cons_cons]
      exact List.forall_mem_cons.mpr ⟨hi (List.cons_ne_nil _ _), h.inner⟩

theorem Face.LegibleLine.tail {f : Face} {fs : List Face} (h : LegibleLine (f :: fs)) :
    LegibleLine fs := by
  refine ⟨fun g hg => h.legible g (List.mem_cons_of_mem _ hg), fun g hg => h.inner g ?_⟩
  cases fs with
  | nil => simp at hg
  | cons k fs =>
      rw [List.dropLast_cons_cons]
      exact List.mem_cons_of_mem _ hg

namespace Token

open Face

theorem stops_reverse_of_suffix {p : Char → Bool} {s u : List Char} (h : u <:+ s)
    (hs : Stops p s.reverse) : Stops p u.reverse := by
  obtain ⟨v, rfl⟩ := h
  rw [List.reverse_append] at hs
  cases hu : u.reverse with
  | nil => rintro c ⟨⟩
  | cons d w =>
      rw [hu] at hs
      exact hs

theorem stops_reverse_append {p : Char → Bool} {s : List Char} (u : List Char)
    (hs : Stops p s.reverse) (hne : s ≠ []) : Stops p (u ++ s).reverse := by
  rw [List.reverse_append]
  cases hr : s.reverse with
  | nil => exact absurd (List.reverse_eq_nil_iff.mp hr) hne
  | cons c v =>
      rw [hr] at hs
      exact hs

theorem Lexemes.eq_nil {fs : List Face} (h : Lexemes [] fs) : fs = [] := by
  cases h with
  | done => rfl
  | blank some _ => exact absurd rfl some
  | token skip head _ => exact absurd skip.symm head.ne_nil

/-- All tokens of a line of ASCII text are legible if no white space ends the line. -/
theorem Lexemes.legibleLine {s : List Char} {fs : List Face} (h : Lexemes s fs)
    (hp : ∀ c ∈ s, Plain c) (he : Stops isBlank s.reverse) : LegibleLine fs := by
  induction h with
  | done => exact ⟨by simp, by simp⟩
  | @blank s some blank =>
      have hall : AllOf isBlank s := allOf_of_dropWhile blank
      cases hr : s.reverse with
      | nil => exact absurd (List.reverse_eq_nil_iff.mp hr) some
      | cons c u =>
          have hc : c ∈ s := List.mem_reverse.mp (by rw [hr]; exact List.mem_cons_self)
          rw [hr] at he
          cases (hall c hc).symm.trans (he c rfl)
  | @token s src after f fs skip head tail ih =>
      have hsrc : src <:+ s := skip ▸ List.dropWhile_suffix isBlank
      have hps : ∀ c ∈ src, Plain c := fun c hc => hp c (hsrc.subset hc)
      have hes := stops_reverse_of_suffix hsrc he
      have hf : f.Legible := head.legible hps (skip ▸ stops_dropWhile isBlank s) hes
      have htail : LegibleLine fs :=
        ih (fun c hc => hps c (head.suffix.subset hc)) (stops_reverse_of_suffix head.suffix hes)
      refine LegibleLine.cons hf (fun hne => head.inner hps ?_) htail
      rintro rfl
      exact hne tail.eq_nil

def spaced (fs : List Face) : List Char := fs.flatMap fun f => ' ' :: f.spelling

theorem lexemes_of_skip {s : List Char} {f : Face} {fs : List Face} (h : LegibleLine (f :: fs))
    (hs : s.dropWhile isBlank = f.spelling ++ spaced fs) (ht : Lexemes (spaced fs) fs) :
    Lexemes s (f :: fs) := by
  refine .token hs ?_ ht
  cases fs with
  | nil =>
      rw [spaced, List.flatMap_nil, List.append_nil]
      exact (h.legible f List.mem_cons_self).back
  | cons g fs => exact h.inner f (by simp) (g.spelling ++ spaced fs)

theorem exists_cons_spelling {f : Face} (h : f.Legible) :
    ∃ c s, f.spelling = c :: s ∧ isBlank c = false := by
  cases hs : f.spelling with
  | nil => exact absurd hs h.back.ne_nil
  | cons c s => exact ⟨c, s, rfl, h.starts c (by rw [hs]; rfl)⟩

theorem dropWhile_spelling {f : Face} (h : f.Legible) (rest : List Char) :
    (f.spelling ++ rest).dropWhile isBlank = f.spelling ++ rest := by
  obtain ⟨c, s, hs, hc⟩ := exists_cons_spelling h
  rw [hs, List.cons_append, List.dropWhile_cons_of_neg (by simp [hc])]

theorem lexemes_spaced {fs : List Face} (h : LegibleLine fs) : Lexemes (spaced fs) fs := by
  induction fs with
  | nil => exact .done
  | cons f fs ih =>
      refine lexemes_of_skip h ?_ (ih h.tail)
      show (' ' :: (f.spelling ++ spaced fs)).dropWhile isBlank = _
      rw [List.dropWhile_cons_of_pos (by decide),
        dropWhile_spelling (h.legible f List.mem_cons_self)]

def listing (fs : List Face) : List Char := fs.flatMap fun f => f.spelling ++ [' ']

theorem plain_listing {fs : List Face} (h : LegibleLine fs) : ∀ c ∈ listing fs, Plain c := by
  intro c hc
  obtain ⟨f, hf, hc⟩ := List.mem_flatMap.mp hc
  rcases List.mem_append.mp hc with hc | hc
  · exact (h.legible f hf).plain c hc
  · rw [List.mem_singleton.mp hc]
    decide

theorem listing_cons (f : Face) (fs : List Face) :
    listing (f :: fs) = f.spelling ++ spaced fs ++ [' '] := by
  induction fs generalizing f with
  | nil => simp [listing, spaced]
  | cons g fs ih =>
      have hg := ih g
      simp only [listing, spaced, List.flatMap_cons] at hg ⊢
      rw [hg]
      simp

theorem stops_reverse_spaced {fs : List Face} {f : Face} (h : LegibleLine (f :: fs)) :
    Stops isBlank (f.spelling ++ spaced fs).reverse := by
  induction fs generalizing f with
  | nil =>
      rw [spaced, List.flatMap_nil, List.append_nil]
      exact (h.legible f List.mem_cons_self).ends
  | cons g fs ih =>
      have hg := ih h.tail
      obtain ⟨c, s, hs, -⟩ := exists_cons_spelling (h.tail.legible g List.mem_cons_self)
      have hne : g.spelling ++ spaced fs ≠ [] := by simp [hs]
      have hsplit : f.spelling ++ spaced (g :: fs) =
          (f.spelling ++ [' ']) ++ (g.spelling ++ spaced fs) := by simp [spaced]
      rw [hsplit]
      exact stops_reverse_append _ hg hne

/-- A line of a listing without its last blank is read as the same tokens. -/
theorem lexemes_trim_listing {fs : List Face} (h : LegibleLine fs) :
    Lexemes (trim (listing fs)) fs := by
  cases fs with
  | nil => exact .done
  | cons f fs =>
      have hf := h.legible f List.mem_cons_self
      have ht : trim (listing (f :: fs)) = f.spelling ++ spaced fs := by
        rw [listing_cons, trim, List.append_assoc, dropWhile_spelling hf, ← List.append_assoc,
          List.reverse_append, List.reverse_singleton, List.singleton_append,
          List.dropWhile_cons_of_pos (by decide)]
        rw [dropWhile_eq_self (stops_reverse_spaced h), List.reverse_reverse]
      rw [ht]
      exact lexemes_of_skip h (dropWhile_spelling hf _) (lexemes_spaced h.tail)

end Token

end LineBasic

import LineBasic.Proofs.Spelling

namespace LineBasic

open Text

def Category.spells (word : String) : Category → Bool
  | integer | decimal | text => false
  | mark _ => word == "MOD"
  | keyword .REM => word == "REM"
  | _ => true

theorem Category.spells_ofWord (word : String) : (ofWord word).spells word = true := by
  have hwords : ∀ p ∈ words, p.2.spells p.1 = true := by decide
  rw [ofWord]
  cases h : words.lookup word with
  | none => rfl
  | some c => exact hwords _ (ofWord_of_lookup h)

namespace Token

/-- The characters that a token can be read from: the lexeme in quotes for a text, the lexeme itself
for numbers and signs, a word in any case. A remark keeps the case of what follows its keyword. -/
def Source (t : Token) (source : List Char) : Prop :=
  match t.category with
  | none => False
  | some .text => source = '"' :: (t.lexeme.toList ++ ['"'])
  | some .integer | some .decimal => source = t.lexeme.toList
  | some (.mark _) =>
      if t.lexeme = "MOD" then source.map Char.toUpper = t.lexeme.toList
      else source = t.lexeme.toList
  | some (.keyword .REM) =>
      ∃ word rest, source = word ++ rest ∧ word.map Char.toUpper = "REM".toList ∧
        t.lexeme.toList = "REM".toList ++ rest
  | some _ => source.map Char.toUpper = t.lexeme.toList

structure Piece where
  gap : List Char
  token : Token
  source : List Char

def Piece.text (q : Piece) : List Char := q.gap ++ q.source

/-- The tokens of a text that starts in the given column are those of its pieces. White space at the
end makes a token without a category. -/
structure CutInto (column : Nat) (s : List Char) (ts : List Token) (pieces : List Piece)
    (last : List Char) : Prop where
  text : s = pieces.flatMap Piece.text ++ last
  blank : ∀ q ∈ pieces, AllOf isBlank q.gap
  blankEnd : AllOf isBlank last
  source : ∀ q ∈ pieces, q.source ≠ [] ∧ q.token.Source q.source
  starts : ∀ before q after, pieces = before ++ q :: after →
    q.token.column = column + (before.flatMap Piece.text ++ q.gap).length
  remark : ∀ before q after, pieces = before ++ q :: after → q.token.isKeyword .REM →
    after = [] ∧ last = []
  tokens : ts = pieces.map Piece.token ++
    if last = [] then [] else [⟨column + s.length - 1, none, ""⟩]

section Source

variable {column : Nat} {src after : List Char} {f : Face}

theorem source_word {word : String} {source : List Char} (hword : word ≠ "REM")
    (h : source.map Char.toUpper = word.toList) :
    Source ⟨column, some (Category.ofWord word), word⟩ source := by
  have hspells := Category.spells_ofWord word
  rw [Source]
  generalize Category.ofWord word = c at hspells
  cases c with
  | integer | decimal | text => cases hspells
  | mark m =>
      have hmod : word = "MOD" := by simpa [Category.spells] using hspells
      simp only [hmod, if_true]
      rwa [hmod] at h
  | name | function => exact h
  | keyword k =>
      cases k with
      | REM => exact absurd (by simpa [Category.spells] using hspells) hword
      | _ => exact h

theorem source_sign {m : Mark} {sign : String} (h : sign.toList ≠ "MOD".toList) :
    Source ⟨column, some (.mark m), sign⟩ sign.toList := by
  have hsign : sign ≠ "MOD" := fun heq => h (congrArg String.toList heq)
  simp only [Source, if_neg hsign]

theorem Lexeme.exists_source (h : Lexeme src f after) (ha : ∀ c ∈ src, c.toNat < 128)
    (column : Nat) :
    ∃ source, src = source ++ after ∧ source ≠ [] ∧ Source ⟨column, f.1, f.2⟩ source ∧
      (f.1 = some (.keyword .REM) → after = []) := by
  cases h with
  | @text s _ unquoted =>
      refine ⟨'"' :: (s ++ ['"']), by simp, by simp, ?_, by simp⟩
      simp [Source]
  | @integer c s _ digits stops whole =>
      refine ⟨c :: s, rfl, by simp, ?_, by simp⟩
      simp [Source]
  | @decimal c s u _ digits more stops =>
      refine ⟨c :: (s ++ '.' :: u), by simp, by simp, ?_, by simp⟩
      simp [Source]
  | @word c s _ letter digit name stops plain =>
      have hcs : ∀ d ∈ c :: s, d.toNat < 128 := fun d hd => ha d (List.mem_append_left after hd)
      refine ⟨c :: s, rfl, by simp, source_word plain ?_, fun hrem => absurd ?_ plain⟩
      · rw [String.toList_ofList, upper_eq_map hcs]
      · have hspells := Category.spells_ofWord (String.ofList (upper (c :: s)))
        rw [Option.some.inj hrem] at hspells
        simpa [Category.spells] using hspells
  | @remark c s u letter digit name stops remark =>
      have hcs : ∀ d ∈ c :: s, d.toNat < 128 := fun d hd => ha d (List.mem_append_left u hd)
      refine ⟨c :: (s ++ u), by simp, by simp, ⟨c :: s, u, rfl, ?_, ?_⟩, fun _ => rfl⟩
      · rw [← upper_eq_map hcs, ← String.toList_ofList (l := upper (c :: s)), remark]
      · simp
  | @pair c d _ m pair =>
      refine ⟨[c, d], rfl, by simp, ?_, by simp⟩
      have hsign := @source_sign column m (String.ofList [c, d]) (by simp)
      rwa [String.toList_ofList] at hsign
  | @mark c _ m single mark =>
      refine ⟨[c], rfl, by simp, ?_, by simp⟩
      have hsign := @source_sign column m c.toString (by simp)
      simpa using hsign

theorem Source.category_ne_none {t : Token} {source : List Char} (h : t.Source source) :
    t.category ≠ none := by
  intro hnone
  rw [Source, hnone] at h
  exact h

end Source

namespace CutInto

variable {column : Nat} {s rest : List Char} {ts : List Token} {pieces : List Piece}
  {last : List Char} {q : Piece}

theorem blanks (h : AllOf isBlank s) :
    CutInto column s (if s = [] then [] else [⟨column + s.length - 1, none, ""⟩]) [] s where
  text := rfl
  blank := by simp
  blankEnd := h
  source := by simp
  starts := by simp
  remark := by simp
  tokens := rfl

theorem eq_nil (h : CutInto column [] ts pieces last) : pieces = [] ∧ last = [] := by
  obtain ⟨hpieces, hlast⟩ := List.append_eq_nil_iff.mp h.text.symm
  refine ⟨?_, hlast⟩
  cases pieces with
  | nil => rfl
  | cons q pieces =>
      have hsource := (h.source q List.mem_cons_self).1
      simp [Piece.text, hsource] at hpieces

theorem cons (hgap : AllOf isBlank q.gap) (hsource : q.source ≠ [] ∧ q.token.Source q.source)
    (hcolumn : q.token.column = column + q.gap.length)
    (hremark : q.token.isKeyword .REM → rest = [])
    (h : CutInto (column + q.text.length) rest ts pieces last) :
    CutInto column (q.text ++ rest) (q.token :: ts) (q :: pieces) last where
  text := by rw [List.flatMap_cons, List.append_assoc, ← h.text]
  blank := List.forall_mem_cons.mpr ⟨hgap, h.blank⟩
  blankEnd := h.blankEnd
  source := List.forall_mem_cons.mpr ⟨hsource, h.source⟩
  starts := by
    intro before r after hsplit
    cases before with
    | nil =>
        cases hsplit
        simpa using hcolumn
    | cons b before =>
        cases hsplit
        rw [h.starts before r after rfl, List.flatMap_cons]
        simp only [List.length_append]
        omega
  remark := by
    intro before r after hsplit hr
    cases before with
    | nil =>
        cases hsplit
        obtain rfl := hremark hr
        exact h.eq_nil
    | cons b before =>
        cases hsplit
        exact h.remark before r after rfl hr
  tokens := by
    rw [h.tokens, List.map_cons, List.cons_append, List.length_append, Nat.add_assoc]

theorem category_ne_none (h : CutInto column s ts pieces last) {t : Token}
    (ht : t ∈ pieces.map Piece.token) : t.category ≠ none := by
  obtain ⟨q, hq, rfl⟩ := List.mem_map.mp ht
  exact (h.source q hq).2.category_ne_none

/-- A token without a category comes last, after white space. -/
theorem uncategorised (h : CutInto column s ts pieces last) {before after : List Token} {t : Token}
    (hts : ts = before ++ t :: after) (hnone : t.category = none) :
    after = [] ∧ t.lexeme = "" ∧ last ≠ [] := by
  have htokens := h.tokens.symm.trans hts
  by_cases hlast : last = []
  · rw [if_pos hlast, List.append_nil] at htokens
    have ht : t ∈ pieces.map Piece.token := by simp [htokens]
    exact absurd hnone (h.category_ne_none ht)
  · rw [if_neg hlast] at htokens
    rcases List.eq_nil_or_concat after with rfl | ⟨more, x, rfl⟩
    · obtain ⟨-, hend⟩ := List.append_inj' htokens rfl
      cases hend
      exact ⟨rfl, rfl, hlast⟩
    · rw [List.concat_eq_append, ← List.cons_append, ← List.append_assoc] at htokens
      obtain ⟨htokens, -⟩ := List.append_inj' htokens rfl
      have ht : t ∈ pieces.map Piece.token := by simp [htokens]
      exact absurd hnone (h.category_ne_none ht)

theorem exists_blank (h : CutInto column s ts pieces last) (hlast : last ≠ []) :
    ∃ c ∈ s.getLast?, isBlank c = true := by
  have hend : s.getLast? = some (last.getLast hlast) := by
    rw [h.text, List.getLast?_append, List.getLast?_eq_some_getLast hlast, Option.some_or]
  exact ⟨_, hend, h.blankEnd _ (List.getLast_mem hlast)⟩

end CutInto

theorem exists_cutInto {column : Nat} {s : List Char} {ts : List Token}
    (h : scanAll column s = .ok ts) (ha : ∀ c ∈ s, c.toNat < 128) :
    ∃ pieces last, CutInto column s ts pieces last := by
  fun_induction scanAll column s generalizing ts with
  | case1 column s hs =>
      cases h
      exact ⟨[], s, .blanks (allOf_of_dropWhile hs)⟩
  | case2 => cases h
  | case3 column s c rest hs start t after ht =>
      rename_i ih
      obtain ⟨us, hus, hts⟩ := of_bind_eq_ok h
      cases hts
      obtain ⟨gap, hgap, rfl⟩ : ∃ gap, AllOf isBlank gap ∧ s = gap ++ (c :: rest) :=
        ⟨s.takeWhile isBlank, allOf_takeWhile isBlank s, by
          rw [← hs, List.takeWhile_append_dropWhile]⟩
      have hsrc : ∀ d ∈ c :: rest, d.toNat < 128 := fun d hd =>
        ha d (List.mem_append_right gap hd)
      have hlexeme := lexeme_of_scan ht
      obtain ⟨source, hsource, hne, hof, hremark⟩ := hlexeme.exists_source hsrc t.column
      obtain ⟨pieces, last, hrest⟩ := ih hus fun d hd => hsrc d (hlexeme.suffix.subset hd)
      have hstart : start = column + gap.length := by
        simp only [start, List.length_append, List.length_cons]
        omega
      have hnext : start + 1 + (rest.length - after.length) =
          column + (Piece.mk gap t source).text.length := by
        have hlength := congrArg List.length hsource
        have hpos := List.length_pos_iff.mpr hne
        rw [List.length_append, List.length_cons] at hlength
        rw [hstart, Piece.text, List.length_append]
        dsimp only
        omega
      rw [hnext] at hrest
      have hend : t.isKeyword .REM → after = [] := by
        intro hr
        apply hremark
        show t.category = _
        simpa [isKeyword] using hr
      have hcut := CutInto.cons (q := ⟨gap, t, source⟩) hgap ⟨hne, hof⟩
        ((column_of_scan ht).trans hstart) hend hrest
      rw [Piece.text, List.append_assoc, ← hsource] at hcut
      exact ⟨_, last, hcut⟩

/-- Every text of ASCII characters that the lexer accepts is cut into pieces, and what has no
category is white space at its end. -/
theorem tokenize_cutInto {text : String} {ts : List Token}
    (hascii : ∀ c ∈ text.toList, c.toNat < 128) (h : tokenize text = .ok ts) :
    (∃ pieces last, CutInto 0 text.toList ts pieces last) ∧
    ∀ before t after, ts = before ++ t :: after → t.category = none →
      after = [] ∧ t.lexeme = "" ∧ ∃ c ∈ text.toList.getLast?, isBlank c = true := by
  obtain ⟨pieces, last, hcut⟩ := exists_cutInto h hascii
  refine ⟨⟨pieces, last, hcut⟩, fun before t after hts hnone => ?_⟩
  obtain ⟨hafter, hlexeme, hlast⟩ := hcut.uncategorised hts hnone
  exact ⟨hafter, hlexeme, hcut.exists_blank hlast⟩

/-- Words in small letters, a text with a blank in it, and white space at the end. -/
theorem tokenize_cutInto_mixed :
    let text := "if\tA$<>\"b c\" mod 2. "
    let ts : List Token := [⟨0, some (.keyword .IF), "IF"⟩, ⟨3, some .name, "A$"⟩,
      ⟨5, some (.mark .notEqual), "<>"⟩, ⟨7, some .text, "b c"⟩, ⟨13, some (.mark .modulo), "MOD"⟩,
      ⟨17, some .decimal, "2."⟩, ⟨19, none, ""⟩]
    (∀ c ∈ text.toList, c.toNat < 128) ∧ tokenize text = .ok ts ∧
    (∃ pieces last, CutInto 0 text.toList ts pieces last) ∧
    ∃ c ∈ text.toList.getLast?, isBlank c = true := by
  intro text ts
  have hascii : ∀ c ∈ text.toList, c.toNat < 128 := ascii_of_all (by decide +kernel)
  have htokens : (tokenize text).toOption = some ts := by decide +kernel
  have htokenize : tokenize text = .ok ts := by
    cases h : tokenize text with
    | error f => simp [h, Except.toOption] at htokens
    | ok us => simpa [h, Except.toOption] using htokens
  obtain ⟨hcut, hend⟩ := tokenize_cutInto hascii htokenize
  obtain ⟨-, -, hblank⟩ := hend (ts.take 6) ⟨19, none, ""⟩ [] rfl rfl
  exact ⟨hascii, htokenize, hcut, hblank⟩

end Token

end LineBasic

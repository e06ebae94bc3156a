import LineBasic.Proofs.Ascii
import LineBasic.Proofs.Reading

namespace LineBasic

theorem of_bind_eq_ok {α β : Type} {x : Except Fault α} {f : α → Except Fault β} {b : β}
    (h : x >>= f = .ok b) : ∃ a, x = .ok a ∧ f a = .ok b := by
  cases x with
  | error e => cases h
  | ok a => exact ⟨a, rfl, h⟩

namespace Text

abbrev AllOf (p : Char → Bool) (s : List Char) : Prop := ∀ c ∈ s, p c = true

def Stops (p : Char → Bool) (s : List Char) : Prop := ∀ c ∈ s.head?, p c = false

theorem takeWhile_of_stops {p : Char → Bool} {s rest : List Char} (hs : AllOf p s)
    (hr : Stops p rest) : (s ++ rest).takeWhile p = s := by
  rw [List.takeWhile_append_of_pos hs]
  cases rest with
  | nil => simp
  | cons c rest => rw [List.takeWhile_cons_of_neg (by simp [hr c rfl]), List.append_nil]

theorem dropWhile_eq_self {p : Char → Bool} {s : List Char} (h : Stops p s) :
    s.dropWhile p = s := by
  cases s with
  | nil => rfl
  | cons c s => rw [List.dropWhile_cons_of_neg (by simp [h c rfl])]

theorem dropWhile_of_stops {p : Char → Bool} {s rest : List Char} (hs : AllOf p s)
    (hr : Stops p rest) : (s ++ rest).dropWhile p = rest := by
  rw [List.dropWhile_append_of_pos hs, dropWhile_eq_self hr]

theorem allOf_takeWhile (p : Char → Bool) (s : List Char) : AllOf p (s.takeWhile p) :=
  fun _ hc => List.all_eq_true.mp (List.all_takeWhile) _ hc

theorem allOf_of_dropWhile {p : Char → Bool} {s : List Char} (h : s.dropWhile p = []) :
    AllOf p s := by
  have ha := allOf_takeWhile p s
  rwa [← List.append_nil (s.takeWhile p), ← h, List.takeWhile_append_dropWhile] at ha

theorem stops_dropWhile (p : Char → Bool) (s : List Char) : Stops p (s.dropWhile p) := by
  intro c hc
  have h := List.head?_dropWhile_not p s
  rw [Option.mem_def.mp hc] at h
  simpa using h

end Text

namespace Token

open Text

inductive Lexeme : List Char → Face → List Char → Prop
  | text {s after : List Char} (unquoted : AllOf (· != '"') s) :
      Lexeme ('"' :: (s ++ '"' :: after)) (some .text, String.ofList s) after
  | integer {c : Char} {s after : List Char} (digits : AllOf isDigit (c :: s))
      (stops : Stops isDigit after) (whole : Stops (· == '.') after) :
      Lexeme (c :: (s ++ after)) (some .integer, String.ofList (c :: s)) after
  | decimal {c : Char} {s u after : List Char} (digits : AllOf isDigit (c :: s))
      (more : AllOf isDigit u) (stops : Stops isDigit after) :
      Lexeme (c :: (s ++ '.' :: (u ++ after)))
        (some .decimal, String.ofList (c :: (s ++ '.' :: u))) after
  | word {c : Char} {s after : List Char} (letter : isLetter c = true) (digit : isDigit c = false)
      (name : AllOf isNameChar s) (stops : Stops isNameChar after)
      (plain : String.ofList (upper (c :: s)) ≠ "REM") :
      Lexeme (c :: (s ++ after))
        (some (Category.ofWord (String.ofList (upper (c :: s)))),
          String.ofList (upper (c :: s))) after
  | remark {c : Char} {s after : List Char} (letter : isLetter c = true) (digit : isDigit c = false)
      (name : AllOf isNameChar s) (stops : Stops isNameChar after)
      (remark : String.ofList (upper (c :: s)) = "REM") :
      Lexeme (c :: (s ++ after)) (some (.keyword .REM), "REM" ++ String.ofList after) []
  | pair {c d : Char} {after : List Char} {m : Mark} (pair : Mark.ofPair? c (d :: after) = some m) :
      Lexeme (c :: d :: after) (some (.mark m), String.ofList [c, d]) after
  | mark {c : Char} {after : List Char} {m : Mark} (single : Mark.ofPair? c after = none)
      (mark : Mark.ofChar? c = some m) :
      Lexeme (c :: after) (some (.mark m), c.toString) after

theorem lexeme_of_scanText {column : Nat} {rest after : List Char} {t : Token}
    (h : scanText column rest = .ok (t, after)) : Lexeme ('"' :: rest) t.face after := by
  unfold scanText at h
  split at h
  · cases h
  · rename_i c _ hd
    cases h
    obtain rfl : c = '"' := by simpa using stops_dropWhile (· != '"') rest c (by rw [hd]; rfl)
    have hr : rest = rest.takeWhile (· != '"') ++ '"' :: after := by
      rw [← hd, List.takeWhile_append_dropWhile]
    have hx := @Lexeme.text _ after (allOf_takeWhile (· != '"') rest)
    rwa [← hr] at hx

theorem lexeme_of_scanNumber (column : Nat) {c : Char} (rest : List Char) (hc : isDigit c = true) :
    Lexeme (c :: rest) (scanNumber column c rest).1.face (scanNumber column c rest).2 := by
  have hr : rest = rest.takeWhile isDigit ++ rest.dropWhile isDigit :=
    List.takeWhile_append_dropWhile.symm
  have hs : AllOf isDigit (c :: rest.takeWhile isDigit) := by
    rintro d (_ | ⟨_, hd⟩)
    · exact hc
    · exact allOf_takeWhile isDigit rest d hd
  unfold scanNumber
  dsimp only
  split
  · rename_i after ha
    rw [ha, ← List.takeWhile_append_dropWhile (p := isDigit) (l := after)] at hr
    have hx := Lexeme.decimal hs (allOf_takeWhile isDigit after) (stops_dropWhile isDigit after)
    rwa [← hr] at hx
  · rename_i hw
    have hpoint : Stops (· == '.') (rest.dropWhile isDigit) := by
      intro d hd
      obtain ⟨after, ha⟩ := List.head?_eq_some_iff.mp hd
      by_cases hp : d = '.'
      · subst hp
        exact absurd ha (hw after)
      · simpa using hp
    have hx := Lexeme.integer hs (stops_dropWhile isDigit rest) hpoint
    rwa [← hr] at hx

theorem lexeme_of_scanWord (column : Nat) {c : Char} (rest : List Char) (hl : isLetter c = true)
    (hd : isDigit c = false) :
    Lexeme (c :: rest) (scanWord column c rest).1.face (scanWord column c rest).2 := by
  have hr : rest = rest.takeWhile isNameChar ++ rest.dropWhile isNameChar :=
    List.takeWhile_append_dropWhile.symm
  have hs := allOf_takeWhile isNameChar rest
  have ht := stops_dropWhile isNameChar rest
  unfold scanWord
  dsimp only
  split
  · rename_i hw
    have hx := Lexeme.remark hl hd hs ht hw
    rw [← hr, ← hw] at hx
    rwa [hw] at hx ⊢
  · rename_i hw
    have hx := Lexeme.word hl hd hs ht hw
    rwa [← hr] at hx

theorem lexeme_of_scanMark {column : Nat} {c : Char} {rest after : List Char} {t : Token}
    (h : scanMark column c rest = .ok (t, after)) : Lexeme (c :: rest) t.face after := by
  unfold scanMark at h
  split at h
  · rename_i m hp
    cases h
    cases rest with
    | nil => simp [Mark.ofPair?] at hp
    | cons d rest => exact Lexeme.pair hp
  · rename_i m hp hm
    cases h
    exact Lexeme.mark hp hm
  · cases h

/-- What the lexer takes off a text is one of the tokens that the text can begin with. -/
theorem lexeme_of_scan {column : Nat} {c : Char} {rest after : List Char} {t : Token}
    (h : scan column c rest = .ok (t, after)) : Lexeme (c :: rest) t.face after := by
  unfold scan at h
  split at h
  · rename_i hc
    obtain rfl : c = '"' := by simpa using hc
    exact lexeme_of_scanText h
  · split at h
    · rename_i hd
      have e : scanNumber column c rest = (t, after) := Except.ok.inj h
      have hx := lexeme_of_scanNumber column rest hd
      rwa [e] at hx
    · rename_i hd
      split at h
      · rename_i hl
        have e : scanWord column c rest = (t, after) := Except.ok.inj h
        have hx := lexeme_of_scanWord column rest hl (by simpa using hd)
        rwa [e] at hx
      · exact lexeme_of_scanMark h

theorem scan_of_digit {c : Char} (h : isDigit c = true) (column : Nat) (rest : List Char) :
    scan column c rest = .ok (scanNumber column c rest) := by
  have hq : (c == '"') = false := by simpa using ne_quote_of_isNameChar (isNameChar_of_isDigit h)
  rw [scan, hq, h]
  rfl

theorem scan_of_letter {c : Char} (h : isLetter c = true) (hd : isDigit c = false) (column : Nat)
    (rest : List Char) : scan column c rest = .ok (scanWord column c rest) := by
  have hq : (c == '"') = false := by simpa using ne_quote_of_isNameChar (isNameChar_of_isLetter h)
  rw [scan, hq, hd, h]
  rfl

theorem scan_of_mark {c : Char} {m : Mark} (h : Mark.ofChar? c = some m) (column : Nat)
    (rest : List Char) : scan column c rest = scanMark column c rest := by
  unfold Mark.ofChar? at h
  split at h <;> cases h <;> rfl

theorem ofChar?_of_pair {c : Char} {rest : List Char} {m : Mark}
    (h : Mark.ofPair? c rest = some m) : ∃ m', Mark.ofChar? c = some m' := by
  unfold Mark.ofPair? at h
  split at h
  · exact ⟨_, rfl⟩
  · exact ⟨_, rfl⟩
  · exact ⟨_, rfl⟩
  · cases h

theorem Lexeme.scan_eq {c : Char} {rest after : List Char} {f : Face}
    (h : Lexeme (c :: rest) f after) (column : Nat) :
    scan column c rest = .ok (⟨column, f.1, f.2⟩, after) := by
  cases h with
  | @text s _ unquoted =>
      have hstop : Stops (· != '"') ('"' :: after) := by
        rintro d ⟨⟩
        rfl
      have hs : scanText column (s ++ '"' :: after) =
          .ok (⟨column, some .text, String.ofList s⟩, after) := by
        rw [scanText, takeWhile_of_stops unquoted hstop, dropWhile_of_stops unquoted hstop]
        rfl
      exact hs
  | @integer _ s _ digits stops whole =>
      have hs : AllOf isDigit s := fun d hd => digits d (List.mem_cons_of_mem _ hd)
      rw [scan_of_digit (digits c List.mem_cons_self), scanNumber, takeWhile_of_stops hs stops,
        dropWhile_of_stops hs stops]
      cases after with
      | nil => rfl
      | cons d after =>
          have hd : d ≠ '.' := by simpa using whole d rfl
          simp [hd]
  | @decimal _ s u _ digits more stops =>
      have hs : AllOf isDigit s := fun d hd => digits d (List.mem_cons_of_mem _ hd)
      have hpoint : Stops isDigit ('.' :: (u ++ after)) := by
        rintro d ⟨⟩
        decide +kernel
      rw [scan_of_digit (digits c List.mem_cons_self), scanNumber, takeWhile_of_stops hs hpoint,
        dropWhile_of_stops hs hpoint]
      show Except.ok ((⟨column, some .decimal,
        String.ofList (c :: s ++ '.' :: (u ++ after).takeWhile isDigit)⟩ : Token),
          (u ++ after).dropWhile isDigit) = _
      rw [takeWhile_of_stops more stops, dropWhile_of_stops more stops]
      rfl
  | word letter digit name stops plain =>
      rw [scan_of_letter letter digit, scanWord, takeWhile_of_stops name stops,
        dropWhile_of_stops name stops, if_neg plain]
  | remark letter digit name stops remark =>
      rw [scan_of_letter letter digit, scanWord, takeWhile_of_stops name stops,
        dropWhile_of_stops name stops, if_pos remark, remark]
  | pair pair =>
      obtain ⟨m', hm⟩ := ofChar?_of_pair pair
      rw [scan_of_mark hm, scanMark, pair]
      rfl
  | mark single mark =>
      rw [scan_of_mark mark, scanMark, single, mark]
      rfl

theorem column_of_scan {column : Nat} {c : Char} {rest after : List Char} {t : Token}
    (h : scan column c rest = .ok (t, after)) : t.column = column := by
  have hscan := h.symm.trans ((lexeme_of_scan h).scan_eq column)
  exact congrArg Token.column (Prod.mk.inj (Except.ok.inj hscan)).1

inductive Lexemes : List Char → List Face → Prop
  | done : Lexemes [] []
  | blank {s : List Char} (some : s ≠ []) (blank : s.dropWhile isBlank = []) :
      Lexemes s [(none, "")]
  | token {s src after : List Char} {f : Face} {fs : List Face} (skip : s.dropWhile isBlank = src)
      (head : Lexeme src f after) (tail : Lexemes after fs) : Lexemes s (f :: fs)

theorem Lexeme.ne_nil {src after : List Char} {f : Face} (h : Lexeme src f after) : src ≠ [] := by
  cases h <;> exact List.cons_ne_nil _ _

theorem scanAll_of_nil {s : List Char} (h : s.dropWhile isBlank = []) (column : Nat) :
    scanAll column s = .ok (if s = [] then [] else [⟨column + s.length - 1, none, ""⟩]) := by
  rw [scanAll]
  split
  · rfl
  · rename_i hs
    rw [h] at hs
    cases hs

theorem scanAll_of_scan {s rest after : List Char} {c : Char} {t : Token} {column : Nat}
    (h : s.dropWhile isBlank = c :: rest)
    (ht : scan (column + (s.length - (rest.length + 1))) c rest = .ok (t, after)) :
    scanAll column s = (do
      let ts ← scanAll
        (column + (s.length - (rest.length + 1)) + 1 + (rest.length - after.length)) after
      pure (t :: ts)) := by
  rw [scanAll]
  split
  · rename_i hs
    rw [h] at hs
    cases hs
  · rename_i hs
    cases h.symm.trans hs
    dsimp only
    split
    · rename_i he
      cases ht.symm.trans he
    · rename_i he
      cases ht.symm.trans he
      rfl

theorem Lexemes.scanAll_eq {s : List Char} {fs : List Face} (h : Lexemes s fs) (column : Nat) :
    ∃ ts, scanAll column s = .ok ts ∧ ts.map Token.face = fs := by
  induction h generalizing column with
  | done => exact ⟨[], scanAll_of_nil rfl column, rfl⟩
  | blank some blank => exact ⟨_, by rw [scanAll_of_nil blank, if_neg some], rfl⟩
  | @token s src after f fs skip head tail ih =>
      cases src with
      | nil => exact absurd rfl head.ne_nil
      | cons c rest =>
          obtain ⟨ts, hts, rfl⟩ := ih
            (column + (s.length - (rest.length + 1)) + 1 + (rest.length - after.length))
          refine ⟨⟨column + (s.length - (rest.length + 1)), f.1, f.2⟩ :: ts, ?_, rfl⟩
          rw [scanAll_of_scan skip (head.scan_eq _), hts]
          rfl

theorem lexemes_of_scanAll {column : Nat} {s : List Char} {ts : List Token}
    (h : scanAll column s = .ok ts) : Lexemes s (ts.map Token.face) := by
  fun_induction scanAll column s generalizing ts with
  | case1 column s hs =>
      by_cases he : s = []
      · rw [if_pos he] at h
        cases h
        rw [he]
        exact .done
      · rw [if_neg he] at h
        cases h
        exact .blank he hs
  | case2 => cases h
  | case3 column s c rest hs start t after ht =>
      rename_i ih
      obtain ⟨us, hus, hts⟩ := of_bind_eq_ok h
      cases hts
      exact .token hs (lexeme_of_scan ht) (ih hus)

end Token

end LineBasic

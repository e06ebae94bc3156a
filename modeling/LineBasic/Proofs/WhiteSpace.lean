import LineBasic.Proofs.Editing
import LineBasic.Proofs.Lines
import LineBasic.Proofs.Local
import LineBasic.Session

namespace LineBasic

open Text Token

theorem Text.Stops.append_blank {p : Char → Bool} {s w : List Char} (h : Stops p s)
    (hp : ∀ {c}, isBlank c = true → p c = false) (hw : AllOf isBlank w) : Stops p (s ++ w) := by
  cases s with
  | nil => exact fun c hc => hp (hw c (List.mem_of_mem_head? hc))
  | cons d s => exact h

theorem Mark.ofPair?_of_isBlank {c d : Char} (h : isBlank d = true) (s : List Char) :
    Mark.ofPair? c (d :: s) = none := by
  have hd : d ≠ '>' ∧ d ≠ '=' := by
    constructor
    all_goals
      rintro rfl
      exact absurd h (by decide)
  unfold Mark.ofPair?
  split <;> simp_all

namespace Token

/-- A token is not extended by white space. Only a remark would be. -/
theorem Lexeme.append_blank {src after w : List Char} {f : Face} (h : Lexeme src f after)
    (hremark : f.1 ≠ some (.keyword .REM)) (hw : AllOf isBlank w) :
    Lexeme (src ++ w) f (after ++ w) := by
  cases h with
  | @text s _ unquoted =>
      have hx := @Lexeme.text s (after ++ w) unquoted
      simpa using hx
  | @integer c s _ digits stops whole =>
      have hpoint : ∀ {c}, isBlank c = true → (c == '.') = false := by
        intro c hc
        exact forall_blank (P := fun c => (c == '.') = false) (by decide +kernel) hc
      have hx := Lexeme.integer digits (stops.append_blank isDigit_of_isBlank hw)
        (whole.append_blank hpoint hw)
      simpa using hx
  | @decimal c s u _ digits more stops =>
      have hx := Lexeme.decimal digits more (stops.append_blank isDigit_of_isBlank hw)
      simpa using hx
  | @word c s _ letter digit name stops plain =>
      have hx := Lexeme.word letter digit name (stops.append_blank isNameChar_of_isBlank hw) plain
      simpa using hx
  | remark => exact absurd rfl hremark
  | @pair c d _ m pair =>
      exact Lexeme.pair ((Mark.ofPair?_cons c d (after ++ w) after).trans pair)
  | @mark c _ m single mark =>
      refine Lexeme.mark ?_ mark
      cases after with
      | cons d after => exact (Mark.ofPair?_cons c d (after ++ w) after).trans single
      | nil =>
          cases w with
          | nil => exact single
          | cons d w => exact Mark.ofPair?_of_isBlank (hw d List.mem_cons_self) w

theorem Lexeme.category_ne_none {src after : List Char} {f : Face} (h : Lexeme src f after) :
    f.1 ≠ none := by
  cases h <;> exact Option.some_ne_none _

def solid (ts : List Token) : List Token := ts.filter fun t => t.category.isSome

def blankEnd (text : String) : Token := ⟨text.length - 1, none, ""⟩

theorem scanAll_append_blank {column : Nat} {s w : List Char} {ts : List Token}
    (h : scanAll column s = .ok ts) (hremark : ∀ t ∈ ts, t.isKeyword .REM = false)
    (hw : AllOf isBlank w) (hne : w ≠ []) :
    scanAll column (s ++ w) =
      .ok (solid ts ++ [⟨column + (s ++ w).length - 1, none, ""⟩]) := by
  fun_induction scanAll column s generalizing ts with
  | case1 column s hs =>
      have hall : AllOf isBlank (s ++ w) := fun c hc =>
        (List.mem_append.mp hc).elim (allOf_of_dropWhile hs c) (hw c)
      have hblank : (s ++ w).dropWhile isBlank = [] := by
        have hend : Stops isBlank [] := by rintro c ⟨⟩
        have hdrop := dropWhile_of_stops hall hend
        rwa [List.append_nil] at hdrop
      have hsolid : solid ts = [] := by
        cases h
        split <;> rfl
      rw [scanAll_of_nil hblank, if_neg (by simp [hne]), hsolid]
      rfl
  | case2 => cases h
  | case3 column s c rest hs start t after ht =>
      rename_i ih
      obtain ⟨us, hus, hts⟩ := of_bind_eq_ok h
      cases hts
      rw [List.forall_mem_cons] at hremark
      have hlexeme := lexeme_of_scan ht
      have hsolid : solid (t :: us) = t :: solid us :=
        List.filter_cons_of_pos (Option.isSome_iff_ne_none.mpr hlexeme.category_ne_none)
      -- The white space stands behind what is left at every step, so all columns are the same.
      have hskip : (s ++ w).dropWhile isBlank = c :: (rest ++ w) := by
        rw [List.dropWhile_append, hs]
        rfl
      have hstart : column + ((s ++ w).length - ((rest ++ w).length + 1)) = start := by
        simp only [start, List.length_append]
        omega
      have hnext : start + 1 + ((rest ++ w).length - (after ++ w).length) =
          start + 1 + (rest.length - after.length) := by
        simp only [List.length_append]
        omega
      have hscan : scan start c (rest ++ w) = .ok (t, after ++ w) := by
        have hcategory : t.category ≠ some (.keyword .REM) := by
          simpa [isKeyword] using hremark.1
        have hx : Lexeme (c :: (rest ++ w)) t.face (after ++ w) := hlexeme.append_blank hcategory hw
        rw [hx.scan_eq start, ← column_of_scan ht]
        rfl
      have hlength : start + 1 + (rest.length - after.length) + (after ++ w).length =
          column + (s ++ w).length := by
        have hle := scan_length ht
        have hs' := congrArg List.length hs
        have := (List.dropWhile_suffix isBlank (l := s)).length_le
        simp only [start, List.length_append, List.length_cons] at *
        omega
      rw [scanAll_of_scan hskip (by rw [hstart]; exact hscan), hstart, hnext, ih hus hremark.2,
        hlength, hsolid]
      rfl

/-- A token starts at a character of the text. -/
theorem column_lt_of_scanAll {column : Nat} {s : List Char} {ts : List Token}
    (h : scanAll column s = .ok ts) : ∀ t ∈ ts, t.column < column + s.length := by
  fun_induction scanAll column s generalizing ts with
  | case1 column s hs =>
      cases h
      intro t ht
      split at ht
      · cases ht
      · rename_i hne
        have hpos := List.length_pos_iff.mpr hne
        rw [List.mem_singleton.mp ht]
        dsimp only
        omega
  | case2 => cases h
  | case3 column s c rest hs start t after ht =>
      rename_i ih
      obtain ⟨us, hus, hts⟩ := of_bind_eq_ok h
      cases hts
      have hrest := (List.dropWhile_suffix isBlank (l := s)).length_le
      rw [hs, List.length_cons] at hrest
      have hafter := scan_length ht
      have hcolumn := column_of_scan ht
      rintro u (_ | ⟨_, hu⟩)
      · omega
      · have hlt := ih hus u hu
        omega

end Token

namespace Session

/-- What an entry does that begins with a line number: without a statement it takes the line out,
and otherwise it stores the statement. -/
def numbered (n : Int) : List Token → Command Answer
  | [] => do
      Program.withdraw n
      pure .goOn
  | first :: body => fun p => .ok .goOn (p.store (n, first :: body))

theorem enter_numbered {line : String} {number : Token} {body : List Token} {n : Int}
    (h : tokenize line = .ok (number :: body)) (hnumber : number.category = some .integer)
    (hn : Decimal.readInt number.lexeme.toList = .ok n) : enter line = numbered n body := by
  funext p
  have henter : enter line p = perform number body p := by
    rw [enter, h]
    rfl
  rw [henter, perform, hnumber]
  cases body with
  | nil =>
      show (Session.number number >>= _ : Command Answer) p = _
      rw [Session.number, hn]
      rfl
  | cons first body =>
      have hchange : change (·.add (number :: first :: body)) p =
          .ok () (p.store (n, first :: body)) := by
        rw [change, Program.add_eq_store hn]
      show (change (·.add (number :: first :: body)) >>= fun _ => pure .goOn : Command Answer) p = _
      rw [Outcome.bind_ok hchange]
      rfl

end Session

namespace Token

/-- White space behind a text without remarks makes one token, which has no category. It stands in
place of the one that was at the end of the text already or in addition to its tokens, so the tokens
are the same only if there is no white space. At the prompt the token is stored with the statement
in front of it; behind a line number alone it is a statement by itself, and the line is not taken
out. -/
theorem tokenize_append_blank {s w : String} {ts : List Token} (h : tokenize s = .ok ts)
    (hremark : ∀ t ∈ ts, t.isKeyword .REM = false) (hblank : AllOf isBlank w.toList) :
    tokenize (s ++ w) = .ok (if w = "" then ts else solid ts ++ [blankEnd (s ++ w)]) ∧
    (tokenize (s ++ w) = tokenize s ↔ w = "") ∧
    ∀ (number : Token) (body : List Token) (n : Int), ts = number :: body →
      number.category = some .integer → Decimal.readInt number.lexeme.toList = .ok n →
      Session.enter s = Session.numbered n body ∧
      Session.enter (s ++ w) =
        Session.numbered n (if w = "" then body else solid body ++ [blankEnd (s ++ w)]) := by
  have htokens : tokenize (s ++ w) =
      .ok (if w = "" then ts else solid ts ++ [blankEnd (s ++ w)]) := by
    by_cases hw : w = ""
    · rw [if_pos hw, hw, String.append_empty, h]
    · have hne : w.toList ≠ [] := by simpa using hw
      rw [if_neg hw, tokenize, String.toList_append,
        scanAll_append_blank h hremark hblank hne, blankEnd, Nat.zero_add, ← String.toList_append,
        String.length_toList]
  refine ⟨htokens, ⟨fun hsame => ?_, ?_⟩, fun number body n hts hnumber hn => ?_⟩
  · by_cases hw : w = ""
    · exact hw
    · -- The token stands at the last character of the white space, behind the text.
      have hne : w.toList ≠ [] := by simpa using hw
      have hpos := List.length_pos_iff.mpr hne
      rw [if_neg hw, hsame, h] at htokens
      have hmem : blankEnd (s ++ w) ∈ ts := by
        rw [Except.ok.inj htokens]
        exact List.mem_append_right _ List.mem_cons_self
      have hlt := column_lt_of_scanAll h _ hmem
      simp only [blankEnd, ← String.length_toList, String.toList_append, List.length_append] at hlt
      omega
  · rintro rfl
    rw [String.append_empty]
  · subst hts
    refine ⟨Session.enter_numbered h hnumber hn, ?_⟩
    by_cases hw : w = ""
    · rw [if_pos hw] at htokens ⊢
      exact Session.enter_numbered htokens hnumber hn
    · have hsolid : solid (number :: body) = number :: solid body :=
        List.filter_cons_of_pos (by rw [hnumber]; rfl)
      rw [if_neg hw] at htokens ⊢
      rw [hsolid] at htokens
      exact Session.enter_numbered htokens hnumber hn

/-- A statement with a blank behind it already, and a tabulator behind that. -/
theorem tokenize_append_blank_twice :
    let ts : List Token := [⟨0, some .integer, "10"⟩, ⟨3, some (.keyword .PRINT), "PRINT"⟩,
      ⟨9, some .integer, "5"⟩]
    tokenize "10 PRINT 5 " = .ok (ts ++ [⟨10, none, ""⟩]) ∧
    tokenize ("10 PRINT 5 " ++ "\t") = .ok (ts ++ [⟨11, none, ""⟩]) ∧
    tokenize ("10 PRINT 5 " ++ "\t") ≠ tokenize "10 PRINT 5 " ∧
    Session.enter ("10 PRINT 5 " ++ "\t") = Session.numbered 10 (ts.tail ++ [⟨11, none, ""⟩]) := by
  intro ts
  have htokens : (tokenize "10 PRINT 5 ").toOption = some (ts ++ [⟨10, none, ""⟩]) := by
    decide +kernel
  have h : tokenize "10 PRINT 5 " = .ok (ts ++ [⟨10, none, ""⟩]) := by
    cases h : tokenize "10 PRINT 5 " with
    | error f => simp [h, Except.toOption] at htokens
    | ok us => simpa [h, Except.toOption] using htokens
  have hblank : AllOf isBlank "\t".toList := List.all_eq_true.mp (by decide +kernel)
  obtain ⟨hboth, hsame, henter⟩ := tokenize_append_blank h (by decide) hblank
  refine ⟨h, hboth, fun heq => absurd (hsame.mp heq) (by decide), ?_⟩
  exact (henter _ _ 10 rfl rfl rfl).2

/-- With a blank behind its number a line is not taken out but replaced. -/
theorem blank_keeps_line :
    let p := Outcome.state (Session.enter "10 PRINT 5" (.fresh .blank))
    (Outcome.state (Session.enter "10" p)).numbers = [] ∧
    (Outcome.state (Session.enter "10 " p)).lines = [(10, [⟨2, none, ""⟩])] := by
  decide +kernel

end Token

end LineBasic

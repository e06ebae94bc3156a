import LineBasic.Program
import LineBasic.Proofs.Lines
import LineBasic.Proofs.Numeral
import LineBasic.Proofs.Spelling

namespace LineBasic

open Text Token

theorem Token.toList_listed (t : Token) : t.listed.toList = t.face.spelling ++ [' '] := by
  by_cases h : t.category = some .text
  · simp [listed, Face.spelling, Token.face, h]
  · simp [listed, Face.spelling, Token.face, h]

namespace Face

def number (n : Int) : Face := (some .integer, Decimal.intText n)

/-- What of a statement is shown after it was stored. A text that says `DATA` is stored as if it
were the keyword but not shown as such, and hides what follows it. -/
def kept : List Face → List Face
  | [] => []
  | f :: fs => if f.2 = "DATA" ∧ f.1 ≠ some (.keyword .DATA) then [f] else f :: fs

theorem kept_kept (fs : List Face) : kept (kept fs) = kept fs := by
  cases fs with
  | nil => rfl
  | cons f fs =>
      by_cases h : f.2 = "DATA" ∧ f.1 ≠ some (.keyword .DATA)
      · rw [kept, if_pos h, kept, if_pos h]
      · rw [kept, if_neg h, kept, if_neg h]

theorem kept_ne_nil {fs : List Face} (h : fs ≠ []) : kept fs ≠ [] := by
  cases fs with
  | nil => exact h
  | cons f fs =>
      rw [kept]
      split <;> exact List.cons_ne_nil _ _

theorem LegibleLine.kept {fs : List Face} (h : LegibleLine fs) : LegibleLine (kept fs) := by
  cases fs with
  | nil => exact h
  | cons f fs =>
      by_cases hk : f.2 = "DATA" ∧ f.1 ≠ some (.keyword .DATA)
      · rw [Face.kept, if_pos hk]
        exact .cons (h.legible f List.mem_cons_self) (absurd rfl) ⟨by simp, by simp⟩
      · rwa [Face.kept, if_neg hk]

theorem Legible.number_eq {f : Face} (h : f.Legible) (hf : f.1 = some .integer) {n : Int}
    (hn : Decimal.readInt f.2.toList = .ok n) :
    ∃ k : Nat, n = k ∧ (Nat.toDigits 10 k).length ≤ Decimal.digitLimit := by
  obtain ⟨hne, hdigits⟩ := h.back.digits hf
  have hs : f.spelling = f.2.toList := by
    obtain ⟨c, x⟩ := f
    subst hf
    exact spelling_of_ne (by decide) x
  have hdec : ∀ c ∈ f.2.toList, (decimalValue? c).isSome := fun c hc =>
    isSome_decimalValue? (h.plain c (hs ▸ hc)).1 (hdigits c hc)
  rw [Decimal.readInt_digits hne hdec] at hn
  split at hn
  · cases hn
  · rename_i hle
    cases hn
    refine ⟨_, rfl, ?_⟩
    exact Nat.le_trans (Decimal.length_toDigits_digitsValue hne hdec) (Nat.not_lt.mp hle)

theorem number_nat (k : Nat) : number k = (some .integer, String.ofList (Nat.toDigits 10 k)) := by
  simp [number, Decimal.intText]

theorem lexeme_digits (k : Nat) {rest : List Char} (stops : Stops isDigit rest)
    (whole : Stops (· == '.') rest) : Lexeme (Nat.toDigits 10 k ++ rest) (number k) rest := by
  have hdigits : AllOf isDigit (Nat.toDigits 10 k) := by
    intro c hc
    simp [isDigit, (Decimal.decimalValue?_of_mem_toDigits hc).1]
  rw [number_nat]
  cases hs : Nat.toDigits 10 k with
  | nil => exact absurd hs Nat.toDigits_ne_nil
  | cons c s =>
      rw [hs] at hdigits
      exact .integer hdigits stops whole

theorem lexeme_number (k : Nat) {rest : List Char} (hr : Gap rest) :
    Lexeme (Nat.toDigits 10 k ++ rest) (number k) rest :=
  lexeme_digits k (hr.stops (by decide +kernel)) (hr.stops rfl)

theorem spelling_number (k : Nat) : (number k).spelling = Nat.toDigits 10 k := by
  rw [number_nat, spelling_of_ne (by decide), String.toList_ofList]

theorem plain_of_mem_toDigits {k : Nat} {c : Char} (h : c ∈ Nat.toDigits 10 k) :
    Plain c ∧ isBlank c = false := by
  have hr := Decimal.toNat_of_mem_toDigits h
  exact forall_ascii (P := fun c => 48 ≤ c.toNat ∧ c.toNat ≤ 57 → Plain c ∧ isBlank c = false)
    (by decide +kernel) (by omega) hr

theorem legible_number (k : Nat) : (number k).Legible := by
  have h := @lexeme_number k [] (by rintro c ⟨⟩)
  rw [List.append_nil] at h
  refine h.legible (fun c hc => (plain_of_mem_toDigits hc).1) ?_ ?_
  · exact fun c hc => (plain_of_mem_toDigits (List.mem_of_mem_head? hc)).2
  · exact fun c hc => (plain_of_mem_toDigits (List.mem_reverse.mp (List.mem_of_mem_head? hc))).2

theorem inner_number (k : Nat) : (number k).Inner := by
  intro rest
  rw [spelling_number]
  apply lexeme_number
  rintro c ⟨⟩
  rfl

end Face

namespace Program

def shown (p : Program) : Lines (List Face) :=
  p.lines.map fun l => (l.1, (p.shownTokens l.1 l.2).map Token.face)

theorem numbers_shown (p : Program) : p.shown.numbers = p.numbers := by
  simp [shown, numbers, Lines.numbers]

theorem toList_lineText (p : Program) (n : Int) (tokens : List Token) :
    (p.lineText n tokens).toList =
      listing (Face.number n :: (p.shownTokens n tokens).map Token.face) := by
  have hjoin (ts : List Token) : (String.join (ts.map Token.listed)).toList =
      listing (ts.map Token.face) := by
    rw [String.toList_join, List.flatMap_map, listing, List.flatMap_map]
    exact congrArg (fun g => ts.flatMap g) (funext Token.toList_listed)
  rw [lineText, String.toList_append, String.toList_append, hjoin]
  rfl

def listingOf (ls : Lines (List Face)) : List Char :=
  ls.flatMap fun l => listing (Face.number l.1 :: l.2) ++ ['\n']

theorem toList_text (p : Program) : p.text.toList = listingOf p.shown := by
  rw [text, String.toList_join, List.flatMap_map, listingOf, shown, List.flatMap_map]
  refine congrArg (fun g => p.lines.flatMap g) (funext fun l => ?_)
  rw [String.toList_append, toList_lineText]
  rfl

theorem text_eq_of_shown {p q : Program} (h : p.shown = q.shown) : p.text = q.text := by
  rw [← String.toList_inj, toList_text, toList_text, h]

section Add

variable {p : Program} {t first : Token} {body : List Token} {n : Int}

theorem add_data (hn : Decimal.readInt t.lexeme.toList = .ok n) (hf : first.lexeme = "DATA") :
    ∃ q, p.add (t :: first :: body) = .ok q ∧ q.lines = p.lines.put n [first] ∧
      q.machine.data = p.machine.data.add n (first :: body) ∧ q.machine.disk = p.machine.disk := by
  refine ⟨{ p with
    ledger := p.ledger.put n [first]
    machine := { p.machine.forget n with data := p.machine.data.add n (first :: body) } },
    ?_, Ledger.sorted_put _ _ _, rfl, rfl⟩
  rw [add, hn]
  exact if_pos hf

theorem add_other (hn : Decimal.readInt t.lexeme.toList = .ok n) (hf : first.lexeme ≠ "DATA") :
    ∃ q, p.add (t :: first :: body) = .ok q ∧ q.lines = p.lines.put n (first :: body) ∧
      q.machine.data = p.machine.data ∧ q.machine.disk = p.machine.disk := by
  refine ⟨{ p with ledger := p.ledger.put n (first :: body), machine := p.machine.forget n },
    ?_, Ledger.sorted_put _ _ _, rfl, rfl⟩
  rw [add, hn]
  exact if_neg hf

theorem of_add_eq_ok {q : Program} {ts : List Token} (h : p.add (t :: ts) = .ok q) :
    ∃ n first body, Decimal.readInt t.lexeme.toList = .ok n ∧ ts = first :: body := by
  obtain ⟨n, hn, h⟩ := of_bind_eq_ok h
  cases ts with
  | nil => cases h
  | cons first body => exact ⟨n, first, body, hn, rfl⟩

theorem shown_put {q : Program} {ts : List Token} (hlines : q.lines = p.lines.put n ts)
    (hdata : ∀ m, m ≠ n → q.machine.data.tokens? m = p.machine.data.tokens? m) :
    q.shown = p.shown.put n ((q.shownTokens n ts).map Token.face) := by
  rw [shown, hlines, shown]
  refine @Lines.map_put _ _ p.lines (fun m us => (p.shownTokens m us).map Token.face)
    (fun m us => (q.shownTokens m us).map Token.face) n p.ascending_lines (fun m us hm => ?_) ts
  unfold shownTokens
  rw [hdata m hm]

theorem add_ok (hn : Decimal.readInt t.lexeme.toList = .ok n)
    (hd : first.category = some (.keyword .DATA) → first.lexeme = "DATA") :
    ∃ q, p.add (t :: first :: body) = .ok q ∧
      q.shown = p.shown.put n (Face.kept ((first :: body).map Token.face)) ∧
      q.machine.disk = p.machine.disk := by
  -- The lexeme decides where the statement is stored, its category where it is shown from.
  by_cases hf : first.lexeme = "DATA"
  · obtain ⟨q, hq, hlines, hdata, hdisk⟩ := @add_data p t first body n hn hf
    refine ⟨q, hq, ?_, hdisk⟩
    have hother (m : Int) (hm : m ≠ n) : q.machine.data.tokens? m = p.machine.data.tokens? m := by
      rw [hdata]
      exact Assoc.get?_put_of_ne _ _ hm
    have hself : q.machine.data.tokens? n = some (first :: body) := by
      rw [hdata]
      exact Assoc.get?_put_self _ _ _
    rw [shown_put hlines hother]
    by_cases hk : first.category = some (.keyword .DATA)
    · simp [shownTokens, isKeyword, hk, hself, Face.kept, Token.face]
    · simp [shownTokens, isKeyword, hk, hf, Face.kept, Token.face]
  · have hk : first.category ≠ some (.keyword .DATA) := fun hk => hf (hd hk)
    obtain ⟨q, hq, hlines, hdata, hdisk⟩ := @add_other p t first body n hn hf
    refine ⟨q, hq, ?_, hdisk⟩
    rw [shown_put hlines fun m _ => by rw [hdata]]
    simp [shownTokens, isKeyword, hk, hf, Face.kept, Token.face]

theorem addText_ok {s : List Char} {f g : Face} {fs : List Face} (hs : Lexemes s (f :: g :: fs))
    (hn : Decimal.readInt f.2.toList = .ok n)
    (hd : g.1 = some (.keyword .DATA) → g.2 = "DATA") :
    ∃ q, p.addText s = .ok q ∧ q.shown = p.shown.put n (Face.kept (g :: fs)) ∧
      q.machine.disk = p.machine.disk := by
  obtain ⟨ts, hts, hfaces⟩ := hs.scanAll_eq 0
  obtain ⟨t, us, rfl, rfl, hus⟩ := List.map_eq_cons_iff.mp hfaces
  obtain ⟨first, body, rfl, rfl, rfl⟩ := List.map_eq_cons_iff.mp hus
  obtain ⟨q, hq, hrest⟩ := @add_ok p t first body n hn hd
  refine ⟨q, ?_, hrest⟩
  rw [addText, hts]
  exact hq

end Add

structure Stored (l : Int × List Face) : Prop where
  number : ∃ k : Nat, l.1 = k ∧ (Nat.toDigits 10 k).length ≤ Decimal.digitLimit
  legible : Face.LegibleLine l.2
  nonempty : l.2 ≠ []
  kept : Face.kept l.2 = l.2

structure Kept (p : Program) : Prop where
  stored : ∀ l ∈ p.shown, Stored l

theorem kept_of_nil {p : Program} (h : p.lines = []) : p.Kept := by
  refine ⟨fun l hl => ?_⟩
  simp [shown, h] at hl

theorem Stored.legible_listing {l : Int × List Face} (h : Stored l) :
    Face.LegibleLine (Face.number l.1 :: l.2) := by
  obtain ⟨k, hk, -⟩ := h.number
  rw [hk]
  exact .cons (Face.legible_number k) (fun _ => Face.inner_number k) h.legible

/-- A line of a listing, its end cut off, is added as the line that it shows. -/
theorem addText_listing {p : Program} {l : Int × List Face} (hl : Stored l) :
    ∃ q, p.addText (trim (listing (Face.number l.1 :: l.2))) = .ok q ∧
      q.shown = p.shown.put l.1 l.2 ∧ q.machine.disk = p.machine.disk := by
  have hlex := lexemes_trim_listing hl.legible_listing
  obtain ⟨n, fs⟩ := l
  obtain ⟨k, rfl, hk⟩ := hl.number
  cases fs with
  | nil => exact absurd rfl hl.nonempty
  | cons g fs =>
      have hadd := @addText_ok p _ _ _ _ _ hlex (Numeral.readInt_intText hk)
        (hl.legible.legible g List.mem_cons_self).data
      rwa [hl.kept] at hadd

end Program

end LineBasic

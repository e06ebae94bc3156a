import LineBasic.DataStore
import LineBasic.Proofs.Listing

namespace LineBasic

open Text Token

/-- What a DATA line can hold: an integer of no more digits than can be read, or a text without
quotes in it. -/
inductive Constant
  | int (n : Int) (readable : (Nat.toDigits 10 n.natAbs).length ≤ Decimal.digitLimit)
  | text (s : List Char) (unquoted : AllOf (· != '"') s)

namespace Constant

def value : Constant → Value
  | int n _ => .int n
  | text s _ => .text (String.ofList s)

def written : Constant → List Char
  | int n _ => (Decimal.intText n).toList
  | text s _ => '"' :: (s ++ ['"'])

/-- Constants as they stand in a DATA line. White space may stand on both sides of a comma and in
front, but not at the end. -/
inductive Listed : List Constant → List Char → Prop
  | nil : Listed [] []
  | last (c : Constant) {gap : List Char} (blank : AllOf isBlank gap) :
      Listed [c] (gap ++ c.written)
  | more (c : Constant) {d : Constant} {cs : List Constant} {gap gap' rest : List Char}
      (blank : AllOf isBlank gap) (blank' : AllOf isBlank gap') (tail : Listed (d :: cs) rest) :
      Listed (c :: d :: cs) (gap ++ (c.written ++ (gap' ++ ',' :: rest)))

def isNegative : Constant → Bool
  | int n _ => decide (n < 0)
  | text _ _ => false

def size : Constant → Face
  | int n _ => Face.number n.natAbs
  | text s _ => (some .text, String.ofList s)

def faces (c : Constant) : List Face :=
  (if c.isNegative then [(some (.mark .minus), "-")] else []) ++ [c.size]

def listFaces : List Constant → List Face
  | [] => []
  | [c] => c.faces
  | c :: cs => c.faces ++ (some (.mark .comma), ",") :: listFaces cs

section Lexing

def Ends (rest : List Char) : Prop := Stops isDigit rest ∧ Stops (· == '.') rest

theorem ends_nil : Ends [] := ⟨nofun, nofun⟩

theorem ends_comma {gap : List Char} (h : AllOf isBlank gap) (rest : List Char) :
    Ends (gap ++ ',' :: rest) := by
  cases gap with
  | nil =>
      constructor
      · rintro c ⟨⟩
        decide +kernel
      · rintro c ⟨⟩
        rfl
  | cons b gap =>
      have hb : isBlank b = true := h b List.mem_cons_self
      constructor
      · rintro c ⟨⟩
        exact isDigit_of_isBlank hb
      · rintro c ⟨⟩
        rw [beq_eq_false_iff_ne]
        rintro rfl
        exact absurd hb (by decide)

theorem lexemes_skip {gap s rest : List Char} {f : Face} {fs : List Face}
    (blank : AllOf isBlank gap) (head : Lexeme s f rest) (start : Stops isBlank s)
    (tail : Lexemes rest fs) : Lexemes (gap ++ s) (f :: fs) :=
  .token (dropWhile_of_stops blank start) head tail

theorem stops_digits (k : Nat) (rest : List Char) :
    Stops isBlank (Nat.toDigits 10 k ++ rest) := by
  cases hs : Nat.toDigits 10 k with
  | nil => exact absurd hs Nat.toDigits_ne_nil
  | cons c s =>
      rintro _ ⟨⟩
      exact (Face.plain_of_mem_toDigits (k := k) (hs ▸ List.mem_cons_self)).2

theorem lexemes_constant (c : Constant) {gap rest : List Char} {fs : List Face}
    (blank : AllOf isBlank gap) (hend : Ends rest) (h : Lexemes rest fs) :
    Lexemes (gap ++ (c.written ++ rest)) (c.faces ++ fs) := by
  cases c with
  | int n readable =>
      by_cases hn : n < 0
      · have hw : (int n readable).written = '-' :: Nat.toDigits 10 n.natAbs := by
          simp [written, Decimal.intText, hn]
        have hf : (int n readable).faces =
            [(some (.mark .minus), "-"), Face.number n.natAbs] := by
          simp [faces, isNegative, size, hn]
        have hdigits := Lexemes.token (dropWhile_eq_self (stops_digits n.natAbs rest))
          (Face.lexeme_digits n.natAbs hend.1 hend.2) h
        rw [hw, hf]
        exact lexemes_skip blank (.mark rfl rfl) (by rintro _ ⟨⟩; rfl) hdigits
      · have hw : (int n readable).written = Nat.toDigits 10 n.natAbs := by
          simp [written, Decimal.intText, hn]
        have hf : (int n readable).faces = [Face.number n.natAbs] := by
          simp [faces, isNegative, size, hn]
        rw [hw, hf]
        exact lexemes_skip blank (Face.lexeme_digits n.natAbs hend.1 hend.2) (stops_digits _ _) h
  | text s unquoted =>
      have hw : (text s unquoted).written ++ rest = '"' :: (s ++ '"' :: rest) := by
        simp [written]
      rw [hw]
      exact lexemes_skip blank (.text unquoted) (by rintro _ ⟨⟩; rfl) h

theorem Listed.lexemes {cs : List Constant} {s : List Char} (h : Listed cs s) :
    Lexemes s (listFaces cs) := by
  induction h with
  | nil => exact .done
  | last c blank =>
      have hc := c.lexemes_constant blank ends_nil .done
      rwa [List.append_nil, List.append_nil] at hc
  | more c blank blank' tail ih =>
      have hcomma := lexemes_skip blank' (.mark (c := ',') rfl rfl) (by rintro _ ⟨⟩; rfl) ih
      exact c.lexemes_constant blank (ends_comma blank' _) hcomma

end Lexing

section Reading

open DataStore

theorem values_minus {t : Token} (h : t.face = (some (.mark .minus), "-")) (negative : Bool)
    (ts : List Token) : values negative (t :: ts) = values true ts := by
  rw [values, show t.category = _ from congrArg Prod.fst h]

theorem values_comma {t : Token} (h : t.face = (some (.mark .comma), ",")) (negative : Bool)
    (ts : List Token) : values negative (t :: ts) = values false ts := by
  rw [values, show t.category = _ from congrArg Prod.fst h]

theorem values_size {c : Constant} {t : Token} (h : t.face = c.size) (ts : List Token) :
    values c.isNegative (t :: ts) = (values c.isNegative ts).map (c.value :: ·) := by
  cases c with
  | int n readable =>
      have hread : Decimal.readInt t.lexeme.toList = .ok (n.natAbs : Int) := by
        rw [show t.lexeme = _ from congrArg Prod.snd h]
        exact Numeral.readInt_intText readable
      have hsign : (Value.int n.natAbs).signed (decide (n < 0)) = .int n := by
        have habs : (if decide (n < 0) then -(n.natAbs : Int) else n.natAbs) = n := by
          by_cases hn : n < 0
          · rw [if_pos (decide_eq_true hn)]
            omega
          · rw [if_neg (by simpa using hn)]
            omega
        rw [Value.signed, habs]
      rw [values, show t.category = _ from congrArg Prod.fst h]
      show (do
        let m ← Decimal.readInt t.lexeme.toList
        let vs ← values (decide (n < 0)) ts
        pure ((Value.int m).signed (decide (n < 0)) :: vs)) = _
      rw [hread]
      show (do
        let vs ← values (decide (n < 0)) ts
        pure ((Value.int n.natAbs).signed (decide (n < 0)) :: vs)) = _
      rw [hsign]
      rfl
  | text s unquoted =>
      rw [values, show t.category = _ from congrArg Prod.fst h]
      show (do
        let vs ← values false ts
        pure (Value.text t.lexeme :: vs)) = _
      rw [show t.lexeme = _ from congrArg Prod.snd h]
      rfl

/-- Reading starts without a sign. -/
theorem values_constant {c : Constant} {ts us : List Token} (h : ts.map Token.face = c.faces) :
    values false (ts ++ us) = (values c.isNegative us).map (c.value :: ·) := by
  by_cases hn : c.isNegative = true
  · rw [faces, if_pos hn] at h
    obtain ⟨t, _, rfl, ht, hrest⟩ := List.map_eq_cons_iff.mp h
    obtain ⟨u, _, rfl, hu, hnil⟩ := List.map_eq_cons_iff.mp hrest
    rw [List.map_eq_nil_iff] at hnil
    subst hnil
    have hsize := values_size hu us
    rw [hn] at hsize ⊢
    exact (values_minus ht _ _).trans hsize
  · rw [faces, if_neg hn] at h
    obtain ⟨t, _, rfl, ht, hnil⟩ := List.map_eq_cons_iff.mp h
    rw [List.map_eq_nil_iff] at hnil
    subst hnil
    have hsize := values_size ht us
    rw [Bool.not_eq_true] at hn
    rwa [hn] at hsize ⊢

/-- Between constants a comma takes the sign back. -/
theorem values_listed {cs : List Constant} {ts : List Token}
    (h : ts.map Token.face = listFaces cs) : values false ts = .ok (cs.map value) := by
  fun_induction listFaces cs generalizing ts with
  | case1 =>
      rw [List.map_eq_nil_iff] at h
      subst h
      rfl
  | case2 c =>
      have hc := @values_constant c ts [] h
      rwa [List.append_nil] at hc
  | case3 c cs _ ih =>
      obtain ⟨us, vs, rfl, hus, hvs⟩ := List.map_eq_append_iff.mp h
      obtain ⟨t, ws, rfl, ht, hws⟩ := List.map_eq_cons_iff.mp hvs
      rw [values_constant hus, values_comma ht, ih hws]
      rfl

/-- White space after the keyword is white space before the first constant. Without a constant it is
a token of its own, which holds no value. -/
theorem Listed.after_keyword {cs : List Constant} {s : List Char} (h : Listed cs s) :
    ∃ fs, Lexemes (' ' :: s) fs ∧
      ∀ ts : List Token, ts.map Token.face = fs → values false ts = .ok (cs.map value) := by
  have hgap {gap : List Char} (blank : AllOf isBlank gap) : AllOf isBlank (' ' :: gap) :=
    List.forall_mem_cons.mpr ⟨rfl, blank⟩
  cases h with
  | nil =>
      refine ⟨[(none, "")], .blank (List.cons_ne_nil _ _) rfl, fun ts hts => ?_⟩
      obtain ⟨t, _, rfl, ht, hnil⟩ := List.map_eq_cons_iff.mp hts
      rw [List.map_eq_nil_iff] at hnil
      subst hnil
      rw [values, show t.category = _ from congrArg Prod.fst ht]
      rfl
  | last c blank =>
      exact ⟨_, (Listed.last c (hgap blank)).lexemes, fun ts hts => values_listed hts⟩
  | more c blank blank' tail =>
      exact ⟨_, (Listed.more c (hgap blank) blank' tail).lexemes, fun ts hts => values_listed hts⟩

end Reading

end Constant

namespace DataStore

/-- The only line of a store is the one that is read. -/
theorem read_add_empty (line : String) (n : Int) (t : Token) (ts : List Token) {vs : List Value}
    (h : values false ts = .ok vs) :
    read line (empty.add n (t :: ts)) = .ok vs { empty.add n (t :: ts) with pointer := n } := by
  have hline : (empty.add n (t :: ts)).nextLine line = .ok n := rfl
  have hget : ((empty.add n (t :: ts)).tokens? n).getD [] = t :: ts := by
    simp [tokens?, add]
  rw [read, hline]
  dsimp only
  rw [hget, List.tail_cons, h]

/-- Constants written in a DATA line are what is read from it, in their order and of their kinds. -/
theorem read_written {cs : List Constant} {s : List Char} (h : Constant.Listed cs s) (n : Int)
    (line : String) :
    ∃ tokens, tokenize ("DATA " ++ String.ofList s) = .ok tokens ∧
      read line (empty.add n tokens) =
        .ok (cs.map Constant.value) { empty.add n tokens with pointer := n } := by
  have htext : ("DATA " ++ String.ofList s).toList = 'D' :: (['A', 'T', 'A'] ++ ' ' :: s) := by
    simp
  obtain ⟨fs, hfs, hvalues⟩ := h.after_keyword
  have hword : Lexemes ("DATA " ++ String.ofList s).toList
      ((some (.keyword .DATA), "DATA") :: fs) := by
    rw [htext]
    exact .token rfl (.word (by decide +kernel) (by decide +kernel) (List.all_eq_true.mp rfl)
      (by rintro _ ⟨⟩; decide +kernel) (by decide)) hfs
  obtain ⟨tokens, htokens, hfaces⟩ := hword.scanAll_eq 0
  obtain ⟨t, ts, rfl, -, hts⟩ := List.map_eq_cons_iff.mp hfaces
  exact ⟨t :: ts, htokens, read_add_empty line n t ts (hvalues ts hts)⟩

/-- A negative number, a text with commas and signs in it, a number and an empty text. -/
theorem read_written_mixed :
    let cs : List Constant := [.int (-12) (by decide),
      .text ['A', ',', ' ', '-', '1', ':'] (List.all_eq_true.mp rfl), .int 7 (by decide),
      .text [] (List.all_eq_true.mp rfl)]
    let s := "-12 ,\"A, -1:\",7\t,  \"\"".toList
    Constant.Listed cs s ∧
      ∃ tokens, tokenize ("DATA " ++ String.ofList s) = .ok tokens ∧
        read "100" (empty.add 10 tokens) =
          .ok [.int (-12), .text "A, -1:", .int 7, .text ""]
            { empty.add 10 tokens with pointer := 10 } := by
  intro cs s
  have hnone : AllOf isBlank [] := List.all_eq_true.mp rfl
  have hspace : AllOf isBlank [' '] := List.all_eq_true.mp rfl
  have htab : AllOf isBlank ['\t'] := List.all_eq_true.mp rfl
  have hspaces : AllOf isBlank [' ', ' '] := List.all_eq_true.mp rfl
  have h : Constant.Listed cs s := by
    have hs : s = [] ++ ((Decimal.intText (-12)).toList ++ ([' '] ++ ',' :: ([] ++
      (['"', 'A', ',', ' ', '-', '1', ':', '"'] ++ ([] ++ ',' :: ([] ++
        ((Decimal.intText 7).toList ++ (['\t'] ++ ',' :: ([' ', ' '] ++ ['"', '"']))))))))) := by
      decide
    rw [hs]
    exact .more _ hnone hspace (.more _ hnone hnone (.more _ hnone htab (.last _ hspaces)))
  exact ⟨h, read_written h 10 "100"⟩

end DataStore

end LineBasic

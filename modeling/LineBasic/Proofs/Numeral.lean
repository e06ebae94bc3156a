import LineBasic.Decimal.Reading
import LineBasic.Decimal.Written

namespace LineBasic

namespace Text

theorem toNat_of_decimalValue? {c : Char} {d : Nat} (h : decimalValue? c = some d)
    (hc : c.toNat < 128) : d < 10 ∧ c.toNat = 48 + d := by
  unfold decimalValue? at h
  rw [if_pos hc] at h
  split at h
  · rename_i hr
    cases h
    have h0 : 48 ≤ c.toNat := by simpa [Char.le_def, UInt32.le_iff_toNat_le] using hr.1
    have h9 : c.toNat ≤ 57 := by simpa [Char.le_def, UInt32.le_iff_toNat_le] using hr.2
    omega
  · cases h

theorem decimalValue?_of_foreign {c : Char} {d : Nat} (h : decimalValue? c = some d)
    (hc : ¬ c.toNat < 128) :
    d < 10 ∧ ∃ z ∈ decimalZeros, z ≤ c.toNat ∧ c.toNat < z + 10 := by
  unfold decimalValue? at h
  rw [if_neg hc] at h
  obtain ⟨z, hz, rfl⟩ := Option.map_eq_some_iff.mp h
  have hin := List.find?_some hz
  simp only [Bool.and_eq_true, decide_eq_true_eq] at hin
  exact ⟨by omega, z, List.mem_of_find?_eq_some hz, hin⟩

theorem blanks_apart_digits : ∀ z ∈ decimalZeros, ∀ r ∈ blanks, z + 10 ≤ r.1 ∨ r.2 < z := by
  decide

theorem isBlank_of_foreign_digit {c : Char} {d : Nat} (h : decimalValue? c = some d)
    (hc : ¬ c.toNat < 128) : isBlank c = false := by
  obtain ⟨-, z, hz, hin⟩ := decimalValue?_of_foreign h hc
  rw [isBlank, Ranges.has, List.any_eq_false]
  intro r hr
  have := blanks_apart_digits z hz r hr
  simp only [Bool.and_eq_true, decide_eq_true_eq]
  omega

end Text

namespace Decimal

open Text

def digitsValue (s : List Char) : Nat := s.foldl (fun n c => 10 * n + (decimalValue? c).getD 0) 0

theorem toNat_plainChar {c : Char} {d : Nat} (h : decimalValue? c = some d) :
    d < 10 ∧ (plainChar c).toNat = 48 + d := by
  unfold plainChar
  by_cases hc : c.toNat < 128
  · obtain ⟨hd, ht⟩ := toNat_of_decimalValue? h hc
    rw [if_pos (by omega)]
    exact ⟨hd, ht⟩
  · have hd := (decimalValue?_of_foreign h hc).1
    rw [if_neg (by omega), isBlank_of_foreign_digit h hc, h]
    refine ⟨hd, ?_⟩
    show (Char.ofNat (48 + d)).toNat = 48 + d
    rw [Char.ofNat, dif_pos (Or.inl (by omega))]
    rfl

theorem isPlainDigit_iff {c : Char} : isPlainDigit c = true ↔ 48 ≤ c.toNat ∧ c.toNat ≤ 57 := by
  simp [isPlainDigit, Char.le_def, UInt32.le_iff_toNat_le]

theorem isSpace_of_digit {c : Char} (h : isPlainDigit c = true) : isSpace c = false := by
  rw [isPlainDigit_iff] at h
  have hb : c ≠ ' ' := by rintro rfl; exact absurd h (by decide)
  simp [isSpace, hb]
  omega

theorem natOfDigits_map_plainChar {s : List Char} (h : ∀ c ∈ s, (decimalValue? c).isSome) :
    natOfDigits (s.map plainChar) = digitsValue s := by
  have hgo : ∀ n, (s.map plainChar).foldl (fun n c => 10 * n + (c.toNat - 48)) n =
      s.foldl (fun n c => 10 * n + (decimalValue? c).getD 0) n := by
    induction s with
    | nil => intro n; rfl
    | cons c s ih =>
        intro n
        obtain ⟨d, hd⟩ := Option.isSome_iff_exists.mp (h c (List.mem_cons_self))
        rw [List.map_cons, List.foldl_cons, List.foldl_cons, (toNat_plainChar hd).2, hd,
          Nat.add_sub_cancel_left]
        exact ih (fun c hc => h c (List.mem_cons_of_mem _ hc)) _
  exact hgo 0

theorem ne_underscore_of_digit {c : Char} (h : isPlainDigit c = true) : c ≠ '_' := by
  rintro rfl
  exact absurd h (by decide)

theorem underscoresFit_digits {s : List Char} (h : ∀ c ∈ s, isPlainDigit c = true) :
    underscoresFit s = true := by
  fun_induction underscoresFit s with
  | case1 => rfl
  | case2 s => exact absurd rfl (ne_underscore_of_digit (h '_' (by simp)))
  | case3 c d s _ _ => exact absurd rfl (ne_underscore_of_digit (h '_' (by simp)))
  | case4 c => exact absurd rfl (ne_underscore_of_digit (h '_' (by simp)))
  | case5 c s _ _ _ ih => exact ih fun b hb => h b (List.mem_cons_of_mem _ hb)

theorem takeSign_digits {s : List Char} (h : ∀ c ∈ s, isPlainDigit c = true) :
    takeSign s = (false, s) := by
  unfold takeSign
  split
  · exact absurd (h '-' (by simp)) (by decide)
  · exact absurd (h '+' (by simp)) (by decide)
  · rfl

theorem dropWhile_space_digits {s : List Char} (h : ∀ c ∈ s, isPlainDigit c = true) :
    s.dropWhile isSpace = s := by
  cases s with
  | nil => rfl
  | cons c s => rw [List.dropWhile_cons_of_neg]; simp [isSpace_of_digit (h c (by simp))]

/-- Digits are read as the number they denote, unless there are too many of them. -/
theorem readInt_digits {s : List Char} (hs : s ≠ []) (h : ∀ c ∈ s, (decimalValue? c).isSome) :
    readInt s = if digitLimit < s.length then .error (.digitsFromText s.length)
      else .ok (digitsValue s) := by
  have hd : ∀ c ∈ s.map plainChar, isPlainDigit c = true := by
    intro c hc
    obtain ⟨b, hb, rfl⟩ := List.mem_map.mp hc
    obtain ⟨d, hd⟩ := Option.isSome_iff_exists.mp (h b hb)
    rw [isPlainDigit_iff, (toNat_plainChar hd).2]
    have := (toNat_plainChar hd).1
    omega
  have hrun : (s.map plainChar).takeWhile (fun c => isPlainDigit c || c == '_') =
      s.map plainChar := by
    have hall := @List.takeWhile_append_of_pos Char (fun c => isPlainDigit c || c == '_')
      (s.map plainChar) [] (fun c hc => by rw [hd c hc, Bool.true_or])
    rwa [List.append_nil, List.takeWhile_nil, List.append_nil] at hall
  have hdrop : dropUnderscores (s.map plainChar) = s.map plainChar := by
    rw [dropUnderscores, List.filter_eq_self]
    intro c hc
    simpa using ne_underscore_of_digit (hd c hc)
  have hne : ¬ (s.map plainChar = [] ∨ (!underscoresFit (s.map plainChar)) = true) := by
    simp [hs, underscoresFit_digits hd]
  rw [readInt, dropWhile_space_digits hd, takeSign_digits hd]
  simp only [hrun, hdrop]
  rw [if_neg hne, List.length_map]
  split
  · rfl
  · rw [← List.length_map (f := plainChar), List.drop_length, natOfDigits_map_plainChar h]
    rfl

theorem readInt_long {n : Nat} (h : digitLimit < n) :
    readInt (List.replicate n '1') = .error (.digitsFromText n) := by
  rw [readInt_digits, List.length_replicate, if_pos h]
  · rw [Ne, List.replicate_eq_nil_iff]
    omega
  · intro c hc
    rw [List.eq_of_mem_replicate hc]
    rfl

/-- Digits come from the front, so the bound is for any number that they are appended to. -/
theorem foldl_digits_lt {s : List Char} {v : Char → Nat} (h : ∀ c ∈ s, v c < 10) (n : Nat) :
    s.foldl (fun n c => 10 * n + v c) n < (n + 1) * Nat.pow 10 s.length := by
  induction s generalizing n with
  | nil => exact Nat.lt_of_lt_of_eq (Nat.lt_succ_self n) (Nat.mul_one _).symm
  | cons c s ih =>
      have hc := h c List.mem_cons_self
      calc _ < (10 * n + v c + 1) * Nat.pow 10 s.length :=
            ih (fun d hd => h d (List.mem_cons_of_mem _ hd)) _
        _ ≤ (10 * (n + 1)) * Nat.pow 10 s.length := Nat.mul_le_mul_right _ (by omega)
        _ = (n + 1) * Nat.pow 10 (s.length + 1) := by
            rw [Nat.mul_comm 10, Nat.mul_assoc, Nat.mul_comm 10]
            rfl

theorem length_toDigits_digitsValue {s : List Char} (hs : s ≠ [])
    (h : ∀ c ∈ s, (decimalValue? c).isSome) :
    (Nat.toDigits 10 (digitsValue s)).length ≤ s.length := by
  have hten : ∀ c ∈ s, (decimalValue? c).getD 0 < 10 := by
    intro c hc
    obtain ⟨d, hd⟩ := Option.isSome_iff_exists.mp (h c hc)
    rw [hd]
    exact (toNat_plainChar hd).1
  have hlt := foldl_digits_lt hten 0
  rw [Nat.zero_add, Nat.one_mul] at hlt
  exact (Nat.length_toDigits_le_iff (by decide) (List.length_pos_iff.mpr hs)).mpr hlt

section Written

theorem toNat_of_mem_toDigits {n : Nat} {c : Char} (h : c ∈ Nat.toDigits 10 n) :
    48 ≤ c.toNat ∧ c.toNat ≤ 57 := by
  have hd := Nat.isDigit_of_mem_toDigits (by decide) (by decide) h
  simpa [Char.isDigit, UInt32.le_iff_toNat_le] using hd

theorem decimalValue?_of_mem_toDigits {n : Nat} {c : Char} (h : c ∈ Nat.toDigits 10 n) :
    decimalValue? c = some (c.toNat - 48) ∧ plainChar c = c := by
  obtain ⟨h0, h9⟩ := toNat_of_mem_toDigits h
  have hr : '0' ≤ c ∧ c ≤ '9' := by
    simpa [Char.le_def, UInt32.le_iff_toNat_le] using And.intro h0 h9
  constructor
  · rw [decimalValue?, if_pos (by omega), if_pos hr]
  · rw [plainChar, if_pos (by omega)]

theorem digitsValue_toDigits (n : Nat) : digitsValue (Nat.toDigits 10 n) = n := by
  have hplain : (Nat.toDigits 10 n).map plainChar = Nat.toDigits 10 n := by
    conv => rhs; rw [← List.map_id (Nat.toDigits 10 n)]
    exact List.map_congr_left fun c hc => (decimalValue?_of_mem_toDigits hc).2
  rw [← natOfDigits_map_plainChar fun c hc => by rw [(decimalValue?_of_mem_toDigits hc).1]; rfl,
    hplain]
  exact Nat.ofDigitChars_ten_toDigits

end Written

end Decimal

structure Numeral where
  digits : List Char
  digits_ne : digits ≠ []
  decimal : ∀ c ∈ digits, (Text.decimalValue? c).isSome
  length_le : digits.length ≤ Decimal.digitLimit

namespace Numeral

def lexeme (n : Numeral) : String := String.ofList n.digits

def value (n : Numeral) : Nat := Decimal.digitsValue n.digits

theorem readInt_lexeme (n : Numeral) : Decimal.readInt n.lexeme.toList = .ok (n.value : Int) := by
  rw [lexeme, String.toList_ofList, Decimal.readInt_digits n.digits_ne n.decimal,
    if_neg (Nat.not_lt.mpr n.length_le)]
  rfl

def ofNat (n : Nat) (h : (Nat.toDigits 10 n).length ≤ Decimal.digitLimit) : Numeral where
  digits := Nat.toDigits 10 n
  digits_ne := Nat.toDigits_ne_nil
  decimal c hc := by rw [(Decimal.decimalValue?_of_mem_toDigits hc).1]; rfl
  length_le := h

theorem readInt_intText {n : Nat} (h : (Nat.toDigits 10 n).length ≤ Decimal.digitLimit) :
    Decimal.readInt (Decimal.intText n).toList = .ok (n : Int) := by
  have hr := (ofNat n h).readInt_lexeme
  rw [value, ofNat, Decimal.digitsValue_toDigits] at hr
  exact hr

end Numeral

end LineBasic

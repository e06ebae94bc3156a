import LineBasic.Text.Utf8
import LineBasic.Token.Lexer

namespace LineBasic.Text

open Token (isNameChar)

def Plain (c : Char) : Prop := c.toNat < 128 ∧ c ≠ '\r' ∧ c ≠ '\n'

instance (c : Char) : Decidable (Plain c) := inferInstanceAs (Decidable (_ ∧ _ ∧ _))

/-- What holds of the first 128 characters holds of all ASCII characters. -/
theorem forall_ascii {P : Char → Prop} (h : ∀ n < 128, P (Char.ofNat n)) {c : Char}
    (hc : c.toNat < 128) : P c := by
  have := h c.toNat hc
  rwa [Char.ofNat_toNat] at this

theorem ascii_of_all {s : List Char} (h : (s.all fun c => c.toNat < 128) = true) :
    ∀ c ∈ s, c.toNat < 128 :=
  fun c hc => of_decide_eq_true (List.all_eq_true.mp h c hc)

/-- What holds of each character in the table of white space holds of all white space. -/
theorem forall_blank {P : Char → Prop}
    (h : ∀ r ∈ blanks, ∀ n < r.2 + 1 - r.1, P (Char.ofNat (r.1 + n))) {c : Char}
    (hc : isBlank c = true) : P c := by
  obtain ⟨r, hr, hin⟩ := List.any_eq_true.mp hc
  simp only [Bool.and_eq_true, decide_eq_true_eq] at hin
  have hP := h r hr (c.toNat - r.1) (by omega)
  rwa [Nat.add_sub_cancel' hin.1, Char.ofNat_toNat] at hP

/-- What the classes have to do with each other and with capitals, checked for all characters at
once. -/
theorem ascii_classes : ∀ n < 128,
    (isNameChar (Char.ofNat n) = true → isBlank (Char.ofNat n) = false) ∧
    (isNameChar (Char.ofNat n) = true → isNameChar (Char.ofNat n).toUpper = true) ∧
    (isLetter (Char.ofNat n) = true → isLetter (Char.ofNat n).toUpper = true) ∧
    (Char.ofNat n).toUpper.toUpper = (Char.ofNat n).toUpper ∧
    (Char.ofNat n).toUpper.toNat < 128 ∧
    (isLetter (Char.ofNat n) = true → isDigit (Char.ofNat n) = false) ∧
    (isDigit (Char.ofNat n) = true → (decimalValue? (Char.ofNat n)).isSome = true) ∧
    (Plain (Char.ofNat n) → Plain (Char.ofNat n).toUpper) := by
  decide +kernel

section Classes

variable {c : Char}

theorem isBlank_of_isNameChar (hc : c.toNat < 128) : isNameChar c = true → isBlank c = false :=
  forall_ascii (P := fun c => isNameChar c = true → isBlank c = false)
    (fun n hn => (ascii_classes n hn).1) hc

theorem isNameChar_toUpper (hc : c.toNat < 128) :
    isNameChar c = true → isNameChar c.toUpper = true :=
  forall_ascii (P := fun c => isNameChar c = true → isNameChar c.toUpper = true)
    (fun n hn => (ascii_classes n hn).2.1) hc

theorem isLetter_toUpper (hc : c.toNat < 128) : isLetter c = true → isLetter c.toUpper = true :=
  forall_ascii (P := fun c => isLetter c = true → isLetter c.toUpper = true)
    (fun n hn => (ascii_classes n hn).2.2.1) hc

theorem toUpper_toUpper (hc : c.toNat < 128) : c.toUpper.toUpper = c.toUpper :=
  forall_ascii (P := fun c => c.toUpper.toUpper = c.toUpper)
    (fun n hn => (ascii_classes n hn).2.2.2.1) hc

theorem toNat_toUpper_lt (hc : c.toNat < 128) : c.toUpper.toNat < 128 :=
  forall_ascii (P := fun c => c.toUpper.toNat < 128)
    (fun n hn => (ascii_classes n hn).2.2.2.2.1) hc

theorem isDigit_of_isLetter (hc : c.toNat < 128) : isLetter c = true → isDigit c = false :=
  forall_ascii (P := fun c => isLetter c = true → isDigit c = false)
    (fun n hn => (ascii_classes n hn).2.2.2.2.2.1) hc

theorem isNameChar_of_isLetter (h : isLetter c = true) : isNameChar c = true := by
  simp [isNameChar, h]

theorem isNameChar_of_isDigit (h : isDigit c = true) : isNameChar c = true := by
  simp [isNameChar, h]

theorem isSome_decimalValue? (hc : c.toNat < 128) :
    isDigit c = true → (decimalValue? c).isSome = true :=
  forall_ascii (P := fun c => isDigit c = true → (decimalValue? c).isSome = true)
    (fun n hn => (ascii_classes n hn).2.2.2.2.2.2.1) hc

theorem isNameChar_of_isBlank (h : isBlank c = true) : isNameChar c = false :=
  forall_blank (P := fun c => isNameChar c = false) (by decide +kernel) h

theorem isDigit_of_isBlank (h : isBlank c = true) : isDigit c = false := by
  have hname := isNameChar_of_isBlank h
  simp only [isNameChar, Bool.or_eq_false_iff] at hname
  exact hname.1.1.2

theorem ne_quote_of_isNameChar (h : isNameChar c = true) : c ≠ '"' := by
  rintro rfl
  exact absurd h (by decide +kernel)

theorem plain_toUpper (h : Plain c) : Plain c.toUpper :=
  forall_ascii (P := fun c => Plain c → Plain c.toUpper)
    (fun n hn => (ascii_classes n hn).2.2.2.2.2.2.2) h.1 h

end Classes

theorem upper_eq_map {s : List Char} (h : ∀ c ∈ s, c.toNat < 128) :
    upper s = s.map Char.toUpper := by
  induction s with
  | nil => rfl
  | cons c s ih =>
      have hc := h c List.mem_cons_self
      rw [upper, List.flatMap_cons, upperChar, if_pos hc]
      exact congrArg (c.toUpper :: ·) (ih fun d hd => h d (List.mem_cons_of_mem _ hd))

theorem upper_upper {s : List Char} (h : ∀ c ∈ s, c.toNat < 128) : upper (upper s) = upper s := by
  have hu : ∀ c ∈ s.map Char.toUpper, c.toNat < 128 := by
    intro c hc
    obtain ⟨d, hd, rfl⟩ := List.mem_map.mp hc
    exact toNat_toUpper_lt (h d hd)
  rw [upper_eq_map h, upper_eq_map hu, List.map_map]
  exact List.map_congr_left fun c hc => toUpper_toUpper (h c hc)

section Bytes

def byte (c : Char) : UInt8 := c.toNat.toUInt8

theorem toNat_byte {c : Char} (h : c.toNat < 128) : (byte c).toNat = c.toNat :=
  forall_ascii (P := fun c => (byte c).toNat = c.toNat) (by decide +kernel) h

theorem encode_eq_map {s : List Char} (h : ∀ c ∈ s, c.toNat < 128) : encode s = s.map byte := by
  induction s with
  | nil => rfl
  | cons c s ih =>
      have hc : String.utf8EncodeChar c = [byte c] :=
        forall_ascii (P := fun c => String.utf8EncodeChar c = [byte c]) (by decide +kernel)
          (h c List.mem_cons_self)
      rw [encode, List.flatMap_cons, hc]
      exact congrArg (byte c :: ·) (ih fun d hd => h d (List.mem_cons_of_mem _ hd))

theorem decodeFrom_bytes {s : List Char} (h : ∀ c ∈ s, c.toNat < 128) (last : Bool)
    (position : Nat) : decodeFrom last s.length position (s.map byte) = .ok (s, []) := by
  induction s generalizing position with
  | nil => rfl
  | cons c s ih =>
      have hc := h c List.mem_cons_self
      have hlead : lead? (byte c).toNat = some (0, 0, 0) := by
        rw [toNat_byte hc, lead?, if_pos hc]
      have hchar : assemble 0 (byte c) [] = c := by
        rw [assemble, List.foldl_nil, leadBits, toNat_byte hc, Char.ofNat_toNat]
      rw [List.length_cons, List.map_cons, decodeFrom, hlead]
      dsimp only
      rw [continuation, if_pos List.length_nil, List.drop_zero, hchar,
        ih fun d hd => h d (List.mem_cons_of_mem _ hd)]
      rfl

theorem decode_bytes {s : List Char} (h : ∀ c ∈ s, c.toNat < 128) (last : Bool) :
    decode last (s.map byte) = .ok (s, []) := by
  rw [decode, List.length_map, decodeFrom_bytes h]

end Bytes

end LineBasic.Text

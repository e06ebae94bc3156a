import LineBasic.Proofs.Calls
import LineBasic.Proofs.Lines
import LineBasic.Proofs.Local
import LineBasic.Token.Lexer

namespace LineBasic

namespace Text

variable (s : List Char) (i n : Nat)

theorem position_natCast (length : Nat) : position length (n : Int) = min n length := by
  rw [position, if_neg (by omega), Int.toNat_natCast]

theorem take_position : s.take (position s.length n) = s.take n := by
  rw [position_natCast, List.take_eq_take_iff, Nat.min_assoc, Nat.min_self]

theorem slice_zero : slice s 0 n = s.take n := by
  have hzero : position s.length 0 = 0 := position_natCast 0 s.length
  rw [slice, hzero, List.drop_zero, take_position]

/-- A start beyond the end is moved to the end, where nothing follows. -/
theorem slice_add : slice s i (i + n : Nat) = (s.drop i).take n := by
  rw [slice, take_position, position_natCast, List.take_drop]
  rcases Nat.le_total i s.length with h | h
  · rw [Nat.min_eq_left h]
  · rw [Nat.min_eq_right h, List.drop_eq_nil_of_le (List.length_take_le' _ _),
      List.drop_eq_nil_of_le (Nat.le_trans (List.length_take_le' _ _) h)]

theorem slice_length : slice s i s.length = s.drop i := by
  have hadd := slice_add s i s.length
  rw [slice, take_position, List.take_of_length_le (by omega)] at hadd
  rw [slice, take_position, List.take_length, hadd]
  exact List.take_of_length_le (by simp)

theorem slice_neg (h : 0 < n) : slice s (-n) s.length = s.drop (s.length - n) := by
  have hstart : position s.length (-n) = s.length - n := by
    rw [position, if_pos (by omega)]
    omega
  rw [slice, hstart, take_position, List.take_length]

end Text

namespace Function

open Value

variable (line s : String) (i n : Nat)

theorem leftPart_nat : leftPart line (text s) (int n) = .ok (ofChars (s.toList.take n)) := by
  rw [← Text.slice_zero]
  rfl

theorem rightPart_zero : rightPart line (text s) (int 0) = .ok (text s) := by
  have hall : Text.slice s.toList 0 s.length = s.toList := by
    have hzero := Text.slice_zero s.toList s.toList.length
    rwa [List.take_length, String.length_toList] at hzero
  show Except.ok (ofChars (Text.slice s.toList 0 s.length)) = _
  rw [hall, ofChars, String.ofList_toList]

theorem rightPart_pos (h : 0 < n) :
    rightPart line (text s) (int n) = .ok (ofChars (s.toList.drop (s.length - n))) := by
  have hslice := Text.slice_neg s.toList n h
  rw [String.length_toList] at hslice
  rw [← hslice]
  rfl

theorem middlePart_rest :
    middlePart line (text s) (int i) none = .ok (ofChars (s.toList.drop i)) := by
  have hslice := Text.slice_length s.toList i
  rw [String.length_toList] at hslice
  rw [← hslice]
  rfl

theorem middlePart_zero :
    middlePart line (text s) (int i) (some (int 0)) = .ok (ofChars (s.toList.drop i)) :=
  middlePart_rest line s i

theorem middlePart_pos (h : 0 < n) :
    middlePart line (text s) (int i) (some (int n)) = .ok (ofChars ((s.toList.drop i).take n)) := by
  have hholds : (some (int n)).filter Value.holds = some (int n) := by
    simp [Value.holds]
    omega
  rw [← Text.slice_add]
  unfold middlePart
  rw [hholds]
  rfl

end Function

namespace Face

variable (a b c : List Face)

def leftOf : List Face := call .LEFT "LEFT$" a [b]

def rightOf : List Face := call .RIGHT "RIGHT$" a [b]

def restOf : List Face := call .MID "MID$" a [b]

def middleOf : List Face := call .MID "MID$" a [b, c]

def lengthOf : List Face := call .LEN "LEN" a []

def plus : List Face := a ++ (some (.mark .plus), "+") :: b

def minus : List Face := a ++ (some (.mark .minus), "-") :: b

def one : List Face := [(some .integer, "1")]

end Face

namespace Eval

open Face Outcome

section Parts

variable {scope : Scope} {d : Nat} {a b c : List Face} {s : String} {i n : Nat}

theorem sub_one (h : 1 ≤ i) : Value.sub (.int i) (.int 1) = .ok (.int (i - 1 : Nat)) := by
  rw [Int.ofNat_sub h]
  rfl

theorem operand_one : Operand scope d one (.int 1) := (operand_integer rfl).mono (Nat.zero_le d)

theorem operand_lengthOf (ha : Expresses scope d a (.text s)) :
    Operand scope (d + 4) (lengthOf a) (.int s.length) :=
  operand_length ha rfl

theorem operand_leftOf (ha : Expresses scope d a (.text s)) (hb : Expresses scope d b (.int n)) :
    Operand scope (d + 4) (leftOf a b) (Function.ofChars (s.toList.take n)) :=
  operand_left ha hb (Function.leftPart_nat _ s n)

theorem operand_rightOf_zero (ha : Expresses scope d a (.text s))
    (hb : Expresses scope d b (.int 0)) : Operand scope (d + 4) (rightOf a b) (.text s) :=
  operand_right ha hb (Function.rightPart_zero _ s)

theorem operand_rightOf (ha : Expresses scope d a (.text s)) (hb : Expresses scope d b (.int n))
    (h : 0 < n) :
    Operand scope (d + 4) (rightOf a b) (Function.ofChars (s.toList.drop (s.length - n))) :=
  operand_right ha hb (Function.rightPart_pos _ s n h)

theorem operand_restOf (ha : Expresses scope d a (.text s)) (hb : Expresses scope d b (.int i))
    (h : 1 ≤ i) : Operand scope (d + 4) (restOf a b) (Function.ofChars (s.toList.drop (i - 1))) :=
  operand_rest ha hb (sub_one h) (Function.middlePart_rest _ s (i - 1))

theorem operand_middleOf_zero (ha : Expresses scope d a (.text s))
    (hb : Expresses scope d b (.int i)) (hc : Expresses scope d c (.int 0)) (h : 1 ≤ i) :
    Operand scope (d + 4) (middleOf a b c) (Function.ofChars (s.toList.drop (i - 1))) :=
  operand_middle ha hb hc (sub_one h) (Function.middlePart_zero scope.line s (i - 1))

theorem operand_middleOf (ha : Expresses scope d a (.text s)) (hb : Expresses scope d b (.int i))
    (hc : Expresses scope d c (.int n)) (h : 1 ≤ i) (hn : 0 < n) :
    Operand scope (d + 4) (middleOf a b c) (Function.ofChars ((s.toList.drop (i - 1)).take n)) :=
  operand_middle ha hb hc (sub_one h) (Function.middlePart_pos _ s (i - 1) n hn)

theorem expresses_plus {u v : String} (ha : Operand scope d a (.text u))
    (hb : Operand scope d b (.text v)) : Expresses scope d (plus a b) (.text (u ++ v)) :=
  ha.sum hb rfl rfl rfl

theorem ofList_take_drop (s : String) (n : Nat) :
    String.ofList (s.toList.take n) ++ String.ofList (s.toList.drop n) = s := by
  rw [← String.ofList_append, List.take_append_drop, String.ofList_toList]

end Parts

section Laws

variable {scope : Scope} {d : Nat} {text count place size : List Face} {s : String} {k p n : Nat}

theorem left_plus_rest (hs : Operand scope d text (.text s)) (hk : Operand scope d count (.int k)) :
    Expresses scope (d + 4) (plus (leftOf text count) (restOf text (plus count one)))
      (.text s) := by
  have hnext : Expresses scope d (plus count one) (.int (k + 1 : Nat)) :=
    hk.sum operand_one rfl rfl rfl
  have hsum := expresses_plus (operand_leftOf hs.expresses hk.expresses)
    (operand_restOf hs.expresses hnext (by omega))
  rwa [Nat.add_sub_cancel, ofList_take_drop] at hsum

/-- The count is itself computed by a call. -/
theorem left_before (hs : Operand scope d text (.text s)) (hk : Operand scope d count (.int k))
    (hle : k ≤ s.length) : Operand scope (d + 8) (leftOf text (minus (lengthOf text) count))
      (Function.ofChars (s.toList.take (s.length - k))) := by
  have hbefore : Expresses scope (d + 4) (minus (lengthOf text) count)
      (.int (s.length - k : Nat)) := by
    refine (operand_lengthOf hs.expresses).sum (hk.mono (Nat.le_add_right d 4)) rfl rfl ?_
    rw [Int.ofNat_sub hle]
    rfl
  exact operand_leftOf (hs.expresses.mono (Nat.le_add_right d 4)) hbefore

/-- The last characters, unless none are asked for, go with the others. -/
theorem left_plus_right (hs : Operand scope d text (.text s)) (hk : Operand scope d count (.int k))
    (hle : k ≤ s.length) (hpos : 0 < k) :
    Expresses scope (d + 8) (plus (leftOf text (minus (lengthOf text) count)) (rightOf text count))
        (.text s) ∧
      Expresses scope (d + 8) (lengthOf (rightOf text count)) (.int k) := by
  have hright := operand_rightOf hs.expresses hk.expresses hpos
  constructor
  · have hsum := expresses_plus (left_before hs hk hle) (hright.mono (by omega))
    rwa [ofList_take_drop] at hsum
  · have hlength := operand_lengthOf hright.expresses
    rw [String.length_ofList, List.length_drop, String.length_toList, Nat.sub_sub_self hle]
      at hlength
    exact hlength.expresses

theorem left_plus_right_iff (hs : Operand scope d text (.text s))
    (hk : Operand scope d count (.int k)) (hle : k ≤ s.length) :
    Expresses scope (d + 8) (plus (leftOf text (minus (lengthOf text) count)) (rightOf text count))
        (.text s) ∧
      Expresses scope (d + 8) (lengthOf (rightOf text count)) (.int k) ↔ k ≠ 0 ∨ s = "" := by
  constructor
  · rintro ⟨-, hlength⟩
    by_cases hk0 : k = 0
    · subst hk0
      have hall := operand_rightOf_zero hs.expresses hk.expresses
      have hzero := (operand_lengthOf hall.expresses).expresses.unique hlength
      rw [Value.int.injEq, Int.natCast_inj, String.length_eq_zero_iff] at hzero
      exact .inr hzero
    · exact .inl hk0
  · intro h
    by_cases hk0 : k = 0
    · subst hk0
      obtain rfl : s = "" := h.resolve_left (fun hne => hne rfl)
      have hall := operand_rightOf_zero hs.expresses hk.expresses
      exact ⟨expresses_plus (left_before hs hk hle) (hall.mono (by omega)),
        (operand_lengthOf hall.expresses).expresses⟩
    · exact left_plus_right hs hk hle (Nat.pos_of_ne_zero hk0)

theorem middle_iff_left_rest (hs : Operand scope d text (.text s))
    (hp : Operand scope d place (.int p)) (hn : Operand scope d size (.int n)) (hpos : 1 ≤ p) :
    (∃ v, Expresses scope (d + 4) (middleOf text place size) v ∧
      Expresses scope (d + 8) (leftOf (restOf text place) size) v) ↔ n ≠ 0 ∨ s.length < p := by
  have hrest := operand_restOf hs.expresses hp.expresses hpos
  have hleft := operand_leftOf hrest.expresses (hn.expresses.mono (Nat.le_add_right d 4))
  rw [String.toList_ofList] at hleft
  by_cases hn0 : n = 0
  · subst hn0
    have hmiddle := operand_middleOf_zero hs.expresses hp.expresses hn.expresses hpos
    have hdrop : s.toList.drop (p - 1) = [] ↔ s.length < p := by
      rw [List.drop_eq_nil_iff, String.length_toList]
      omega
    constructor
    · rintro ⟨v, hv, hv'⟩
      have hsame := (hmiddle.expresses.unique hv).trans (hv'.unique hleft.expresses)
      rw [List.take_zero, Function.ofChars, Function.ofChars, Value.text.injEq, String.ofList_inj,
        hdrop] at hsame
      exact .inr hsame
    · intro h
      have hnil := hdrop.mpr (h.resolve_left fun hne => hne rfl)
      rw [hnil] at hmiddle hleft
      exact ⟨_, hmiddle.expresses, hleft.expresses⟩
  · have hmiddle := operand_middleOf hs.expresses hp.expresses hn.expresses hpos
      (Nat.pos_of_ne_zero hn0)
    exact ⟨fun _ => .inl hn0, fun _ => ⟨_, hmiddle.expresses, hleft.expresses⟩⟩

/-- More characters than there are. -/
theorem left_right_beyond (hs : Operand scope d text (.text s)) (hn : Operand scope d size (.int n))
    (h : s.length < n) :
    Expresses scope (d + 4) (leftOf text size) (.text s) ∧
      Expresses scope (d + 4) (rightOf text size) (.text s) := by
  have hleft := operand_leftOf hs.expresses hn.expresses
  rw [List.take_of_length_le (by rw [String.length_toList]; omega), Function.ofChars,
    String.ofList_toList] at hleft
  have hright := operand_rightOf hs.expresses hn.expresses (by omega)
  rw [Nat.sub_eq_zero_of_le (by omega), List.drop_zero, Function.ofChars, String.ofList_toList]
    at hright
  exact ⟨hleft.expresses, hright.expresses⟩

end Laws

/-- How the parts of a text go together. The text, the counts and the place may be given by any
operands, for which `d` calls fit in each other; a function takes four more. Two laws fail, and only
where no characters are asked for: `RIGHT$` then gives all of the text and `MID$` all the rest of
it. -/
theorem substring_laws {scope : Scope} {d : Nat} {text count place size : List Face} {s : String}
    {k p n : Nat} (hs : Operand scope d text (.text s)) (hk : Operand scope d count (.int k))
    (hp : Operand scope d place (.int p)) (hn : Operand scope d size (.int n))
    (hle : k ≤ s.length) (hpos : 1 ≤ p) :
    Expresses scope (d + 4) (plus (leftOf text count) (restOf text (plus count one))) (.text s) ∧
      (Expresses scope (d + 8)
          (plus (leftOf text (minus (lengthOf text) count)) (rightOf text count)) (.text s) ∧
        Expresses scope (d + 8) (lengthOf (rightOf text count)) (.int k) ↔ k ≠ 0 ∨ s = "") ∧
      (k = 0 → Expresses scope (d + 4) (rightOf text count) (.text s)) ∧
      ((∃ v, Expresses scope (d + 4) (middleOf text place size) v ∧
        Expresses scope (d + 8) (leftOf (restOf text place) size) v) ↔ n ≠ 0 ∨ s.length < p) ∧
      (n = 0 → ∃ v, Expresses scope (d + 4) (middleOf text place size) v ∧
        Expresses scope (d + 4) (restOf text place) v) ∧
      (s.length < n → Expresses scope (d + 4) (leftOf text size) (.text s) ∧
        Expresses scope (d + 4) (rightOf text size) (.text s)) := by
  refine ⟨left_plus_rest hs hk, left_plus_right_iff hs hk hle, ?_,
    middle_iff_left_rest hs hp hn hpos, ?_, left_right_beyond hs hn⟩
  · rintro rfl
    exact (operand_rightOf_zero hs.expresses hk.expresses).expresses
  · rintro rfl
    exact ⟨_, (operand_middleOf_zero hs.expresses hp.expresses hn.expresses hpos).expresses,
      (operand_restOf hs.expresses hp.expresses hpos).expresses⟩

/-- A text with a quote in it, which only a variable can give. -/
theorem substring_laws_quote :
    let scope : Scope := ⟨[("A$", .scalar (.text "AB\"C"))], "10"⟩
    let text : List Face := [(some .name, "A$")]
    let two : List Face := [(some .integer, "2")]
    let nine : List Face := [(some .integer, "9")]
    Expresses scope 4 (plus (leftOf text two) (restOf text (plus two one))) (.text "AB\"C") ∧
      Expresses scope 8 (plus (leftOf text (minus (lengthOf text) two)) (rightOf text two))
        (.text "AB\"C") ∧
      (∃ v, Expresses scope 4 (middleOf text two nine) v ∧
        Expresses scope 8 (leftOf (restOf text two) nine) v) ∧
      Expresses scope 4 (rightOf text nine) (.text "AB\"C") := by
  intro scope text two nine
  have htext : Operand scope 0 text (.text "AB\"C") :=
    @operand_variable scope (.text "AB\"C") "A$" rfl
  have htwo : Operand scope 0 two (.int 2) := operand_integer rfl
  have hnine : Operand scope 0 nine (.int 9) := operand_integer rfl
  obtain ⟨hleft, hright, -, hmiddle, -, hbeyond⟩ := @substring_laws scope 0 text two two nine
    "AB\"C" 2 2 9 htext htwo htwo hnine (by decide) (by decide)
  exact ⟨hleft, (hright.mpr (.inl (by decide))).1, hmiddle.mpr (.inl (by decide)),
    (hbeyond (by decide)).2⟩

/-- No characters from the right are all of them, and none from the middle are all the rest. -/
theorem none_asked_for :
    let shown (line : String) : String :=
      (state (Machine.runLine "10" (tokensOf line) .blank)).terminal.output
    shown "PRINT \"[\"; RIGHT$(\"ABC\", 0); \"]\"" = "[ABC]\n" ∧
      shown "PRINT \"[\"; MID$(\"ABC\", 2, 0); \"]\"" = "[BC]\n" := by
  decide +kernel

end Eval

end LineBasic

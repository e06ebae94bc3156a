import LineBasic.Proofs.Lines
import LineBasic.Proofs.Substring

namespace LineBasic

def IsFirst (P : Nat → Prop) : Option Nat → Prop
  | none => ∀ q, ¬ P q
  | some n => P n ∧ ∀ q < n, ¬ P q

theorem IsFirst.congr {P Q : Nat → Prop} {o : Option Nat} (h : IsFirst P o)
    (hPQ : ∀ q, P q ↔ Q q) : IsFirst Q o := by
  rwa [← show P = Q from funext fun q => propext (hPQ q)]

/-- Counted from one. -/
theorem IsFirst.succ {P Q : Nat → Prop} {o : Option Nat} (h : IsFirst P o) (hzero : ¬ Q 0)
    (hPQ : ∀ q, P q ↔ Q (q + 1)) : IsFirst Q (o.map (· + 1)) := by
  cases o with
  | none =>
      intro q hq
      cases q with
      | zero => exact hzero hq
      | succ q => exact h q ((hPQ q).mpr hq)
  | some n =>
      refine ⟨(hPQ n).mp h.1, fun q hlt hq => ?_⟩
      cases q with
      | zero => exact hzero hq
      | succ q => exact h.2 q (Nat.lt_of_succ_lt_succ hlt) ((hPQ q).mpr hq)

namespace Text

/-- The text searched starts at `i`. -/
theorem isFirst_indexFrom? (t s : List Char) (i : Nat) :
    IsFirst (fun k => i ≤ k ∧ t <+: s.drop (k - i)) (indexFrom? t i s) := by
  induction s generalizing i with
  | nil =>
      rw [indexFrom?]
      split
      · rename_i ht
        rw [List.isEmpty_iff] at ht
        rw [ht]
        exact ⟨⟨Nat.le_refl i, List.nil_prefix⟩, fun q hlt hq => absurd hq.1 (by omega)⟩
      · rename_i ht
        rintro q ⟨-, hq⟩
        rw [List.drop_nil, List.prefix_nil] at hq
        exact ht (List.isEmpty_iff.mpr hq)
  | cons c s ih =>
      rw [indexFrom?]
      split
      · rename_i ht
        rw [List.isPrefixOf_iff_prefix] at ht
        exact ⟨⟨Nat.le_refl i, by rwa [Nat.sub_self]⟩, fun q hlt hq => absurd hq.1 (by omega)⟩
      · rename_i ht
        rw [List.isPrefixOf_iff_prefix] at ht
        refine (ih (i + 1)).congr fun q => ?_
        by_cases hq : q ≤ i
        · constructor
          · rintro ⟨hlt, -⟩
            omega
          · rintro ⟨hle, hat⟩
            rw [Nat.sub_eq_zero_of_le hq] at hat
            exact absurd hat ht
        · obtain ⟨n, rfl⟩ : ∃ n, q = i + 1 + n := ⟨q - (i + 1), by omega⟩
          rw [Nat.add_sub_cancel_left, show i + 1 + n - i = n + 1 by omega, List.drop_succ_cons]
          exact and_congr_left fun _ => by omega

/-- What stands before the end of a part of a text. -/
theorem prefix_drop_take {t : List Char} (ht : t ≠ []) (s : List Char) (m k : Nat) :
    t <+: (s.take m).drop k ↔ k + t.length ≤ m ∧ t <+: s.drop k := by
  have hpos := List.length_pos_iff.mpr ht
  rw [List.drop_take, List.prefix_take_iff, and_comm]
  exact and_congr_left fun _ => by omega

theorem isFirst_find? {t : List Char} (ht : t ≠ []) (s : List Char) {i j : Nat} (hi : i ≤ j)
    (hj : j ≤ s.length) :
    IsFirst (fun k => i ≤ k ∧ k + t.length ≤ j ∧ t <+: s.drop k) (find? s t i j) := by
  have hfind : find? s t i j = indexFrom? t i ((s.take j).drop i) := by
    have hstart : ¬ ((i : Int) < 0) := by omega
    simp only [find?, if_neg hstart, Int.toNat_natCast, position_natCast, Nat.min_eq_left hj,
      if_neg (Nat.not_lt.mpr hi)]
  rw [hfind]
  refine (isFirst_indexFrom? t _ i).congr fun k => and_congr_right fun hk => ?_
  rw [List.drop_drop, Nat.add_sub_cancel' hk, prefix_drop_take ht]

/-- The text `t` stands at `p` in `s`, not before `first` and not beyond `last`. Places are counted
from one. -/
def Stands (s t : String) (first last p : Nat) : Prop :=
  first ≤ p ∧ p + t.length - 1 ≤ last ∧ t.toList <+: s.toList.drop (p - 1)

theorem Stands.mono {s t : String} {first last last' p : Nat} (h : Stands s t first last p)
    (hle : p + t.length - 1 ≤ last') : Stands s t first last' p :=
  ⟨h.1, hle, h.2.2⟩

/-- One place less at the end makes a difference only if the first place is the last one too. -/
theorem isFirst_stands_iff {s t : String} {a b : Nat} (ha : 1 ≤ a) (hb : 1 ≤ b) {o : Option Nat}
    (h : IsFirst (Stands s t a (b - 1)) o) :
    (∃ o', IsFirst (Stands s t a b) o' ∧ o'.getD 0 = o.getD 0) ↔
      ∀ p, Stands s t a b p → p + t.length - 1 = b → ∃ q < p, Stands s t a b q := by
  constructor
  · rintro ⟨o', ho', hsame⟩ p hp hend
    -- Something stands there, so the first place is not zero and was found before the end.
    obtain _ | n := o'
    · exact absurd hp (ho' p)
    · have hn := ho'.1.1
      obtain _ | m := o
      · rw [Option.getD_some, Option.getD_none] at hsame
        omega
      · rw [Option.getD_some, Option.getD_some] at hsame
        subst hsame
        have hbound := h.1.2.1
        exact ⟨n, by omega, ho'.1⟩
  · intro hlast
    refine ⟨o, ?_, rfl⟩
    obtain _ | n := o
    · have hnone (p : Nat) (hp : Stands s t a b p) : p + t.length - 1 = b := by
        have hbound := hp.2.1
        by_cases hend : p + t.length - 1 ≤ b - 1
        · exact absurd (hp.mono hend) (h p)
        · omega
      intro p hp
      obtain ⟨q, hlt, hq⟩ := hlast p hp (hnone p hp)
      have hsame := (hnone q hq).trans (hnone p hp).symm
      have hfirst := hq.1
      omega
    · refine ⟨h.1.mono (Nat.le_trans h.1.2.1 (Nat.sub_le b 1)), fun q hlt hq => ?_⟩
      have hbound := h.1.2.1
      exact h.2 q hlt (hq.mono (by omega))

end Text

namespace Function

open Value Text

theorem placeOf_nat (line : String) {s t : String} (ht : t ≠ "") {start stop : Option Value}
    {i j : Nat} (hstart : start.getD (int 0) = int i) (hstop : stop.getD (int s.length) = int j)
    (hi : i ≤ j) (hj : j ≤ s.length) :
    ∃ o, IsFirst (Text.Stands s t (i + 1) j) o ∧
      placeOf line s (text t) start stop = .ok (int (o.getD 0 : Nat)) := by
  have hfirst := isFirst_find? (t := t.toList) (by simpa using ht) s.toList hi
    (by rwa [String.length_toList])
  refine ⟨_, hfirst.succ (fun h => absurd h.1 (by omega)) fun q => ?_, ?_⟩
  · rw [Text.Stands, String.length_toList, Nat.add_sub_cancel]
    constructor
    · rintro ⟨hle, hend, hat⟩
      exact ⟨by omega, by omega, hat⟩
    · rintro ⟨hle, hend, hat⟩
      exact ⟨by omega, by omega, hat⟩
  · unfold placeOf
    rw [hstart, hstop]
    dsimp only [integer?]
    cases find? s.toList t.toList i j <;> rfl

end Function

namespace Face

variable (a b c d : List Face)

def placeIn : List Face := call .INSTR "INSTR" a [b]

def placeFrom : List Face := call .INSTR "INSTR" a [b, c]

def placeWithin : List Face := call .INSTR "INSTR" a [b, c, d]

end Face

namespace Eval

open Face Text Outcome

section Search

variable {scope : Scope} {d : Nat} {hay needle start stop : List Face} {s t : String} {a b : Nat}

/-- Whether a text stands at a place can be found out by cutting. -/
theorem middleOf_eq_iff (hs : Expresses scope d hay (.text s))
    (ht : Expresses scope d needle (.text t)) (hne : t ≠ "") {place : List Face} {p : Nat}
    (hp : Expresses scope d place (.int p)) (hpos : 1 ≤ p) :
    Expresses scope (d + 8) (middleOf hay place (lengthOf needle)) (.text t) ↔
      t.toList <+: s.toList.drop (p - 1) := by
  have hlength : 0 < t.length := by
    rw [Nat.pos_iff_ne_zero, Ne, String.length_eq_zero_iff]
    exact hne
  have hle : d ≤ d + 4 := Nat.le_add_right d 4
  have hmiddle := operand_middleOf (hs.mono hle) (hp.mono hle) (operand_lengthOf ht).expresses hpos
    hlength
  rw [List.prefix_iff_eq_take, String.length_toList]
  constructor
  · intro h
    have hsame := h.unique hmiddle.expresses
    rw [Function.ofChars, Value.text.injEq] at hsame
    rw [← String.toList_ofList (l := List.take _ _), ← hsame]
  · intro h
    rw [Function.ofChars, ← h, String.ofList_toList] at hmiddle
    exact hmiddle.expresses

theorem expresses_placeIn (hs : Expresses scope d hay (.text s))
    (ht : Expresses scope d needle (.text t)) (hne : t ≠ "") :
    ∃ o, IsFirst (Text.Stands s t 1 s.length) o ∧
      Expresses scope (d + 4) (placeIn hay needle) (.int (o.getD 0 : Nat)) := by
  obtain ⟨o, ho, hplace⟩ := @Function.placeOf_nat scope.line s t hne none none 0 s.length rfl rfl
    (Nat.zero_le _) (Nat.le_refl _)
  exact ⟨o, ho, (operand_place hs ht hplace).expresses⟩

theorem expresses_placeFrom (hs : Expresses scope d hay (.text s))
    (ht : Expresses scope d needle (.text t)) (hne : t ≠ "") (ha : Expresses scope d start (.int a))
    (hpos : 1 ≤ a) (hle : a ≤ s.length) :
    ∃ o, IsFirst (Text.Stands s t a s.length) o ∧
      Expresses scope (d + 4) (placeFrom hay needle start) (.int (o.getD 0 : Nat)) := by
  obtain ⟨o, ho, hplace⟩ := @Function.placeOf_nat scope.line s t hne
    (some (.int (a - 1 : Nat))) none (a - 1) s.length rfl rfl (by omega) (Nat.le_refl _)
  rw [Nat.sub_add_cancel hpos] at ho
  exact ⟨o, ho, (operand_placeFrom hs ht ha (sub_one hpos) hplace).expresses⟩

/-- The upper bound is taken for one too low. -/
theorem expresses_placeWithin (hs : Expresses scope d hay (.text s))
    (ht : Expresses scope d needle (.text t)) (hne : t ≠ "") (ha : Expresses scope d start (.int a))
    (hb : Expresses scope d stop (.int b)) (hpos : 1 ≤ a) (hab : a ≤ b) (hle : b ≤ s.length) :
    ∃ o, IsFirst (Text.Stands s t a (b - 1)) o ∧
      Expresses scope (d + 4) (placeWithin hay needle start stop) (.int (o.getD 0 : Nat)) := by
  obtain ⟨o, ho, hplace⟩ := @Function.placeOf_nat scope.line s t hne
    (some (.int (a - 1 : Nat))) (some (.int (b - 1 : Nat))) (a - 1) (b - 1) rfl rfl (by omega)
    (by omega)
  rw [Nat.sub_add_cancel hpos] at ho
  exact ⟨o, ho, (operand_placeWithin hs ht ha hb (sub_one hpos) (sub_one (by omega))
    hplace).expresses⟩

end Search

/-- What a search finds, for operands of any kind, for which `d` calls fit in each other. Without an
upper bound it is the first place from the lower bound on. With one it is the first place that ends
before that bound: the first place up to the bound is missed if nothing but that place, which ends
right there, is to be found. -/
theorem search_first {scope : Scope} {d : Nat} {hay needle start stop : List Face} {s t : String}
    {a b : Nat} (hs : Expresses scope d hay (.text s)) (ht : Expresses scope d needle (.text t))
    (hne : t ≠ "") (ha : Expresses scope d start (.int a)) (hb : Expresses scope d stop (.int b))
    (hpos : 1 ≤ a) (hab : a ≤ b) (hle : b ≤ s.length) :
    (∀ (place : List Face) (p : Nat), 1 ≤ p → Expresses scope d place (.int p) →
      (Expresses scope (d + 8) (middleOf hay place (lengthOf needle)) (.text t) ↔
        t.toList <+: s.toList.drop (p - 1))) ∧
      (∃ o, IsFirst (Text.Stands s t a (b - 1)) o ∧
        Expresses scope (d + 4) (placeWithin hay needle start stop) (.int (o.getD 0 : Nat))) ∧
      ((∃ o, IsFirst (Text.Stands s t a b) o ∧
          Expresses scope (d + 4) (placeWithin hay needle start stop) (.int (o.getD 0 : Nat))) ↔
        ∀ p, Text.Stands s t a b p → p + t.length - 1 = b → ∃ q < p, Text.Stands s t a b q) ∧
      (∃ o, IsFirst (Text.Stands s t a s.length) o ∧
        Expresses scope (d + 4) (placeFrom hay needle start) (.int (o.getD 0 : Nat))) ∧
      ∃ o, IsFirst (Text.Stands s t 1 s.length) o ∧
        Expresses scope (d + 4) (placeIn hay needle) (.int (o.getD 0 : Nat)) := by
  obtain ⟨o, ho, hplace⟩ := expresses_placeWithin hs ht hne ha hb hpos hab hle
  refine ⟨fun place p h1 hp => middleOf_eq_iff hs ht hne hp h1, ⟨o, ho, hplace⟩, ?_,
    expresses_placeFrom hs ht hne ha hpos (by omega), expresses_placeIn hs ht hne⟩
  rw [← isFirst_stands_iff hpos (by omega) ho]
  constructor
  · rintro ⟨o', ho', hplace'⟩
    have hsame := hplace'.unique hplace
    rw [Value.int.injEq, Int.natCast_inj] at hsame
    exact ⟨o', ho', hsame⟩
  · rintro ⟨o', ho', hsame⟩
    exact ⟨o', ho', by rwa [hsame]⟩

/-- Two places, of which the second ends at the bound: the first is found. -/
theorem search_first_twice :
    let scope : Scope := ⟨[("A$", .scalar (.text "ABAB"))], "10"⟩
    let hay : List Face := [(some .name, "A$")]
    let needle : List Face := [(some .text, "AB")]
    let four : List Face := [(some .integer, "4")]
    Expresses scope 4 (placeWithin hay needle one four) (.int 1) ∧
      ∃ o, IsFirst (Text.Stands "ABAB" "AB" 1 4) o ∧
        Expresses scope 4 (placeWithin hay needle one four) (.int (o.getD 0 : Nat)) := by
  intro scope hay needle four
  have hhay : Operand scope 0 hay (.text "ABAB") := @operand_variable scope (.text "ABAB") "A$" rfl
  have hneedle : Operand scope 0 needle (.text "AB") := operand_text "AB"
  have hfour : Operand scope 0 four (.int 4) := operand_integer rfl
  have hfirst : Text.Stands "ABAB" "AB" 1 4 1 := ⟨by decide, by decide, by decide⟩
  obtain ⟨-, -, hiff, -⟩ := @search_first scope 0 hay needle one four "ABAB" "AB" 1 4
    hhay.expresses hneedle.expresses (by decide) operand_one.expresses hfour.expresses (by decide)
    (by decide) (by decide)
  have hlength : "AB".length = 2 := rfl
  obtain ⟨o, ho, hplace⟩ := hiff.mpr fun p hp hend => ⟨1, by omega, hfirst⟩
  obtain _ | n := o
  · exact absurd hfirst (ho 1)
  · have hone : n = 1 := Nat.le_antisymm (Nat.le_of_not_lt fun h => ho.2 1 h hfirst) ho.1.1
    subst hone
    exact ⟨hplace, some 1, ho, hplace⟩

/-- What ends at the upper bound is not found, though it is without the bound. -/
theorem last_place_missed :
    let shown (line : String) : String :=
      (state (Machine.runLine "10" (tokensOf line) .blank)).terminal.output
    shown "PRINT INSTR(\"ABC\",\"C\",1,3)" = "0\n" ∧
      shown "PRINT INSTR(\"ABC\",\"C\",1)" = "3\n" := by
  decide +kernel

end Eval

end LineBasic

import LineBasic.Proofs.Lines
import LineBasic.Proofs.LoopEnd
import LineBasic.Proofs.Split.Line
import Mathlib.Data.List.Forall2

namespace LineBasic

open Outcome

theorem Value.eq_of_same_int {v : Value} {m n : Int} (hm : v.same (.int m)) (hn : v.same (.int n)) :
    m = n := by
  cases v with
  | int k => exact (same_int.mp hm).symm.trans (same_int.mp hn)
  | truth b =>
      have h {n : Int} (hn : (truth b).same (.int n)) : ofBool b = n := by
        simpa [same, order?, integer?] using hn
      exact (h hm).symm.trans (h hn)
  | text s => simp [same, order?] at hm
  | real x =>
      have hinteger (n : Int) : (real x).order? (.int n) = Double.compareInt x n := rfl
      simp only [same, hinteger, Double.compareInt, beq_iff_eq] at hm hn
      split at hm
      · rename_i p hp
        rw [hp] at hn
        have hm : p.signed p.ratio.1 = m * p.ratio.2 := Int.compare_eq_eq.mp (Option.some.inj hm)
        have hn : p.signed p.ratio.1 = n * p.ratio.2 := Int.compare_eq_eq.mp (Option.some.inj hn)
        have hpos : p.ratio.2 ≠ 0 := Nat.ne_of_gt (Nat.pow_pos Nat.two_pos)
        exact Int.eq_of_mul_eq_mul_right (Int.ofNat_ne_zero.mpr hpos) (hm.symm.trans hn)
      · rename_i negative _
        cases negative <;> cases hm
      · cases hm

namespace Program

section Index

variable {numbers : List Int} {i : Nat} {v : Value}

theorem indexOf?_eq_some_iff (ha : numbers.Pairwise (· < ·)) :
    indexOf? numbers v = some i ↔ ∃ l, numbers[i]? = some l ∧ v.same (.int l) := by
  rw [indexOf?, List.findIdx?_eq_some_iff_getElem]
  constructor
  · rintro ⟨hlt, hsame, -⟩
    exact ⟨_, List.getElem?_eq_getElem hlt, hsame⟩
  · rintro ⟨l, hl, hsame⟩
    obtain ⟨hlt, rfl⟩ := List.getElem?_eq_some_iff.mp hl
    refine ⟨hlt, hsame, fun j hj hsame' => ?_⟩
    have hless := List.pairwise_iff_getElem.mp ha j i (by omega) hlt hj
    have heq := Value.eq_of_same_int hsame hsame'
    omega

theorem eq_of_getElem? {j : Nat} {l : Int} (ha : numbers.Pairwise (· < ·))
    (hi : numbers[i]? = some l) (hj : numbers[j]? = some l) : i = j :=
  Option.some.inj ((findIdx?_of_ascending ha hi).symm.trans (findIdx?_of_ascending ha hj))

theorem site_eq {p : Program} {l : Int} {tokens : List Token} (ha : p.numbers.Pairwise (· < ·))
    (ht : p.lines[i]? = some (l, tokens)) (hsame : p.next.same (.int l)) :
    p.site = ⟨p.next.label, some l, 0⟩ ∧ p.standing = tokens := by
  have hl : p.numbers[i]? = some l := by simp [Program.numbers, Lines.numbers, ht]
  exact standing_eq ((indexOf?_eq_some_iff ha).mpr ⟨l, hl, hsame⟩) ht

end Index

section AfterLoop

variable {target : Value}

theorem afterLoop_succ (i : Nat) (ls : Lines (List Token)) :
    afterLoop target (i + 1) ls = afterLoop target i ls + 1 := by
  induction ls generalizing i with
  | nil => rfl
  | cons l ls ih =>
      obtain ⟨n, _ | ⟨t, _ | ⟨v, ts⟩⟩⟩ := l
      · exact ih (i + 1)
      · exact ih (i + 1)
      · rw [afterLoop, afterLoop, ih (i + 1)]
        split <;> rfl

theorem le_afterLoop (i : Nat) (ls : Lines (List Token)) : i ≤ afterLoop target i ls := by
  fun_induction afterLoop target i ls <;> omega

theorem afterLoop_skip {tokens : List Token} (h : ∀ t ∈ tokens.head?, ¬ t.isKeyword .NEXT) (i : Nat)
    (n : Int) (ls : Lines (List Token)) :
    afterLoop target i ((n, tokens) :: ls) = afterLoop target (i + 1) ls := by
  obtain _ | ⟨t, _ | ⟨v, ts⟩⟩ := tokens
  · rfl
  · rfl
  · rw [afterLoop, if_neg fun hnext => h t rfl hnext.1]

end AfterLoop

end Program

/-- A line among others that has a colon, and the number of a line to come right after it. No
statement of the line begins or ends a loop. -/
structure Seam where
  above : Lines (List Token)
  line : Int
  first : List Token
  colon : Token
  last : List Token
  rest : Int
  below : Lines (List Token)
  isColon : colon.isMark .colon
  unstarted : ∀ k ∈ [Keyword.FOR, .NEXT], Unstarted k first ∧ Unstarted k last
  ascending : Lines.Ascending (above ++ (line, first) :: (rest, last) :: below)

namespace Seam

variable (s : Seam)

def whole : Lines (List Token) := s.above ++ (s.line, s.first ++ s.colon :: s.last) :: s.below

def parted : Lines (List Token) := s.above ++ (s.line, s.first) :: (s.rest, s.last) :: s.below

def cut : Cut := ⟨s.line, s.rest, (splitColons s.last).length⟩

def before (i : Nat) : Nat := if i ≤ s.above.length then i else i + 1

def behind (i : Nat) : Nat := if i < s.above.length then i else i + 1

theorem before_succ (i : Nat) : s.before (i + 1) = s.behind i + 1 := by
  unfold before behind
  grind

theorem behind_of_ne {i : Nat} (h : i ≠ s.above.length) : s.behind i = s.before i := by
  unfold before behind
  grind

theorem numbers_whole : s.whole.numbers = s.above.numbers ++ s.line :: s.below.numbers := by
  simp [whole, Lines.numbers]

theorem numbers_parted :
    s.parted.numbers = s.above.numbers ++ s.line :: s.rest :: s.below.numbers := by
  simp [parted, Lines.numbers]

theorem ascending_parted : s.parted.numbers.Pairwise (· < ·) := s.ascending

theorem ascending_whole : s.whole.numbers.Pairwise (· < ·) := by
  have h := s.ascending_parted
  rw [numbers_parted] at h
  rw [numbers_whole]
  refine h.sublist ?_
  exact (List.Sublist.refl _).append ((List.sublist_cons_self _ _).cons_cons _)

theorem getElem?_numbers (i : Nat) : s.parted.numbers[s.before i]? = s.whole.numbers[i]? := by
  rw [numbers_parted, numbers_whole, before]
  have hlength : s.above.numbers.length = s.above.length := List.length_map _
  grind

theorem getElem?_parted {i : Nat} (h : i ≠ s.above.length) :
    s.parted[s.before i]? = s.whole[i]? := by
  rw [parted, whole, before]
  grind

theorem getElem?_line : s.whole[s.above.length]? = some (s.line, s.first ++ s.colon :: s.last) ∧
    s.parted[s.above.length]? = some (s.line, s.first) ∧
    s.parted[s.above.length + 1]? = some (s.rest, s.last) := by
  simp [whole, parted]

theorem line_lt_rest : s.line < s.rest := by
  have h := s.ascending_parted
  rw [numbers_parted] at h
  exact List.rel_of_pairwise_cons (List.pairwise_append.mp h).2.1 List.mem_cons_self

/-- The other lines have other numbers. -/
theorem ne_of_getElem? {i : Nat} {l : Int} (hi : s.whole.numbers[i]? = some l)
    (hne : i ≠ s.above.length) : l ≠ s.line ∧ l ≠ s.rest := by
  have hlength : s.above.numbers.length = s.above.length := List.length_map _
  constructor
  · rintro rfl
    have hline : s.whole.numbers[s.above.length]? = some s.line := by
      simp [numbers_whole, ← hlength]
    exact hne (Program.eq_of_getElem? s.ascending_whole hi hline)
  · rintro rfl
    have hrest : s.parted.numbers[s.above.length + 1]? = some s.rest := by
      simp [numbers_parted, ← hlength]
    rw [← getElem?_numbers] at hi
    have hbefore := Program.eq_of_getElem? s.ascending_parted hi hrest
    unfold before at hbefore
    split at hbefore <;> omega

theorem not_next : (∀ t ∈ s.first.head?, ¬ t.isKeyword .NEXT) ∧
    (∀ t ∈ s.last.head?, ¬ t.isKeyword .NEXT) ∧
    ∀ t ∈ (s.first ++ s.colon :: s.last).head?, ¬ t.isKeyword .NEXT := by
  obtain ⟨hfirst, hlast⟩ := s.unstarted .NEXT (by simp)
  refine ⟨hfirst.head, hlast.head, fun t ht => ?_⟩
  cases hf : s.first with
  | nil =>
      rw [hf] at ht
      cases ht
      exact not_isKeyword_of_colon s.isColon _
  | cons u us =>
      rw [hf] at ht
      exact hfirst.head t (hf ▸ ht)

/-- A loop that is skipped ends at the same line, before the seam or behind it. -/
theorem afterLoop_above {target : Value} (us : Lines (List Token)) {x : Nat}
    (h : x + us.length = s.above.length) :
    Program.afterLoop target x (us ++ (s.line, s.first) :: (s.rest, s.last) :: s.below) =
      s.before (Program.afterLoop target x
        (us ++ (s.line, s.first ++ s.colon :: s.last) :: s.below)) := by
  induction us generalizing x with
  | nil =>
      obtain ⟨hfirst, hlast, hwhole⟩ := s.not_next
      rw [List.nil_append, List.nil_append, Program.afterLoop_skip hfirst,
        Program.afterLoop_skip hlast, Program.afterLoop_skip hwhole, Program.afterLoop_succ, before]
      have hle := @Program.le_afterLoop target (x + 1) s.below
      rw [List.length_nil] at h
      rw [if_neg (by omega)]
  | cons u us ih =>
      rw [List.length_cons] at h
      have hrest := ih (x := x + 1) (by omega)
      have hhere : s.before (x + 1) = x + 1 := if_pos (by omega)
      obtain ⟨n, _ | ⟨t, _ | ⟨v, ts⟩⟩⟩ := u
      · exact hrest
      · exact hrest
      · rw [List.cons_append, List.cons_append, Program.afterLoop, Program.afterLoop, hrest]
        split
        · exact hhere.symm
        · rfl

theorem afterLoop_behind (target : Value) (i : Nat) :
    Program.afterLoop target (s.behind i + 1) (s.parted.drop (s.behind i + 1)) =
      s.before (Program.afterLoop target (i + 1) (s.whole.drop (i + 1))) := by
  by_cases h : i < s.above.length
  · rw [behind, if_pos h, parted, whole, List.drop_append_of_le_length h,
      List.drop_append_of_le_length h]
    exact s.afterLoop_above _ (by rw [List.length_drop]; omega)
  · obtain ⟨d, rfl⟩ := Nat.exists_eq_add_of_le (Nat.le_of_not_lt h)
    have hparted : s.parted.drop (s.above.length + d + 1 + 1) = s.below.drop d :=
      List.drop_length_add_append (d + 2)
    have hwhole : s.whole.drop (s.above.length + d + 1) = s.below.drop d :=
      List.drop_length_add_append (d + 1)
    have hle := @Program.le_afterLoop target (s.above.length + d + 1) (s.below.drop d)
    rw [behind, if_neg h, hparted, hwhole, Program.afterLoop_succ, before, if_neg (by omega)]

def Calls : Prop := ∃ t ∈ s.first, t.isKeyword .GOSUB

/-- The same state of the two programs, but that a call from the first half is to come back to the
second half in one of them. -/
structure Beside (p q : Program) : Prop where
  whole : p.lines = s.whole
  parted : q.lines = s.parted
  returns : List.Forall₂ (fun n n' => n' = n ∨ n' = s.rest ∧ s.Calls) p.returns q.returns
  machine : s.cut.Relates True p.machine q.machine

theorem Beside.after {s : Seam} {p q : Program} (h : s.Beside p q) {keep : Prop} {m n : Machine}
    (hmn : s.cut.Relates keep m n) (flow : Option Flow) (v : Value) :
    s.Beside { p with machine := m.withFlow flow }
      { q with machine := n.withFlow flow, next := v } :=
  ⟨h.whole, h.parted, h.returns, hmn.withFlow flow⟩

theorem Beside.push {s : Seam} {p q : Program} (h : s.Beside p q) {n n' : Int}
    (hentry : n' = n ∨ n' = s.rest ∧ s.Calls) :
    s.Beside { p with returns := n :: p.returns } { q with returns := n' :: q.returns } :=
  ⟨h.whole, h.parted, .cons hentry h.returns, h.machine⟩

inductive Steps : Program.Step → Program.Step → Prop
  | more {i : Nat} {l : Int} {p q : Program} (h : s.Beside p q) (next : q.next = p.next)
      (line : s.whole.numbers[i]? = some l) (same : p.next.same (.int l)) :
      Steps (.more i p) (.more (s.before i) q)
  | done {p q : Program} (h : s.Beside p q) : Steps (.done p) (.done q)
  | failed (f : Fault) (p : Program) (st : Program.Step) : Steps (.failed f p) st

section Follow

open Program

variable {s} {p q : Program}

theorem steps_goTo (h : s.Beside p q) (i : Nat) :
    s.Steps (goTo s.whole.numbers i p) (goTo s.parted.numbers (s.before i) q) := by
  rw [goTo, goTo, getElem?_numbers]
  split
  · rename_i l hl
    exact .more ⟨h.whole, h.parted, h.returns, h.machine⟩ rfl hl (Value.same_int.mpr rfl)
  · exact .done h

theorem steps_goToTarget (h : s.Beside p q) (target : Value) (bad : String → Fault) :
    s.Steps (goToTarget s.whole.numbers target bad p)
      (goToTarget s.parted.numbers target bad q) := by
  rw [goToTarget]
  cases hi : indexOf? s.whole.numbers target with
  | none =>
      dsimp only
      split <;> exact .failed _ _ _
  | some i =>
      obtain ⟨l, hl, hsame⟩ := (indexOf?_eq_some_iff s.ascending_whole).mp hi
      have hi' : indexOf? s.parted.numbers target = some (s.before i) :=
        (indexOf?_eq_some_iff s.ascending_parted).mpr ⟨l, by rwa [getElem?_numbers], hsame⟩
      rw [goToTarget, hi']
      exact .more ⟨h.whole, h.parted, h.returns, h.machine⟩ rfl hl hsame

theorem steps_comeBack (h : s.Beside p q) (stray lost : String → Fault) :
    s.Steps (comeBack s.whole.numbers stray lost p) (comeBack s.parted.numbers stray lost q) ∨
      q.returns.head? = some s.rest ∧ s.Calls := by
  obtain ⟨-, hfail⟩ | ⟨n, returns, hp, ⟨-, hfail⟩ | ⟨i, hi, hmore⟩⟩ :=
    comeBack_cases s.whole.numbers p stray lost
  · exact .inl (hfail ▸ .failed _ _ _)
  · exact .inl (hfail ▸ .failed _ _ _)
  obtain ⟨n', returns', hentry, hreturns, hq⟩ := List.forall₂_cons_left_iff.mp (hp ▸ h.returns)
  rcases hentry with rfl | ⟨rfl, hcalls⟩
  · left
    have hn := (findIdx?_eq_some_iff s.ascending_whole).mp hi
    have hn' : s.parted.numbers[s.before i]? = some n' := by rwa [getElem?_numbers]
    have hi' := (findIdx?_eq_some_iff s.ascending_parted).mpr hn'
    rw [hmore, comeBack, hq]
    dsimp only
    rw [hi']
    dsimp only
    rw [goTo_of_some hn']
    exact .more ⟨h.whole, h.parted, hreturns, h.machine⟩ rfl hn (Value.same_int.mpr rfl)
  · right
    rw [hq]
    exact ⟨rfl, hcalls⟩

def Back (s : Seam) (flow : Option Flow) (q : Program) : Prop :=
  (flow = some .giveBack ∨ flow = some .loopRepeat) ∧ q.returns.head? = some s.rest ∧ s.Calls

/-- A signal at the end of a line leads both programs to the same place. -/
theorem steps_follow (h : s.Beside p q) {i : Nat} {flow : Option Flow}
    (hbegin : flow = some .loopBegin → i ≠ s.above.length) :
    s.Steps (follow s.whole.numbers i flow p) (follow s.parted.numbers (s.behind i) flow q) ∨
      s.Back flow q := by
  have hnext : s.parted.numbers[s.behind i + 1]? = s.whole.numbers[i + 1]? := by
    rw [← before_succ, getElem?_numbers]
  rcases flow with _ | flow
  · rw [follow, follow, ← before_succ]
    exact .inl (steps_goTo h (i + 1))
  cases flow with
  | jump target => exact .inl (steps_goToTarget h target _)
  | stop => exact .inl (.done h)
  | giveBack => exact (steps_comeBack h _ _).imp_right fun hback => ⟨.inl rfl, hback⟩
  | loopRepeat => exact (steps_comeBack h _ _).imp_right fun hback => ⟨.inr rfl, hback⟩
  | loopSkip target =>
      rw [follow, follow, h.whole, h.parted, afterLoop_behind]
      exact .inl (steps_goTo h _)
  | call target =>
      left
      rw [follow, follow, hnext]
      split
      · exact .failed _ _ _
      · exact steps_goToTarget (h.push (.inl rfl)) target _
  | loopBegin =>
      left
      have hline : s.parted.numbers[s.behind i]? = s.whole.numbers[i]? := by
        rw [s.behind_of_ne (hbegin rfl), getElem?_numbers]
      rw [follow, follow, hnext, hline]
      dsimp only
      split
      · rename_i n hn
        rw [← before_succ]
        refine .more ⟨h.whole, h.parted, ?_, h.machine⟩ rfl hn (Value.same_int.mpr rfl)
        cases s.whole.numbers[i]? with
        | none => exact h.returns
        | some l => exact .cons (.inl rfl) h.returns
      · exact .failed _ _ _

end Follow

section Visit

open Program

variable {s} {i : Nat} {l : Int} {p q : Program} {flow : Option Flow} {m : Machine}

theorem site_whole (h : s.Beside p q) {tokens : List Token} (ht : s.whole[i]? = some (l, tokens))
    (same : p.next.same (.int l)) : p.site = ⟨p.next.label, some l, 0⟩ ∧ p.standing = tokens := by
  have ha : p.numbers.Pairwise (· < ·) := by
    rw [Program.numbers, h.whole]
    exact s.ascending_whole
  exact site_eq ha (h.whole ▸ ht) same

theorem site_parted (hq : q.lines = s.parted) {tokens : List Token}
    (ht : s.parted[i]? = some (l, tokens)) (same : q.next.same (.int l)) :
    q.site = ⟨q.next.label, some l, 0⟩ ∧ q.standing = tokens := by
  have ha : q.numbers.Pairwise (· < ·) := by
    rw [Program.numbers, hq]
    exact s.ascending_parted
  exact site_eq ha (hq ▸ ht) same

/-- A line apart from the seam is carried out in the other program as well. -/
theorem leads_apart (h : s.Beside p q) (next : q.next = p.next)
    (line : s.whole.numbers[i]? = some l) (same : p.next.same (.int l)) (hne : i ≠ s.above.length)
    (hv : Machine.visit p.site p.standing p.machine = .ok flow m) :
    ∃ st, Leads s.parted.numbers (.more (s.before i) q) [⟨s.before i, q, flow⟩] st ∧
      (s.Steps (follow s.whole.numbers i flow { p with machine := m.withFlow flow }) st ∨
        s.Back flow q) := by
  obtain ⟨⟨_, tokens⟩, ht, rfl⟩ : ∃ x, s.whole[i]? = some x ∧ x.1 = l := by
    simpa [Lines.numbers] using line
  obtain ⟨hl, hl'⟩ := s.ne_of_getElem? line hne
  obtain ⟨hsite, hstanding⟩ := site_whole h ht same
  obtain ⟨hsite', hstanding'⟩ := site_parted h.parted (by rwa [s.getElem?_parted hne])
    (next ▸ same)
  rw [Machine.visit_eq h.machine.patient.1, hstanding] at hv
  have hagree := Machine.agree_apart (c := s.cut) (congrArg Site.line hsite) hl hl' tokens h.machine
  rw [hv] at hagree
  generalize hr : Machine.runLine p.site tokens q.machine = r at hagree
  cases hagree with
  | @ok _ _ n hmn =>
      have hv' : Machine.visit q.site q.standing q.machine = .ok flow n := by
        rw [Machine.visit_eq h.machine.patient.2, hstanding', hsite', next, ← hsite, hr]
      refine ⟨_, .line hv' (.refl _), ?_⟩
      rw [← s.behind_of_ne hne]
      exact steps_follow (h.after hmn flow q.next) fun _ => hne

/-- The signal of the first half does not depend on where the line ends, but for what a call comes
back to. -/
theorem steps_first (h : s.Beside p q) {f : Flow} {part : List Token}
    (hpart : part ∈ splitColons s.first) (hf : f.Suits part) :
    s.Steps (follow s.whole.numbers s.above.length (some f) p)
        (follow s.parted.numbers s.above.length (some f) q) ∨ s.Back (some f) q := by
  have hfor := (s.unstarted .FOR (by simp)).1 part hpart
  have hsteps (hbegin : some f = some .loopBegin → s.above.length ≠ s.above.length) :=
    steps_follow h hbegin
  cases f with
  | jump | loopRepeat | giveBack | stop => exact hsteps nofun
  | call target =>
      left
      obtain ⟨t, ht, hgosub⟩ := hf
      have hcalls : s.Calls := ⟨t, mem_of_mem_splitColons hpart ht, hgosub⟩
      have hrest : s.parted.numbers[s.above.length + 1]? = some s.rest := by
        simp [Lines.numbers, s.getElem?_line]
      rw [follow, follow, hrest]
      split
      · exact .failed _ _ _
      · exact steps_goToTarget (h.push (.inr ⟨rfl, hcalls⟩)) target _
  | loopBegin | loopSkip =>
      obtain ⟨t, ht, hkeyword⟩ := hf
      exact absurd hkeyword (hfor t ht)

/-- The second half is a line of its own: a poll and a signal of its own come before it. -/
theorem leads_halves (hq : q.lines = s.parted) {n₁ n : Machine}
    (hv : Machine.visit q.site q.standing q.machine = .ok none n₁)
    (hpatient : n₁.terminal.patience = none)
    (hn : Machine.runLine ⟨(Value.int s.rest).label, some s.rest, 0⟩ s.last (n₁.withFlow none) =
      .ok flow n) :
    ∃ v, v.flow = flow ∧ v.program.returns = q.returns ∧
      Leads s.parted.numbers (.more s.above.length q) [⟨s.above.length, q, none⟩, v]
        (follow s.parted.numbers (s.above.length + 1) flow
          { q with machine := n.withFlow flow, next := .int s.rest }) := by
  let q₁ : Program := { q with machine := n₁.withFlow none, next := .int s.rest }
  obtain ⟨-, -, hlast⟩ := s.getElem?_line
  have hgo : follow s.parted.numbers s.above.length none { q with machine := n₁.withFlow none } =
      .more (s.above.length + 1) q₁ :=
    goTo_of_some (by simp [Lines.numbers, hlast]) _
  obtain ⟨hsite, hstanding⟩ := site_parted (q := q₁) hq hlast (Value.same_int.mpr rfl)
  have hv₁ : Machine.visit q₁.site q₁.standing q₁.machine = .ok flow n := by
    rw [hsite, hstanding]
    exact (Machine.visit_eq (m := n₁.withFlow none) hpatient _ _).trans hn
  have hrest : Leads s.parted.numbers (.more (s.above.length + 1) q₁) _ _ := .line hv₁ (.refl _)
  rw [← hgo] at hrest
  exact ⟨_, rfl, rfl, .line hv hrest⟩

/-- The line with the seam takes the other program one step or two. -/
theorem leads_seam (h : s.Beside p q) (next : q.next = p.next) (same : p.next.same (.int s.line))
    (hv : Machine.visit p.site p.standing p.machine = .ok flow m) :
    ∃ vs v st, Leads s.parted.numbers (.more s.above.length q) (vs ++ [v]) st ∧
      (s.Steps (follow s.whole.numbers s.above.length flow
        { p with machine := m.withFlow flow }) st ∨ s.Back v.flow v.program) := by
  obtain ⟨hwhole, hfirst, -⟩ := s.getElem?_line
  obtain ⟨hsite, hstanding⟩ := site_whole h hwhole same
  obtain ⟨hsite', hstanding'⟩ := site_parted h.parted hfirst (next ▸ same)
  rw [Machine.visit_eq h.machine.patient.1, hstanding] at hv
  have hunstarted := (s.unstarted .FOR (by simp)).2
  obtain ⟨f, n, rfl, hn, hmn⟩ | ⟨n₁, n, hn₁, hpatient, hn, hmn⟩ :=
    Machine.runLine_cut (c := s.cut) s.isColon rfl (Int.ne_of_lt s.line_lt_rest) hunstarted
      (congrArg Site.line hsite) (congrArg Site.line hsite')
      (show Site.line ⟨(Value.int s.rest).label, some s.rest, 0⟩ = _ from rfl) h.machine hv
  · have hv' : Machine.visit q.site q.standing q.machine = .ok (some f) n := by
      rw [Machine.visit_eq h.machine.patient.2, hstanding', hn]
    obtain ⟨part, hpart, hsuits⟩ := Machine.suits_runParts hn
    exact ⟨[], _, _, .line hv' (.refl _), steps_first (h.after hmn (some f) q.next) hpart hsuits⟩
  · have hv' : Machine.visit q.site q.standing q.machine = .ok none n₁ := by
      rw [Machine.visit_eq h.machine.patient.2, hstanding', hn₁]
    have hbegin : flow = some .loopBegin → s.above.length ≠ s.above.length := by
      rintro rfl
      obtain ⟨part, hpart, t, ht, hfor⟩ := Machine.suits_runParts hn
      exact absurd hfor (hunstarted part hpart t ht)
    have hsteps := steps_follow (h.after hmn flow (.int s.rest)) hbegin
    rw [behind, if_neg (Nat.lt_irrefl _)] at hsteps
    obtain ⟨v, rfl, hreturns, hl⟩ := leads_halves h.parted hv' hpatient hn
    refine ⟨[_], v, _, hl, hsteps.imp_right fun hback => ?_⟩
    rwa [Back, hreturns]

theorem leads_line (h : s.Beside p q) (next : q.next = p.next)
    (line : s.whole.numbers[i]? = some l) (same : p.next.same (.int l))
    (hv : Machine.visit p.site p.standing p.machine = .ok flow m) :
    ∃ vs v st, Leads s.parted.numbers (.more (s.before i) q) (vs ++ [v]) st ∧
      (s.Steps (follow s.whole.numbers i flow { p with machine := m.withFlow flow }) st ∨
        s.Back v.flow v.program) := by
  by_cases hi : i = s.above.length
  · subst hi
    have hl : l = s.line := by
      have hline : s.whole.numbers[s.above.length]? = some s.line := by
        simp [Lines.numbers, s.getElem?_line]
      exact Option.some.inj (line.symm.trans hline)
    rw [before, if_pos (Nat.le_refl _)]
    exact leads_seam h next (hl ▸ same) hv
  · obtain ⟨st, hl, hsteps⟩ := leads_apart h next line same hi hv
    exact ⟨[], _, st, hl, hsteps⟩

/-- Where the whole program comes to its end, so does the other one, unless a call from the first
half of the line comes back. -/
theorem finishes {st st' : Step} (hst : s.Steps st st') {k : Nat} {p' : Program}
    (hrun : Leads.resume s.whole.numbers k st = (.finished, p')) :
    (∃ vs q', Leads s.parted.numbers st' vs (.done q') ∧ s.Beside p' q') ∨
      ∃ vs v st'', Leads s.parted.numbers st' (vs ++ [v]) st'' ∧ s.Back v.flow v.program := by
  induction k generalizing st st' with
  | zero =>
      cases hst with
      | more => cases hrun
      | failed => cases hrun
      | done h =>
          cases hrun
          exact .inl ⟨[], _, .refl _, h⟩
  | succ k ih =>
      cases hst with
      | failed => cases hrun
      | done h =>
          cases hrun
          exact .inl ⟨[], _, .refl _, h⟩
      | @more i l p q h next line same =>
          rw [Leads.resume_more] at hrun
          cases hv : Machine.visit p.site p.standing p.machine with
          | error f m =>
              obtain ⟨g, p₁, hstep, -⟩ := failed_of_visit hv s.whole.numbers i
              rw [hstep] at hrun
              cases hrun
          | ok flow m =>
              rw [step_of_ok hv] at hrun
              obtain ⟨us, u, st₁, hl, hsteps | hback⟩ := leads_line h next line same hv
              · obtain ⟨vs, q', hl', hq'⟩ | ⟨vs, v, st₂, hl', hback⟩ := ih hsteps hrun
                · exact .inl ⟨_, q', hl.trans hl', hq'⟩
                · refine .inr ⟨us ++ [u] ++ vs, v, st₂, ?_, hback⟩
                  rw [List.append_assoc]
                  exact hl.trans hl'
              · exact .inr ⟨us, u, st₁, hl, hback⟩

theorem steps_opening (hp : p.lines = s.whole) (hq : q.lines = s.parted)
    (hreturns : q.returns = p.returns)
    (hmachine : s.cut.Relates True p.prepare.machine q.prepare.machine) :
    s.Steps p.opening q.opening := by
  have hsame : List.Forall₂ (fun n n' => n' = n ∨ n' = s.rest ∧ s.Calls) p.returns q.returns :=
    hreturns ▸ List.forall₂_same.mpr fun _ _ => .inl rfl
  have hbefore : s.before 0 = 0 := if_pos (Nat.zero_le _)
  have hfirst := s.getElem?_numbers 0
  rw [hbefore] at hfirst
  rw [opening, opening, Program.numbers, Program.numbers, hp, hq]
  cases hn : s.whole.numbers with
  | nil => exact .failed _ _ _
  | cons l ls =>
      rw [hn, List.getElem?_cons_zero] at hfirst
      obtain ⟨ls', hn'⟩ : ∃ ls', s.parted.numbers = l :: ls' :=
        List.head?_eq_some_iff.mp (List.head?_eq_getElem?.trans hfirst)
      rw [hn']
      have hmore : s.Steps (.more 0 { p.prepare with next := .int l }) (.more (s.before 0)
          { q.prepare with next := .int l }) :=
        .more ⟨hp, hq, hsame, hmachine⟩ rfl (by rw [hn]; rfl) (Value.same_int.mpr rfl)
      rwa [hbefore] at hmore

end Visit

end Seam

namespace Program

/-- The line `n` is cut in two, and its second half goes to the line `m`. Signs that were compared
are so in their new places. -/
def split (p : Program) (n m : Int) (a b : List Token) : Program :=
  { p with
    ledger := (p.ledger.put n a).put m b
    machine := { p.machine with
      compared := (p.machine.forget m).compared.map (Cut.sign ⟨n, m, (splitColons b).length⟩) } }

theorem lines_split (p : Program) (n m : Int) (a b : List Token) :
    (p.split n m a b).lines = (p.lines.put n a).put m b :=
  (Ledger.sorted_put _ _ _).trans (congrArg (Lines.put · m b) (Ledger.sorted_put _ _ _))

theorem relates_split {p : Program} (h : p.machine.terminal.patience = none) (n m : Int)
    (a b : List Token) :
    Cut.Relates ⟨n, m, (splitColons b).length⟩ True p.prepare.machine
      (p.split n m a b).prepare.machine := by
  refine ⟨_, none, rfl, fun _ => rfl, h, fun s hs => ?_⟩
  have hforget (t : Sign) :
      t ∈ (p.machine.forget m).compared ↔ t ∈ p.machine.compared ∧ t.line ≠ m := by
    simp [Machine.forget]
  refine Iff.trans ?_ List.mem_map.symm
  constructor
  · exact fun hmem => ⟨s, (hforget s).mpr ⟨hmem, hs⟩, rfl⟩
  · rintro ⟨t, ht, heq⟩
    obtain ⟨hmem, hne⟩ := (hforget t).mp ht
    exact (Cut.sign_inj hne hs).mp heq ▸ hmem

/-- A run that comes to its end without a fault does so with the same machine if a line is cut in
two at one of its colons, but for the places of signs: it has printed the same, read the same and
left the same variables and files. The statements of the line must not begin with FOR or NEXT. The
only other way it can go is that a call from the first half comes back: RETURN or NEXT then finds
the second half on top of the lines to come back to. -/
theorem runWithin_split (p : Program) (n m : Int) (a b : List Token) (colon : Token) (k : Nat)
    (p' : Program) (hline : p.lines.get? n = some (a ++ colon :: b))
    (hcolon : colon.isMark .colon)
    (hloops : ∀ key ∈ [Keyword.FOR, .NEXT], Unstarted key a ∧ Unstarted key b)
    (hnm : n < m) (hm : ∀ l ∈ p.numbers, n < l → m < l)
    (hpatient : p.machine.terminal.patience = none) (hrun : p.runWithin k = (.finished, p')) :
    (∃ k' q', (∀ j, (p.split n m a b).runWithin (k' + j) = (.finished, q')) ∧
      q'.machine = { p'.machine with compared := q'.machine.compared }) ∨
    ∃ vs v st, Leads (p.split n m a b).numbers (p.split n m a b).opening (vs ++ [v]) st ∧
      (v.flow = some .giveBack ∨ v.flow = some .loopRepeat) ∧
      v.program.returns.head? = some m ∧ ∃ t ∈ a, t.isKeyword .GOSUB := by
  obtain ⟨above, below, hwhole⟩ := Lines.exists_append_of_get? hline
  have ha := p.ascending_lines
  have hparted : (p.split n m a b).lines = above ++ (n, a) :: (m, b) :: below := by
    rw [hwhole] at ha
    have hbelow : ∀ l ∈ Lines.numbers below, m < l := by
      intro l hl
      have hafter : n < l := ha.sides.2 l hl
      refine hm l ?_ hafter
      rw [Program.numbers, hwhole]
      simp only [Lines.numbers, List.map_append, List.map_cons, List.mem_append, List.mem_cons]
      exact .inr (.inr hl)
    rw [lines_split, hwhole, Lines.put_put ha hnm hbelow]
  let s : Seam :=
    { above := above, line := n, first := a, colon := colon, last := b, rest := m, below := below
      isColon := hcolon
      unstarted := hloops
      ascending := hparted ▸ ascending_lines _ }
  have hsteps : s.Steps p.opening (p.split n m a b).opening :=
    Seam.steps_opening hwhole hparted rfl (relates_split hpatient n m a b)
  have hnumbers : p.numbers = s.whole.numbers := congrArg Lines.numbers hwhole
  have hnumbers' : (p.split n m a b).numbers = s.parted.numbers := congrArg Lines.numbers hparted
  rw [Leads.runWithin_eq, hnumbers] at hrun
  rw [hnumbers']
  obtain ⟨vs, q', hl, h⟩ | ⟨vs, v, st, hl, hback⟩ := Seam.finishes hsteps hrun
  · refine .inl ⟨vs.length, q', fun j => ?_, ?_⟩
    · rw [Leads.runWithin_eq, hnumbers', hl.resume_eq]
      rfl
    · obtain ⟨signs, flow, hq', hflow, -⟩ := h.machine
      rw [hq', hflow trivial]
  · exact .inr ⟨vs, v, st, hl, hback⟩

theorem runWithin_split_jump :
    let p := written [(10, "PRINT 1: GOTO 30"), (20, "PRINT 2"), (30, "PRINT 3")]
    let tokens := (p.lines.get? 10).getD []
    ∃ k q', (p.split 10 15 (tokens.take 2) (tokens.drop 3)).runWithin k = (.finished, q') ∧
      q'.machine.terminal.output = "1\n3\n" := by
  intro p tokens
  have hfinished : (p.runWithin 3).1 = .finished := by decide +kernel
  have houtput : (p.runWithin 3).2.machine.terminal.output = "1\n3\n" := by decide +kernel
  have hcalls : ¬ ∃ t ∈ tokens.take 2, t.isKeyword .GOSUB := by decide +kernel
  let colon := tokens.get ⟨2, by decide +kernel⟩
  have hline : p.lines.get? 10 = some (tokens.take 2 ++ colon :: tokens.drop 3) := by decide +kernel
  obtain ⟨k, q', hrun, hmachine⟩ | ⟨-, -, -, -, -, -, h⟩ := runWithin_split p 10 15 (tokens.take 2)
    (tokens.drop 3) colon 3 (p.runWithin 3).2 hline (by decide +kernel)
    (by unfold Unstarted; decide +kernel) (by decide) (by decide +kernel) (by decide +kernel)
    (Prod.ext hfinished rfl)
  · refine ⟨k, q', hrun 0, ?_⟩
    rw [hmachine]
    exact houtput
  · exact absurd h hcalls

/-- A subroutine comes back to the line after the call, and what stands behind the call in its line
is passed over; a line of its own is not. -/
theorem split_after_call :
    let p := written [(10, "GOSUB 30: PRINT \"B\""), (20, "STOP"), (30, "RETURN")]
    let tokens := (p.lines.get? 10).getD []
    let q := p.split 10 15 (tokens.take 2) (tokens.drop 3)
    (p.runWithin 9).1 = .finished ∧ (p.runWithin 9).2.machine.terminal.output = "" ∧
    (q.runWithin 9).1 = .finished ∧ (q.runWithin 9).2.machine.terminal.output = "B\n" := by
  decide +kernel

end Program

end LineBasic

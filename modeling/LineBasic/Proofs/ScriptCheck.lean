import LineBasic.Proofs.Local
import LineBasic.Terminal
import Mathlib.Data.List.Chain
import Mathlib.Data.List.Induction

namespace LineBasic

namespace Checker

def name? (line : String) : Option String :=
  match line.toList with
  | '*' :: name => some (String.ofList name)
  | _ => none

def text? (line : String) : Option String :=
  match line.toList with
  | ':' :: text => some (String.ofList text)
  | _ => none

def Plain (line : String) : Prop := name? line = none ∧ text? line = none

instance (line : String) : Decidable (Plain line) := inferInstanceAs (Decidable (_ ∧ _))

theorem name?_star (s : String) : name? ("*" ++ s) = some s := by
  simp [name?, String.toList_append]

theorem text?_star (s : String) : text? ("*" ++ s) = none := by
  simp [text?, String.toList_append]

theorem name?_colon (s : String) : name? (":" ++ s) = none := by
  simp [name?, String.toList_append]

theorem text?_colon (s : String) : text? (":" ++ s) = some s := by
  simp [text?, String.toList_append]

/-- A line opens a test, says what is expected, or is plain. -/
theorem line_cases (line : String) :
    (∃ s, line = "*" ++ s) ∨ (∃ s, line = ":" ++ s) ∨ Plain line := by
  have hmark (c : Char) (cs : List Char) (h : line.toList = c :: cs) :
      line = String.ofList [c] ++ String.ofList cs := by
    rw [← String.ofList_append, ← String.ofList_toList (s := line), h]
    rfl
  rw [Plain, name?, text?]
  split
  · rename_i h
    exact .inl ⟨_, hmark _ _ h⟩
  · split
    · rename_i h
      exact .inr (.inl ⟨_, hmark _ _ h⟩)
    · exact .inr (.inr ⟨rfl, rfl⟩)

def take? (c : Checker) (line : String) : Option Checker :=
  ((c.append line).finishLine).toOption.map Prod.fst

theorem take?_star (test expected : Option String) (s : String) :
    take? ⟨test, expected, ""⟩ ("*" ++ s) =
      if named test || named expected then none else some ⟨some s, expected, ""⟩ := by
  have hline : ("" ++ ("*" ++ s)).toList = '*' :: s.toList := by simp [String.toList_append]
  have hfinish : (append ⟨test, expected, ""⟩ ("*" ++ s)).finishLine =
      if named test || named expected then .error (.testPending, "")
      else .ok (⟨some (String.ofList s.toList), expected, ""⟩, "") := by
    rw [append, finishLine, hline]
    rfl
  rw [take?, hfinish, String.ofList_toList]
  split <;> rfl

theorem take?_colon (test expected : Option String) (s : String) :
    take? ⟨test, expected, ""⟩ (":" ++ s) =
      if test = none ∨ named expected then none else some ⟨test, some s, ""⟩ := by
  have hline : ("" ++ (":" ++ s)).toList = ':' :: s.toList := by simp [String.toList_append]
  have hfinish : (append ⟨test, expected, ""⟩ (":" ++ s)).finishLine =
      if test = none then .error (.testMissing, "")
      else if named expected then .error (.resultPending, "")
      else .ok (⟨test, some (String.ofList s.toList), ""⟩, "") := by
    rw [append, finishLine, hline]
    rfl
  rw [take?, hfinish, String.ofList_toList]
  by_cases htest : test = none
  · rw [if_pos htest, if_pos (.inl htest)]
    rfl
  · by_cases hexpected : named expected
    · rw [if_neg htest, if_pos hexpected, if_pos (.inr hexpected)]
      rfl
    · rw [if_neg htest, if_neg hexpected, if_neg (not_or.mpr ⟨htest, hexpected⟩)]
      rfl

theorem take?_plain (test expected : Option String) {line : String} (h : Plain line) :
    take? ⟨test, expected, ""⟩ line =
      if test ≠ none ∧ expected = some line then some empty else none := by
  obtain ⟨hname, htext⟩ := h
  rw [name?] at hname
  rw [text?] at htext
  rw [take?, append, finishLine]
  dsimp only
  rw [String.empty_append]
  split
  · rename_i heq
    simp [heq] at hname
  · rename_i heq
    simp [heq] at htext
  · cases test with
    | none => rfl
    | some test =>
        cases expected with
        | none => rfl
        | some expected =>
            by_cases hline : line = expected
            · simp [hline, Except.toOption, pure, Except.pure]
            · simp [hline, Ne.symm hline, Except.toOption, throw, throwThe, MonadExceptOf.throw]

def takeAll? (c : Checker) (lines : List String) : Option Checker := lines.foldlM take? c

theorem takeAll?_append (c : Checker) (ls ms : List String) :
    takeAll? c (ls ++ ms) = (takeAll? c ls).bind (takeAll? · ms) := by
  simp [takeAll?]

theorem takeAll?_concat (c : Checker) (lines : List String) (line : String) :
    takeAll? c (lines ++ [line]) = (takeAll? c lines).bind (take? · line) := by
  simp [takeAll?]

/-- Another line may stand between this one and the result: if that is a test too then this one has
no name, and if this one says what is expected then it has no text. -/
def Yields (line next : String) : Prop :=
  ((name? line).isSome → (name? next).isSome → line = "*") ∧ ((text? line).isSome → line = ":")

structure Opening (lines : List String) : Prop where
  marked : ∀ line ∈ lines, ¬ Plain line
  first : ∀ line ∈ lines.head?, (name? line).isSome
  yields : lines.Pairwise Yields

theorem opening_nil : Opening [] := ⟨by simp, by simp, .nil⟩

def opened (lines : List String) : Checker :=
  ⟨(lines.filterMap name?).getLast?, (lines.filterMap text?).getLast?, ""⟩

theorem name?_eq_some {line s : String} : name? line = some s ↔ line = "*" ++ s := by
  refine ⟨fun h => ?_, fun h => h ▸ name?_star s⟩
  rcases line_cases line with ⟨u, rfl⟩ | ⟨u, rfl⟩ | hplain
  · rw [name?_star] at h
    rw [Option.some.inj h]
  · rw [name?_colon] at h
    cases h
  · rw [hplain.1] at h
    cases h

theorem text?_eq_some {line s : String} : text? line = some s ↔ line = ":" ++ s := by
  refine ⟨fun h => ?_, fun h => h ▸ text?_colon s⟩
  rcases line_cases line with ⟨u, rfl⟩ | ⟨u, rfl⟩ | hplain
  · rw [text?_star] at h
    cases h
  · rw [text?_colon] at h
    rw [Option.some.inj h]
  · rw [hplain.2] at h
    cases h

theorem opening_concat {lines : List String} {line : String} :
    Opening (lines ++ [line]) ↔ Opening lines ∧ ¬ Plain line ∧
      (lines = [] → (name? line).isSome) ∧ ∀ l ∈ lines, Yields l line := by
  constructor
  · rintro ⟨hmarked, hfirst, hyields⟩
    rw [List.pairwise_append] at hyields
    refine ⟨⟨fun l hl => hmarked l (List.mem_append_left _ hl), fun l hl => hfirst l ?_,
      hyields.1⟩, hmarked line (by simp), fun hnil => hfirst line (by simp [hnil]),
      fun l hl => hyields.2.2 l hl line (by simp)⟩
    cases lines with
    | nil => cases hl
    | cons => exact hl
  · rintro ⟨⟨hmarked, hfirst, hyields⟩, hline, hnil, hbehind⟩
    refine ⟨fun l hl => ?_, fun l hl => ?_, ?_⟩
    · rcases List.mem_append.mp hl with hl | hl
      · exact hmarked l hl
      · rwa [List.mem_singleton.mp hl]
    · cases lines with
      | nil =>
          cases hl
          exact hnil rfl
      | cons => exact hfirst l hl
    · rw [List.pairwise_append]
      refine ⟨hyields, List.pairwise_singleton _ _, fun l hl m hm => ?_⟩
      rw [List.mem_singleton.mp hm]
      exact hbehind l hl

/-- What was said last is empty only if nothing was said with a text: before the last line of a kind
only blank ones can stand. -/
theorem named_getLast? {mark : String} {f : String → Option String}
    (hf : ∀ {line s}, f line = some s ↔ line = mark ++ s) {lines : List String}
    (h : lines.Pairwise fun l m => (f l).isSome → (f m).isSome → l = mark) :
    named (lines.filterMap f).getLast? = false ↔ ∀ l ∈ lines, (f l).isSome → l = mark := by
  induction lines using List.reverseRecOn with
  | nil => simp [named]
  | append_singleton lines line ih =>
      rw [List.pairwise_append] at h
      obtain ⟨hlines, -, hline⟩ := h
      rw [List.filterMap_append, List.forall_mem_append]
      cases hs : f line with
      | none =>
          have hskip : [line].filterMap f = [] := by simp [hs]
          rw [hskip, List.append_nil, ih hlines]
          simp [hs]
      | some s =>
          have hlast : [line].filterMap f = [s] := by simp [hs]
          have hbefore : ∀ l ∈ lines, (f l).isSome → l = mark :=
            fun l hl hsome => hline l hl line (by simp) hsome (by simp [hs])
          have hblank : named (some s) = false ↔ line = mark := by
            rw [hf.mp hs]
            simp [named]
          rw [hlast, List.getLast?_concat, hblank]
          refine ⟨fun hmark => ⟨hbefore, ?_⟩, fun hall => hall.2 line (by simp) (by simp [hs])⟩
          simpa using fun _ => hmark

variable {lines : List String} {line : String}

theorem Opening.named_test (h : Opening lines) :
    named (opened lines).test = false ↔ ∀ l ∈ lines, (name? l).isSome → l = "*" :=
  named_getLast? name?_eq_some (h.yields.imp fun hyields => hyields.1)

theorem Opening.named_expected (h : Opening lines) :
    named (opened lines).expected = false ↔ ∀ l ∈ lines, (text? l).isSome → l = ":" :=
  named_getLast? text?_eq_some (h.yields.imp fun hyields hsome _ => hyields.2 hsome)

theorem Opening.test_eq_none (h : Opening lines) : (opened lines).test = none ↔ lines = [] := by
  constructor
  · intro hnone
    cases lines with
    | nil => rfl
    | cons l lines =>
        have hname := h.first l rfl
        have hall := List.filterMap_eq_nil_iff.mp (List.getLast?_eq_none_iff.mp hnone)
        rw [hall l List.mem_cons_self] at hname
        cases hname
  · rintro rfl
    rfl

/-- Behind an opening the checker takes a line other than a result exactly if that makes another
opening. -/
theorem Opening.take?_marked (h : Opening lines) (hline : ¬ Plain line) {c : Checker} :
    take? (opened lines) line = some c ↔
      Opening (lines ++ [line]) ∧ c = opened (lines ++ [line]) := by
  have htake (l : String) : take? (opened lines) l =
      take? ⟨(opened lines).test, (opened lines).expected, ""⟩ l := rfl
  rw [opening_concat, htake]
  rcases line_cases line with ⟨s, rfl⟩ | ⟨s, rfl⟩ | hplain
  · have hopened : opened (lines ++ ["*" ++ s]) = ⟨some s, (opened lines).expected, ""⟩ := by
      simp only [opened, List.filterMap_append, List.filterMap_cons_some (name?_star s),
        List.filterMap_cons_none (text?_star s), List.filterMap_nil, List.append_nil,
        List.getLast?_concat]
    have hyields : (∀ l ∈ lines, Yields l ("*" ++ s)) ↔
        (named (opened lines).test || named (opened lines).expected) = false := by
      rw [Bool.or_eq_false_iff, h.named_test, h.named_expected, ← forall₂_and]
      simp [Yields, name?_star]
    rw [take?_star, hyields, hopened]
    cases named (opened lines).test || named (opened lines).expected <;>
      simp [h, hline, name?_star, eq_comm]
  · have hopened : opened (lines ++ [":" ++ s]) = ⟨(opened lines).test, some s, ""⟩ := by
      simp only [opened, List.filterMap_append, List.filterMap_cons_some (text?_colon s),
        List.filterMap_cons_none (name?_colon s), List.filterMap_nil, List.append_nil,
        List.getLast?_concat]
    have hyields : (∀ l ∈ lines, Yields l (":" ++ s)) ↔ named (opened lines).expected = false := by
      rw [h.named_expected]
      simp [Yields, name?_colon]
    rw [take?_colon, hyields, hopened]
    simp only [h.test_eq_none]
    cases named (opened lines).expected <;> by_cases hnil : lines = [] <;>
      simp [h, hline, hnil, name?_colon, eq_comm]
  · exact absurd hplain hline

/-- A result is taken exactly if it is what was expected last. Then all is as at the start. -/
theorem Opening.take?_result (h : Opening lines) (hline : Plain line) {c : Checker} :
    take? (opened lines) line = some c ↔
      (lines.filterMap text?).getLast? = some line ∧ c = empty := by
  have htake : take? (opened lines) line =
      take? ⟨(opened lines).test, (opened lines).expected, ""⟩ line := rfl
  have hne : (opened lines).expected = some line → (opened lines).test ≠ none := by
    intro hexpected htest
    rw [h.test_eq_none.mp htest] at hexpected
    cases hexpected
  rw [htake, take?_plain _ _ hline]
  by_cases hexpected : (opened lines).expected = some line
  · rw [if_pos ⟨hne hexpected, hexpected⟩]
    exact ⟨fun hc => ⟨hexpected, (Option.some.inj hc).symm⟩, fun hc => by rw [hc.2]⟩
  · rw [if_neg fun hboth => hexpected hboth.2]
    exact ⟨fun hc => (Option.some_ne_none c hc.symm).elim, fun hc => absurd hc.1 hexpected⟩

theorem Opening.takeAll?_eq (h : Opening lines) : takeAll? empty lines = some (opened lines) := by
  induction lines using List.reverseRecOn with
  | nil => rfl
  | append_singleton lines line ih =>
      obtain ⟨hlines, hline, -, -⟩ := opening_concat.mp h
      rw [takeAll?_concat, ih hlines, Option.bind_some]
      exact (hlines.take?_marked hline).mpr ⟨h, rfl⟩

def Passed (lines : List String) : Prop :=
  ∃ before result, lines = before ++ [result] ∧ Opening before ∧ Plain result ∧
    (before.filterMap text?).getLast? = some result

theorem Passed.takeAll?_eq (h : Passed lines) : takeAll? empty lines = some empty := by
  obtain ⟨before, result, rfl, hbefore, hplain, hlast⟩ := h
  rw [takeAll?_concat, hbefore.takeAll?_eq, Option.bind_some]
  exact (hbefore.take?_result hplain).mpr ⟨hlast, rfl⟩

/-- What the checker lets pass: tests, and the beginning of another. -/
def Lenient (lines : List String) : Prop :=
  ∃ (tests : List (List String)) (before : List String),
    lines = tests.flatten ++ before ∧ (∀ t ∈ tests, Passed t) ∧ Opening before

theorem takeAll?_flatten {tests : List (List String)} (h : ∀ t ∈ tests, Passed t) :
    takeAll? empty tests.flatten = some empty := by
  induction tests with
  | nil => rfl
  | cons t tests ih =>
      rw [List.forall_mem_cons] at h
      rw [List.flatten_cons, takeAll?_append, h.1.takeAll?_eq]
      exact ih h.2

theorem lenient_of_takeAll? {c : Checker} (h : takeAll? empty lines = some c) :
    ∃ (tests : List (List String)) (before : List String), lines = tests.flatten ++ before ∧
      (∀ t ∈ tests, Passed t) ∧ Opening before ∧ c = opened before := by
  induction lines using List.reverseRecOn generalizing c with
  | nil => exact ⟨[], [], rfl, by simp, opening_nil, (Option.some.inj h).symm⟩
  | append_singleton lines line ih =>
      rw [takeAll?_concat] at h
      obtain ⟨d, hd, hline⟩ := Option.bind_eq_some_iff.mp h
      obtain ⟨tests, before, rfl, htests, hbefore, rfl⟩ := ih hd
      by_cases hplain : Plain line
      · obtain ⟨hlast, rfl⟩ := (hbefore.take?_result hplain).mp hline
        refine ⟨tests ++ [before ++ [line]], [], by simp, ?_, opening_nil, rfl⟩
        rw [List.forall_mem_append, List.forall_mem_singleton]
        exact ⟨htests, before, line, rfl, hbefore, hplain, hlast⟩
      · obtain ⟨hopening, rfl⟩ := (hbefore.take?_marked hplain).mp hline
        exact ⟨tests, before ++ [line], List.append_assoc .., htests, hopening, rfl⟩

theorem isSome_takeAll?_iff : (takeAll? empty lines).isSome ↔ Lenient lines := by
  constructor
  · intro h
    obtain ⟨c, hc⟩ := Option.isSome_iff_exists.mp h
    obtain ⟨tests, before, hlines, htests, hbefore, -⟩ := lenient_of_takeAll? hc
    exact ⟨tests, before, hlines, htests, hbefore⟩
  · rintro ⟨tests, before, rfl, htests, hbefore⟩
    rw [takeAll?_append, takeAll?_flatten htests, Option.bind_some, hbefore.takeAll?_eq]
    rfl

structure Trial where
  name : String
  expected : String
  plain : Plain expected

def Trial.script (t : Trial) : List String := ["*" ++ t.name, ":" ++ t.expected, t.expected]

def Proper (lines : List String) : Prop :=
  ∃ tests : List Trial, lines <+: tests.flatMap Trial.script

def Overlooked (line next : String) : Prop :=
  (line = "*" ∧ (name? next).isSome) ∨ (line = ":" ∧ ¬ Plain next)

/-- No line comes too early behind one without text, and no result is expected that cannot be
given. -/
structure Unmistakable (lines : List String) : Prop where
  heard : lines.IsChain fun l m => ¬ Overlooked l m
  plain : ∀ line ∈ lines, ∀ s, text? line = some s → Plain s

theorem not_overlooked_star (s t : String) : ¬ Overlooked ("*" ++ s) (":" ++ t) := by
  rintro (⟨-, hnext⟩ | ⟨hline, -⟩)
  · rw [name?_colon] at hnext
    cases hnext
  · have htext := text?_star s
    rw [hline] at htext
    cases htext

theorem not_overlooked_colon (s : String) {next : String} (h : Plain next) :
    ¬ Overlooked (":" ++ s) next := by
  rintro (⟨-, hnext⟩ | ⟨-, hnext⟩)
  · rw [h.1] at hnext
    cases hnext
  · exact hnext h

theorem not_overlooked_plain (h : Plain line) (next : String) : ¬ Overlooked line next := by
  rintro (⟨rfl, -⟩ | ⟨rfl, -⟩)
  · exact absurd h.1 (by decide)
  · exact absurd h.2 (by decide)

theorem unmistakable_flatMap (tests : List Trial) :
    Unmistakable (tests.flatMap Trial.script) := by
  refine ⟨?_, fun line hline s hs => ?_⟩
  · induction tests with
    | nil => exact .nil
    | cons t tests ih =>
        have hscript : t.script.IsChain fun l m => ¬ Overlooked l m := by
          simp [Trial.script, not_overlooked_star, not_overlooked_colon _ t.plain]
        rw [List.flatMap_cons, List.isChain_append]
        refine ⟨hscript, ih, fun l hl m _ => ?_⟩
        obtain rfl : t.expected = l := by simpa [Trial.script] using hl
        exact not_overlooked_plain t.plain m
  · obtain ⟨t, -, ht⟩ := List.mem_flatMap.mp hline
    obtain rfl | rfl | rfl :
        line = "*" ++ t.name ∨ line = ":" ++ t.expected ∨ line = t.expected := by
      simpa [Trial.script] using ht
    · rw [text?_star] at hs
      cases hs
    · rw [text?_colon] at hs
      exact Option.some.inj hs ▸ t.plain
    · rw [t.plain.2] at hs
      cases hs

theorem unmistakable_append {ls ms : List String} (h : Unmistakable (ls ++ ms)) :
    Unmistakable ls :=
  ⟨(List.isChain_append.mp h.heard).1,
    fun line hline => h.plain line (List.mem_append_left _ hline)⟩

theorem Proper.unmistakable (h : Proper lines) : Unmistakable lines := by
  obtain ⟨tests, more, hmore⟩ := h
  exact unmistakable_append (hmore ▸ unmistakable_flatMap tests)

theorem not_plain_star (s : String) : ¬ Plain ("*" ++ s) := by
  simp [Plain, name?_star]

theorem not_plain_colon (s : String) : ¬ Plain (":" ++ s) := by
  simp [Plain, text?_colon]

theorem Trial.passed (t : Trial) : Passed t.script := by
  have hname : Opening (["*" ++ t.name]) :=
    @opening_concat [] _ |>.mpr ⟨opening_nil, not_plain_star _, by simp [name?_star], by simp⟩
  have hboth : Opening (["*" ++ t.name] ++ [":" ++ t.expected]) := by
    refine opening_concat.mpr ⟨hname, not_plain_colon _, by simp, ?_⟩
    simp [Yields, name?_colon, text?_star]
  refine ⟨_, t.expected, rfl, hboth, t.plain, ?_⟩
  simp [text?_star, text?_colon]

theorem Proper.isSome_takeAll? (h : Proper lines) : (takeAll? empty lines).isSome := by
  obtain ⟨tests, more, hmore⟩ := h
  have hall : takeAll? empty (lines ++ more) = some empty := by
    rw [hmore, List.flatMap_def]
    refine takeAll?_flatten fun ls hls => ?_
    obtain ⟨t, -, rfl⟩ := List.mem_map.mp hls
    exact t.passed
  rw [takeAll?_append] at hall
  cases hlines : takeAll? empty lines with
  | none =>
      rw [hlines] at hall
      cases hall
  | some c => rfl

inductive Underway : List String → Checker → Prop
  | start : Underway [] empty
  | named (name : String) : Underway ["*" ++ name] ⟨some name, none, ""⟩
  | expecting (t : Trial) :
      Underway ["*" ++ t.name, ":" ++ t.expected] ⟨some t.name, some t.expected, ""⟩

theorem Underway.take? {before : List String} {c d : Checker} (h : Underway before c)
    (hd : c.take? line = some d) (hheard : ∀ l ∈ before.getLast?, ¬ Overlooked l line)
    (hplain : ∀ s, text? line = some s → Plain s) :
    Underway (before ++ [line]) d ∨ ∃ t : Trial, before ++ [line] = t.script ∧ d = empty := by
  cases h with
  | start =>
      rcases line_cases line with ⟨s, rfl⟩ | ⟨s, rfl⟩ | hline
      · cases (take?_star none none s).symm.trans hd
        exact .inl (.named s)
      · cases (take?_colon none none s).symm.trans hd
      · cases (take?_plain none none hline).symm.trans hd
  | named name =>
      rcases line_cases line with ⟨s, rfl⟩ | ⟨s, rfl⟩ | hline
      · by_cases hname : name = ""
        · refine absurd (.inl ⟨?_, ?_⟩) (hheard ("*" ++ name) rfl)
          · rw [hname, String.append_empty]
          · rw [name?_star]
            rfl
        · rw [take?_star, if_pos (by simp [Checker.named, hname])] at hd
          cases hd
      · rw [take?_colon, if_neg (by simp [Checker.named])] at hd
        cases hd
        exact .inl (.expecting ⟨name, s, hplain s (text?_colon s)⟩)
      · rw [take?_plain _ _ hline, if_neg (by simp)] at hd
        cases hd
  | expecting t =>
      by_cases hline : Plain line
      · rw [take?_plain _ _ hline] at hd
        split at hd
        · rename_i hresult
          cases hd
          exact .inr ⟨t, by rw [← Option.some.inj hresult.2]; rfl, rfl⟩
        · cases hd
      · by_cases hexpected : t.expected = ""
        · refine absurd (.inr ⟨?_, hline⟩) (hheard (":" ++ t.expected) rfl)
          rw [hexpected, String.append_empty]
        · have hpending : Checker.named (some t.expected) := by simp [Checker.named, hexpected]
          rcases line_cases line with ⟨s, rfl⟩ | ⟨s, rfl⟩ | hplain
          · rw [take?_star, if_pos (by simp [hpending])] at hd
            cases hd
          · rw [take?_colon, if_pos (.inr hpending)] at hd
            cases hd
          · exact absurd hplain hline

theorem Unmistakable.underway {c : Checker} (h : Unmistakable lines)
    (hc : takeAll? empty lines = some c) :
    ∃ (tests : List Trial) (before : List String),
      lines = tests.flatMap Trial.script ++ before ∧ Underway before c := by
  induction lines using List.reverseRecOn generalizing c with
  | nil =>
      cases hc
      exact ⟨[], [], rfl, .start⟩
  | append_singleton lines line ih =>
      rw [takeAll?_concat] at hc
      obtain ⟨d, hd, hline⟩ := Option.bind_eq_some_iff.mp hc
      obtain ⟨tests, before, rfl, hbefore⟩ := ih (unmistakable_append h) hd
      have hheard : ∀ l ∈ before.getLast?, ¬ Overlooked l line := by
        intro l hl
        refine (List.isChain_append.mp h.heard).2.2 l ?_ line rfl
        rw [List.getLast?_append, Option.mem_def.mp hl]
        rfl
      rcases hbefore.take? hline hheard (h.plain line (by simp)) with hnext | ⟨t, ht, rfl⟩
      · exact ⟨tests, before ++ [line], List.append_assoc .., hnext⟩
      · refine ⟨tests ++ [t], [], ?_, .start⟩
        rw [List.append_assoc, ht, List.flatMap_append, List.flatMap_singleton, List.append_nil]

theorem Underway.proper {c : Checker} (h : Underway lines c) (tests : List Trial) :
    Proper (tests.flatMap Trial.script ++ lines) := by
  have hnext (t : Trial) (hbegins : lines <+: t.script) :
      Proper (tests.flatMap Trial.script ++ lines) := by
    refine ⟨tests ++ [t], ?_⟩
    rw [List.flatMap_append, List.flatMap_singleton]
    exact (List.prefix_append_right_inj _).mpr hbegins
  cases h with
  | start => exact hnext ⟨"", "", by decide⟩ ⟨_, rfl⟩
  | named name => exact hnext ⟨name, "", by decide⟩ ⟨_, rfl⟩
  | expecting t => exact hnext t ⟨_, rfl⟩

end Checker

namespace Terminal

open Checker Outcome

def give (script : List (List String)) : Act Unit :=
  script.forM fun pieces => do
    pieces.forM write
    enter

def Accepts (t : Terminal) (script : List (List String)) : Prop := ∃ u, give script t = .ok () u

variable {c : Checker} {typed : List String} {patience : Option Nat} {events : List Event}

theorem forM_write_checker (pieces : List String) :
    pieces.forM write ⟨.checker c, typed, patience, events⟩ =
      .ok () ⟨.checker (c.append (String.join pieces)), typed, patience, events⟩ := by
  induction pieces generalizing c with
  | nil => simp [append, pure, EStateM.pure]
  | cons s pieces ih =>
      have hjoin : c.append (String.join (s :: pieces)) =
          (c.append s).append (String.join pieces) := by
        simp [append, String.append_assoc]
      show (write s >>= fun _ => pieces.forM write) _ = _
      rw [hjoin, ← ih]
      rfl

theorem enter_checker_ok {d : Checker} {out : String} (h : c.finishLine = .ok (d, out)) :
    enter ⟨.checker c, typed, patience, events⟩ =
      .ok () ⟨.checker d, typed, patience, .wrote out :: events⟩ := by
  show finishLine c _ = _
  rw [finishLine, h]
  rfl

theorem enter_checker_error {f : Fault} {out : String} (h : c.finishLine = .error (f, out)) :
    enter ⟨.checker c, typed, patience, events⟩ =
      .error f ⟨.checker c, typed, patience, .wrote out :: events⟩ := by
  show finishLine c _ = _
  rw [finishLine, h]
  rfl

theorem accepts_checker (script : List (List String)) :
    Accepts ⟨.checker c, typed, patience, events⟩ script ↔
      (c.takeAll? (script.map String.join)).isSome := by
  induction script generalizing c events with
  | nil => exact ⟨fun _ => rfl, fun _ => ⟨_, rfl⟩⟩
  | cons pieces script ih =>
      have hgive : give (pieces :: script) ⟨.checker c, typed, patience, events⟩ =
          (enter >>= fun _ => give script)
            ⟨.checker (c.append (String.join pieces)), typed, patience, events⟩ := by
        show ((pieces.forM write >>= fun _ => enter) >>= fun _ => give script) _ = _
        rw [bind_assoc, bind_ok (forM_write_checker pieces)]
      have htake : c.takeAll? ((pieces :: script).map String.join) =
          (c.take? (String.join pieces)).bind (takeAll? · (script.map String.join)) := by
        simp [takeAll?]
      rw [Accepts, hgive, htake, take?]
      cases hfinish : (c.append (String.join pieces)).finishLine with
      | ok r =>
          rw [bind_ok (enter_checker_ok hfinish)]
          exact ih
      | error r =>
          rw [bind_error (enter_checker_error hfinish)]
          constructor
          · rintro ⟨u, hu⟩
            cases hu
          · intro hsome
            cases hsome

/-- A new checker takes a script without a fault exactly if it is made of tests that it lets pass.
Those are the tests of three lines whose result is what they expect, unless a test without a name or
an expectation without a text is followed by another line that should have been reported, or a text
is expected that no result can be. -/
theorem accepted_iff (script : List (List String)) (typed : List String) (patience : Option Nat) :
    let checker := ofDevice (.checker .empty) typed patience
    let lines := script.map String.join
    (checker.Accepts script ↔ Lenient lines) ∧
    (Proper lines ↔ checker.Accepts script ∧ Unmistakable lines) := by
  intro checker lines
  have haccepts : checker.Accepts script ↔ (takeAll? .empty lines).isSome := accepts_checker script
  rw [haccepts]
  refine ⟨isSome_takeAll?_iff, fun h => ⟨h.isSome_takeAll?, h.unmistakable⟩, fun ⟨hsome, h⟩ => ?_⟩
  obtain ⟨c, hc⟩ := Option.isSome_iff_exists.mp hsome
  obtain ⟨tests, before, hlines, hunderway⟩ := h.underway hc
  rw [hlines]
  exact hunderway.proper tests

/-- A test without a name may be followed by another test, and an expectation without a text by
another expectation. -/
theorem blank_lines_overlooked :
    let checker := ofDevice (.checker .empty) [] none
    checker.Accepts [["*"], ["*A"]] ∧ ¬ Proper ["*", "*A"] ∧
    checker.Accepts [["*A"], [":"], [":1"], ["1"]] ∧ ¬ Proper ["*A", ":", ":1", "1"] := by
  refine ⟨(accepts_checker _).mpr (by decide +kernel), fun h => ?_,
    (accepts_checker _).mpr (by decide +kernel), fun h => ?_⟩
  · have hheard := h.unmistakable.heard
    rw [List.isChain_cons_cons] at hheard
    exact hheard.1 (.inl ⟨rfl, by decide⟩)
  · have hheard := h.unmistakable.heard
    rw [List.isChain_cons_cons, List.isChain_cons_cons] at hheard
    exact hheard.2.1 (.inr ⟨rfl, by decide⟩)

end Terminal

end LineBasic

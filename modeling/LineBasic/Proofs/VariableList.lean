import LineBasic.Proofs.Agreement
import LineBasic.Proofs.Lines

namespace LineBasic

open Outcome

structure OpenEnded (ts : List Token) : Prop where
  commas : ∀ i t, ts[2 * i + 1]? = some t → t.isMark .comma
  last : ∃ t, ts.getLast? = some t ∧ t.isMark .comma

namespace OpenEnded

variable {t u v : Token} {ts : List Token}

theorem one_iff : OpenEnded [t] ↔ t.isMark .comma := by
  refine ⟨fun h => ?_, fun h => ⟨fun i u hu => by simp at hu, t, rfl, h⟩⟩
  obtain ⟨_, hlast, hcomma⟩ := h.last
  cases hlast
  exact hcomma

theorem two_iff : OpenEnded [t, u] ↔ u.isMark .comma := by
  refine ⟨fun h => h.commas 0 u rfl, fun h => ⟨fun i v hv => ?_, u, rfl, h⟩⟩
  cases i with
  | zero =>
      cases hv
      exact h
  | succ i => simp [Nat.mul_add] at hv

theorem more_iff : OpenEnded (t :: u :: v :: ts) ↔ u.isMark .comma ∧ OpenEnded (v :: ts) := by
  refine ⟨fun h => ⟨h.commas 0 u rfl, fun i w hw => h.commas (i + 1) w ?_, h.last⟩,
    fun ⟨hu, h⟩ => ⟨fun i w hw => ?_, h.last⟩⟩
  · exact hw
  · cases i with
    | zero =>
        cases hw
        exact hu
    | succ i => exact h.commas i w hw

end OpenEnded

inductive Gathers : Cursor → List String → Cursor → Prop
  | stop {c : Cursor} (done : ¬ c.current.isMark .comma) : Gathers c [] c
  | more {c c' : Cursor} {names : List String} (comma : c.current.isMark .comma)
      (rest : Gathers c.advance.advance names c') :
      Gathers c (c.advance.current.lexeme :: names) c'

def Circles (c : Cursor) : Prop := ∀ n, (c.pass (2 * n)).current.isMark .comma

theorem circles_iff {c : Cursor} :
    Circles c ↔ c.current.isMark .comma ∧ Circles c.advance.advance := by
  refine ⟨fun h => ⟨h 0, fun n => h (n + 1)⟩, fun ⟨hc, h⟩ n => ?_⟩
  cases n with
  | zero => exact hc
  | succ n => exact h n

theorem Gathers.not_circles {c c' : Cursor} {names : List String} (h : Gathers c names c') :
    ¬ Circles c := by
  induction h with
  | stop done => exact fun hc => done (hc 0)
  | more comma rest ih => exact fun hc => ih (circles_iff.mp hc).2

theorem circles_at_end {t : Token} (h : t.isMark .comma) (k : Nat) : Circles ⟨t, [], k⟩ := by
  intro n
  have hcurrent (i : Nat) : ((⟨t, [], k⟩ : Cursor).pass i).current = t := by
    induction i generalizing k with
    | zero => rfl
    | succ i ih => exact ih (k + 1)
  rwa [hcurrent]

/-- One turn takes two tokens, so two tokens at a time are looked at. -/
theorem circles_or_gathers (t : Token) (ts : List Token) (k : Nat) :
    OpenEnded (t :: ts) ∧ Circles ⟨t, ts, k⟩ ∨
      ¬ OpenEnded (t :: ts) ∧ ∃ names c, Gathers ⟨t, ts, k⟩ names c := by
  match ts with
  | [] =>
      rw [OpenEnded.one_iff]
      by_cases ht : t.isMark .comma
      · exact .inl ⟨ht, circles_at_end ht k⟩
      · exact .inr ⟨ht, _, _, .stop ht⟩
  | [u] =>
      rw [OpenEnded.two_iff]
      by_cases hu : u.isMark .comma
      · exact .inl ⟨hu, circles_iff.mpr ⟨hu, circles_at_end hu _⟩⟩
      · exact .inr ⟨hu, _, _, .stop hu⟩
  | u :: v :: ts =>
      rw [OpenEnded.more_iff]
      by_cases hu : u.isMark .comma
      · obtain ⟨hopen, hcircles⟩ | ⟨hopen, names, c, hgathers⟩ := circles_or_gathers v ts k
        · exact .inl ⟨⟨hu, hopen⟩, circles_iff.mpr ⟨hu, hcircles⟩⟩
        · exact .inr ⟨fun h => hopen h.2, _, _, .more hu hgathers⟩
      · exact .inr ⟨fun h => hu h.1, _, _, .stop hu⟩

/-- A turn that ends somewhere has two tokens in front of it. -/
theorem Gathers.length_le {c c' : Cursor} {names : List String} (h : Gathers c names c') :
    2 * names.length ≤ c.rest.length := by
  induction h with
  | stop => exact Nat.zero_le _
  | @more c c' names comma rest ih =>
      obtain ⟨last, ts, k⟩ := c
      have hne : ∀ u, u.isMark .comma → ¬ Gathers ⟨u, [], k + 1⟩ names c' :=
        fun u hu hg => hg.not_circles (circles_at_end hu _)
      match ts with
      | [] => exact absurd (circles_at_end comma _) rest.not_circles
      | [u] => exact absurd rest (hne u comma)
      | u :: v :: ts =>
          have hlength : 2 * names.length ≤ ts.length := ih
          simp only [List.length_cons]
          omega

namespace Exec

variable {site : Site} {m : Machine}

theorem moreNames_succ (n : Nat) (c : Cursor) :
    moreNames (n + 1) site ⟨c, m⟩ =
      if c.current.isMark .comma then
        if c.advance.atEnd then .error .endlessNames ⟨c.advance, m⟩
        else (moreNames n >>= fun names => pure (c.advance.current.lexeme :: names)) site
          ⟨c.advance.advance, m⟩
      else .ok [] ⟨c, m⟩ := by
  show (if c.current.isMark .comma then _ else _ : Exec (List String)) site ⟨c, m⟩ = _
  split
  · rw [advance_bind, atEnd_bind]
    dsimp only
    split <;> rfl
  · rfl

theorem moreNames_of_gathers {c c' : Cursor} {names : List String} (h : Gathers c names c')
    {n : Nat} (hn : names.length ≤ n) : moreNames n site ⟨c, m⟩ = .ok names ⟨c', m⟩ := by
  induction h generalizing n with
  | stop done =>
      cases n with
      | zero => rfl
      | succ n => rw [moreNames_succ, if_neg done]
  | @more c c' names comma rest ih =>
      cases n with
      | zero => cases hn
      | succ n =>
          have hlength := (Gathers.more comma rest).length_le
          have hend : ¬ c.advance.atEnd := by
            intro hend
            have hnil := congrArg List.length (List.isEmpty_iff.mp hend)
            rw [Cursor.length_advance, List.length_nil] at hnil
            rw [List.length_cons] at hlength
            omega
          rw [moreNames_succ, if_pos comma, if_neg hend, bind_ok (ih (Nat.le_of_succ_le_succ hn))]
          rfl

/-- The bound on the turns is never met first. -/
theorem moreNames_of_circles {c : Cursor} (h : Circles c) {n : Nat} (hn : c.rest.length < n) :
    ∃ c', moreNames n site ⟨c, m⟩ = .error .endlessNames ⟨c', m⟩ := by
  induction n generalizing c with
  | zero => cases hn
  | succ n ih =>
      obtain ⟨comma, hrest⟩ := circles_iff.mp h
      rw [moreNames_succ, if_pos comma]
      split
      · exact ⟨_, rfl⟩
      · rename_i hend
        have hlength : c.advance.advance.rest.length < n := by
          have hpos := List.length_pos_iff.mpr (mt List.isEmpty_iff.mpr hend)
          rw [Cursor.length_advance] at hpos ⊢
          rw [Cursor.length_advance]
          omega
        obtain ⟨c', hc'⟩ := ih hrest hlength
        exact ⟨c', bind_error hc'⟩

theorem nameList_eq (c : Cursor) :
    nameList site ⟨c, m⟩ =
      (moreNames (c.advance.rest.length + 1) >>= fun names => pure (c.current.lexeme :: names)) site
        ⟨c.advance, m⟩ := rfl

theorem nameList_of_gathers {c c' : Cursor} {names : List String} (h : Gathers c.advance names c') :
    nameList site ⟨c, m⟩ = .ok (c.current.lexeme :: names) ⟨c', m⟩ := by
  have hlength := h.length_le
  rw [nameList_eq, bind_ok (moreNames_of_gathers h (by omega))]
  rfl

theorem nameList_of_circles {c : Cursor} (h : Circles c.advance) :
    ∃ c', nameList site ⟨c, m⟩ = .error .endlessNames ⟨c', m⟩ := by
  obtain ⟨c', hc'⟩ := @moreNames_of_circles site m _ h _ (Nat.lt_succ_self _)
  exact ⟨c', by rw [nameList_eq, bind_error hc']⟩

section Statements

variable {t : Token} {ts : List Token}

theorem statement_readData (keyword : t.category = some (.keyword .READ)) :
    statement site ⟨⟨t, t :: ts, 0⟩, m⟩ =
      (readData >>= fun _ => pure none) site ⟨⟨t, t :: ts, 0⟩, m⟩ := by
  have hcategory : (Cursor.current ⟨t, t :: ts, 0⟩).category = _ := keyword
  rw [statement, current_bind, hcategory]

theorem statement_input (keyword : t.category = some (.keyword .INPUT)) :
    statement site ⟨⟨t, t :: ts, 0⟩, m⟩ =
      (input >>= fun _ => pure none) site ⟨⟨t, t :: ts, 0⟩, m⟩ := by
  have hcategory : (Cursor.current ⟨t, t :: ts, 0⟩).category = _ := keyword
  rw [statement, current_bind, hcategory]

end Statements

/-- The statement is never gone back in. -/
theorem invariant_length (site : Site) (n : Nat) :
    Invariant site (fun _ => True) fun j => j.cursor.rest.length ≤ n where
  files := trivial
  grids := trivial
  advance := fun j hj => by
    rw [Cursor.length_advance]
    omega
  evaluated := fun j s hj hs => by
    obtain ⟨k, hk⟩ := hs.cursor
    rw [hk, Cursor.length_pass]
    exact Nat.le_trans (Nat.sub_le _ k) hj
  frame := fun _ _ hj _ _ _ _ => hj
  store := fun _ _ _ hj _ => hj
  grid := fun _ _ _ hj => hj
  pointer := fun _ _ _ hj _ => hj
  pending := fun _ _ _ hj => hj

theorem length_le_of_keeps {α : Type} {x : Exec α} {a : α} {j j' : Job}
    (hx : Keeps (.same site fun k => k.cursor.rest.length ≤ j.cursor.rest.length) x)
    (h : x site j = .ok a j') : j'.cursor.rest.length ≤ j.cursor.rest.length := by
  have hagree : Agree site.label site.label _ (x site j) (x site j) :=
    hx j j ⟨rfl, Nat.le_refl _⟩
  rw [h] at hagree
  cases hagree with
  | ok _ hj => exact hj.2

end Exec

/-- A READ or INPUT statement that gets to its variable list, with the cursor at the first variable.
INPUT has its file and its prompt in front of the list. -/
inductive ReachesList (site : Site) (m : Machine) : List Token → Cursor → Machine → Prop
  | read {t u : Token} {ts : List Token} (keyword : t.category = some (.keyword .READ)) :
      ReachesList site m (t :: u :: ts) ⟨t, u :: ts, 0⟩ m
  | input {t u : Token} {ts us : List Token} {file : Option Value} {text : Value} {j : Job}
      {last : Token} {k : Nat} {m' : Machine} (keyword : t.category = some (.keyword .INPUT))
      (source : Exec.inputSource site ⟨⟨t, ts, 0⟩, m⟩ = .ok file j)
      (prompt : Exec.inputPrompt file site j = .ok text ⟨⟨last, u :: us, k⟩, m'⟩)
      (name : u.category = some .name) :
      ReachesList site m (t :: ts) ⟨last, u :: us, k⟩ m'

namespace ReachesList

variable {site : Site} {m m' : Machine} {tokens : List Token} {c : Cursor}

theorem exists_rest (h : ReachesList site m tokens c m') : ∃ t ts, c.rest = t :: ts := by
  cases h <;> exact ⟨_, _, rfl⟩

theorem length_lt (h : ReachesList site m tokens c m') : c.rest.length < tokens.length := by
  cases h with
  | read => exact Nat.lt_succ_self _
  | @input t u ts us _ _ j last k _ _ source prompt _ =>
      have hsource : j.cursor.rest.length ≤ ts.length :=
        Exec.length_le_of_keeps (Exec.invariant_length site _).stable.keeps_inputSource source
      have hprompt := Exec.length_le_of_keeps
        ((Exec.invariant_length site _).stable.keeps_inputPrompt _) prompt
      exact Nat.lt_succ_of_le (Nat.le_trans hprompt hsource)

theorem runPart_error {c' : Cursor} {f : Fault} (h : ReachesList site m tokens c m')
    (hlist : Exec.nameList site ⟨c, m'⟩ = .error f ⟨c', m'⟩) :
    Machine.runPart site tokens m = .error f m' := by
  cases h with
  | @read t u ts keyword =>
      have hread : Exec.readData site ⟨⟨t, t :: u :: ts, 0⟩, m⟩ = .error f ⟨c', m⟩ := by
        unfold Exec.readData
        rw [Exec.advance_bind, Exec.atEnd_bind]
        exact Exec.bind_error hlist
      rw [Machine.runPart_cons, Exec.statement_readData keyword, Exec.bind_error hread]
  | @input t u ts us _ _ j last k _ keyword source prompt name =>
      have hnames : Exec.inputNames site ⟨⟨last, u :: us, k⟩, m'⟩ = .error f ⟨c', m'⟩ := by
        have hcategory : (Cursor.current ⟨last, u :: us, k⟩).category = some .name := name
        unfold Exec.inputNames
        rw [Exec.atEnd_bind]
        show (Exec.current >>= _) site _ = _
        rw [Exec.current_bind, if_pos hcategory]
        exact hlist
      have hinput : Exec.input site ⟨⟨t, t :: ts, 0⟩, m⟩ = .error f ⟨c', m'⟩ := by
        unfold Exec.input
        rw [Exec.advance_bind]
        show (Exec.inputSource >>= _) site ⟨⟨t, ts, 0⟩, m⟩ = _
        rw [Exec.bind_ok source, Exec.bind_ok prompt, Exec.bind_error hnames]
      rw [Machine.runPart_cons, Exec.statement_input keyword, Exec.bind_error hinput]

end ReachesList

section Lists

variable {site : Site} {m m' : Machine} {tokens : List Token} {c : Cursor}

/-- The loop over the variables of READ or INPUT ends unless each other token of the list and its
last token are commas. Where it ends it has taken no more variables than the statement has tokens,
and where it does not the statement never ends. -/
theorem nameList_ends_iff (h : ReachesList site m tokens c m') :
    ((∃ names c', Gathers c.advance names c') ↔ ¬ OpenEnded c.rest) ∧
    (∀ names c', Gathers c.advance names c' →
      Exec.nameList site ⟨c, m'⟩ = .ok (c.current.lexeme :: names) ⟨c', m'⟩ ∧
      (c.current.lexeme :: names).length < tokens.length) ∧
    (OpenEnded c.rest →
      Circles c.advance ∧ Machine.runPart site tokens m = .error .endlessNames m') := by
  obtain ⟨t, ts, hrest⟩ := h.exists_rest
  have hadvance : c.advance = ⟨t, ts, c.overrun⟩ := by simp [Cursor.advance, hrest]
  have hcases := circles_or_gathers t ts c.overrun
  rw [← hrest, ← hadvance] at hcases
  refine ⟨⟨?_, fun hopen => ?_⟩, fun names c' hgathers => ?_, fun hopen => ?_⟩
  · rintro ⟨names, c', hgathers⟩ hopen
    obtain ⟨-, hcircles⟩ | ⟨hclosed, -⟩ := hcases
    · exact hgathers.not_circles hcircles
    · exact hclosed hopen
  · exact (hcases.resolve_left fun hcircles => hopen hcircles.1).2
  · refine ⟨Exec.nameList_of_gathers hgathers, ?_⟩
    have hnames := hgathers.length_le
    have htokens := h.length_lt
    rw [Cursor.length_advance] at hnames
    rw [hrest, List.length_cons] at htokens hnames
    rw [List.length_cons]
    omega
  · have hcircles := (hcases.resolve_right fun hgathers => hgathers.1 hopen).2
    obtain ⟨c', hlist⟩ := @Exec.nameList_of_circles site m' c hcircles
    exact ⟨hcircles, h.runPart_error hlist⟩

/-- The prompt is in front of the list, whose third variable is missing. -/
theorem nameList_ends_iff_prompted :
    let list : List Token := [.name "A", .mark .comma ",", .name "B", .mark .comma ","]
    let tokens := .word .INPUT "INPUT" :: .text "GO" :: .mark .semicolon ";" :: list
    let m := Machine.blank
    let c : Cursor := ⟨.mark .semicolon ";", list, 0⟩
    ReachesList "10" m tokens c m ∧ OpenEnded c.rest ∧ Circles c.advance ∧
      Machine.runPart "10" tokens m = .error .endlessNames m := by
  intro list tokens m c
  have hreaches : ReachesList "10" m tokens c m := .input rfl rfl rfl rfl
  have hopen : OpenEnded c.rest := OpenEnded.more_iff.mpr ⟨rfl, OpenEnded.two_iff.mpr rfl⟩
  exact ⟨hreaches, hopen, (nameList_ends_iff hreaches).2.2 hopen⟩

/-- A comma behind the only variable. -/
theorem trailing_comma_circles :
    let c : Cursor := ⟨.word .READ "READ", [.name "A", .mark .comma ","], 0⟩
    (∀ n, (c.advance.pass (2 * n)).current.isMark .comma) ∧
      ¬ ∃ names c', Gathers c.advance names c' := by
  intro c
  have hcircles : Circles c.advance := circles_iff.mpr ⟨rfl, circles_at_end rfl _⟩
  exact ⟨hcircles, fun ⟨_, _, hgathers⟩ => hgathers.not_circles hcircles⟩

end Lists

end LineBasic

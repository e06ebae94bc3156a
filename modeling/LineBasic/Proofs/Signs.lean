import LineBasic.Proofs.Lines
import LineBasic.Proofs.Position

namespace LineBasic

open Outcome

/-- The place of the sign that assigns to the plain variable of a statement. -/
def assigning? : List Token → Option Nat
  | t :: u :: rest =>
      match t.category with
      | some .name => if u.isMark .equals then some (rest.length + 1) else none
      | some (.keyword .LET) | some (.keyword .FOR) =>
          match rest with
          | v :: rest => if v.isMark .equals then some (rest.length + 1) else none
          | [] => none
      | _ => none
  | _ => none

theorem Token.category_of_isMark {t : Token} {m : Mark} (h : t.isMark m) :
    t.category = some (.mark m) := beq_iff_eq.mp h

theorem Cursor.place_pass (c : Cursor) (k : Nat) :
    (c.pass k).place = max 1 (c.rest.length - k) := by
  rw [place, length_pass]

theorem Machine.mem_compared_evaluated {m : Machine} {site : Site} {s : Scan} {sign : Sign}
    (h : sign ∈ (m.evaluated site s).compared) :
    sign ∈ m.compared ∨ ∃ place ∈ s.compared, sign ∈ site.signs [place] := by
  have hfold (signs : List Sign) (hmem : sign ∈ signs.foldr List.insert m.compared) :
      sign ∈ m.compared ∨ sign ∈ signs := by
    induction signs with
    | nil => exact .inl hmem
    | cons a signs ih =>
        rcases List.mem_insert_iff.mp hmem with rfl | hmem
        · exact .inr List.mem_cons_self
        · exact (ih hmem).imp_right (List.mem_cons_of_mem a)
  refine (hfold _ h).imp_right fun hsign => ?_
  unfold Site.signs at hsign ⊢
  cases hline : site.line with
  | none =>
      rw [hline] at hsign
      cases hsign
  | some n =>
      rw [hline] at hsign
      obtain ⟨place, hplace, rfl⟩ := List.mem_map.mp hsign
      exact ⟨place, hplace, List.mem_singleton.mpr rfl⟩

namespace Eval

variable {scope : Scope} {s : Scan}

theorem factor_at_sign (h : s.cursor.current.isMark .equals) (n : Nat) :
    ∃ f, factor (n + 1) scope s = .error f s := by
  have hcategory := Token.category_of_isMark h
  refine ⟨.expectingFactor scope.line s.cursor.current.lexeme, ?_⟩
  rw [factor_succ, factorOf, current_bind, hcategory]
  rfl

theorem sum_at_sign (h : s.cursor.current.isMark .equals) (n : Nat) :
    ∃ f, sum (factor (n + 1)) scope s = .error f { s with negative := false } := by
  obtain ⟨f, hf⟩ := @factor_at_sign scope { s with negative := false } h n
  have hproduct : product (factor (n + 1)) scope s = .error f { s with negative := false } :=
    bind_error (x := do setSign false; factor (n + 1)) hf
  exact ⟨f, bind_error (x := product (factor (n + 1))) hproduct⟩

theorem logic_at_sign (h : s.cursor.current.isMark .equals) (n : Nat) :
    ∃ f, logic (factor (n + 1)) scope s = .error f { s with negative := false } := by
  obtain ⟨f, hf⟩ := @sum_at_sign scope s h n
  have hrelation : relation (factor (n + 1)) scope s = .error f { s with negative := false } :=
    bind_error (x := sum (factor (n + 1))) hf
  have hnot : ¬ s.cursor.current.isKeyword .NOT := by
    simp [Token.isKeyword, Token.category_of_isMark h]
  have hinversion : inversion (factor (n + 1)) scope s = .error f { s with negative := false } := by
    show (if s.cursor.current.isKeyword .NOT then _ else _ : Eval Value) scope s = _
    rw [if_neg hnot, hrelation]
  exact ⟨f, bind_error (x := inversion (factor (n + 1))) hinversion⟩

end Eval

namespace Exec

variable {α : Type} {site : Site} {c : Cursor} {m : Machine}

/-- An evaluation that fails at once notes nothing. -/
theorem evaluate_error {e : Eval α} {s : Scan} {f : Fault} (hs : s.compared = [])
    (he : e ⟨m.symbols, site.label⟩ ⟨c, false, m.generator, []⟩ = .error f s) :
    ∃ j, evaluate e site ⟨c, m⟩ = .error f j ∧ j.machine.compared = m.compared := by
  refine ⟨⟨s.cursor, m.evaluated site s⟩, ?_, ?_⟩
  · rw [evaluate, he]
  · rw [m.evaluated_of_nil site hs]

theorem value_at_sign (h : c.current.isMark .equals) :
    ∃ f j, value site ⟨c, m⟩ = .error f j ∧ j.machine.compared = m.compared := by
  obtain ⟨f, hf⟩ := @Eval.logic_at_sign ⟨m.symbols, site.label⟩ ⟨c, false, m.generator, []⟩ h 974
  rw [← Eval.value_eq] at hf
  exact ⟨f, evaluate_error rfl hf⟩

theorem arithmetic_at_sign (h : c.current.isMark .equals) :
    ∃ f j, arithmetic site ⟨c, m⟩ = .error f j ∧ j.machine.compared = m.compared := by
  obtain ⟨f, hf⟩ := @Eval.sum_at_sign ⟨m.symbols, site.label⟩ ⟨c, false, m.generator, []⟩ h 977
  rw [← Eval.arithmeticValue_eq] at hf
  exact ⟨f, evaluate_error rfl hf⟩

structure Noted (site : Site) (signs : List Sign) (c : Cursor) (j : Job) : Prop where
  cursor : ∃ k, j.cursor = c.pass k
  compared : ∀ sign ∈ j.machine.compared, sign ∈ signs ∨ ∃ k, sign ∈ site.signs [(c.pass k).place]

theorem invariant_noted (site : Site) (signs : List Sign) (c : Cursor) :
    Invariant site (fun _ => True) (Noted site signs c) where
  files := trivial
  grids := trivial
  advance := by
    rintro j ⟨⟨k, hk⟩, hcompared⟩
    exact ⟨⟨k + 1, by rw [Cursor.pass_add, ← hk]; rfl⟩, hcompared⟩
  evaluated := by
    rintro j s ⟨⟨k, hk⟩, hcompared⟩ hs
    obtain ⟨i, hi⟩ := hs.cursor
    refine ⟨⟨k + i, by rw [Cursor.pass_add, ← hk, ← hi]⟩, fun sign hsign => ?_⟩
    rcases Machine.mem_compared_evaluated hsign with hsign | ⟨place, hplace, hsign⟩
    · exact hcompared sign hsign
    · rcases hs.compared place hplace with hplace | ⟨i, -, rfl⟩
      · cases hplace
      · exact .inr ⟨k + i, by rwa [Cursor.pass_add, ← hk]⟩
  frame := fun j m h _ hcompared _ _ => ⟨h.cursor, fun sign hsign =>
    h.compared sign (hcompared ▸ hsign)⟩
  store := fun _ _ _ h _ => ⟨h.cursor, h.compared⟩
  grid := fun _ _ _ h => ⟨h.cursor, h.compared⟩
  pointer := fun _ _ _ h _ => ⟨h.cursor, h.compared⟩
  pending := fun _ _ _ h => ⟨h.cursor, h.compared⟩

theorem noted_of_keeps {x : Exec α}
    (hx : Keeps (.same site (Noted site m.compared c)) x) :
    ∀ sign ∈ (state (x site ⟨c, m⟩)).machine.compared,
      sign ∈ m.compared ∨ ∃ k, sign ∈ site.signs [(c.pass k).place] := by
  have hstart : Noted site m.compared c ⟨c, m⟩ := ⟨⟨0, rfl⟩, fun _ h => .inl h⟩
  have hagree : Agree site.label site.label _ (x site ⟨c, m⟩) (x site ⟨c, m⟩) :=
    hx ⟨c, m⟩ ⟨c, m⟩ ⟨rfl, hstart⟩
  generalize x site ⟨c, m⟩ = r at hagree
  cases hagree with
  | ok _ h => exact h.2.compared
  | error _ _ h => exact h.2.compared

def Spares (site : Site) (m : Machine) (place : Nat) (r : EStateM.Result Fault Job α) : Prop :=
  ∀ sign ∈ (state r).machine.compared, sign ∈ m.compared ∨ ∃ p ≠ place, sign ∈ site.signs [p]

/-- What a statement does behind its sign. -/
theorem spares_behind {x : Exec α} {sign : Token} {rest : List Token}
    (hx : Keeps (.same site (Noted site m.compared ⟨sign, rest, 0⟩)) x)
    (hlast : ∃ f j, x site ⟨⟨sign, [], 0⟩, m⟩ = .error f j ∧ j.machine.compared = m.compared) :
    Spares site m (rest.length + 1) (x site ⟨⟨sign, rest, 0⟩, m⟩) := by
  cases rest with
  | nil =>
      -- The cursor cannot leave the last token, so the sign would be met again; but nothing can be
      -- evaluated there.
      obtain ⟨f, j, hj, hcompared⟩ := hlast
      rw [hj]
      exact fun s hs => .inl (hcompared ▸ hs)
  | cons t rest =>
      intro s hs
      refine (noted_of_keeps hx s hs).imp_right fun ⟨k, hk⟩ => ⟨_, ?_, hk⟩
      rw [Cursor.place_pass]
      simp only [List.length_cons]
      omega

section Statement

variable {t u v : Token} {rest : List Token}

theorem isMark_opening (hu : u.isMark .equals) : ¬ u.isMark .opening := by
  simp [Token.isMark, Token.category_of_isMark hu]

theorem assignment_plain (hu : u.isMark .equals) (last : Token) :
    assignment site ⟨⟨last, t :: u :: rest, 0⟩, m⟩ =
      storeValue t.lexeme site ⟨⟨u, rest, 0⟩, m⟩ := by
  unfold assignment
  rw [lexeme_bind, advance_bind]
  show (if u.isMark .opening then _ else _ : Exec Unit) site _ = _
  rw [if_neg (isMark_opening hu)]
  exact expect_bind (j := ⟨⟨t, u :: rest, 0⟩, m⟩) (Token.category_of_isMark hu) _

theorem spares_assignment (hu : u.isMark .equals) (last : Token) :
    Spares site m (rest.length + 1)
      ((assignment >>= fun _ => pure (none : Option Flow)) site
        ⟨⟨last, t :: u :: rest, 0⟩, m⟩) := by
  rw [bind_congr (assignment_plain hu last)]
  refine spares_behind ?_ ?_
  · exact ((invariant_noted site _ _).stable.keeps_storeValue _).bind fun _ => keeps_pure none
  · obtain ⟨f, j, hj, hcompared⟩ := @value_at_sign site ⟨u, [], 0⟩ m hu
    exact ⟨f, j, bind_error (x := storeValue _) (bind_error (x := value) hj), hcompared⟩

theorem loopHead_plain (hv : v.isMark .equals) (hu : Symbols.isTextName u.lexeme = false) :
    loopHead site ⟨⟨t, t :: u :: v :: rest, 0⟩, m⟩ =
      loopTurn u.lexeme site ⟨⟨v, rest, 0⟩, m⟩ := by
  unfold loopHead
  rw [advance_bind, lexeme_bind]
  show (if Symbols.isTextName u.lexeme then _ else _ : Exec Flow) site _ = _
  rw [hu, if_neg Bool.false_ne_true]
  exact expect_bind (j := ⟨⟨u, v :: rest, 0⟩, m⟩) (Token.category_of_isMark hv) _

theorem spares_loopHead (hv : v.isMark .equals) :
    Spares site m (rest.length + 1)
      ((loopHead >>= fun flow => pure (some flow)) site ⟨⟨t, t :: u :: v :: rest, 0⟩, m⟩) := by
  cases hu : Symbols.isTextName u.lexeme with
  | true =>
      have hfails : loopHead site ⟨⟨t, t :: u :: v :: rest, 0⟩, m⟩ =
          .error (.loopOverText site.label) ⟨⟨t, u :: v :: rest, 0⟩, m⟩ := by
        unfold loopHead
        rw [advance_bind, lexeme_bind]
        show (if Symbols.isTextName u.lexeme then _ else _ : Exec Flow) site _ = _
        rw [hu, if_pos rfl]
        rfl
      rw [bind_error hfails]
      exact fun s hs => .inl hs
  | false =>
      rw [bind_congr (loopHead_plain hv hu)]
      refine spares_behind ?_ ?_
      · refine Keeps.bind ?_ fun _ => keeps_pure _
        exact (invariant_noted site _ _).stable.keeps_loopTurn (fun hjk => hjk.1 ▸ rfl) fun v =>
          keeps_modify_of_invariant fun _ h => ⟨h.cursor, h.compared⟩
      · obtain ⟨f, j, hj, hcompared⟩ := @arithmetic_at_sign site ⟨v, [], 0⟩ m hv
        exact ⟨f, j, bind_error (x := loopTurn _) (bind_error (x := arithmetic) hj), hcompared⟩

theorem statement_name (h : t.category = some .name) :
    statement site ⟨⟨t, t :: rest, 0⟩, m⟩ =
      (assignment >>= fun _ => pure none) site ⟨⟨t, t :: rest, 0⟩, m⟩ := by
  have hcategory : (Cursor.current ⟨t, t :: rest, 0⟩).category = _ := h
  rw [statement, current_bind, hcategory]

theorem statement_let (h : t.category = some (.keyword .LET)) :
    statement site ⟨⟨t, t :: rest, 0⟩, m⟩ =
      (assignment >>= fun _ => pure none) site ⟨⟨t, rest, 0⟩, m⟩ := by
  have hcategory : (Cursor.current ⟨t, t :: rest, 0⟩).category = _ := h
  rw [statement, current_bind, hcategory]
  rfl

theorem statement_for (h : t.category = some (.keyword .FOR)) :
    statement site ⟨⟨t, t :: rest, 0⟩, m⟩ =
      (loopHead >>= fun flow => pure (some flow)) site ⟨⟨t, t :: rest, 0⟩, m⟩ := by
  have hcategory : (Cursor.current ⟨t, t :: rest, 0⟩).category = _ := h
  rw [statement, current_bind, hcategory]

end Statement

end Exec

namespace Machine

variable {site : Site} {part : List Token} {m : Machine}

theorem spares_runPart {place : Nat} (h : assigning? part = some place) :
    ∀ sign ∈ (state (runPart site part m)).compared,
      sign ∈ m.compared ∨ ∃ p ≠ place, sign ∈ site.signs [p] := by
  unfold assigning? at h
  split at h
  · rename_i t u rest
    rw [state_runPart_cons]
    split at h
    · rename_i hcategory
      obtain ⟨hu, ⟨⟩⟩ := Option.ite_none_right_eq_some.mp h
      rw [Exec.statement_name hcategory]
      exact Exec.spares_assignment hu t
    · rename_i hcategory
      split at h
      · rename_i v rest
        obtain ⟨hv, ⟨⟩⟩ := Option.ite_none_right_eq_some.mp h
        rw [Exec.statement_let hcategory]
        exact Exec.spares_assignment hv t
      · cases h
    · rename_i hcategory
      split at h
      · rename_i v rest
        obtain ⟨hv, ⟨⟩⟩ := Option.ite_none_right_eq_some.mp h
        rw [Exec.statement_for hcategory]
        exact Exec.spares_loopHead hv
      · cases h
    · cases h
  · cases h

/-- A statement notes its own signs only. -/
theorem noted_runPart :
    ∀ sign ∈ (state (runPart site part m)).compared,
      sign ∈ m.compared ∨ ∃ p, sign ∈ site.signs [p] := by
  cases part with
  | nil => exact fun s hs => .inl hs
  | cons t ts =>
      rw [state_runPart_cons]
      have hkeeps : Exec.Keeps (.same site _) Exec.statement := fun j k hjk =>
        (Exec.invariant_noted site m.compared ⟨t, t :: ts, 0⟩).stable.agree_statement hjk
          (Exec.meets_same (fun _ _ => trivial) fun _ _ _ h => ⟨h.cursor, h.compared⟩)
      exact fun s hs => (Exec.noted_of_keeps hkeeps s hs).imp_right fun ⟨k, hk⟩ => ⟨_, hk⟩

theorem runParts_keeps {J : Machine → Prop} {parts : List (List Token)}
    (h : ∀ part after, part :: after <:+ parts → ∀ m, J m →
      J (state (runPart { site with after := after.length } part m))) (hm : J m) :
    J (state (runParts site parts m)) := by
  induction parts generalizing m with
  | nil => exact hm
  | cons part parts ih =>
      have hpart := h part parts List.suffix_rfl m hm
      have hrest p ps (hp : p :: ps <:+ parts) := h p ps (hp.trans (List.suffix_cons part parts))
      rw [runParts]
      cases hr : runPart { site with after := parts.length } part m with
      | error f m' =>
          rw [Outcome.bind_error hr]
          rwa [hr] at hpart
      | ok flow m' =>
          rw [hr] at hpart
          rw [Outcome.bind_ok hr]
          cases flow with
          | some flow => exact hpart
          | none => exact ih hrest hpart

end Machine

def Unassigned (lines : Lines (List Token)) (signs : List Sign) : Prop :=
  ∀ n tokens part after place, lines.get? n = some tokens → part :: after <:+ splitColons tokens →
    assigning? part = some place → ⟨n, after.length, place⟩ ∉ signs

section Unassigned

variable {lines : Lines (List Token)} {site : Site} {tokens : List Token} {n : Int} {m : Machine}

theorem unassigned_runLine (hline : site.line = some n) (htokens : lines.get? n = some tokens)
    (h : Unassigned lines m.compared) :
    Unassigned lines (state (Machine.runLine site tokens m)).compared := by
  refine Machine.runParts_keeps (J := fun m => Unassigned lines m.compared)
    (fun part after hsuffix m hm => ?_) h
  intro n' tokens' part' after' place htokens' hsuffix' hplace hsign
  have hsigns (p : Nat) : Site.signs { site with after := after.length } [p] =
      [⟨n, after.length, p⟩] := by
    simp [Site.signs, hline]
  rcases Machine.noted_runPart _ hsign with hold | ⟨p, hp⟩
  · exact hm n' tokens' part' after' place htokens' hsuffix' hplace hold
  · -- The sign belongs to this very statement, which keeps off the sign that assigns.
    rw [hsigns, List.mem_singleton, Sign.mk.injEq] at hp
    obtain ⟨rfl, hlength, -⟩ := hp
    cases htokens.symm.trans htokens'
    have hsame : part' :: after' = part :: after :=
      (List.suffix_of_suffix_length_le hsuffix' hsuffix (by simp [hlength])).eq_of_length
        (by simp [hlength])
    cases hsame
    rcases Machine.spares_runPart hplace _ hsign with hold | ⟨p, hne, hp⟩
    · exact hm n' tokens part after place htokens' hsuffix' hplace hold
    · rw [hsigns, List.mem_singleton, Sign.mk.injEq] at hp
      exact hne hp.2.2.symm

end Unassigned

namespace Program

variable {p : Program} {numbers : List Int} {i : Nat}

theorem get?_of_standing? {n : Int} {tokens : List Token} (h : p.standing? = some (n, tokens)) :
    p.lines.get? n = some tokens := by
  obtain ⟨i, hi, hl⟩ := Option.bind_eq_some_iff.mp h
  exact Lines.get?_of_findIdx? hi hl

theorem unassigned_step (h : Unassigned p.lines p.machine.compared) :
    Unassigned p.lines (step numbers i p).program.machine.compared := by
  refine machine_step (J := fun m => Unassigned p.lines m.compared) (fun m t hm => hm)
    (fun m flow hm => hm) (fun l hs m hm => ?_) h
  have hline : p.site.line = some l.1 := by rw [site, hs]; rfl
  exact unassigned_runLine hline (get?_of_standing? hs) hm

theorem unassigned_runFor (n i : Nat) (h : Unassigned p.lines p.machine.compared) :
    Unassigned p.lines (runFor numbers n i p).2.machine.compared := by
  have hstep (j : Nat) (q : Program) (hq : Unassigned q.lines q.machine.compared) :
      Unassigned (step numbers j q).program.lines (step numbers j q).program.machine.compared := by
    rw [lines_step]
    exact unassigned_step hq
  have hkept := runFor_keeps hstep n i h
  rwa [lines_runFor] at hkept

end Program

end LineBasic

import LineBasic.Proofs.Backlog
import LineBasic.Session

namespace LineBasic

open Outcome (state)

namespace Decimal

theorem digit_lt_ten {body : List Char} {c : Char}
    (h : c ∈ dropUnderscores (body.takeWhile fun c => isPlainDigit c || c == '_')) :
    c.toNat - 48 < 10 := by
  obtain ⟨hrun, hc⟩ := List.mem_filter.mp h
  have hne : c ≠ '_' := by simpa using hc
  have hplain : isPlainDigit c = true := by simpa [hne] using Text.allOf_takeWhile _ body c hrun
  have hle := (isPlainDigit_iff.mp hplain).2
  omega

/-- A number that was read has no more digits than may be written. -/
theorem natAbs_lt_of_readInt {s : List Char} {n : Int} (h : readInt s = .ok n) :
    n.natAbs < Value.tooWide := by
  unfold readInt at h
  generalize takeSign ((s.map plainChar).dropWhile isSpace) = signed at h
  obtain ⟨negative, body⟩ := signed
  dsimp only at h
  split at h
  · cases h
  · split at h
    · cases h
    · rename_i hlength
      split at h
      · have habs : n.natAbs = natOfDigits
            (dropUnderscores (body.takeWhile fun c => isPlainDigit c || c == '_')) := by
          cases h
          split <;> simp
        have hpow {a b : Nat} (hab : a ≤ b) : Nat.pow 10 a ≤ Nat.pow 10 b :=
          Nat.pow_le_pow_right (by decide) hab
        have hle := hpow (Nat.not_lt.mp hlength)
        have hlt := foldl_digits_lt (fun c => @digit_lt_ten body c) 0
        rw [Nat.zero_add, Nat.one_mul] at hlt
        delta Value.tooWide
        rw [habs]
        exact Nat.lt_of_lt_of_le hlt hle
      · cases h

end Decimal

/-- No statement changes the DATA lines. -/
theorem Machine.dataLines_runLine (site : Site) (tokens : List Token) (m : Machine) :
    (state (runLine site tokens m)).data.lines = m.data.lines := by
  have hinvariant (after : Nat) :
      Exec.Invariant { site with after := after } (fun _ => True) fun j =>
        j.machine.data.lines = m.data.lines :=
    { files := trivial
      grids := trivial
      advance := fun j hj => hj
      evaluated := fun j s hj _ => hj
      frame := fun j n hj _ _ hdata _ => by rw [hdata, hj]
      store := fun j name v hj _ => hj
      grid := fun j key g hj => hj
      pointer := fun _ j pointer hj _ => hj
      pending := fun _ j vs hj => hj }
  refine runParts_keeps (J := fun k => k.data.lines = m.data.lines)
    (fun part after _ k hk => ?_) rfl
  exact invariant_runPart (J := fun k => k.data.lines = m.data.lines) (hinvariant after.length)
    (fun c hc => Exec.meets_same (fun _ _ => trivial) fun _ _ _ hj => hj) hk

namespace Program

theorem dataLines_runWithin (n : Nat) (p : Program) :
    (p.runWithin n).2.machine.data.lines = p.machine.data.lines := by
  have hstep (numbers : List Int) (i : Nat) (q : Program)
      (hq : q.machine.data.lines = p.machine.data.lines) :
      (step numbers i q).program.machine.data.lines = p.machine.data.lines :=
    machine_step (J := fun m => m.data.lines = p.machine.data.lines) (fun m t hm => hm)
      (fun m flow hm => hm) (fun l _ m hm => (Machine.dataLines_runLine _ _ m).trans hm) hq
  rw [runWithin]
  split
  · rfl
  · exact runFor_keeps (P := fun q => q.machine.data.lines = p.machine.data.lines) (hstep _) n 0 rfl

section Entered

variable {s : Int × List Token}

structure Proper (s : Int × List Token) : Prop where
  number : s.1.natAbs < Value.tooWide
  statement : s.2 ≠ []
  data : isData s.2 → saysData s.2

theorem proper_of_entered {text : List Char} (h : entered? text = some s) : Proper s := by
  have hdata := saysData_of_entered h
  obtain ⟨ts, -, h⟩ := exists_of_entered h
  unfold numbered? at h
  split at h
  · rename_i t first rest
    cases hn : Decimal.readInt t.lexeme.toList with
    | error f => simp [hn, Except.toOption] at h
    | ok n =>
        obtain rfl : (n, first :: rest) = s := by simpa [hn, Except.toOption] using h
        exact ⟨Decimal.natAbs_lt_of_readInt hn, List.cons_ne_nil _ _, hdata⟩
  · cases h

end Entered

/-- What the two stores may hold under one number: a line whose number can be written, which is not
empty and has its entry if it is a DATA line, and an entry only where there is a line. -/
structure Fits (n : Int) (line? data? : Option (List Token)) : Prop where
  number : line?.isSome → n.natAbs < Value.tooWide
  statement : ∀ body ∈ line?, body ≠ []
  data : ∀ body ∈ line?, isData body → data?.isSome
  line : data?.isSome → line?.isSome

structure Coherent (p : Program) : Prop where
  fits : ∀ n, Fits n (p.lines.get? n) (p.machine.data.lines.get? n)

theorem fits_none (n : Int) : Fits n none none :=
  ⟨nofun, nofun, nofun, nofun⟩

theorem fits_stored {s : Int × List Token} (h : Proper s) (data? : Option (List Token)) :
    Fits s.1 (some (stored s.2)) (if saysData s.2 then some s.2 else data?) := by
  refine ⟨fun _ => h.number, ?_, ?_, fun _ => rfl⟩
  all_goals
    rintro _ ⟨⟩
    by_cases hd : saysData s.2
  · simp [stored, hd, h.statement]
  · simp [stored, hd, h.statement]
  · simp [hd]
  · intro hdata
    rw [stored, if_neg hd] at hdata
    exact absurd (h.data hdata) hd

section Withdraw

variable {p : Program} {n : Int}

theorem withdraw_of_none (hn : p.lines.get? n = none) : withdraw n p = .error .noSuchLine
    { p with machine := { p.machine with data := p.machine.data.remove n } } := by
  rw [withdraw]
  dsimp only
  rw [get?_ledger, hn]

theorem withdraw_of_some {body : List Token} (hn : p.lines.get? n = some body) :
    withdraw n p = .ok () { p with
      ledger := p.ledger.erase n
      machine := { p.machine.forget n with data := p.machine.data.remove n } } := by
  rw [withdraw]
  dsimp only
  rw [get?_ledger, hn]
  rfl

end Withdraw

namespace Coherent

variable {p q : Program}

theorem of_empty (hlines : p.lines = []) (hdata : p.machine.data.lines = []) : Coherent p := by
  refine ⟨fun n => ?_⟩
  rw [hlines, hdata]
  exact fits_none n

theorem congr (h : Coherent p) (hlines : q.lines = p.lines)
    (hdata : q.machine.data.lines = p.machine.data.lines) : Coherent q := by
  refine ⟨fun n => ?_⟩
  rw [hlines, hdata]
  exact h.fits n

theorem store (h : Coherent p) {s : Int × List Token} (hs : Proper s) : Coherent (p.store s) := by
  refine ⟨fun n => ?_⟩
  have hline : (p.store s).lines.get? n =
      if n = s.1 then some (stored s.2) else p.lines.get? n := by
    have hlines : (p.store s).lines = p.lines.put s.1 (stored s.2) := Ledger.sorted_put _ _ _
    rw [hlines]
    by_cases hn : n = s.1
    all_goals simp [hn, Lines.get?_put_self, Lines.get?_put_of_ne]
  have hentry : (p.store s).machine.data.lines.get? n =
      if n = s.1 ∧ saysData s.2 then some s.2 else p.machine.data.lines.get? n := by
    by_cases hd : saysData s.2 <;> by_cases hn : n = s.1
    all_goals simp [Program.store, DataStore.lines_add, hd, hn, Lines.get?_put_self,
      Lines.get?_put_of_ne]
  rw [hline, hentry]
  by_cases hn : n = s.1
  · subst hn
    simpa using fits_stored hs (p.machine.data.lines.get? s.1)
  · simpa [hn] using h.fits n

theorem storeAll (h : Coherent p) {ss : List (Int × List Token)} (hs : ∀ s ∈ ss, Proper s) :
    Coherent (ss.foldl Program.store p) := by
  induction ss generalizing p with
  | nil => exact h
  | cons s ss ih =>
      exact ih (h.store (hs s List.mem_cons_self)) fun s' hs' => hs s' (List.mem_cons_of_mem _ hs')

/-- There is no entry to lose where there is no line. -/
theorem withdraw_missing (h : Coherent p) {n : Int} (hn : p.lines.get? n = none) :
    withdraw n p = .error .noSuchLine p := by
  have hnone : p.machine.data.tokens? n = none := by
    have hline := (h.fits n).line
    rw [hn, ← DataStore.tokens?_eq] at hline
    exact Option.not_isSome_iff_eq_none.mp fun hsome => Bool.noConfusion (hline hsome)
  have hsame : p.machine.data.remove n = p.machine.data := by
    rw [DataStore.remove, Assoc.erase_of_get?_eq_none hnone]
  rw [withdraw_of_none hn, hsame]

theorem withdraw (h : Coherent p) (n : Int) : Coherent (state (withdraw n p)) := by
  cases hn : p.lines.get? n with
  | none =>
      rw [h.withdraw_missing hn]
      exact h
  | some body =>
      rw [withdraw_of_some hn]
      refine ⟨fun k => ?_⟩
      have hlines : Ledger.sorted (p.ledger.erase n) = p.lines.remove n := Ledger.sorted_erase _ _
      show Fits k ((Ledger.sorted (p.ledger.erase n)).get? k)
        ((p.machine.data.remove n).lines.get? k)
      rw [hlines, DataStore.lines_remove]
      by_cases hk : k = n
      · subst hk
        rw [Lines.get?_remove_self p.ascending_lines,
          Lines.get?_remove_self p.machine.data.ascending_lines]
        exact fits_none k
      · rw [Lines.get?_remove_of_ne _ hk, Lines.get?_remove_of_ne _ hk]
        exact h.fits k

theorem load (p : Program) (path : String) : Coherent (p.load path).2 := by
  have hclear : Coherent p.clear := of_empty rfl rfl
  unfold Program.load
  dsimp only
  cases Channel.open? p.clear.machine.disk (filePath path) .input with
  | none => exact hclear
  | some cd =>
      dsimp only
      rw [loadLines_eq]
      refine hclear.storeAll fun s hs => ?_
      obtain ⟨text, htext⟩ := exists_entered hs
      exact proper_of_entered htext

theorem listLine (h : Coherent p) {n : Int} {body : List Token}
    (hn : p.lines.get? n = some body) : p.listLine n = .ok (p.lineText n body) := by
  have hfits := h.fits n
  rw [hn] at hfits
  cases body with
  | nil => exact absurd rfl (hfits.statement [] rfl)
  | cons t ts =>
      have hentry : ¬ (t.isKeyword .DATA ∧ (p.machine.data.tokens? n).isNone) := by
        rintro ⟨hk, hnone⟩
        have hsome := hfits.data _ rfl hk
        rw [← DataStore.tokens?_eq] at hsome
        simp_all
      rw [Program.listLine, Value.written, if_pos (hfits.number rfl), get?_ledger, hn]
      show (if _ then _ else _) = _
      rw [if_neg hentry]
      rfl

theorem listLines (h : Coherent p) {ls : Lines (List Token)} (hls : ∀ l ∈ ls, l ∈ p.lines) :
    ls.numbers.mapM p.listLine = .ok (ls.map fun l => p.lineText l.1 l.2) := by
  induction ls with
  | nil => rfl
  | cons l ls ih =>
      have hl := h.listLine (Lines.get?_of_mem p.ascending_lines (hls l List.mem_cons_self))
      rw [Lines.numbers, List.map_cons, List.mapM_cons, hl]
      show (do let texts ← (Lines.numbers ls).mapM p.listLine; pure (_ :: texts)) = _
      rw [ih fun k hk => hls k (List.mem_cons_of_mem _ hk)]
      rfl

theorem listAll (h : Coherent p) : p.listAll = .ok p.text := by
  rw [Program.listAll, numbers, h.listLines fun _ hl => hl]
  show Except.ok _ = _
  rw [List.map_map]
  rfl

end Coherent

def carryOut : Action → Session.Command Unit
  | .edit (.add text) => Session.change (·.addText text)
  | .edit (.remove n) => withdraw n
  | .edit .clear => modify clear
  | .edit (.load path) => Session.load path
  | .run t g n => fun p =>
      match (p.again t g).runWithin n with
      | (.failed f, q) => .error f q
      | (_, q) => .ok () q

theorem state_change (f : Program → Except Fault Program) (p : Program) :
    state (Session.change f p) = (f p).toOption.getD p := by
  rw [Session.change]
  cases f p <;> rfl

theorem state_load (path : String) (p : Program) :
    state (Session.load path p) = (p.load path).2 := by
  unfold Session.load
  generalize p.load path = r
  obtain ⟨f, q⟩ := r
  cases f <;> rfl

theorem Coherent.carryOut {p : Program} (h : Coherent p) (a : Action) :
    Coherent (state (carryOut a p)) := by
  cases a with
  | edit e =>
      cases e with
      | add text =>
          rw [Program.carryOut, state_change]
          cases hs : entered? text with
          | some s =>
              rw [addText_of_some hs]
              exact h.store (proper_of_entered hs)
          | none =>
              obtain ⟨f, hf⟩ := @addText_of_none p _ hs
              rw [hf]
              exact h
      | remove n => exact h.withdraw n
      | clear => exact .of_empty rfl rfl
      | load path =>
          show Coherent (state (Session.load path p))
          rw [state_load]
          exact .load p path
  | run t g n =>
      have hrun : Coherent ((p.again t g).runWithin n).2 :=
        h.congr (lines_runWithin n _) (dataLines_runWithin n _)
      rw [Program.carryOut]
      dsimp only
      generalize (p.again t g).runWithin n = r at hrun ⊢
      obtain ⟨ending, q⟩ := r
      cases ending <;> exact hrun

theorem coherent_after {p : Program} (h : Coherent p) (as : List Action) :
    Coherent (as.foldl (fun p a => state (carryOut a p)) p) := by
  induction as generalizing p with
  | nil => exact h
  | cons a as ih => exact ih (h.carryOut a)

/-- After any calls on an empty program, failed ones among them, its line numbers ascend, no line is
empty, the DATA lines have their entries and the entries their lines. So each line and the whole
program can be listed, and a call to take out a line or to add one leaves everything as it was if it
fails. -/
theorem stores_stay_coherent (disk : Disk) (terminal : Terminal) (generator : Generator)
    (clock : Clock) (as : List Action) :
    let p := as.foldl (fun p a => state (carryOut a p))
      (fresh (.fresh .empty disk terminal generator clock))
    p.numbers.Pairwise (· < ·) ∧
    (∀ l ∈ p.lines, l.2 ≠ []) ∧
    (∀ l ∈ p.lines, isData l.2 → (p.machine.data.tokens? l.1).isSome) ∧
    (∀ n ∈ p.machine.data.lines.numbers, n ∈ p.numbers) ∧
    (∀ l ∈ p.lines, p.listLine l.1 = .ok (p.lineText l.1 l.2)) ∧
    p.listAll = .ok p.text ∧
    (∀ n f q, withdraw n p = .error f q → f = .noSuchLine ∧ n ∉ p.numbers ∧ q = p) ∧
    (∀ tokens f q, Session.change (·.add tokens) p = .error f q → q = p) := by
  intro p
  have h : Coherent p := coherent_after (.of_empty rfl rfl) as
  have hget {l : Int × List Token} (hl : l ∈ p.lines) : p.lines.get? l.1 = some l.2 :=
    Lines.get?_of_mem p.ascending_lines hl
  refine ⟨p.ascending_lines, fun l hl => ?_, fun l hl => ?_, fun n hn => ?_, fun l hl => ?_,
    h.listAll, fun n f q hfail => ?_, fun tokens f q hfail => ?_⟩
  · exact (h.fits l.1).statement _ (hget hl)
  · intro hdata
    rw [DataStore.tokens?_eq]
    exact (h.fits l.1).data _ (hget hl) hdata
  · rw [← Lines.isSome_get?_iff] at hn
    exact Lines.isSome_get?_iff.mp ((h.fits n).line hn)
  · exact h.listLine (hget hl)
  · cases hn : p.lines.get? n with
    | some body =>
        rw [withdraw_of_some hn] at hfail
        cases hfail
    | none =>
        cases (h.withdraw_missing hn).symm.trans hfail
        refine ⟨rfl, fun hmem => ?_, rfl⟩
        have hsome := Lines.isSome_get?_iff.mpr hmem
        rw [hn] at hsome
        cases hsome
  · rw [Session.change] at hfail
    split at hfail <;> cases hfail
    rfl

/-- A file that is not there, a line without a statement, a line that is not there, a DATA line that
is replaced, and a run that fails. -/
theorem stores_stay_coherent_failures :
    let t : Terminal := .ofDevice .teletype [] none
    let g : Generator := ⟨[], []⟩
    let as : List Action := [.edit (.load "LOST"), .edit (.add "20 READ A, B, C".toList),
      .edit (.add "30".toList), .edit (.add "10 DATA -1".toList), .edit (.remove 40),
      .edit (.add "5 data 2".toList), .edit (.add "5 PRINT \"DATA\"".toList), .run t g 9]
    let p := as.foldl (fun p a => state (carryOut a p)) (fresh (.fresh .empty ⟨[], []⟩ t g 0))
    p.numbers = [5, 10, 20] ∧ p.machine.data.lines.numbers = [5, 10] ∧
    p.listAll = .ok "5 PRINT \"DATA\" \n10 DATA - 1 \n20 READ A , B , C \n" ∧
    (∃ f q, withdraw 40 p = .error f q ∧ q = p) ∧
    ∃ f q, Session.change (·.add []) p = .error f q ∧ q = p := by
  intro t g as p
  obtain ⟨-, -, -, -, -, hlist, htake, hadd⟩ := stores_stay_coherent ⟨[], []⟩ t g 0 as
  have htext : p.text = "5 PRINT \"DATA\" \n10 DATA - 1 \n20 READ A , B , C \n" := by decide +kernel
  refine ⟨by decide +kernel, by decide +kernel, htext ▸ hlist, ?_, ?_⟩
  · have hnone : p.lines.get? 40 = none := by decide +kernel
    have hfail := withdraw_of_none hnone
    exact ⟨_, _, hfail, (htake 40 _ _ hfail).2.2⟩
  · exact ⟨_, _, rfl, hadd [] _ _ rfl⟩

end Program

end LineBasic

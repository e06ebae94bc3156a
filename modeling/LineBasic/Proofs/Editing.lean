import LineBasic.Program
import LineBasic.Program.Run
import LineBasic.Proofs.Lines
import LineBasic.Proofs.Listing

namespace LineBasic

open Token

namespace Program

inductive Edit
  | add (text : List Char)
  | remove (n : Int)
  | clear
  | load (path : String)

/-- An edit that fails changes nothing, but loading keeps what it has loaded. -/
def edit (p : Program) : Edit → Program
  | .add text => (p.addText text).toOption.getD p
  | .remove n => (p.remove n).toOption.getD p
  | .clear => p.clear
  | .load path => (p.load path).2

def numbered? : List Token → Option (Int × List Token)
  | t :: first :: rest =>
      (Decimal.readInt t.lexeme.toList).toOption.map fun n => (n, first :: rest)
  | _ => none

def entered? (text : List Char) : Option (Int × List Token) :=
  (scanAll 0 text).toOption.bind numbered?

def enteredFrom : Nat → Channel → Disk → List (Int × List Token)
  | 0, _, _ => []
  | n + 1, c, d =>
      match Channel.readLine (c, d) with
      | .ok (ch :: line) (c, _) =>
          match entered? (Text.trim ((ch :: line).filter fun ch => ch != '\n' && ch != '\r')) with
          | some s => s :: enteredFrom n c d
          | none => []
      | _ => []

def enteredFile (d : Disk) (path : String) : List (Int × List Token) :=
  match Channel.open? d (filePath path) .input with
  | none => []
  | some (c, _) => enteredFrom (((d.read? c.path).getD []).length + 1) c d

abbrev Versions := Int → List (List Token)

namespace Versions

def none : Versions := fun _ => []

def enter (vs : Versions) (s : Int × List Token) : Versions :=
  fun n => if n = s.1 then s.2 :: vs n else vs n

def edit (d : Disk) (vs : Versions) : Edit → Versions
  | .add text => (entered? text).elim vs vs.enter
  | .remove n => fun m => if m = n then [] else vs m
  | .clear => none
  | .load path => (enteredFile d path).foldl enter none

end Versions

def isData (body : List Token) : Bool := body.head?.any (·.isKeyword .DATA)

/-- A statement that starts with the word, which may also be a text. -/
def saysData (body : List Token) : Bool := body.head?.any (·.lexeme = "DATA")

def stored (body : List Token) : List Token := if saysData body then body.take 1 else body

def store (p : Program) (s : Int × List Token) : Program :=
  { p with
    ledger := p.ledger.put s.1 (stored s.2)
    machine := { p.machine.forget s.1 with
      data := if saysData s.2 then p.machine.data.add s.1 s.2 else p.machine.data } }

section Entered

variable {p : Program} {text : List Char} {s : Int × List Token}

theorem add_eq_store {t first : Token} {rest : List Token} {n : Int}
    (hn : Decimal.readInt t.lexeme.toList = .ok n) :
    p.add (t :: first :: rest) = .ok (p.store (n, first :: rest)) := by
  rw [add, hn]
  by_cases hf : first.lexeme = "DATA"
  · simp [store, stored, saysData, hf, bind, Except.bind, pure, Except.pure]
  · simp [store, stored, saysData, hf, bind, Except.bind, pure, Except.pure, Machine.forget]

theorem add_of_some {ts : List Token} (h : numbered? ts = some s) :
    p.add ts = .ok (p.store s) := by
  unfold numbered? at h
  split at h
  · rename_i t first rest
    cases hn : Decimal.readInt t.lexeme.toList with
    | error f => simp [hn, Except.toOption] at h
    | ok n =>
        obtain rfl : (n, first :: rest) = s := by simpa [hn, Except.toOption] using h
        exact add_eq_store hn
  · cases h

theorem add_of_none {ts : List Token} (h : numbered? ts = none) : ∃ f, p.add ts = .error f := by
  cases hadd : p.add ts with
  | error f => exact ⟨f, rfl⟩
  | ok q =>
      cases ts with
      | nil => cases hadd
      | cons t ts =>
          obtain ⟨n, first, rest, hn, rfl⟩ := of_add_eq_ok hadd
          simp [numbered?, hn, Except.toOption] at h

theorem exists_of_entered (h : entered? text = some s) :
    ∃ ts, scanAll 0 text = .ok ts ∧ numbered? ts = some s := by
  rw [entered?] at h
  cases hts : scanAll 0 text with
  | error f =>
      rw [hts] at h
      cases h
  | ok ts => exact ⟨ts, rfl, by rwa [hts] at h⟩

theorem addText_of_some (h : entered? text = some s) : p.addText text = .ok (p.store s) := by
  obtain ⟨ts, hts, hs⟩ := exists_of_entered h
  rw [addText, hts]
  exact add_of_some hs

theorem addText_of_none (h : entered? text = none) : ∃ f, p.addText text = .error f := by
  rw [entered?] at h
  cases hts : scanAll 0 text with
  | error f => exact ⟨f, by rw [addText, hts]; rfl⟩
  | ok ts =>
      rw [hts] at h
      obtain ⟨f, hf⟩ := @add_of_none p ts h
      exact ⟨f, by rw [addText, hts]; exact hf⟩

theorem saysData_of_entered (h : entered? text = some s) (hs : isData s.2) : saysData s.2 := by
  obtain ⟨ts, hts, hs'⟩ := exists_of_entered h
  unfold numbered? at hs'
  split at hs'
  · rename_i t first rest
    obtain ⟨n, -, rfl⟩ := Option.map_eq_some_iff.mp hs'
    have hk : first.category = some (.keyword .DATA) := by simpa [isData, isKeyword] using hs
    have hfirst : first.lexeme = "DATA" := (lexemes_of_scanAll hts).data_eq
      (List.mem_cons_of_mem _ List.mem_cons_self) (f := first.face) hk
    simpa [saysData] using hfirst
  · cases hs'

theorem exists_entered {n : Nat} {c : Channel} {d : Disk} (h : s ∈ enteredFrom n c d) :
    ∃ text, entered? text = some s := by
  induction n generalizing c with
  | zero => cases h
  | succ n ih =>
      unfold enteredFrom at h
      split at h
      · split at h
        · rename_i s' hs'
          rcases List.mem_cons.mp h with rfl | h
          · exact ⟨_, hs'⟩
          · exact ih h
        · cases h
      · cases h

theorem loadLines_eq (n : Nat) (c : Channel) (p : Program) :
    (loadLines n c p).2 = (enteredFrom n c p.machine.disk).foldl store p := by
  induction n generalizing c p with
  | zero => rfl
  | succ n ih =>
      unfold loadLines enteredFrom
      cases Channel.readLine (c, p.machine.disk) with
      | error f x => rfl
      | ok line x =>
          cases line with
          | nil => rfl
          | cons ch line =>
              dsimp only
              cases hs :
                entered? (Text.trim ((ch :: line).filter fun ch => ch != '\n' && ch != '\r'))
                with
              | some s =>
                  rw [addText_of_some hs]
                  exact ih x.1 (p.store s)
              | none =>
                  obtain ⟨f, hf⟩ := @addText_of_none p _ hs
                  rw [hf]
                  rfl

end Entered

structure Records (p : Program) (vs : Versions) : Prop where
  line : ∀ n, p.lines.get? n = (vs n).head?.map stored
  entry : ∀ n, p.machine.data.tokens? n = (vs n).find? saysData
  data : ∀ n, ∀ body ∈ vs n, isData body → saysData body

namespace Records

variable {p : Program} {vs : Versions}

theorem of_empty (hlines : p.lines = []) (hdata : p.machine.data.lines = []) :
    Records p .none := by
  refine ⟨fun n => ?_, fun n => ?_, fun n body h => absurd h List.not_mem_nil⟩
  · rw [hlines]
    rfl
  · rw [DataStore.tokens?_eq, hdata]
    rfl

theorem enter (h : Records p vs) (s : Int × List Token) (hs : isData s.2 → saysData s.2) :
    Records (p.store s) (vs.enter s) := by
  refine ⟨fun n => ?_, fun n => ?_, fun n body hbody => ?_⟩
  · have hline := h.line n
    rw [← get?_ledger] at hline ⊢
    by_cases hn : n = s.1
    · subst hn
      simp [store, Versions.enter]
    · simp [store, Versions.enter, hn, Assoc.get?_put_of_ne, hline]
  · have hentry := h.entry n
    rw [DataStore.tokens?] at hentry
    by_cases hd : saysData s.2 <;> by_cases hn : n = s.1
    · subst hn
      simp [store, hd, Versions.enter, DataStore.tokens?, DataStore.add]
    · simp [store, hd, Versions.enter, hn, DataStore.tokens?, DataStore.add,
        Assoc.get?_put_of_ne, hentry]
    · subst hn
      simp [store, hd, Versions.enter, DataStore.tokens?, hentry]
    · simp [store, hd, Versions.enter, hn, DataStore.tokens?, hentry]
  · by_cases hn : n = s.1
    · rw [Versions.enter, if_pos hn] at hbody
      rcases List.mem_cons.mp hbody with rfl | hbody
      · exact hs
      · exact h.data n body hbody
    · rw [Versions.enter, if_neg hn] at hbody
      exact h.data n body hbody

theorem enterAll (h : Records p vs) {ss : List (Int × List Token)}
    (hs : ∀ s ∈ ss, isData s.2 → saysData s.2) :
    Records (ss.foldl store p) (ss.foldl Versions.enter vs) ∧
      (ss.foldl store p).machine.disk = p.machine.disk := by
  induction ss generalizing p vs with
  | nil => exact ⟨h, rfl⟩
  | cons s ss ih =>
      exact ih (h.enter s (hs s List.mem_cons_self)) fun s' hs' =>
        hs s' (List.mem_cons_of_mem _ hs')

theorem take (h : Records p vs) (n : Int) :
    Records { p with
      ledger := p.ledger.erase n
      machine := { p.machine.forget n with data := p.machine.data.remove n } }
      (fun m => if m = n then [] else vs m) := by
  refine ⟨fun m => ?_, fun m => ?_, fun m body hbody => ?_⟩
  · have hline := h.line m
    rw [← get?_ledger] at hline ⊢
    by_cases hm : m = n
    · simp [hm, Assoc.get?_erase_self]
    · simp [hm, Assoc.get?_erase_of_ne, hline]
  · have hentry := h.entry m
    rw [DataStore.tokens?] at hentry
    by_cases hm : m = n
    · simp [hm, DataStore.tokens?, DataStore.remove, Assoc.get?_erase_self]
    · simp [hm, DataStore.tokens?, DataStore.remove, Assoc.get?_erase_of_ne, hentry]
  · by_cases hm : m = n
    · simp [hm] at hbody
    · simp only [hm, if_false] at hbody
      exact h.data m body hbody

theorem remove (h : Records p vs) (n : Int) :
    Records (p.edit (.remove n)) (vs.edit p.machine.disk (.remove n)) ∧
      (p.edit (.remove n)).machine.disk = p.machine.disk := by
  rw [Program.edit, Program.remove, withdraw]
  dsimp only
  cases hn : p.ledger.get? n with
  | some tokens => exact ⟨h.take n, rfl⟩
  | none =>
      -- There is no line, so there are no versions of it.
      have hnil : vs n = [] := by simpa [get?_ledger, h.line] using hn
      have hvs : vs.edit p.machine.disk (.remove n) = vs := by
        funext m
        by_cases hm : m = n
        · simp [Versions.edit, hm, hnil]
        · simp [Versions.edit, hm]
      rw [hvs]
      exact ⟨h, rfl⟩

theorem add (h : Records p vs) (text : List Char) :
    Records (p.edit (.add text)) (vs.edit p.machine.disk (.add text)) ∧
      (p.edit (.add text)).machine.disk = p.machine.disk := by
  rw [Program.edit, Versions.edit]
  cases hs : entered? text with
  | some s =>
      rw [addText_of_some hs]
      exact ⟨h.enter s (saysData_of_entered hs), rfl⟩
  | none =>
      obtain ⟨f, hf⟩ := @addText_of_none p _ hs
      rw [hf]
      exact ⟨h, rfl⟩

theorem load (p : Program) (vs : Versions) (path : String) :
    Records (p.edit (.load path)) (vs.edit p.machine.disk (.load path)) ∧
      (p.edit (.load path)).machine.disk = p.machine.disk := by
  have hclear : Records p.clear .none := of_empty rfl rfl
  have hdisk : p.clear.machine.disk = p.machine.disk := rfl
  rw [Program.edit, Versions.edit, enteredFile]
  unfold Program.load
  dsimp only
  rw [hdisk]
  cases Channel.open? p.machine.disk (filePath path) .input with
  | none => exact ⟨hclear, rfl⟩
  | some cd =>
      dsimp only
      rw [loadLines_eq, hdisk]
      refine hclear.enterAll fun s hs => ?_
      obtain ⟨text, htext⟩ := exists_entered hs
      exact saysData_of_entered htext

theorem edit (h : Records p vs) (e : Edit) :
    Records (p.edit e) (vs.edit p.machine.disk e) ∧ (p.edit e).machine.disk = p.machine.disk := by
  cases e with
  | add text => exact h.add text
  | remove n => exact h.remove n
  | clear => exact ⟨of_empty rfl rfl, rfl⟩
  | load path => exact load p vs path

theorem edits (h : Records p vs) (es : List Edit) :
    Records (es.foldl Program.edit p) (es.foldl (Versions.edit p.machine.disk) vs) := by
  induction es generalizing p vs with
  | nil => exact h
  | cons e es ih =>
      obtain ⟨he, hdisk⟩ := h.edit e
      have hes := ih he
      rwa [hdisk] at hes

end Records

theorem shownTokens_stored {p : Program} {n : Int} {body : List Token} (hd : isData body)
    (hentry : p.machine.data.tokens? n = some body) (hword : saysData body) :
    p.shownTokens n (stored body) = body := by
  cases body with
  | nil => cases hd
  | cons first rest =>
      have hfirst : first.isKeyword .DATA := by simpa [isData] using hd
      simp [shownTokens, stored, hword, hfirst, hentry]

theorem filter_head?_eq_find?_iff {vs : List (List Token)}
    (hvs : ∀ body ∈ vs, isData body → saysData body) :
    vs.find? saysData = vs.head?.filter isData ↔
      vs.head?.any isData ∨ ∀ body ∈ vs, ¬ saysData body := by
  cases vs with
  | nil => simp
  | cons body vs =>
      have hbody := hvs body List.mem_cons_self
      by_cases hd : isData body
      · simp [Option.filter_some, hd, hbody hd]
      · rw [List.head?_cons, Option.filter_some, if_neg hd, List.find?_eq_none]
        simp [hd]

/-- After any edits of an empty program each line is the latest statement that was entered under its
number since the line was last taken out, and its DATA entry is the latest of these that says DATA.
So the entry of a DATA statement are its own tokens, as the listing shows them; but the entry of
another statement is missing exactly if no DATA statement was entered there before it. -/
theorem data_after_edits (disk : Disk) (terminal : Terminal) (generator : Generator) (clock : Clock)
    (es : List Edit) (n : Int) :
    let p := es.foldl edit (fresh (.fresh .empty disk terminal generator clock))
    let vs := es.foldl (Versions.edit disk) .none n
    p.lines.get? n = vs.head?.map stored ∧
    p.machine.data.tokens? n = vs.find? saysData ∧
    (∀ body, vs.head? = some body → isData body →
      p.machine.data.tokens? n = some body ∧ p.shownTokens n (stored body) = body) ∧
    (p.machine.data.tokens? n = vs.head?.filter isData ↔
      vs.head?.any isData ∨ ∀ body ∈ vs, ¬ saysData body) := by
  intro p vs
  have hstart : Records (fresh (.fresh .empty disk terminal generator clock)) .none :=
    .of_empty rfl rfl
  have h : Records p (es.foldl (Versions.edit disk) .none) := hstart.edits es
  refine ⟨h.line n, h.entry n, fun body hbody hd => ?_, ?_⟩
  · have hword := h.data n body (List.mem_of_mem_head? hbody) hd
    have hentry : p.machine.data.tokens? n = some body := by
      obtain ⟨rest, hrest⟩ := List.head?_eq_some_iff.mp hbody
      have hfind := h.entry n
      rwa [show es.foldl (Versions.edit disk) .none n = body :: rest from hrest,
        List.find?_cons_of_pos hword] at hfind
    exact ⟨hentry, shownTokens_stored hd hentry hword⟩
  · rw [h.entry n]
    exact filter_head?_eq_find?_iff (h.data n)

/-- A line that went from DATA to PRINT and back, and one that stayed at PRINT. -/
theorem data_after_edits_replaced :
    let es : List Edit := [.add "10 DATA 1".toList, .add "10 PRINT 5".toList, .remove 30,
      .add "10 DATA 2".toList, .add "20 DATA 3".toList, .add "20 PRINT 4".toList]
    let p := es.foldl edit (fresh .blank)
    let vs := es.foldl (Versions.edit ⟨[], []⟩) .none
    (∃ body, isData body ∧ p.machine.data.tokens? 10 = some body ∧
      p.shownTokens 10 (stored body) = body) ∧
    p.machine.data.tokens? 20 ≠ (vs 20).head?.filter isData := by
  intro es p vs
  have hedits := data_after_edits ⟨[], []⟩ (.ofDevice .teletype [] none) ⟨[], []⟩ 0 es
  obtain ⟨-, -, hdata, -⟩ := hedits 10
  obtain ⟨-, -, -, hmirror⟩ := hedits 20
  constructor
  · have hlast : (vs 10).head?.any isData := by decide +kernel
    obtain ⟨body, hbody, hd⟩ := (Option.any_eq_true _ _).mp hlast
    exact ⟨body, hd, hdata body hbody hd⟩
  · exact mt hmirror.mp (by decide +kernel)

/-- A DATA statement that was replaced by another one can still be read. -/
theorem replaced_data_remains :
    let es : List Edit := [.add "10 DATA 1".toList, .add "10 READ A".toList,
      .add "20 PRINT A".toList]
    let p := es.foldl edit (fresh .blank)
    (p.lines.get? 10).map isData = some false ∧ (p.machine.data.tokens? 10).isSome ∧
    (p.runWithin 3).1 = .finished ∧ (p.runWithin 3).2.machine.terminal.output = "1\n" := by
  decide +kernel

end Program

end LineBasic

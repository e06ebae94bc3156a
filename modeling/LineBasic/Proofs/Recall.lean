import LineBasic.Proofs.LineEditor
import Mathlib.Data.List.DropRight

namespace LineBasic.Editor

variable {e e' now now' : Editor} {draft draft' : Draft} {key : Int} {left : List Int}

theorem rtake_of_length_le {n : Nat} {ls : List String} (h : ls.length ≤ n) : ls.rtake n = ls := by
  rw [List.rtake, Nat.sub_eq_zero_of_le h, List.drop_zero]

/-- What was dropped before would be dropped now. -/
theorem rtake_rtake_append (n : Nat) (ls ms : List String) :
    (ls.rtake n ++ ms).rtake n = (ls ++ ms).rtake n := by
  simp only [List.rtake, List.length_append, List.length_drop, List.drop_append, List.drop_drop]
  congr 2 <;> omega

theorem remember_eq_rtake {history : List String} (h : history.length ≤ 20) (line : String) :
    remember history line = (history ++ [line]).rtake 20 := by
  rw [remember, List.rtake]
  by_cases hfull : 20 < (history ++ [line]).length
  · have hone : (history ++ [line]).length - 20 = 1 := by
      rw [List.length_append, List.length_singleton] at *
      omega
    rw [if_pos hfull, hone]
  · rw [if_neg hfull, Nat.sub_eq_zero_of_le (Nat.not_lt.mp hfull), List.drop_zero]

theorem history_input (h : e.history.length ≤ 20) :
    e.input.2.history = (e.history ++ e.input.1.toOption.toList).rtake 20 := by
  have hend := exists_awaits e
  split at hend
  · obtain ⟨now, draft, left, hreturn⟩ := hend
    rw [hreturn.input_of_return]
    exact remember_eq_rtake h _
  · obtain ⟨now, draft, hkeys⟩ := hend
    rw [hkeys.input_of_end]
    show now.history = (e.history ++ []).rtake 20
    rw [List.append_nil, rtake_of_length_le h, hkeys.history_eq]

theorem length_rtake_le (n : Nat) (ls : List String) : (ls.rtake n).length ≤ n := by
  rw [List.rtake, List.length_drop]
  omega

theorem history_calls (h : e.history.length ≤ 20) (batches : List (List Int)) :
    (e.calls batches).2.history = (e.history ++ (e.calls batches).1).rtake 20 := by
  induction batches generalizing e with
  | nil =>
      show e.history = (e.history ++ []).rtake 20
      rw [List.append_nil, rtake_of_length_le h]
  | cons keys more ih =>
      have hcalled := history_input (e := e.fed keys) h
      have hle : (e.fed keys).input.2.history.length ≤ 20 := by
        rw [hcalled]
        exact length_rtake_le 20 _
      show ((e.fed keys).input.2.calls more).2.history =
        (e.history ++ ((e.fed keys).input.1.toOption.toList ++
          ((e.fed keys).input.2.calls more).1)).rtake 20
      rw [ih hle, hcalled, rtake_rtake_append, List.append_assoc]
      rfl

theorem Awaits.suffix (h : Awaits e now draft left) : left <:+ e.keys := by
  induction h with
  | start => exact List.suffix_refl _
  | press before goesOn ih => exact (List.suffix_cons _ _).trans ih

/-- The keys that are left tell how far a call has come. -/
theorem Awaits.unique (h : Awaits e now draft left) (h' : Awaits e now' draft' left) :
    now' = now ∧ draft' = draft := by
  induction h generalizing now' draft' with
  | start =>
      generalize hkeys : e.keys = keys at h'
      cases h' with
      | start => exact ⟨rfl, rfl⟩
      | press before goesOn =>
          have hlength := before.suffix.length_le
          rw [hkeys, List.length_cons] at hlength
          omega
  | @press now draft key left before goesOn ih =>
      generalize hleft : left = keys at h'
      cases h' with
      | start =>
          have hlength := before.suffix.length_le
          rw [hleft, List.length_cons] at hlength
          omega
      | @press now₂ draft₂ key₂ _ before' goesOn' =>
          subst hleft
          have hsame : key₂ :: left = key :: left :=
            (List.suffix_of_suffix_length_le before'.suffix before.suffix (by simp)).eq_of_length
              (by simp)
          obtain rfl : key₂ = key := (List.cons.inj hsame).1
          obtain ⟨rfl, rfl⟩ := ih before'
          exact ⟨rfl, rfl⟩

/-- A key that is no arrow leaves the place in the history as it is. -/
theorem Stroke.place_eq (h : Stroke e draft key e' draft') (hkey : key ≠ keyUp ∧ key ≠ keyDown) :
    draft'.place = draft.place := by
  cases h with
  | fetch arrow => exact absurd arrow (not_or.mpr hkey)
  | clear | rubOut | refuse | ignore | type => rfl

theorem Awaits.type {typed : List Int} (h : Awaits e now draft (typed ++ left))
    (htyped : ∀ key ∈ typed, key ≠ 10 ∧ key ≠ keyUp ∧ key ≠ keyDown) :
    ∃ now' draft', Awaits e now' draft' left ∧ draft'.place = draft.place := by
  induction typed generalizing now draft with
  | nil => exact ⟨now, draft, h, rfl⟩
  | cons key typed ih =>
      rw [List.forall_mem_cons] at htyped
      obtain ⟨now', draft', hleft, hplace⟩ := ih (.press h htyped.1.1) htyped.2
      exact ⟨now', draft', hleft, hplace.trans ((stroke_press ..).place_eq htyped.1.2)⟩

def Edits (e : Editor) (place : Nat) (left : List Int) : Prop :=
  ∃ now draft, Awaits e now draft left ∧ draft.place = place ∧
    e.history[place]? = some (String.ofList draft.line)

theorem Stroke.fetched (h : Stroke e draft key e' draft') (harrow : key = keyUp ∨ key = keyDown)
    (hne : e.history ≠ []) (hplace : draft.place ≤ e.history.length) :
    draft'.place = (recalled e.history (key = keyUp) draft.place).1 ∧
    e.history[draft'.place]? = some (String.ofList draft'.line) := by
  have hlt := recalled_lt hne hplace (decide (key = keyUp))
  cases h with
  | fetch arrow some found edge entry =>
      subst found entry
      refine ⟨rfl, ?_⟩
      simp [List.getElem?_eq_getElem hlt]
  | ignore none => exact absurd (none harrow) hne
  | clear => exact absurd harrow (by decide)
  | rubOut last => exact absurd harrow (by decide)
  | refuse empty => exact absurd harrow (by decide)
  | @type c typable =>
      have hcode := typable.2
      simp only [keyUp, keyDown] at harrow
      omega

theorem Awaits.edits (h : Awaits e now draft (key :: left)) (hl : Legible e.history)
    (harrow : key = keyUp ∨ key = keyDown) (hne : e.history ≠ []) :
    Edits e (recalled e.history (key = keyUp) draft.place).1 left := by
  have hhistory := h.history_eq
  have hplace := (h.faithful hl).place_le
  rw [← hhistory] at hne
  have hgoesOn : key ≠ 10 := by
    rintro rfl
    exact absurd harrow (by decide)
  obtain ⟨hfound, hentry⟩ := (stroke_press now draft key).fetched harrow hne hplace
  rw [hhistory] at hfound hentry
  exact ⟨_, _, .press h hgoesOn, hfound, hfound ▸ hentry⟩

theorem recalled_older (history : List String) (place : Nat) :
    (recalled history true place).1 = place - 1 := by
  rw [recalled, if_pos rfl]
  split
  · omega
  · rfl

theorem recalled_younger {history : List String} {place : Nat} (h : place + 1 < history.length) :
    (recalled history false place).1 = place + 1 := by
  rw [recalled, if_neg Bool.false_ne_true, if_pos h]

theorem Awaits.up (h : Awaits e now draft (keyUp :: left)) (hl : Legible e.history)
    (hne : e.history ≠ []) : Edits e (draft.place - 1) left := by
  have hedits := h.edits hl (.inl rfl) hne
  rwa [decide_eq_true rfl, recalled_older] at hedits

theorem Edits.ups {j place : Nat} (h : Edits e place (List.replicate j keyUp ++ left))
    (hl : Legible e.history) : Edits e (place - j) left := by
  induction j generalizing place with
  | zero => exact h
  | succ j ih =>
      obtain ⟨now, draft, hawaits, rfl, hentry⟩ := h
      have hne : e.history ≠ [] := by
        intro hnil
        simp [hnil] at hentry
      rw [Nat.add_comm j 1, ← Nat.sub_sub]
      exact ih (hawaits.up hl hne)

theorem Edits.downs {i place : Nat} (h : Edits e place (List.replicate i keyDown ++ left))
    (hl : Legible e.history) (hi : place + i < e.history.length) : Edits e (place + i) left := by
  induction i generalizing place with
  | zero => exact h
  | succ i ih =>
      obtain ⟨now, draft, hawaits, rfl, -⟩ := h
      have hne : e.history ≠ [] := List.ne_nil_of_length_pos (by omega)
      have hedits := hawaits.edits hl (.inr rfl) hne
      rw [decide_eq_false (by decide), recalled_younger (by omega)] at hedits
      have hmore := ih hedits (by omega)
      rwa [Nat.add_assoc, Nat.add_comm 1 i] at hmore

/-- The entries of the history from the end are the lines from the end. -/
theorem getElem?_rtake {n p : Nat} {ls : List String} (hn : n ≤ ls.length) (hp : p < n) :
    (ls.rtake n)[p]? = ls.reverse[n - 1 - p]? := by
  have hlength : (ls.reverse.take n).length = n := by
    rw [List.length_take, List.length_reverse, Nat.min_eq_left hn]
  rw [List.rtake_eq_reverse_take_reverse, List.getElem?_reverse (hlength.symm ▸ hp), hlength,
    List.getElem?_take_of_lt (by omega)]

theorem Asked.history_eq {lines : List String} (h : Asked lines e) :
    e.history = lines.rtake (min 20 lines.length) := by
  obtain ⟨batches, keys, rfl, rfl⟩ := h
  have hcalls := history_calls (e := ofKeys []) (Nat.zero_le 20) batches
  rw [show (ofKeys []).history = [] from rfl, List.nil_append] at hcalls
  refine hcalls.trans ?_
  rw [List.rtake, List.rtake]
  congr 1
  omega

/-- After any calls for a line the history is the last twenty lines that were returned, or all of
them if there are fewer. When something has been typed in the next call, `j` times the arrow up
leads to the `j`-th line from the end, or to the oldest one that is left, and `i` times the arrow
down from there leads `i` lines forth again. -/
theorem history_recalled {lines : List String} (h : Asked lines e) :
    e.history = lines.rtake (min 20 lines.length) ∧
    ∀ (typed left : List Int) (j i : Nat),
      (∀ key ∈ typed, key ≠ 10 ∧ key ≠ keyUp ∧ key ≠ keyDown) →
      i < min j (min 20 lines.length) →
      e.keys = typed ++ (List.replicate j keyUp ++ (List.replicate i keyDown ++ left)) →
      (∃ now draft, Awaits e now draft left) ∧
      ∀ now draft, Awaits e now draft left →
        lines.reverse[min j (min 20 lines.length) - 1 - i]? = some (String.ofList draft.line) := by
  have hhistory := h.history_eq
  have hl := h.legible
  have hlength : e.history.length = min 20 lines.length := by
    rw [hhistory, List.rtake, List.length_drop]
    omega
  refine ⟨hhistory, fun typed left j i htyped hi hkeys => ?_⟩
  obtain ⟨j, rfl⟩ : ∃ k, j = k + 1 := ⟨j - 1, by omega⟩
  have hne : e.history ≠ [] := List.ne_nil_of_length_pos (by omega)
  have hstart := Awaits.start (e := e)
  rw [hkeys] at hstart
  obtain ⟨now, draft, hawaits, hplace⟩ := hstart.type htyped
  have hups := Edits.ups (hawaits.up hl hne) hl
  rw [hplace] at hups
  have hdowns := hups.downs hl (by dsimp only; omega)
  obtain ⟨now', draft', hawaits', -, hentry⟩ := hdowns
  refine ⟨⟨now', draft', hawaits'⟩, fun now'' draft'' hawaits'' => ?_⟩
  obtain ⟨-, rfl⟩ := hawaits'.unique hawaits''
  dsimp only at hentry
  rw [hhistory, getElem?_rtake (by omega) (by rw [← hhistory, hlength]; omega)] at hentry
  rw [← hentry, ← hhistory, hlength]
  congr 1
  omega

/-- Twenty-two lines are entered, `A` to `V`, so that `C` is the oldest one left. The arrow up leads
no further than there, and the arrow down to the line behind it. -/
theorem history_recalled_oldest :
    let batches := (List.range 22).map fun n => [65 + (n : Int), 10]
    let keys := [88] ++ (List.replicate 25 keyUp ++ (List.replicate 1 keyDown ++ [10]))
    let called := (ofKeys []).calls batches
    Asked called.1 (called.2.fed keys) ∧ called.1.length = 22 ∧
    (called.2.fed keys).history.head? = some "C" ∧
    (called.2.fed keys).input.1.toOption = some "D" ∧
    ∃ now draft, Awaits (called.2.fed keys) now draft [10] ∧ String.ofList draft.line = "D" := by
  intro batches keys called
  have hasked : Asked called.1 (called.2.fed keys) := ⟨batches, keys, rfl, rfl⟩
  have hvalues : called.1.length = 22 ∧ called.2.keys = [] ∧
      called.1.reverse[18]? = some "D" ∧ (called.2.fed keys).history.head? = some "C" ∧
      (called.2.fed keys).input.1.toOption = some "D" := by
    decide +kernel
  clear_value called
  obtain ⟨hlength, hkeys, hline, holdest, hreturned⟩ := hvalues
  have hnext := (history_recalled hasked).2 [88] [10] 25 1 (by decide)
  rw [hlength] at hnext
  obtain ⟨⟨now, draft, hawaits⟩, hentry⟩ := hnext (by decide) (by rw [fed, hkeys]; rfl)
  refine ⟨hasked, hlength, holdest, hreturned, now, draft, hawaits, ?_⟩
  exact Option.some.inj ((hentry now draft hawaits).symm.trans hline)

end LineBasic.Editor

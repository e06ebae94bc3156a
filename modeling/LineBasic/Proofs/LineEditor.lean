import LineBasic.Editor

namespace LineBasic

def Display.printed : Display → List Char
  | .text s | .echo s => s.toList
  | _ => []

namespace Editor

def Typable (c : Char) : Prop := 32 ≤ c.toNat ∧ c.toNat ≤ 126

/-- The line that a display holds after more characters are printed: each is put behind the line,
but a backspace, a blank and a backspace take its last character off. There is no such line if it
had no character left. -/
def lineShown : List Char → List Char → Option (List Char)
  | line, '\x08' :: ' ' :: '\x08' :: more =>
      if line.isEmpty then none else lineShown line.dropLast more
  | line, c :: more => lineShown (line ++ [c]) more
  | line, [] => some line

theorem lineShown_rubOut (line : List Char) (c : Char) (more : List Char) :
    lineShown (line ++ [c]) ('\x08' :: ' ' :: '\x08' :: more) = lineShown line more := by
  simp [lineShown]

theorem Typable.ne_backspace {c : Char} (h : Typable c) : c ≠ '\x08' := by
  rintro rfl
  exact absurd h.1 (by decide)

theorem lineShown_typable {s : List Char} (h : ∀ c ∈ s, Typable c) (line more : List Char) :
    lineShown line (s ++ more) = lineShown (line ++ s) more := by
  induction s generalizing line with
  | nil => simp
  | cons c s ih =>
      rw [List.forall_mem_cons] at h
      have hc : lineShown line (c :: (s ++ more)) = lineShown (line ++ [c]) (s ++ more) :=
        lineShown.eq_2 _ _ _ fun _ hb _ => h.1.ne_backspace hb
      rw [List.cons_append, hc, ih h.2, List.append_assoc, List.singleton_append]

/-- What the screen was told since `before`, read as a display, is a line, and what is printed next
goes on from that line. -/
def Shows (before : List Display) (e : Editor) (line : List Char) : Prop :=
  ∃ out : List Display, e.shown = out.reverse ++ before ∧
    ∀ more, lineShown [] (out.flatMap Display.printed ++ more) = lineShown line more

namespace Shows

variable {before : List Display} {e : Editor} {line : List Char}

theorem tell {ds : List Display} {line' : List Char} (h : Shows before e line)
    (hds : ∀ more, lineShown line (ds.flatMap Display.printed ++ more) = lineShown line' more) :
    Shows before (e.tell ds) line' := by
  obtain ⟨out, hshown, hline⟩ := h
  refine ⟨out ++ ds, by simp [Editor.tell, hshown], fun more => ?_⟩
  rw [List.flatMap_append, List.append_assoc, hline, hds]

theorem write {s : String} (h : Shows before e line) (hs : ∀ c ∈ s.toList, Typable c) :
    Shows before (e.write s) (line ++ s.toList) := by
  refine h.tell fun more => ?_
  simpa [Display.printed] using lineShown_typable hs line more

theorem backspace {c : Char} (h : Shows before e (line ++ [c])) :
    Shows before e.backspace line := by
  refine h.tell fun more => ?_
  exact lineShown_rubOut line c more

/-- As many rub-outs as the line has characters clear it. -/
theorem rubOutAll {s : List Char} (h : Shows before e line) (hs : s.length = line.length) :
    Shows before (e.rubOutAll s) [] := by
  induction s generalizing e line with
  | nil =>
      obtain rfl : line = [] := List.eq_nil_of_length_eq_zero hs.symm
      exact h
  | cons d s ih =>
      have hne : line ≠ [] := by
        rintro rfl
        cases hs
      rw [← List.dropLast_concat_getLast hne] at h
      refine ih h.backspace ?_
      rw [List.length_dropLast, ← hs, List.length_cons, Nat.add_sub_cancel]

end Shows

@[simp] theorem keys_tell (e : Editor) (ds : List Display) : (e.tell ds).keys = e.keys := rfl

@[simp] theorem history_tell (e : Editor) (ds : List Display) :
    (e.tell ds).history = e.history := rfl

@[simp] theorem history_write (e : Editor) (s : String) : (e.write s).history = e.history := rfl

@[simp] theorem history_rubOutAll (e : Editor) (s : List Char) :
    (e.rubOutAll s).history = e.history := by
  induction s generalizing e with
  | nil => rfl
  | cons c s ih => exact ih e.backspace

/-- What a key other than the return key does. An arrow does nothing as long as no line has been
entered, and otherwise it puts a line of the history in place of the draft. -/
inductive Stroke (e : Editor) (draft : Draft) : Int → Editor → Draft → Prop
  | fetch {key : Int} {place : Nat} {beeps : List Display} {line : String}
      (arrow : key = keyUp ∨ key = keyDown) (some : e.history ≠ [])
      (found : (recalled e.history (key = keyUp) draft.place).1 = place)
      (edge : (recalled e.history (key = keyUp) draft.place).2 = beeps)
      (entry : e.history.getD place "" = line) :
      Stroke e draft key (((e.rubOutAll draft.line).tell beeps).write line) ⟨line.toList, place⟩
  | clear : Stroke e draft keyLeft (e.rubOutAll draft.line) ⟨[], draft.place⟩
  | rubOut {line : List Char} {c : Char} (last : draft.line = line ++ [c]) :
      Stroke e draft 127 e.backspace ⟨line, draft.place⟩
  | refuse (empty : draft.line = []) : Stroke e draft 127 (e.tell [.beep]) draft
  | ignore {key : Int} (none : key = keyUp ∨ key = keyDown → e.history = []) :
      Stroke e draft key e draft
  | type {c : Char} (typable : Typable c) :
      Stroke e draft c.toNat (e.tell [.echo c.toString]) ⟨draft.line ++ [c], draft.place⟩

theorem typable_ofNat {key : Int} (h : ¬ (key < 32 ∨ 126 < key)) :
    Typable (Char.ofNat key.toNat) ∧ ((Char.ofNat key.toNat).toNat : Int) = key := by
  have hcode : (Char.ofNat key.toNat).toNat = key.toNat := by
    rw [Char.ofNat, dif_pos (Or.inl (by omega))]
    rfl
  rw [Typable, hcode]
  omega

theorem stroke_press (e : Editor) (draft : Draft) (key : Int) :
    Stroke e draft key (e.press draft key).1 (e.press draft key).2 := by
  rw [press]
  by_cases harrow : key = keyUp ∨ key = keyDown
  · by_cases hnone : e.history = []
    · simpa [harrow, hnone] using Stroke.ignore fun _ => hnone
    · simpa [harrow, hnone] using Stroke.fetch harrow hnone rfl rfl rfl
  rw [if_neg harrow]
  by_cases hleft : key = keyLeft
  · rw [if_pos hleft, hleft]
    exact .clear
  rw [if_neg hleft]
  by_cases hrub : key = 127
  · rw [if_pos hrub, hrub]
    by_cases hline : draft.line = []
    · simpa [hline] using Stroke.refuse hline
    · simpa [hline] using Stroke.rubOut (List.dropLast_concat_getLast hline).symm
  rw [if_neg hrub]
  by_cases hrange : key < 32 ∨ 126 < key
  · rw [if_pos hrange]
    exact .ignore fun h => absurd h harrow
  · obtain ⟨htypable, hkey⟩ := typable_ofNat hrange
    have hstroke := @Stroke.type e draft _ htypable
    rw [hkey] at hstroke
    rwa [if_neg hrange]

variable {e e' now : Editor} {draft draft' : Draft} {key : Int} {left : List Int}

theorem Stroke.history (h : Stroke e draft key e' draft') : e'.history = e.history := by
  cases h <;> simp [Editor.backspace]

/-- Up to one place behind the youngest line, a step in either direction leads to a line. -/
theorem recalled_lt {history : List String} {place : Nat} (hne : history ≠ [])
    (h : place ≤ history.length) (older : Bool) :
    (recalled history older place).1 < history.length := by
  have hpos := List.length_pos_iff.mpr hne
  unfold recalled
  split
  · split
    · exact hpos
    · dsimp only
      omega
  · split
    · assumption
    · dsimp only
      omega

theorem printed_recalled (history : List String) (older : Bool) (place : Nat) :
    (recalled history older place).2.flatMap Display.printed = [] := by
  unfold recalled
  split <;> split <;> rfl

def Legible (history : List String) : Prop := ∀ line ∈ history, ∀ c ∈ line.toList, Typable c

/-- What holds whenever a key is awaited: the line is on the screen, it could be typed, and its
place is in the history or one behind it. -/
structure Faithful (before : List Display) (e : Editor) (draft : Draft) : Prop where
  shows : Shows before e draft.line
  typable : ∀ c ∈ draft.line, Typable c
  place_le : draft.place ≤ e.history.length

theorem Stroke.faithful {before : List Display} (h : Stroke e draft key e' draft')
    (hf : Faithful before e draft) (hl : Legible e.history) : Faithful before e' draft' := by
  obtain ⟨hshows, htypable, hplace⟩ := hf
  cases h with
  | @fetch _ place beeps line arrow some found edge entry =>
      have hlt : place < e.history.length := by
        have hrecalled := recalled_lt some hplace (decide (key = keyUp))
        rwa [found] at hrecalled
      have hmem : line ∈ e.history := by
        rw [← entry, List.getD_eq_getElem?_getD, List.getElem?_eq_getElem hlt]
        exact List.getElem_mem hlt
      have hbeeps : beeps.flatMap Display.printed = [] := by
        rw [← edge, printed_recalled]
      refine ⟨?_, hl line hmem, ?_⟩
      · have hcleared : Shows before ((e.rubOutAll draft.line).tell beeps) [] := by
          refine (hshows.rubOutAll rfl).tell fun more => ?_
          rw [hbeeps, List.nil_append]
        exact hcleared.write (hl line hmem)
      · simpa using Nat.le_of_lt hlt
  | clear => exact ⟨hshows.rubOutAll rfl, by simp, by simpa using hplace⟩
  | @rubOut line c last =>
      rw [last] at hshows htypable
      exact ⟨hshows.backspace, fun d hd => htypable d (List.mem_append_left _ hd), hplace⟩
  | refuse empty => exact ⟨hshows.tell fun _ => rfl, htypable, hplace⟩
  | ignore none => exact ⟨hshows, htypable, hplace⟩
  | @type c typable =>
      have hc : ∀ d ∈ [c], Typable d := by simpa using typable
      refine ⟨hshows.tell fun more => ?_, ?_, hplace⟩
      · simpa [Display.printed] using lineShown_typable hc draft.line more
      · simpa [or_imp, forall_and] using ⟨htypable, typable⟩

inductive Awaits (e : Editor) : Editor → Draft → List Int → Prop
  | start : Awaits e (e.tell [.cursorShape 1, .refresh]) ⟨[], e.history.length⟩ e.keys
  | press {now : Editor} {draft : Draft} {key : Int} {left : List Int}
      (before : Awaits e now draft (key :: left)) (goesOn : key ≠ 10) :
      Awaits e (now.press draft key).1 (now.press draft key).2 left

namespace Awaits

theorem history_eq (h : Awaits e now draft left) : now.history = e.history := by
  induction h with
  | start => rfl
  | press before goesOn ih => exact (stroke_press ..).history.trans ih

theorem faithful (h : Awaits e now draft left) (hl : Legible e.history) :
    Faithful e.shown now draft := by
  induction h with
  | start =>
      refine ⟨⟨[.cursorShape 1, .refresh], rfl, fun more => rfl⟩, by simp, ?_⟩
      exact Nat.le_refl _
  | press before goesOn ih =>
      refine (stroke_press ..).faithful ih ?_
      rwa [before.history_eq]

theorem pass {typed : List Int} (h : Awaits e now draft (typed ++ left)) (hne : 10 ∉ typed) :
    ∃ now' draft', Awaits e now' draft' left := by
  induction typed generalizing now draft with
  | nil => exact ⟨now, draft, h⟩
  | cons key typed ih =>
      rw [List.mem_cons, not_or] at hne
      exact ih (.press h (Ne.symm hne.1)) hne.2

theorem edit_eq (h : Awaits e now draft left) :
    (e.tell [.cursorShape 1, .refresh]).edit ⟨[], e.history.length⟩ e.keys =
      now.edit draft left := by
  induction h with
  | start => rfl
  | press before goesOn ih => rw [ih, edit, if_neg goesOn]

theorem input_of_return (h : Awaits e now draft (10 :: left)) :
    e.input = (.ok (String.ofList draft.line),
      { (({ now with keys := left }).tell [.cursorShape 0]).enter with
        history := remember e.history (String.ofList draft.line) }) := by
  have hedit : now.edit draft (10 :: left) =
      (.ok (String.ofList draft.line), { now with keys := left }) := by
    rw [edit, if_pos rfl]
  rw [← h.history_eq, input]
  dsimp only
  rw [history_tell, keys_tell, h.edit_eq.trans hedit]
  rfl

theorem input_of_end (h : Awaits e now draft []) :
    e.input = (.error .noMoreKeys, { now with keys := [] }) := by
  rw [input]
  dsimp only
  rw [history_tell, keys_tell, h.edit_eq]
  rfl

end Awaits

/-- A call gets to the return key or to the end of the keys. -/
theorem exists_awaits (e : Editor) :
    if 10 ∈ e.keys then ∃ now draft left, Awaits e now draft (10 :: left)
    else ∃ now draft, Awaits e now draft [] := by
  have hstart := Awaits.start (e := e)
  split
  · rename_i hmem
    obtain ⟨typed, left, hkeys, hne⟩ := List.eq_append_cons_of_mem hmem
    rw [hkeys] at hstart
    obtain ⟨now, draft, h⟩ := hstart.pass hne
    exact ⟨now, draft, left, h⟩
  · rename_i hne
    rw [← List.append_nil e.keys] at hstart
    exact hstart.pass hne

def fed (e : Editor) (keys : List Int) : Editor := { e with keys := e.keys ++ keys }

def calls (e : Editor) : List (List Int) → List String × Editor
  | [] => ([], e)
  | keys :: more =>
      let called := (e.fed keys).input
      let rest := calls called.2 more
      (called.1.toOption.toList ++ rest.1, rest.2)

theorem mem_remember {history : List String} {line l : String} (h : l ∈ remember history line) :
    l ∈ history ∨ l = line := by
  have hall : l ∈ history ++ [line] := by
    unfold remember at h
    dsimp only at h
    split at h
    · exact List.mem_of_mem_drop h
    · exact h
  simpa using hall

theorem legible_input (hl : Legible e.history) : Legible e.input.2.history := by
  have h := exists_awaits e
  split at h
  · obtain ⟨now, draft, left, h⟩ := h
    rw [h.input_of_return]
    intro l hmem
    rcases mem_remember hmem with hmem | rfl
    · exact hl l hmem
    · simpa using (h.faithful hl).typable
  · obtain ⟨now, draft, h⟩ := h
    rw [h.input_of_end]
    exact h.history_eq ▸ hl

theorem legible_calls (hl : Legible e.history) (batches : List (List Int)) :
    Legible (e.calls batches).2.history := by
  induction batches generalizing e with
  | nil => exact hl
  | cons keys more ih => exact ih (legible_input (e := e.fed keys) hl)

/-- A new editor has been called for lines and has returned these. More keys may have come in since,
and now it is called for the next line. -/
def Asked (lines : List String) (e : Editor) : Prop :=
  ∃ batches keys, lines = ((ofKeys []).calls batches).1 ∧
    e = ((ofKeys []).calls batches).2.fed keys

theorem Asked.legible {lines : List String} (h : Asked lines e) : Legible e.history := by
  obtain ⟨batches, keys, -, rfl⟩ := h
  exact legible_calls (e := ofKeys []) (by rintro _ ⟨⟩) batches

/-- After any calls for a line, whenever the next call awaits a key, what it has printed reads as
the line being edited, of typed characters only, and an arrow leads to a line of the history. The
return key gives that line back. Where it does not come the call runs out of keys, and it does not
fail in any other way. -/
theorem shown_is_edited {lines : List String} (h : Asked lines e) :
    (∀ now draft left, Awaits e now draft left →
      (∃ out : List Display, now.shown = out.reverse ++ e.shown ∧
        lineShown [] (out.flatMap Display.printed) = some draft.line) ∧
      (∀ c ∈ draft.line, 32 ≤ c.toNat ∧ c.toNat ≤ 126) ∧
      (now.history ≠ [] → ∀ older,
        (recalled now.history older draft.place).1 < now.history.length)) ∧
    (∀ now draft left, Awaits e now draft (10 :: left) →
      e.input.1 = .ok (String.ofList draft.line) ∧
      e.input.2.shown = .refresh :: .text "\n" :: .cursorShape 0 :: now.shown) ∧
    (∀ now draft, Awaits e now draft [] →
      e.input.1 = .error .noMoreKeys ∧ e.input.2.shown = now.shown) ∧
    (if 10 ∈ e.keys then ∃ now draft left, Awaits e now draft (10 :: left)
      else ∃ now draft, Awaits e now draft []) := by
  refine ⟨fun now draft left hawaits => ?_, fun now draft left hawaits => ?_,
    fun now draft hawaits => ?_, exists_awaits e⟩
  · obtain ⟨⟨out, hout, hline⟩, htypable, hplace⟩ := hawaits.faithful h.legible
    refine ⟨⟨out, hout, ?_⟩, htypable, fun hne => recalled_lt hne hplace⟩
    rw [← List.append_nil (out.flatMap _), hline, lineShown]
  · rw [hawaits.input_of_return]
    exact ⟨rfl, rfl⟩
  · rw [hawaits.input_of_end]
    exact ⟨rfl, rfl⟩

/-- Two lines are entered. Then the older one is recalled, its last character rubbed out and another
typed. -/
theorem shown_is_edited_recalled :
    let e := ((ofKeys []).calls [[65, 66, 10], [67, 10]]).2.fed [keyUp, keyUp, 127, 90, 10]
    Asked ["AB", "C"] e ∧ e.input.1.toOption = some "AZ" ∧
    e.input.2.textShown "" = "AB\nC\nC\x08 \x08AB\x08 \x08Z\n" ∧
    ∃ out : List Display,
      e.input.2.shown = .refresh :: .text "\n" :: .cursorShape 0 :: (out.reverse ++ e.shown) ∧
      lineShown [] (out.flatMap Display.printed) = some ['A', 'Z'] := by
  have hasked : Asked ["AB", "C"]
      (((ofKeys []).calls [[65, 66, 10], [67, 10]]).2.fed [keyUp, keyUp, 127, 90, 10]) :=
    ⟨_, _, by decide +kernel, rfl⟩
  have hvalues :
      let e := ((ofKeys []).calls [[65, 66, 10], [67, 10]]).2.fed [keyUp, keyUp, 127, 90, 10]
      10 ∈ e.keys ∧ e.input.1.toOption = some "AZ" ∧
      e.input.2.textShown "" = "AB\nC\nC\x08 \x08AB\x08 \x08Z\n" := by
    decide +kernel
  -- From here on the editor is any one with these values, so that nothing is evaluated again.
  generalize ((ofKeys []).calls [[65, 66, 10], [67, 10]]).2.fed [keyUp, keyUp, 127, 90, 10] = e
    at hasked hvalues ⊢
  obtain ⟨hshown, hreturn, -, hend⟩ := shown_is_edited hasked
  obtain ⟨hkey, hline, htext⟩ := hvalues
  rw [if_pos hkey] at hend
  obtain ⟨now, draft, left, hawaits⟩ := hend
  obtain ⟨⟨out, hout, hread⟩, -, -⟩ := hshown now draft (10 :: left) hawaits
  obtain ⟨hreturned, hdisplay⟩ := hreturn now draft left hawaits
  have hdraft : String.ofList draft.line = "AZ" := by
    rw [hreturned] at hline
    exact Option.some.inj hline
  refine ⟨hasked, hline, htext, out, by rw [hdisplay, hout], ?_⟩
  rw [hread, ← String.toList_ofList (l := draft.line), hdraft]
  rfl

end Editor

end LineBasic

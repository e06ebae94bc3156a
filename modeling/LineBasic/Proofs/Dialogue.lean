import LineBasic.Proofs.Assignment
import LineBasic.Proofs.DataStream
import LineBasic.Proofs.Lines

namespace LineBasic

open Outcome

/-- The fields of a text between its commas. Only the last one may have commas itself, and only
where there are `n` fields. -/
structure CommaCut (n : Nat) (s : List Char) (fields : List (List Char)) : Prop where
  joined : [','].intercalate fields = s
  clean : ∀ f ∈ fields.dropLast, ',' ∉ f
  count : fields.length = n ∨ fields.length < n ∧ ∀ f ∈ fields, ',' ∉ f

namespace Exec

theorem cutCommas_ne_nil (n : Nat) (s : List Char) : cutCommas n s ≠ [] := by
  cases n with
  | zero => exact List.cons_ne_nil _ _
  | succ n =>
      rw [cutCommas]
      split <;> exact List.cons_ne_nil _ _

theorem commaCut_cons {n : Nat} {w rest : List Char} {fields : List (List Char)} (hw : ',' ∉ w)
    (hfields : fields ≠ []) (h : CommaCut n rest fields) :
    CommaCut (n + 1) (w ++ ',' :: rest) (w :: fields) := by
  obtain ⟨f, fs, rfl⟩ := List.exists_cons_of_ne_nil hfields
  refine ⟨?_, ?_, ?_⟩
  · rw [← h.joined]
    simp [List.intercalate]
  · rw [List.dropLast_cons_cons, List.forall_mem_cons]
    exact ⟨hw, h.clean⟩
  · rw [List.length_cons, List.forall_mem_cons]
    rcases h.count with hcount | ⟨hcount, hclean⟩
    · exact .inl (congrArg (· + 1) hcount)
    · exact .inr ⟨Nat.succ_lt_succ hcount, hw, hclean⟩

theorem commaCut_cutCommas (n : Nat) (s : List Char) : CommaCut (n + 1) s (cutCommas n s) := by
  induction n generalizing s with
  | zero => exact ⟨by simp [cutCommas, List.intercalate], by simp [cutCommas], .inl rfl⟩
  | succ n ih =>
      have hs := List.takeWhile_append_dropWhile (p := (· != ',')) (l := s)
      have hw : ',' ∉ s.takeWhile (· != ',') := by
        intro hmem
        have hne := List.all_eq_true.mp List.all_takeWhile ',' hmem
        simp at hne
      rw [cutCommas]
      split
      · rename_i hdrop
        rw [hdrop, List.append_nil] at hs
        rw [hs] at hw
        exact ⟨by simp [List.intercalate], by simp, .inr ⟨by simp, by simpa using hw⟩⟩
      · rename_i c rest hdrop
        have hc : c = ',' := by
          have hhead := List.head?_dropWhile_not (· != ',') s
          simpa [hdrop] using hhead
        rw [hdrop, hc] at hs
        have hcut := commaCut_cons hw (cutCommas_ne_nil n rest) (ih rest)
        rwa [hs] at hcut

def fieldValue? (name : String) (field : List Char) : Option Value :=
  if Symbols.isTextName name then some (.text (String.ofList field)) else fieldNumber? field

def taken? (names : List String) (fields : List (List Char)) (i : Nat) : Option Value :=
  names[i]?.bind fun name => fields[i]?.bind fun field => fieldValue? name field

def Served (names : List String) (fields : List (List Char)) : Prop :=
  ∀ i < names.length, (taken? names fields i).isSome

instance (names : List String) (fields : List (List Char)) : Decidable (Served names fields) :=
  inferInstanceAs (Decidable (∀ i < names.length, (taken? names fields i).isSome))

def redo (names : List String) (fields : List (List Char)) : String :=
  let i := (List.range names.length).findIdx fun i => (taken? names fields i).isNone
  if i < fields.length then redoNumber else redoCount

/-- Each variable has what it takes from the fields, the last one if it is named more than once, and
all else is as it was. -/
structure Settled (names : List String) (fields : List (List Char)) (table table' : Symbols) :
    Prop where
  values : ∀ i name, names[i]? = some name → (∀ k > i, names[k]? ≠ some name) →
    ∃ v, taken? names fields i = some v ∧ table'.get? name = some (.scalar v)
  others : ∀ k ∉ names, table'.get? k = table.get? k

section Fields

variable {name : String} {names : List String} {field : List Char} {fields : List (List Char)}

theorem served_cons : Served (name :: names) (field :: fields) ↔
    (fieldValue? name field).isSome ∧ Served names fields := by
  constructor
  · intro h
    exact ⟨h 0 (Nat.succ_pos _), fun i hi => h (i + 1) (Nat.succ_lt_succ hi)⟩
  · rintro ⟨hname, hnames⟩ i hi
    cases i with
    | zero => exact hname
    | succ i => exact hnames i (Nat.lt_of_succ_lt_succ hi)

theorem not_served_nil : ¬ Served (name :: names) [] := fun h => nomatch h 0 (Nat.succ_pos _)

theorem redo_nil : redo (name :: names) [] = redoCount := by simp [redo]

theorem redo_cons : redo (name :: names) (field :: fields) =
    if (fieldValue? name field).isSome then redo names fields else redoNumber := by
  have hzero : taken? (name :: names) (field :: fields) 0 = fieldValue? name field := rfl
  have hsucc (i : Nat) : taken? (name :: names) (field :: fields) (i + 1) = taken? names fields i :=
    rfl
  simp only [redo, List.length_cons, List.range_succ_eq_map, List.findIdx_cons, List.findIdx_map,
    Function.comp_def, hzero, hsucc]
  cases fieldValue? name field <;> simp

theorem Settled.cons {table table' : Symbols} {v : Value} (hv : fieldValue? name field = some v)
    (h : Settled names fields (table.insert name v) table') :
    Settled (name :: names) (field :: fields) table table' := by
  constructor
  · intro i key hkey hlast
    cases i with
    | zero =>
        cases hkey
        -- A variable that is not named again keeps the value of its first field.
        have hnew : name ∉ names := by
          intro hmem
          obtain ⟨k, hk⟩ := List.mem_iff_getElem?.mp hmem
          exact hlast (k + 1) (Nat.succ_pos k) hk
        exact ⟨v, hv, (h.others name hnew).trans (Assoc.get?_put_self _ _ _)⟩
    | succ i =>
        refine h.values i key hkey fun k hk => ?_
        exact hlast (k + 1) (Nat.succ_lt_succ hk)
  · intro k hk
    rw [List.mem_cons, not_or] at hk
    exact (h.others k hk.2).trans (Assoc.get?_put_of_ne _ _ hk.1)

theorem Settled.of_others {table table' table'' : Symbols}
    (h : Settled names fields table' table'')
    (hothers : ∀ k ∉ names, table'.get? k = table.get? k) : Settled names fields table table'' :=
  ⟨h.values, fun k hk => (h.others k hk).trans (hothers k hk)⟩

end Fields

theorem onTerminal_ok {α : Type} {act : Terminal.Act α} {a : α} {t : Terminal} {site : Site}
    {j : Job} (h : act j.machine.terminal = .ok a t) :
    onTerminal act site j = .ok a { j with machine := { j.machine with terminal := t } } := by
  simp only [onTerminal, h]

section TakeFields

variable (site : Site) (c : Cursor) {name : String} {names : List String} {field : List Char}
  {fields : List (List Char)}

theorem takeFields_cons {v : Value} (h : fieldValue? name field = some v) (m : Machine) :
    takeFields (name :: names) (field :: fields) site ⟨c, m⟩ =
      takeFields names fields site ⟨c, { m with symbols := m.symbols.insert name v }⟩ := by
  unfold fieldValue? at h
  rw [takeFields]
  split at h
  · rename_i htext
    cases h
    rw [if_pos htext]
    rfl
  · rename_i hnumber
    rw [if_neg hnumber, h]
    rfl

theorem takeFields_stop (h : fieldValue? name field = none) :
    takeFields (name :: names) (field :: fields) =
      (onTerminal (Terminal.print redoNumber) >>= fun _ => pure false) := by
  unfold fieldValue? at h
  rw [takeFields]
  split at h
  · cases h
  · rename_i hnumber
    rw [if_neg hnumber, h]

theorem takeFields_served (h : Served names fields) (m : Machine) :
    ∃ table, takeFields names fields site ⟨c, m⟩ = .ok true ⟨c, { m with symbols := table }⟩ ∧
      Settled names fields m.symbols table := by
  induction names generalizing fields m with
  | nil => exact ⟨m.symbols, rfl, ⟨fun _ _ hname => (by cases hname), fun _ _ => rfl⟩⟩
  | cons name names ih =>
      cases fields with
      | nil => exact absurd h not_served_nil
      | cons field fields =>
          rw [served_cons, Option.isSome_iff_exists] at h
          obtain ⟨⟨v, hv⟩, hnames⟩ := h
          rw [takeFields_cons site c hv]
          obtain ⟨table, htable, hsettled⟩ :=
            ih hnames { m with symbols := m.symbols.insert name v }
          exact ⟨table, htable, hsettled.cons hv⟩

theorem takeFields_refused {t : Terminal} (h : ¬ Served names fields) (m : Machine)
    (hprint : Terminal.print (redo names fields) m.terminal = .ok () t) :
    ∃ table, takeFields names fields site ⟨c, m⟩ =
        .ok false ⟨c, { m with symbols := table, terminal := t }⟩ ∧
      ∀ k ∉ names, table.get? k = m.symbols.get? k := by
  induction names generalizing fields m with
  | nil => exact absurd (fun i hi => nomatch hi) h
  | cons name names ih =>
      cases fields with
      | nil =>
          rw [redo_nil] at hprint
          exact ⟨m.symbols, bind_ok (onTerminal_ok hprint), fun _ _ => rfl⟩
      | cons field fields =>
          rw [redo_cons] at hprint
          rw [served_cons] at h
          cases hv : fieldValue? name field with
          | none =>
              rw [hv] at hprint
              rw [takeFields_stop hv]
              exact ⟨m.symbols, bind_ok (onTerminal_ok hprint), fun _ _ => rfl⟩
          | some v =>
              rw [hv] at hprint h
              rw [takeFields_cons site c hv]
              obtain ⟨table, htable, hothers⟩ :=
                ih (fun hnames => h ⟨rfl, hnames⟩) { m with symbols := m.symbols.insert name v }
                  hprint
              refine ⟨table, htable, fun k hk => ?_⟩
              rw [List.mem_cons, not_or] at hk
              exact (hothers k hk.2).trans (Assoc.get?_put_of_ne _ _ hk.1)

end TakeFields

end Exec

namespace Terminal

inductive Call
  | write (s : String)
  | line (s : String)
  | print (s : String)

def Plays : Terminal → List Call → Terminal → Prop
  | t, [], u => u = t
  | t, .write s :: calls, u => ∃ t', write s t = .ok () t' ∧ Plays t' calls u
  | t, .line s :: calls, u => ∃ t', input t = .ok s t' ∧ Plays t' calls u
  | t, .print s :: calls, u => ∃ t', print s t = .ok () t' ∧ Plays t' calls u

section Supply

variable {t t' : Terminal} {s : String}

theorem supply_write (h : write s t = .ok () t') : t'.supply = t.supply := by
  obtain ⟨device, typed, patience, events⟩ := t
  cases device <;> cases h <;> rfl

theorem supply_print (h : print s t = .ok () t') : t'.supply = t.supply := by
  obtain ⟨device, typed, patience, events⟩ := t
  cases device with
  | checker c =>
      have hfinish : finishLine (c.append (String.ofList s.toList.dropLast))
          ⟨.checker c, typed, patience, events⟩ = .ok () t' := h
      unfold finishLine at hfinish
      cases hline : (c.append (String.ofList s.toList.dropLast)).finishLine with
      | ok r =>
          rw [hline] at hfinish
          cases hfinish
          rfl
      | error r =>
          rw [hline] at hfinish
          cases hfinish
  | _ =>
      cases h
      rfl

end Supply

end Terminal

theorem Editor.length_edit {e : Editor} {draft : Draft} {keys : List Int} {line : String}
    (h : (e.edit draft keys).1 = .ok line) : (e.edit draft keys).2.keys.length < keys.length := by
  induction keys generalizing e draft with
  | nil => cases h
  | cons key keys ih =>
      unfold edit at h ⊢
      split
      · exact Nat.lt_succ_self _
      · rename_i hkey
        rw [if_neg hkey] at h
        exact Nat.lt_succ_of_lt (ih h)

theorem Editor.length_input {e : Editor} {line : String} (h : e.input.1 = .ok line) :
    e.input.2.keys.length < e.keys.length := by
  unfold input at h ⊢
  dsimp only at h ⊢
  split at h
  · cases h
  · rename_i hedit
    have hlength := length_edit (congrArg Prod.fst hedit)
    rw [hedit] at hlength
    exact hlength

/-- A line that is typed is used up. -/
theorem Terminal.supply_input {t t' : Terminal} {s : String} (h : input t = .ok s t') :
    t'.supply < t.supply := by
  obtain ⟨device, typed, patience, events⟩ := t
  rw [input_eq] at h
  cases device with
  | editor e =>
      dsimp only at h
      cases he : e.input.1 with
      | error f =>
          rw [he] at h
          cases h
      | ok line =>
          rw [he] at h
          cases h
          exact Editor.length_input he
  | _ =>
      cases typed with
      | nil => cases h
      | cons line typed =>
          cases h
          exact Nat.lt_succ_self _

def Terminal.dialogue (prompt : String) (names refused : List String) (line : String) :
    List Call :=
  refused.flatMap (fun s =>
    [.write prompt, .line s, .print (Exec.redo names (Exec.fieldsOf names s.toList))]) ++
  [.write prompt, .line line]

def Device.isPlain : Device → Bool
  | .teletype | .board _ | .tape _ => true
  | .checker _ | .editor _ => false

def Terminal.asked (t : Terminal) (typed : List String) : Terminal :=
  { t with events := .asked :: t.events, typed := typed }

section Plain

variable {t : Terminal}

theorem Terminal.write_plain (h : t.device.isPlain) (s : String) :
    write s t = .ok () (t.emit s) := by
  obtain ⟨device, typed, patience, events⟩ := t
  cases device with
  | checker c => cases h
  | editor e => cases h
  | _ => rfl

theorem Terminal.print_plain (h : t.device.isPlain) (s : String) :
    ∃ piece, print s t = .ok () (t.emit piece) := by
  obtain ⟨device, typed, patience, events⟩ := t
  cases device with
  | checker c => cases h
  | editor e => cases h
  | _ => exact ⟨_, rfl⟩

theorem Terminal.input_plain (h : t.device.isPlain) {s : String} {typed : List String}
    (htyped : t.typed = s :: typed) : input t = .ok s (t.asked typed) := by
  obtain ⟨device, _, patience, events⟩ := t
  cases htyped
  cases device with
  | checker c => cases h
  | editor e => cases h
  | _ => rfl

/-- On such a terminal the dialogue takes place whatever is typed. -/
theorem Terminal.plays_plain (h : t.device.isPlain) (prompt : String) (names : List String)
    {refused later : List String} {line : String} (htyped : t.typed = refused ++ line :: later) :
    ∃ u, t.Plays (dialogue prompt names refused line) u ∧ u.typed = later := by
  induction refused generalizing t with
  | nil =>
      have hinput := input_plain (t := t.emit prompt) h htyped
      exact ⟨_, ⟨_, write_plain h prompt, _, hinput, rfl⟩, rfl⟩
  | cons s refused ih =>
      have hinput := input_plain (t := t.emit prompt) h htyped
      obtain ⟨piece, hprint⟩ := print_plain (t := (t.emit prompt).asked (refused ++ line :: later))
        h (Exec.redo names (Exec.fieldsOf names s.toList))
      obtain ⟨u, hplays, hu⟩ :=
        ih (t := ((t.emit prompt).asked (refused ++ line :: later)).emit piece) h rfl
      exact ⟨u, ⟨_, write_plain h prompt, _, hinput, _, hprint, hplays⟩, hu⟩

end Plain

theorem NameList.category_current {ts : List Token} {names : List String} (h : NameList ts names)
    (last : Token) (k : Nat) : (Cursor.current ⟨last, ts, k⟩).category = some .name := by
  cases h with
  | one name => exact name
  | more name _ _ => exact name

namespace Exec

def Acceptable (names : List String) (s : String) : Prop := Served names (fieldsOf names s.toList)

instance (names : List String) (s : String) : Decidable (Acceptable names s) :=
  inferInstanceAs (Decidable (Served names (fieldsOf names s.toList)))

section InputLines

variable (site : Site) (c : Cursor) {m : Machine} {prompt line : String} {names : List String}
  {t u w : Terminal}

theorem inputLines_last (hnames : names ≠ []) (hwrite : Terminal.write prompt m.terminal = .ok () t)
    (hinput : Terminal.input t = .ok line u) (hline : Acceptable names line) (n : Nat) :
    ∃ table, inputLines prompt names (n + 1) site ⟨c, m⟩ =
        .ok () ⟨c, { m with terminal := u, symbols := table }⟩ ∧
      Settled names (fieldsOf names line.toList) m.symbols table := by
  obtain ⟨table, htable, hsettled⟩ := takeFields_served site c hline { m with terminal := u }
  refine ⟨table, ?_, hsettled⟩
  have hempty : names.isEmpty = false := List.isEmpty_eq_false_iff.mpr hnames
  rw [inputLines, bind_ok (onTerminal_ok hwrite), bind_ok (onTerminal_ok hinput), bind_ok htable,
    hempty]
  rfl

theorem inputLines_again (hwrite : Terminal.write prompt m.terminal = .ok () t)
    (hinput : Terminal.input t = .ok line u) (hline : ¬ Acceptable names line)
    (hprint : Terminal.print (redo names (fieldsOf names line.toList)) u = .ok () w) (n : Nat) :
    ∃ table, inputLines prompt names (n + 1) site ⟨c, m⟩ =
        inputLines prompt names n site ⟨c, { m with terminal := w, symbols := table }⟩ ∧
      ∀ k ∉ names, table.get? k = m.symbols.get? k := by
  obtain ⟨table, htable, hothers⟩ := takeFields_refused site c hline
    { m with terminal := u } hprint
  refine ⟨table, ?_, hothers⟩
  rw [inputLines, bind_ok (onTerminal_ok hwrite), bind_ok (onTerminal_ok hinput), bind_ok htable]
  rfl

/-- Refused lines leave their mark only on variables that the last line settles. -/
theorem inputLines_plays (hnames : names ≠ []) {refused : List String}
    (hrefused : ∀ s ∈ refused, ¬ Acceptable names s) (hline : Acceptable names line)
    (hplays : m.terminal.Plays (Terminal.dialogue prompt names refused line) t) {n : Nat}
    (hn : m.terminal.supply < n) :
    ∃ table, inputLines prompt names n site ⟨c, m⟩ =
        .ok () ⟨c, { m with terminal := t, symbols := table }⟩ ∧
      Settled names (fieldsOf names line.toList) m.symbols table := by
  obtain _ | n := n
  · exact absurd hn (Nat.not_lt_zero _)
  induction refused generalizing m n with
  | nil =>
      obtain ⟨t₁, hwrite, t₂, hinput, rfl⟩ := hplays
      exact inputLines_last site c hnames hwrite hinput hline n
  | cons s refused ih =>
      obtain ⟨t₁, hwrite, t₂, hinput, t₃, hprint, hplays⟩ := hplays
      rw [List.forall_mem_cons] at hrefused
      obtain ⟨table, hagain, hothers⟩ :=
        inputLines_again site c hwrite hinput hrefused.1 hprint n
      -- A refused line is used up, so the rounds do not run out before the lines do.
      have hsupply : t₃.supply < m.terminal.supply := by
        rw [Terminal.supply_print hprint, ← Terminal.supply_write hwrite]
        exact Terminal.supply_input hinput
      obtain _ | n := n
      · omega
      have hn' : t₃.supply < n + 1 := by omega
      obtain ⟨table', hrest, hsettled⟩ := ih (m := { m with terminal := t₃, symbols := table })
        hrefused.2 hplays n hn'
      exact ⟨table', hagain.trans hrest, hsettled.of_others hothers⟩

end InputLines

section Input

variable {site : Site} {m m' : Machine} {t : Token} {ts : List Token} {names : List String}

theorem inputNames_ok (h : NameList ts names) (k : Nat) (last : Token) :
    ∃ c, inputNames site ⟨⟨last, ts, k⟩, m⟩ = .ok names ⟨c, m⟩ := by
  obtain ⟨c, hc⟩ := @nameList_ok site m ts names h k last
  have hmore : ts.isEmpty = false := by cases h <;> rfl
  refine ⟨c, ?_⟩
  unfold inputNames
  rw [atEnd_bind]
  show (if ts.isEmpty then _ else _ : Exec (List String)) site _ = _
  rw [hmore, if_neg Bool.false_ne_true, current_bind, if_pos (h.category_current last k)]
  exact hc

theorem inputPrompt_text {u w : Token} {us : List Token} {v : Value} {last : Token} {k : Nat}
    (text : u.category = some .text)
    (hvalue : value site ⟨⟨t, u :: us, 0⟩, m⟩ = .ok v ⟨⟨last, w :: ts, k⟩, m'⟩)
    (semicolon : w.category = some (.mark .semicolon)) :
    inputPrompt none site ⟨⟨t, u :: us, 0⟩, m⟩ = .ok v ⟨⟨w, ts, k⟩, m'⟩ := by
  have hcategory : (Cursor.current ⟨t, u :: us, 0⟩).category = some .text := text
  rw [inputPrompt, current_bind, if_pos hcategory]
  show (value >>= fun v => expectMark .semicolon >>= fun _ => pure v) site _ = _
  rw [bind_ok hvalue]
  exact expect_bind (j := ⟨⟨last, w :: ts, k⟩, m'⟩) semicolon _

theorem input_ready {c c' : Cursor} {v : Value} {prompt : String}
    (hsource : ¬ (Cursor.current ⟨t, ts, 0⟩).isMark .hash)
    (hprompt : inputPrompt none site ⟨⟨t, ts, 0⟩, m⟩ = .ok v ⟨c, m'⟩)
    (hnames : inputNames site ⟨c, m'⟩ = .ok names ⟨c', m'⟩) (hwritten : v.written = .ok prompt) :
    input site ⟨⟨t, t :: ts, 0⟩, m⟩ =
      inputLines prompt names (m'.terminal.supply + 1) site ⟨c', m'⟩ := by
  have hnone : inputSource site ⟨⟨t, ts, 0⟩, m⟩ = .ok none ⟨⟨t, ts, 0⟩, m⟩ := by
    show (if (Cursor.current ⟨t, ts, 0⟩).isMark .hash then _ else _ : Exec _) site _ = _
    rw [if_neg hsource]
    rfl
  unfold input
  rw [advance_bind]
  show (inputSource >>= _) site ⟨⟨t, ts, 0⟩, m⟩ = _
  rw [bind_ok hnone, bind_ok hprompt, bind_ok hnames]
  show (written v >>= _) site ⟨c', m'⟩ = _
  have hv : written v site ⟨c', m'⟩ = .ok prompt ⟨c', m'⟩ := by
    rw [written, hwritten]
    rfl
  rw [bind_ok hv]
  rfl

end Input

end Exec

/-- INPUT from the terminal for the given variables. The prompt is a question mark, or what an
expression gives that starts with a text. -/
inductive IsInput (site : Site) (m : Machine) : List Token → String → List String → Prop
  | bare {t : Token} {ts : List Token} {names : List String}
      (keyword : t.category = some (.keyword .INPUT)) (list : NameList ts names) :
      IsInput site m (t :: ts) "? " names
  | prompted {t u w : Token} {us ts : List Token} {c : Cursor} {m' : Machine} {v : Value}
      {prompt : String} {names : List String} (keyword : t.category = some (.keyword .INPUT))
      (text : u.category = some .text)
      (value : Exec.value site ⟨⟨t, u :: us, 0⟩, m⟩ = .ok v ⟨c, m'⟩) (rest : c.rest = w :: ts)
      (semicolon : w.category = some (.mark .semicolon)) (written : v.written = .ok prompt)
      (list : NameList ts names) :
      IsInput site m (t :: u :: us) prompt names

section IsInput

variable {site : Site} {m : Machine} {tokens : List Token} {prompt line : String}
  {names refused : List String}

theorem IsInput.names_ne_nil (h : IsInput site m tokens prompt names) : names ≠ [] := by
  have hlist {ts : List Token} (list : NameList ts names) : names ≠ [] := by
    cases list <;> exact List.cons_ne_nil _ _
  cases h with
  | bare _ list => exact hlist list
  | prompted _ _ _ _ _ _ list => exact hlist list

/-- The prompt is evaluated first, and then lines are asked for. -/
theorem IsInput.exists_input (h : IsInput site m tokens prompt names) :
    ∃ t ts c m', tokens = t :: ts ∧ t.category = some (.keyword .INPUT) ∧ m.Intact m' ∧
      Exec.input site ⟨⟨t, t :: ts, 0⟩, m⟩ =
        Exec.inputLines prompt names (m.terminal.supply + 1) site ⟨c, m'⟩ := by
  cases h with
  | @bare t ts _ keyword list =>
      have hname := list.category_current t 0
      have hprompt : Exec.inputPrompt none site ⟨⟨t, ts, 0⟩, m⟩ =
          .ok (.text "? ") ⟨⟨t, ts, 0⟩, m⟩ := by
        rw [Exec.inputPrompt, Exec.current_bind, if_neg (by simp [hname])]
        rfl
      obtain ⟨c, hnames⟩ := @Exec.inputNames_ok site m ts names list 0 t
      exact ⟨t, ts, c, m, rfl, keyword, .refl m,
        Exec.input_ready (by simp [Token.isMark, hname]) hprompt hnames rfl⟩
  | @prompted t u w us ts c m' v _ _ keyword text value rest semicolon written list =>
      have hintact : m.Intact m' := by
        have hsettles := Exec.atomic_evaluate Eval.value site ⟨⟨t, u :: us, 0⟩, m⟩ (.refl m)
        rw [← Exec.value, value] at hsettles
        cases hsettles with
        | ok h => exact h
      obtain ⟨last, _, overrun⟩ := c
      cases rest
      have hprompt := Exec.inputPrompt_text text value semicolon
      obtain ⟨c, hnames⟩ := @Exec.inputNames_ok site m' ts names list overrun w
      have hsupply : m'.terminal = m.terminal := by
        obtain ⟨_, _, rfl⟩ := hintact
        rfl
      refine ⟨t, u :: us, c, m', rfl, keyword, hintact, ?_⟩
      rw [← hsupply]
      exact Exec.input_ready (by simp [Token.isMark, Cursor.current, text]) hprompt hnames written

/-- The variables have their values from the fields of one line, the terminal is as the dialogue
leaves it, and all else is as it was. -/
structure Machine.Answered (names : List String) (fields : List (List Char)) (t : Terminal)
    (m n : Machine) : Prop where
  settled : Exec.Settled names fields m.symbols n.symbols
  terminal : n.terminal = t
  rest : m.Intact { n with symbols := m.symbols, terminal := m.terminal }

/-- INPUT asks for lines up to the first that serves all its variables, and has a message for each
line before it. The variables get their values from that line alone. -/
theorem Machine.runPart_input (h : IsInput site m tokens prompt names)
    (hrefused : ∀ s ∈ refused, ¬ Exec.Acceptable names s) (hline : Exec.Acceptable names line) :
    (∀ s, CommaCut names.length s (Exec.fieldsOf names s)) ∧
      (∀ later, m.terminal.device.isPlain → m.terminal.typed = refused ++ line :: later →
        ∃ t, m.terminal.Plays (Terminal.dialogue prompt names refused line) t ∧
          t.typed = later) ∧
      ∀ t, m.terminal.Plays (Terminal.dialogue prompt names refused line) t →
        ∃ n, runPart site tokens m = .ok none n ∧
          m.Answered names (Exec.fieldsOf names line.toList) t n := by
  refine ⟨?_, fun later hplain htyped => ?_, fun t hplays => ?_⟩
  · obtain ⟨name, rest, rfl⟩ := List.exists_cons_of_ne_nil h.names_ne_nil
    exact Exec.commaCut_cutCommas rest.length
  · exact Terminal.plays_plain hplain prompt names htyped
  · obtain ⟨token, ts, c, m', rfl, keyword, hintact, hinput⟩ := h.exists_input
    obtain ⟨generator, signs, rfl⟩ := hintact
    obtain ⟨table, htable, hsettled⟩ := Exec.inputLines_plays site c h.names_ne_nil hrefused hline
      (m := { m with generator := generator, compared := signs }) hplays (Nat.lt_succ_self _)
    refine ⟨{ m with generator := generator, compared := signs, terminal := t, symbols := table },
      ?_, ⟨hsettled, rfl, _, _, rfl⟩⟩
    rw [runPart_cons, Exec.statement_input keyword, Exec.bind_ok (hinput.trans htable)]
    rfl

theorem Machine.runPart_input_redo :
    let list : List Token := [.name "A", .mark .comma ",", .name "B$", .mark .comma ",", .name "A"]
    let tokens := .word .INPUT "INPUT" :: .text "GO" :: .mark .semicolon ";" :: list
    let names := ["A", "B$", "A"]
    let refused := ["5", "x,y,2", "1,2,z", "3,four,5.5,6"]
    let m : Machine :=
      { Machine.blank with terminal := .ofDevice .teletype (refused ++ ["7,eight,9"]) none }
    IsInput "10" m tokens "GO" names ∧ (∀ s ∈ refused, ¬ Exec.Acceptable names s) ∧
      Exec.Acceptable names "7,eight,9" ∧
      ∃ t n, m.terminal.Plays (Terminal.dialogue "GO" names refused "7,eight,9") t ∧
        runPart "10" tokens m = .ok none n ∧ n.terminal = t ∧
        n.symbols.get? "A" = some (.scalar (.int 9)) ∧
        n.symbols.get? "B$" = some (.scalar (.text "eight")) := by
  intro list tokens names refused m
  let prompt := Exec.value "10" ⟨⟨.word .INPUT "INPUT", tokens.tail, 0⟩, m⟩
  have hvalue : prompt = .ok (.text "GO") ⟨(state prompt).cursor, (state prompt).machine⟩ :=
    eq_of_value? (by decide +kernel)
  have hrest : (state prompt).cursor.rest = .mark .semicolon ";" :: list := by decide +kernel
  have hinput : IsInput "10" m tokens "GO" names :=
    .prompted rfl rfl hvalue hrest rfl rfl (.more rfl rfl (.more rfl rfl (.one rfl)))
  have hrefused : ∀ s ∈ refused, ¬ Exec.Acceptable names s := by decide +kernel
  have hline : Exec.Acceptable names "7,eight,9" := by decide +kernel
  obtain ⟨-, hplain, hanswered⟩ := runPart_input hinput hrefused hline
  obtain ⟨t, hplays, -⟩ := hplain [] rfl rfl
  obtain ⟨n, hrun, hsettled, hterminal, -⟩ := hanswered t hplays
  have hend (k : Nat) (hk : 3 ≤ k) (x : String) : names[k]? ≠ some x := by
    rw [List.getElem?_eq_none hk]
    exact nofun
  obtain ⟨v, hv, ha⟩ := hsettled.values 2 "A" rfl fun k hk => hend k hk _
  obtain ⟨w, hw, hb⟩ := hsettled.values 1 "B$" rfl fun k hk => by
    obtain rfl | hk := Nat.eq_or_lt_of_le hk
    · exact of_decide_eq_true rfl
    · exact hend k hk _
  have hv' : v = .int 9 := Option.some.inj (hv.symm.trans (by decide +kernel))
  have hw' : w = .text "eight" := Option.some.inj (hw.symm.trans (by decide +kernel))
  exact ⟨hinput, hrefused, hline, t, n, hplays, hrun, hterminal, hv' ▸ ha, hw' ▸ hb⟩

end IsInput

end LineBasic

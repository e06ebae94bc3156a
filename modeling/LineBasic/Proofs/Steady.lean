import LineBasic.Proofs.Local
import LineBasic.Proofs.Ordinary

namespace LineBasic

open Outcome

def OrdinaryStep {σ α : Type} (x : EStateM Fault σ α) : Prop :=
  ∀ s f s', x s = .error f s' → f.isAstray = false

namespace OrdinaryStep

variable {σ α β : Type}

theorem of_ok {x : EStateM Fault σ α} (h : ∀ s, ∃ a s', x s = .ok a s') : OrdinaryStep x := by
  intro s f s' he
  obtain ⟨a, t, hok⟩ := h s
  rw [hok] at he
  cases he

theorem throw {f : Fault} (h : f.isAstray = false) :
    OrdinaryStep (throw f : EStateM Fault σ α) := by
  rintro s _ s' ⟨⟩
  exact h

theorem bind {x : EStateM Fault σ α} {f : α → EStateM Fault σ β} (hx : OrdinaryStep x)
    (hf : ∀ a, OrdinaryStep (f a)) : OrdinaryStep (x >>= f) := by
  intro s e s' he
  cases h : x s with
  | ok a t => exact hf a t e s' (by rwa [bind_ok h] at he)
  | error e' t =>
      rw [bind_error h] at he
      cases he
      exact hx s e s' h

end OrdinaryStep

namespace Text

theorem ordinary_decodeFrom (last : Bool) (fuel position : Nat) (bs : List UInt8) :
    Ordinary (decodeFrom last fuel position bs) := by
  have hfault (position length : Nat) (b : UInt8) (reason : String) :
      (decodeFault position length b reason).isAstray = false := by
    unfold decodeFault
    split <;> rfl
  fun_induction decodeFrom last fuel position bs with
  | case1 => exact .pure _
  | case2 => exact .pure _
  | case3 => exact .throw (hfault _ _ _ _)
  | case4 _ _ _ _ _ _ _ _ _ _ ih => exact ih.bind fun _ => .pure _
  | case5 => exact .throw (hfault _ _ _ _)
  | case6 => exact .throw (hfault _ _ _ _)
  | case7 => exact .pure _

end Text

namespace Channel

theorem ordinary_feed (c : Channel) (last : Bool) (bytes : List UInt8) :
    Ordinary (c.feed last bytes) :=
  (Text.ordinary_decodeFrom _ _ _ _).bind fun _ => .pure _

theorem ordinary_write (s : String) : OrdinaryStep (write s) := by
  rintro ⟨c, d⟩ f s' h
  rw [write] at h
  split at h
  · cases h
    rfl
  · cases h

theorem ordinary_readLineOf (file : List UInt8) (c : Channel) {f : Fault} {c' : Channel}
    (h : readLineOf file c = .error f c') : f.isAstray = false := by
  fun_induction readLineOf file c with
  | case1 => cases h
  | case2 c _ _ _ f' hf =>
      cases h
      exact ordinary_feed _ _ _ _ hf
  | case3 => cases h
  | case4 _ _ _ _ _ _ _ _ ih => exact ih h

theorem ordinary_readLine : OrdinaryStep readLine := by
  rintro ⟨c, d⟩ f s' h
  rw [readLine] at h
  dsimp only at h
  split at h
  · cases h
  · rename_i hline
    cases h
    exact ordinary_readLineOf _ _ hline

theorem ordinary_seekTo (place : Place) : OrdinaryStep (seekTo place) := by
  rintro ⟨c, d⟩ f s' h
  simp only [seekTo] at h
  repeat' split at h
  all_goals cases h
  all_goals first | rfl | exact ordinary_feed _ _ _ _ ‹_›

theorem ordinary_placeOf (v : Value) : Ordinary (placeOf v) := by
  have hplace (n : Int) : Ordinary (Place.ofNat n.toNat) := .ite (.throw rfl) (.pure _)
  unfold placeOf
  dsimp only
  split
  · exact (Value.ordinary_truncateReal _).bind hplace
  · exact (Ordinary.pure _).bind hplace

theorem ordinary_seek (v : Value) : OrdinaryStep (seek v) := by
  rintro ⟨c, d⟩ f s' h
  simp only [seek] at h
  split at h
  · rename_i hrel
    cases h
    exact Value.ordinary_relate _ _ _ _ hrel
  · split at h
    · cases h
      rfl
    · rename_i hquoted
      cases h
      exact Value.ordinary_quoted _ _ hquoted
  · split at h
    · rename_i hplace
      cases h
      exact ordinary_placeOf _ _ hplace
    · exact ordinary_seekTo _ _ _ _ h

theorem ordinary_measureIn (n total : Nat) : OrdinaryStep (measureIn n total) := by
  induction n generalizing total with
  | zero => exact .of_ok fun s => ⟨_, _, rfl⟩
  | succ n ih =>
      refine ordinary_readLine.bind fun line => ?_
      split
      · exact .of_ok fun s => ⟨_, _, rfl⟩
      · exact ih _

theorem ordinary_seekEnd : OrdinaryStep seekEnd := by
  have hbyte (n : Nat) : OrdinaryStep (seekByte n) := .of_ok fun s => ⟨_, _, rfl⟩
  have hget : OrdinaryStep (get : EStateM Fault (Channel × Disk) _) := .of_ok fun s => ⟨_, _, rfl⟩
  exact (hbyte 0).bind fun _ => hget.bind fun s => (ordinary_measureIn _ _).bind fun n => hbyte n

end Channel

theorem Checker.ordinary_finishLine (c : Checker) {r : Fault × String}
    (h : c.finishLine = .error r) : r.1.isAstray = false := by
  unfold finishLine at h
  repeat' split at h
  all_goals cases h
  all_goals rfl

theorem Editor.ordinary_edit (e : Editor) (draft : Draft) (keys : List Int) :
    Ordinary (e.edit draft keys).1 := by
  induction keys generalizing e draft with
  | nil => exact .throw rfl
  | cons key keys ih =>
      unfold edit
      split
      · exact .pure _
      · exact ih _ _

theorem Editor.ordinary_input (e : Editor) : Ordinary e.input.1 := by
  unfold input
  have hedit := Editor.ordinary_edit (e.tell [.cursorShape 1, .refresh])
    ⟨[], (e.tell [.cursorShape 1, .refresh]).history.length⟩
    (e.tell [.cursorShape 1, .refresh]).keys
  dsimp only
  split
  · rename_i heq
    rwa [heq] at hedit
  · exact .pure _

theorem Editor.ordinary_moveTo (e : Editor) (x y : Option Value) : Ordinary (e.moveTo x y) := by
  have hzero (v : Option Value) : Ordinary (fromZero v) := by
    cases v with
    | none => exact .throw rfl
    | some v => exact Value.ordinary_sub v _
  exact (hzero y).bind fun _ => (hzero x).bind fun _ => .pure _

namespace Terminal

variable {α β : Type}

def withPast (past : List Event) (t : Terminal) : Terminal := { t with events := t.events ++ past }

/-- The faults are ordinary, what happened before makes no difference, and patience without end
does not end. -/
structure Steady (act : Act α) : Prop where
  ordinary : OrdinaryStep act
  blind : ∀ past t, act (t.withPast past) = mapState (withPast past) (act t)
  patient : ∀ t, t.patience = none → (state (act t)).patience = none

theorem steady_throw {f : Fault} (h : f.isAstray = false) : Steady (throw f : Act α) :=
  ⟨.throw h, fun _ _ => rfl, fun _ ht => ht⟩

theorem steady_modify {f : Terminal → Terminal}
    (h : ∀ past t, f (t.withPast past) = (f t).withPast past)
    (hp : ∀ t, (f t).patience = t.patience) : Steady (modify f) :=
  ⟨.of_ok fun t => ⟨(), f t, rfl⟩, fun past t => congrArg (EStateM.Result.ok ()) (h past t),
    fun t ht => (hp t).trans ht⟩

theorem Steady.bind {x : Act α} {f : α → Act β} (hx : Steady x) (hf : ∀ a, Steady (f a)) :
    Steady (x >>= f) := by
  refine ⟨hx.ordinary.bind fun a => (hf a).ordinary, fun past t => ?_, fun t ht => ?_⟩
  · have hb := hx.blind past t
    cases h : x t with
    | error e t' =>
        rw [h] at hb
        rw [bind_error hb, bind_error h]
        rfl
    | ok a t' =>
        rw [h] at hb
        rw [bind_ok hb, bind_ok h]
        exact (hf a).blind past t'
  · have hp := hx.patient t ht
    cases h : x t with
    | error e t' =>
        rw [h] at hp
        rw [bind_error h]
        exact hp
    | ok a t' =>
        rw [h] at hp
        rw [bind_ok h]
        exact (hf a).patient t' hp

theorem steady_get {f : Terminal → Act α} (hf : ∀ t, Steady (f t))
    (hb : ∀ past t, f (t.withPast past) = f t) : Steady (get >>= f) := by
  refine ⟨fun t => (hf t).ordinary t, fun past t => ?_, fun t => (hf t).patient t⟩
  show f (t.withPast past) (t.withPast past) = _
  rw [hb, (hf t).blind]
  rfl

theorem steady_finishLine (c : Checker) : Steady (finishLine c) := by
  unfold finishLine
  split
  · exact steady_modify (fun _ _ => rfl) fun _ => rfl
  · rename_i hc
    refine Steady.bind (steady_modify (fun _ _ => rfl) fun _ => rfl) fun _ => ?_
    exact steady_throw (c.ordinary_finishLine hc)

theorem steady_write (s : String) : Steady (write s) := by
  refine steady_get (fun t => ?_) fun _ _ => rfl
  split <;> exact steady_modify (fun _ _ => rfl) fun _ => rfl

theorem steady_enter : Steady enter := by
  refine steady_get (fun t => ?_) fun _ _ => rfl
  split
  · exact steady_finishLine _
  all_goals exact steady_modify (fun _ _ => rfl) fun _ => rfl

theorem steady_print (s : String) : Steady (print s) := by
  refine steady_get (fun t => ?_) fun _ _ => rfl
  split
  · exact steady_finishLine _
  all_goals exact steady_modify (fun _ _ => rfl) fun _ => rfl

theorem steady_clear : Steady clear := by
  refine steady_get (fun t => ?_) fun _ _ => rfl
  split
  · exact steady_modify (fun _ _ => rfl) fun _ => rfl
  · exact steady_modify (fun _ _ => rfl) fun _ => rfl
  · exact steady_modify (fun _ _ => rfl) fun _ => rfl
  · exact steady_throw rfl

theorem steady_cursor (x y : Option Value) : Steady (cursor x y) := by
  refine steady_get (fun t => ?_) fun _ _ => rfl
  split
  · split
    · exact steady_modify (fun _ _ => rfl) fun _ => rfl
    · exact steady_throw (Value.ordinary_writtenIf x _ ‹_›)
    · exact steady_throw (Value.ordinary_writtenIf y _ ‹_›)
  · split
    · exact steady_modify (fun _ _ => rfl) fun _ => rfl
    · exact steady_throw (Editor.ordinary_moveTo _ x y _ ‹_›)
  · exact steady_throw rfl

theorem escaped_eq {t : Terminal} (h : t.patience = none) : escaped t = .ok false t := by
  obtain ⟨device, typed, patience, events⟩ := t
  cases h
  rfl

theorem steady_escaped : Steady escaped := by
  refine ⟨.of_ok fun t => ?_, fun past t => ?_, fun t ht => ?_⟩
  · obtain ⟨device, typed, patience, events⟩ := t
    rcases patience with _ | _ | n <;> exact ⟨_, _, rfl⟩
  · obtain ⟨device, typed, patience, events⟩ := t
    rcases patience with _ | _ | n <;> rfl
  · rw [escaped_eq ht]
    exact ht

theorem get_bind {α : Type} (f : Terminal → Act α) (t : Terminal) : (get >>= f) t = f t t := rfl

theorem input_eq (t : Terminal) : input t = match t.device with
    | .editor e =>
        match e.input.1 with
        | .ok line => .ok line { t with device := .editor e.input.2 }
        | .error f => .error f { t with device := .editor e.input.2 }
    | _ =>
        match t.typed with
        | [] => .error .endOfInput { t with events := .asked :: t.events }
        | line :: typed => .ok line { t with events := .asked :: t.events, typed := typed } := by
  obtain ⟨device, typed, patience, events⟩ := t
  cases device with
  | editor e =>
      rw [input, get_bind]
      dsimp only
      rcases e.input with ⟨r, e'⟩
      cases r <;> rfl
  | _ => cases typed <;> rfl

theorem steady_input : Steady input := by
  refine ⟨fun t f t' h => ?_, ?_, fun t ht => ?_⟩
  · rw [input_eq] at h
    split at h
    · rename_i e _
      cases he : e.input.1 with
      | ok line =>
          rw [he] at h
          cases h
      | error f' =>
          rw [he] at h
          cases h
          exact e.ordinary_input _ he
    · split at h
      · cases h
        rfl
      · cases h
  · rintro past ⟨device, typed, patience, events⟩
    rw [input_eq, input_eq]
    cases device with
    | editor e =>
        dsimp only [withPast]
        cases e.input.1 <;> rfl
    | _ => cases typed <;> rfl
  · rw [input_eq]
    split
    · split <;> exact ht
    · split <;> exact ht

end Terminal

end LineBasic

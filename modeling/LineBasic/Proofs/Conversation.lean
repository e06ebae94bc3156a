import LineBasic.Proofs.Stores

namespace LineBasic

open Outcome

namespace Session

variable {α β : Type}

def Sound (x : Command α) : Prop := ∀ p : Program, p.Coherent → (state (x p)).Coherent

theorem sound_pure (a : α) : Sound (pure a : Command α) := fun _ h => h

theorem sound_throw (f : Fault) : Sound (throw f : Command α) := fun _ h => h

theorem Sound.bind {x : Command α} {f : α → Command β} (hx : Sound x) (hf : ∀ a, Sound (f a)) :
    Sound (x >>= f) := by
  intro p h
  have hp := hx p h
  cases hr : x p with
  | error e q =>
      rw [bind_error hr]
      rwa [hr] at hp
  | ok a q =>
      rw [bind_ok hr]
      rw [hr] at hp
      exact hf a q hp

theorem sound_onTerminal (act : Terminal.Act α) : Sound (onTerminal act) := by
  intro p h
  unfold onTerminal
  cases act p.machine.terminal <;> exact h.congr rfl rfl

theorem sound_print (s : String) : Sound (print s) := sound_onTerminal _

theorem sound_forM {x : β → Command Unit} (h : ∀ b, Sound (x b)) (bs : List β) :
    Sound (bs.forM x) := by
  induction bs with
  | nil => exact sound_pure ()
  | cons b bs ih => exact (h b).bind fun _ => ih

theorem sound_ofExcept (r : Except Fault α) : Sound (ofExcept r) := by
  cases r with
  | ok a => exact sound_pure a
  | error f => exact sound_throw f

theorem sound_number (t : Token) : Sound (number t) := sound_ofExcept _

theorem sound_listRange (ts : List Token) : Sound (listRange ts) := by
  unfold listRange
  split
  · exact (sound_number _).bind fun _ => sound_pure _
  · split
    · exact (sound_number _).bind fun _ => sound_pure _
    · split
      · exact (sound_number _).bind fun _ => sound_pure _
      · exact (sound_number _).bind fun _ => (sound_number _).bind fun _ => sound_pure _
  · exact (sound_number _).bind fun _ => (sound_number _).bind fun _ => sound_pure _
  · exact sound_pure _

theorem sound_list (first last : Option Int) : Sound (list first last) := by
  have hget : Sound (get : Command Program) := fun _ h => h
  refine hget.bind fun p => ?_
  split
  · exact sound_forM (fun n => (sound_ofExcept _).bind fun s => sound_print s) _
  · exact sound_pure ()

theorem sound_run : Sound run := by
  intro p h
  have hrun : p.run.2.Coherent :=
    h.congr (Program.lines_runWithin _ p) (Program.dataLines_runWithin _ p)
  unfold run
  split
  all_goals
    rename_i heq
    rw [heq] at hrun
  · exact hrun
  · exact sound_print _ _ hrun
  · exact hrun
  · exact sound_print _ _ hrun

theorem sound_renew : Sound (modify renew) := by
  intro p _
  show (renew p).Coherent
  exact .of_empty rfl rfl

theorem sound_save (path : String) : Sound (change (·.save path)) := by
  intro p h
  rw [Program.state_change]
  unfold Program.save
  split
  · exact h
  · exact h.congr rfl rfl

theorem sound_load (path : String) : Sound (load path) := by
  intro p _
  rw [Program.state_load]
  exact .load p path

theorem sound_programPath (ts : List Token) : Sound (programPath ts) := by
  cases ts with
  | nil => exact sound_throw _
  | cons t ts => exact sound_pure _

theorem sound_unrecognised (ts : List Token) : Sound (unrecognised ts) := by
  have hprint (t : Token) : Sound (print t.lexeme) := sound_print t.lexeme
  unfold unrecognised
  exact (sound_print "Unrecognised input").bind fun _ => sound_forM hprint ts

/-- A numbered line is stored as the text that it was read from. -/
theorem sound_add {line : String} {ts : List Token} (h : tokenize line = .ok ts) :
    Sound (change (·.add ts)) := by
  have hadd : (fun p : Program => p.add ts) = fun p => p.addText line.toList := by
    funext p
    have hscan : Token.scanAll 0 line.toList = .ok ts := h
    rw [Program.addText, hscan]
    rfl
  intro p hp
  rw [hadd]
  exact hp.carryOut (.edit (.add line.toList))

theorem sound_perform {line : String} {t : Token} {ts : List Token}
    (h : tokenize line = .ok (t :: ts)) : Sound (perform t ts) := by
  unfold perform
  split
  · exact sound_pure _
  · split
    · exact (sound_number t).bind fun n =>
        Sound.bind (fun p hp => hp.withdraw n) fun _ => sound_pure _
    · exact (sound_add h).bind fun _ => sound_pure _
  · exact sound_run.bind fun _ => sound_pure _
  · exact (sound_listRange ts).bind fun b => (sound_list b.1 b.2).bind fun _ => sound_pure _
  · exact (sound_programPath ts).bind fun path => (sound_save path).bind fun _ =>
      (sound_print _).bind fun _ => sound_pure _
  · exact (sound_programPath ts).bind fun path => (sound_load path).bind fun _ =>
      (sound_print _).bind fun _ => sound_pure _
  · exact sound_renew.bind fun _ => sound_pure _
  · exact (sound_onTerminal _).bind fun _ => sound_pure _
  · exact (sound_unrecognised _).bind fun _ => sound_pure _

theorem sound_enter (line : String) : Sound (enter line) := by
  unfold enter
  cases h : tokenize line with
  | error f => exact sound_throw f
  | ok ts =>
      cases ts with
      | nil => exact sound_pure _
      | cons t ts => exact sound_perform h

/-- What a conversation comes to: entries are carried out one after another, and between them the
terminal may do anything. -/
inductive Reached : Program → Prop
  | start (m : Machine) (empty : m.data.lines = []) : Reached (.fresh m)
  | entry {p : Program} (before : Reached p) (line : String) : Reached (state (enter line p))
  | terminal {p : Program} (before : Reached p) (t : Terminal) :
      Reached { p with machine := { p.machine with terminal := t } }

theorem Reached.coherent {p : Program} (h : Reached p) : p.Coherent := by
  induction h with
  | start m empty => exact .of_empty rfl empty
  | @entry p before line ih => exact sound_enter line p ih
  | terminal before t ih => exact ih.congr rfl rfl

end Session

end LineBasic

import LineBasic.Proofs.Loop.Head
import LineBasic.Proofs.Plain
import LineBasic.Proofs.Trail

namespace LineBasic

open Outcome Program

inductive Block
  | done
  | line (number : Int) (tokens : List Token) (plain : isPlainLine tokens) (rest : Block)
  | loop (l : Loop) (head tail : Int × List Token) (isHead : head.2.map Token.face = l.headFaces)
      (isTail : tail.2.map Token.face = l.tailFaces) (body rest : Block)

abbrev Env := List (String × Int)

/-- A line that is carried out: its position, the values of loop variables before it, and the lines
to come back to. -/
structure Stop where
  index : Nat
  values : Env
  returns : List Int

def passes (f : Nat → EStateM Fault Machine Unit) : Nat → Nat → EStateM Fault Machine Unit
  | _, 0 => pure ()
  | i, n + 1 => do
      f i
      passes f (i + 1) n

namespace Machine

def assignInt (name : String) (n : Int) : EStateM Fault Machine Unit :=
  modify fun m => m.setInt name n

end Machine

def Loop.pass (l : Loop) (body : EStateM Fault Machine Unit) (i : Nat) :
    EStateM Fault Machine Unit := do
  Machine.poll
  Machine.assignInt l.name (l.valueAt i)
  body
  Machine.poll

namespace Block

def lines : Block → Lines (List Token)
  | done => []
  | line number tokens _ rest => (number, tokens) :: rest.lines
  | loop _ head tail _ _ body rest => head :: (body.lines ++ tail :: rest.lines)

def entry (b : Block) : Value := .int ((b.lines.head?.map (·.1)).getD 0)

/-- No line assigns one of the variables, and no loop is over one of them; and so within each loop
for its own variable. -/
def Respects : Block → List String → Prop
  | done, _ => True
  | line _ tokens _ rest, names => (∀ x ∈ names, x ∉ lineTargets tokens) ∧ rest.Respects names
  | loop l _ _ _ _ body rest, names =>
      l.name ∉ names ∧ body.Respects (l.name :: names) ∧ rest.Respects names

def run : Block → Value → EStateM Fault Machine Unit
  | done, _ => pure ()
  | line number tokens _ rest, e => do
      Machine.poll
      let _ ← Machine.runLine ⟨e.label, some number, 0⟩ tokens
      rest.run rest.entry
  | loop l _ _ _ _ body rest, _ => do
      passes (l.pass (body.run body.entry)) 0 l.count
      Machine.poll
      Machine.assignInt l.name (l.valueAt l.count)
      rest.run rest.entry

def leaves : Block → Env
  | done => []
  | line _ _ _ rest => rest.leaves
  | loop l _ _ _ _ _ done => [(l.name, l.valueAt l.count)]
  | loop _ _ _ _ _ _ rest => rest.leaves

def passTrail (l : Loop) (number : Int) (body : Block)
    (trail : Nat → Env → Env → List Int → List Stop) (i : Nat) (left env : Env)
    (returns : List Int) (k : Nat) : List Stop :=
  let env' := (l.name, l.valueAt k) :: env
  let returns' := number :: returns
  ⟨i, (if k = 0 then left else []) ++ env, returns⟩ :: (trail (i + 1) [] env' returns' ++
    [⟨i + 1 + body.lines.length, body.leaves ++ env', returns'⟩])

/-- The lines that a block carries out from position `i` on, within loops whose variables have the
values `env` and after one that left `left`. The first line of a loop is carried out once more after
the last pass. -/
def trail : Block → Nat → Env → Env → List Int → List Stop
  | done, _, _, _, _ => []
  | line _ _ _ rest, i, left, env, returns =>
      ⟨i, left ++ env, returns⟩ :: rest.trail (i + 1) [] env returns
  | loop l head _ _ _ body rest, i, left, env, returns =>
      (List.range l.count).flatMap (passTrail l head.1 body body.trail i left env returns) ++
        ⟨i, (if l.count = 0 then left else []) ++ env, returns⟩ ::
          rest.trail (i + body.lines.length + 2) [(l.name, l.valueAt l.count)] env returns

end Block

section Effect

open Machine

variable {ks : List String}

theorem Machine.Local.tail {α : Type} {k : String} {x : EStateM Fault Machine α}
    (h : Local (k :: ks) x) : Local ks x :=
  fun flow => ⟨fun m => (List.cons.inj ((h flow).spares m)).2, (h flow).blind⟩

theorem local_assignInt {name : String} (n : Int) (h : name ∉ ks) :
    Local ks (assignInt name n) :=
  fun _ => ⟨fun m => Symbols.map_get?_put h m.symbols _, fun _ => rfl⟩

theorem local_pass {l : Loop} {body : EStateM Fault Machine Unit} (h : l.name ∉ ks)
    (hb : Local ks body) (i : Nat) : Local ks (l.pass body i) :=
  (local_poll ks).bind fun _ => (local_assignInt _ h).bind fun _ =>
    hb.bind fun _ => local_poll ks

theorem local_passes {f : Nat → EStateM Fault Machine Unit} (h : ∀ i, Local ks (f i)) (i n : Nat) :
    Local ks (passes f i n) := by
  induction n generalizing i with
  | zero => exact local_pure ()
  | succ n ih => exact (h i).bind fun _ => ih (i + 1)

namespace Block

theorem local_run {b : Block} (h : b.Respects ks) (e : Value) : Local ks (b.run e) := by
  induction b generalizing ks e with
  | done => exact local_pure ()
  | line number tokens plain rest ih =>
      refine (local_poll ks).bind fun _ => (local_runLine plain h.1).bind fun _ => ?_
      exact ih h.2 _
  | loop l head tail isHead isTail body rest ihb ihr =>
      obtain ⟨hname, hbody, hrest⟩ := h
      have hpass := local_pass hname (ihb hbody body.entry).tail
      refine (local_passes hpass _ _).bind fun _ => (local_poll ks).bind fun _ => ?_
      exact (local_assignInt _ hname).bind fun _ => ihr hrest _

end Block

end Effect

section AfterLoop

variable {name : String} {tokens : List Token}

def Closes (name : String) (tokens : List Token) : Prop :=
  ∃ t v ts, tokens = t :: v :: ts ∧ t.isKeyword .NEXT ∧ v.lexeme = name

theorem afterLoop_of_closes (h : Closes name tokens) (i : Nat) (n : Int)
    (ls : Lines (List Token)) : afterLoop (.text name) i ((n, tokens) :: ls) = i + 1 := by
  obtain ⟨t, v, ts, rfl, ht, rfl⟩ := h
  rw [afterLoop, if_pos ⟨ht, rfl⟩]

theorem afterLoop_of_not_closes (h : ¬ Closes name tokens) (i : Nat) (n : Int)
    (ls : Lines (List Token)) :
    afterLoop (.text name) i ((n, tokens) :: ls) = afterLoop (.text name) (i + 1) ls := by
  rcases tokens with _ | ⟨t, _ | ⟨v, ts⟩⟩
  · rfl
  · rfl
  · rw [afterLoop, if_neg]
    rintro ⟨ht, hv⟩
    exact h ⟨t, v, ts, rfl, ht, Value.text.inj hv⟩

theorem not_closes_of_head {t : Token} {ts : List Token} (h : ¬ t.isKeyword .NEXT) :
    ¬ Closes name (t :: ts) := by
  rintro ⟨u, v, us, he, hu, -⟩
  cases he
  exact h hu

theorem not_closes_of_isPlainLine (h : isPlainLine tokens) : ¬ Closes name tokens := by
  cases tokens with
  | nil => cases h
  | cons t ts =>
      refine not_closes_of_head fun hnext => ?_
      have hc : t.category = some (.keyword .NEXT) := beq_iff_eq.mp hnext
      have hcolon : ¬ t.isMark .colon := by simp [Token.isMark, hc]
      rw [isPlainLine, splitColons, if_neg hcolon] at h
      split at h <;> simp [isPlainPart, Token.isKeyword, hc] at h

namespace Loop

variable {l : Loop}

theorem not_closes_head (ht : tokens.map Token.face = l.headFaces) : ¬ Closes name tokens := by
  obtain ⟨t, ts, rfl, hf, -⟩ := List.map_eq_cons_iff.mp ht
  exact not_closes_of_head (by simp [Token.isKeyword, (Token.face_eq.mp hf).1])

theorem closes_tail (ht : tokens.map Token.face = l.tailFaces) :
    Closes name tokens ↔ l.name = name := by
  obtain ⟨t, ts, rfl, hf, ht⟩ := List.map_eq_cons_iff.mp ht
  obtain ⟨v, ts, rfl, hv, -⟩ := List.map_eq_cons_iff.mp ht
  constructor
  · rintro ⟨t', v', ts', he, -, rfl⟩
    cases he
    exact (Token.face_eq.mp hv).2.symm
  · rintro rfl
    exact ⟨t, v, ts, rfl, by simp [Token.isKeyword, (Token.face_eq.mp hf).1],
      (Token.face_eq.mp hv).2⟩

end Loop

/-- The end of a loop is not within a block in its body. -/
theorem Block.afterLoop_append {b : Block} {names : List String} (h : b.Respects names)
    (hn : name ∈ names) (i : Nat) (ls : Lines (List Token)) :
    afterLoop (.text name) i (b.lines ++ ls) = afterLoop (.text name) (i + b.lines.length) ls := by
  induction b generalizing i ls names with
  | done => rfl
  | line number tokens plain rest ih =>
      rw [lines, List.cons_append, afterLoop_of_not_closes (not_closes_of_isPlainLine plain),
        ih h.2 hn, List.length_cons]
      congr 1
      omega
  | loop l head tail isHead isTail body rest ihb ihr =>
      obtain ⟨hname, hbody, hrest⟩ := h
      have htail : ¬ Closes name tail.2 := fun hc =>
        hname ((Loop.closes_tail isTail).mp hc ▸ hn)
      rw [lines, List.cons_append, List.append_assoc, List.cons_append,
        afterLoop_of_not_closes (Loop.not_closes_head isHead),
        ihb hbody (List.mem_cons_of_mem _ hn), afterLoop_of_not_closes htail, ihr hrest hn]
      congr 1
      simp only [List.length_cons, List.length_append]
      omega

end AfterLoop

end LineBasic

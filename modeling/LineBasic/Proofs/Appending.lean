import LineBasic.Proofs.Assignment
import LineBasic.Proofs.FileLines
import LineBasic.Proofs.Lines
import LineBasic.Proofs.Operand

namespace LineBasic

namespace Channel

open Text

def extend (c : Char) : List (List Char) → List (List Char)
  | [] => [[c]]
  | line :: lines => (c :: line) :: lines

/-- The lines of a text with their ends, which are a line feed, a carriage return or both of them.
The last line may have none. -/
def cutLines : List Char → List (List Char)
  | [] => []
  | '\r' :: '\n' :: s => ['\r', '\n'] :: cutLines s
  | '\r' :: s => ['\r'] :: cutLines s
  | '\n' :: s => ['\n'] :: cutLines s
  | c :: s => extend c (cutLines s)

def gaps (s : List Char) : Nat := (cutLines s).countP fun line => ¬ ['\r', '\n'] <:+ line

section Lines

variable {c : Char} {s : List Char}

theorem cutLines_return (h : s.head? ≠ some '\n') :
    cutLines ('\r' :: s) = ['\r'] :: cutLines s := by
  cases s with
  | nil => rfl
  | cons d s => rw [cutLines]; simpa using h

theorem cutLines_cons (hr : c ≠ '\r') (hn : c ≠ '\n') :
    cutLines (c :: s) = extend c (cutLines s) := by
  rw [cutLines]
  · exact fun _ h => absurd h hr
  · exact hr
  · exact hn

theorem cutLines_ne_nil (h : s ≠ []) : cutLines s ≠ [] := by
  fun_cases cutLines s with
  | case1 => exact absurd rfl h
  | case5 c s => cases cutLines s <;> exact List.cons_ne_nil _ _
  | _ => exact List.cons_ne_nil _ _

theorem countP_extend (hr : c ≠ '\r') {lines : List (List Char)} (h : lines ≠ []) :
    (extend c lines).countP (fun line => ¬ ['\r', '\n'] <:+ line) =
      lines.countP fun line => ¬ ['\r', '\n'] <:+ line := by
  cases lines with
  | nil => exact absurd rfl h
  | cons line lines =>
      have hend : ['\r', '\n'] <:+ c :: line ↔ ['\r', '\n'] <:+ line := by
        rw [List.suffix_cons_iff]
        simp [hr.symm]
      simp [extend, List.countP_cons, hend]

theorem length_extend {lines : List (List Char)} (h : lines ≠ []) :
    (extend c lines).length = lines.length := by
  cases lines with
  | nil => exact absurd rfl h
  | cons line lines => rfl

theorem lineFeeds_ne_nil (h : s ≠ []) : lineFeeds s ≠ [] := by
  fun_cases lineFeeds s with
  | case1 => exact absurd rfl h
  | _ => exact List.cons_ne_nil _ _

theorem not_mem_lineFeeds (s : List Char) : '\r' ∉ lineFeeds s := by
  fun_induction lineFeeds s with
  | case1 => exact List.not_mem_nil
  | case2 s ih => simpa using ih
  | case3 s _ ih => simpa using ih
  | case4 c s _ hc ih => simpa using ⟨fun h => hc h.symm, ih⟩

theorem length_lineFeeds_le (s : List Char) : (lineFeeds s).length ≤ s.length := by
  fun_induction lineFeeds s with
  | case1 => exact Nat.le_refl _
  | _ => simp only [List.length_cons]; omega

/-- Each line counts one more than its characters, and a line end of two characters counts as one:
what is counted is too much by one for each other line. -/
theorem measure_lineFeeds (s : List Char) :
    (lineFeeds s).length + (cutLines (lineFeeds s)).length = s.length + gaps s := by
  unfold gaps
  fun_induction lineFeeds s with
  | case1 => rfl
  | case2 s ih =>
      rw [cutLines, cutLines, List.countP_cons_of_neg (by simp)]
      simp only [List.length_cons]
      omega
  | case3 s hs ih =>
      have hhead : s.head? ≠ some '\n' := by
        intro h
        obtain ⟨t, rfl⟩ := List.head?_eq_some_iff.mp h
        exact hs t rfl
      rw [cutLines_return hhead, cutLines, List.countP_cons_of_pos (by decide)]
      simp only [List.length_cons]
      omega
  | case4 c s _ hc ih =>
      by_cases hn : c = '\n'
      · subst hn
        rw [cutLines, cutLines, List.countP_cons_of_pos (by decide)]
        simp only [List.length_cons]
        omega
      · rw [cutLines_cons hc hn, cutLines_cons hc hn]
        by_cases hs : s = []
        · subst hs
          have hend : ¬ ['\r', '\n'] <:+ [c] := by
            intro h
            have hlength := h.length_le
            simp at hlength
          simp [lineFeeds, cutLines, extend, hend]
        · rw [length_extend (cutLines_ne_nil (lineFeeds_ne_nil hs)),
            countP_extend hc (cutLines_ne_nil hs), List.length_cons, List.length_cons]
          omega

theorem gaps_eq_zero_iff : gaps s = 0 ↔ ∀ line ∈ cutLines s, ['\r', '\n'] <:+ line := by
  simp [gaps, List.countP_eq_zero]

theorem cutLines_line {line : List Char} (hr : '\r' ∉ line) (hn : '\n' ∉ line) (s : List Char) :
    cutLines (line ++ '\n' :: s) = (line ++ ['\n']) :: cutLines s := by
  induction line with
  | nil => rw [List.nil_append, cutLines]; rfl
  | cons c line ih =>
      rw [List.mem_cons, not_or] at hr hn
      rw [List.cons_append, cutLines_cons (Ne.symm hr.1) (Ne.symm hn.1), ih hr.2 hn.2]
      rfl

theorem cutLines_open {line : List Char} (hr : '\r' ∉ line) (hn : '\n' ∉ line) (h : line ≠ []) :
    cutLines line = [line] := by
  induction line with
  | nil => exact absurd rfl h
  | cons c line ih =>
      rw [List.mem_cons, not_or] at hr hn
      rw [cutLines_cons (Ne.symm hr.1) (Ne.symm hn.1)]
      by_cases hline : line = []
      · rw [hline]; rfl
      · rw [ih hr.2 hn.2 hline]; rfl

theorem splitLine_open (hn : '\n' ∉ s) : splitLine s = (s, []) := by
  have hall : ∀ d ∈ s, (d != '\n') = true := by
    intro d hd
    have hne : d ≠ '\n' := fun he => hn (he ▸ hd)
    simpa using hne
  have hdrop := @List.dropWhile_append_of_pos _ _ s [] hall
  rw [List.append_nil, List.dropWhile_nil] at hdrop
  rw [splitLine, hdrop]

/-- Reading takes one line after the other. -/
theorem cutLines_eq_cons (hr : '\r' ∉ s) (h : s ≠ []) :
    cutLines s = (splitLine s).1 :: cutLines (splitLine s).2 ∧
      s = (splitLine s).1 ++ (splitLine s).2 ∧ (splitLine s).1 ≠ [] := by
  by_cases hn : '\n' ∈ s
  · obtain ⟨line, rest, rfl, hline⟩ := List.eq_append_cons_of_mem hn
    have hreturn : '\r' ∉ line := fun hmem => hr (List.mem_append_left _ hmem)
    rw [splitLine_line hline, cutLines_line hreturn hline]
    simp
  · rw [splitLine_open hn, cutLines_open hr hn h]
    simp [h, cutLines]

end Lines

section Measure

variable {file : List UInt8} {c : Channel} {d : Disk} {text : List Char}

theorem Leaves.measureIn_eq {n : Nat} (h : Leaves file c text) (hfile : c.contents d = file)
    (hr : '\r' ∉ text) (hn : text.length < n) (total : Nat) :
    ∃ c', measureIn n total (c, d) =
        .ok (total + text.length + (cutLines text).length) (c', d) ∧
      (c'.path = c.path ∧ c'.access = c.access) ∧ c'.held = [] ∧ c'.pending = [] := by
  induction n generalizing c text total with
  | zero => exact absurd hn (Nat.not_lt_zero _)
  | succ n ih =>
      obtain ⟨c', hread, hsame, hl⟩ := h.readLine_same hfile
      rw [measureIn, Outcome.bind_ok hread]
      by_cases hnil : text = []
      · subst hnil
        exact ⟨c', rfl, hsame, hl.unwritten⟩
      · obtain ⟨hcut, htext, hline⟩ := cutLines_eq_cons hr hnil
        have hlength := congrArg List.length htext
        rw [List.length_append] at hlength
        have hpos := List.length_pos_iff.mpr hline
        have hfile' : c'.contents d = file := by rw [contents, hsame.1]; exact hfile
        have hrest : '\r' ∉ (splitLine text).2 :=
          fun hmem => hr (htext ▸ List.mem_append_right _ hmem)
        obtain ⟨c'', hmeasure, hsame', hwritten⟩ :=
          ih hl hfile' hrest (by omega) (total + (splitLine text).1.length + 1)
        refine ⟨c'', ?_, ⟨hsame'.1.trans hsame.1, hsame'.2.trans hsame.2⟩, hwritten⟩
        have htotal : total + (splitLine text).1.length + 1 + (splitLine text).2.length +
            (cutLines (splitLine text).2).length =
            total + text.length + (cutLines text).length := by
          rw [hcut, List.length_cons]
          omega
        rw [htotal] at hmeasure
        cases hfirst : (splitLine text).1 with
        | nil => exact absurd hfirst hline
        | cons e line => rw [hfirst] at hmeasure; exact hmeasure

theorem seekByte_eq (h : c.held = [] ∧ c.pending = []) (n : Nat) :
    seekByte n (c, d) = .ok () ({ fresh c.path c.access with position := n }, d) := by
  obtain ⟨path, access, position, held, pending, ready, tail, carriage⟩ := c
  obtain ⟨rfl, rfl⟩ := h
  rfl

/-- The next line goes as far behind the end of the file as it has lines that do not end in a
carriage return with a line feed. -/
theorem seekEnd_fresh {path : String} {s : List Char} (hs : ∀ e ∈ s, e.toNat < 128)
    (hfile : d.read? path = some (s.map byte)) (access : Access) :
    seekEnd (fresh path access, d) =
      .ok () ({ fresh path access with position := s.length + gaps s }, d) := by
  have hcontents : (fresh path access).contents d = s.map byte := by
    rw [contents]
    show (d.read? path).getD [] = _
    rw [hfile, Option.getD_some]
  have hlength : (lineFeeds s).length < (s.map byte).length + 1 := by
    rw [List.length_map]
    exact Nat.lt_succ_of_le (length_lineFeeds_le s)
  obtain ⟨c', hmeasure, hsame, hwritten⟩ :=
    (leaves_start hs path access).measureIn_eq hcontents (not_mem_lineFeeds s) hlength 0
  rw [Nat.zero_add, measure_lineFeeds] at hmeasure
  have hstart : seekByte 0 (fresh path access, d) = .ok () (fresh path access, d) := rfl
  rw [seekEnd, Outcome.bind_ok hstart]
  show (measureIn (((fresh path access).contents d).length + 1) 0 >>= seekByte)
    (fresh path access, d) = _
  rw [hcontents, Outcome.bind_ok hmeasure, seekByte_eq hwritten, hsame.1, hsame.2]
  rfl

end Measure

end Channel

namespace Disk

theorem overlay_beyond {old : List UInt8} {offset : Nat} (h : old.length ≤ offset)
    (new : List UInt8) :
    overlay old offset new = old ++ List.replicate (offset - old.length) 0 ++ new := by
  rw [overlay, List.take_of_length_le h, List.drop_eq_nil_of_le (by omega), List.append_nil]

def grown (base : List UInt8) (start : Nat) (bytes : List UInt8) : List UInt8 :=
  if bytes = [] then base else base ++ List.replicate (start - base.length) 0 ++ bytes

theorem overlay_grown {base bytes new : List UInt8} {start : Nat} (h : base.length ≤ start)
    (hnew : new ≠ []) :
    overlay (grown base start bytes) (start + bytes.length) new =
      grown base start (bytes ++ new) := by
  by_cases hbytes : bytes = []
  · subst hbytes
    rw [grown, if_pos rfl, overlay_beyond (by simpa using h), grown, if_neg (by simpa using hnew)]
    rfl
  · have hlength : (grown base start bytes).length = start + bytes.length := by
      rw [grown, if_neg hbytes]
      simp only [List.length_append, List.length_replicate]
      omega
    rw [overlay_beyond (Nat.le_of_eq hlength), hlength, Nat.sub_self, grown, if_neg hbytes, grown,
      if_neg (by simp [hbytes]), List.replicate_zero, List.append_nil, List.append_assoc,
      List.append_assoc]

end Disk

namespace Channel

open Text

/-- The bytes were sent to the channel of a file: the first of them are in the file, behind what it
held at first, and the others wait. No other file has changed. -/
structure Sends (path : String) (base : List UInt8) (start : Nat) (before : Disk)
    (sent : List UInt8) (c : Channel) (d : Disk) : Prop where
  file : c.path = path
  writable : c.access ≠ .input
  beyond : base.length ≤ start
  stored : ∃ done, sent = done ++ (c.held ++ c.pending) ∧ c.position = start + done.length ∧
    d.read? path = some (Disk.grown base start done)
  others : ∀ other ≠ path, d.read? other = before.read? other

section Sends

variable {path : String} {base sent : List UInt8} {start : Nat} {before d : Disk} {c : Channel}

theorem Sends.put {bytes held pending : List UInt8} (h : Sends path base start before sent c d)
    (hwaiting : c.held ++ c.pending = bytes ++ (held ++ pending)) :
    Sends path base start before sent
      (put { c with held := held, pending := pending } bytes d).1
      (put { c with held := held, pending := pending } bytes d).2 := by
  obtain ⟨done, hsent, hposition, hread⟩ := h.stored
  rw [hwaiting] at hsent
  unfold Channel.put
  by_cases hbytes : bytes = []
  · subst hbytes
    exact ⟨h.file, h.writable, h.beyond, ⟨done, hsent, hposition, hread⟩, h.others⟩
  · rw [if_neg (by simpa using hbytes)]
    have hcontents : contents { c with held := held, pending := pending } d =
        Disk.grown base start done := by
      show (d.read? c.path).getD [] = _
      rw [h.file, hread, Option.getD_some]
    refine ⟨h.file, h.writable, h.beyond, ⟨done ++ bytes, ?_, ?_, ?_⟩, fun other hother => ?_⟩
    · rw [hsent, List.append_assoc]
    · show c.position + bytes.length = _
      rw [hposition, List.length_append, Nat.add_assoc]
    · rw [hcontents, hposition, Disk.overlay_grown h.beyond hbytes]
      show (d.files.put c.path _).get? path = _
      rw [h.file, Assoc.get?_put_self]
    · show (d.files.put c.path _).get? other = _
      rw [h.file, Assoc.get?_put_of_ne _ _ hother]
      exact h.others other hother

theorem Sends.flush (h : Sends path base start before sent c d) :
    Sends path base start before sent (c.flush d).1 (c.flush d).2 :=
  h.put (by simp)

theorem Sends.handOver (h : Sends path base start before sent c d) :
    Sends path base start before sent (c.handOver d).1 (c.handOver d).2 := by
  unfold Channel.handOver
  split
  · exact ⟨h.file, h.writable, h.beyond, by simpa using h.stored, h.others⟩
  · split
    · exact h.flush
    · exact h.put (by simp)

theorem Sends.handOver_ite (h : Sends path base start before sent c d) (p : Prop) [Decidable p] :
    Sends path base start before sent (if p then c.handOver d else (c, d)).1
      (if p then c.handOver d else (c, d)).2 := by
  split
  · exact h.handOver
  · exact h

theorem Sends.write (h : Sends path base start before sent c d) (s : String) :
    ∃ c' d', write s (c, d) = .ok () (c', d') ∧
      Sends path base start before (sent ++ encode s.toList) c' d' := by
  have hfirst := h.handOver_ite (portion < c.pending.length + (encode s.toList).length)
  rw [Channel.write, if_neg h.writable]
  dsimp only
  generalize (if portion < c.pending.length + (encode s.toList).length then c.handOver d
    else (c, d)) = p at hfirst ⊢
  obtain ⟨c₁, d₁⟩ := p
  obtain ⟨done, hsent, hposition, hread⟩ := hfirst.stored
  have hpending : Sends path base start before (sent ++ encode s.toList)
      { c₁.reset with pending := c₁.pending ++ encode s.toList } d₁ := by
    refine ⟨hfirst.file, hfirst.writable, hfirst.beyond, ⟨done, ?_, hposition, hread⟩,
      hfirst.others⟩
    rw [hsent, List.append_assoc, List.append_assoc]
    rfl
  exact ⟨_, _, rfl, hpending.handOver_ite _⟩

/-- In the end all is in the file. -/
theorem Sends.read?_flush (h : Sends path base start before sent c d) :
    (c.flush d).2.read? path = some (Disk.grown base start sent) := by
  obtain ⟨done, hsent, -, hread⟩ := h.flush.stored
  have hempty : (c.flush d).1.held ++ (c.flush d).1.pending = [] := by
    unfold Channel.flush Channel.put
    split <;> rfl
  rw [hread, hsent, hempty, List.append_nil]

end Sends

end Channel

theorem Channels.get?_put_self {v : Value} (h : v.same v) (cs : Channels) (c : Channel) :
    (cs.put v c).get? v = some c := by
  induction cs with
  | nil => rw [put, get?, if_pos h]
  | cons p cs ih =>
      obtain ⟨k, b⟩ := p
      by_cases hk : k.same v
      · rw [put, if_pos hk, get?, if_pos hk]
      · rw [put, if_neg hk, get?, if_neg hk, ih]

def Exec.channelNumber : Exec Value := do
  expectMark .hash
  arithmetic

namespace Machine

inductive OpenAppend (site : Site) (m : Machine) : List Token → Value → Value → Prop
  | intro {t u v w : Token} {ts us : List Token} {path number : Value} {j k : Job}
      (keyword : t.category = some (.keyword .OPEN))
      (file : Exec.value site ⟨⟨t, ts, 0⟩, m⟩ = .ok path j)
      (rest : j.cursor.rest = u :: v :: w :: us) (forWord : u.isKeyword .FOR)
      (mode : v.isKeyword .APPEND) (asWord : w.lexeme = "AS")
      (channel : Exec.channelNumber site { j with cursor := j.cursor.advance.advance.advance } =
        .ok number k)
      (ended : k.cursor.current.isKeyword .ELSE = false) :
      OpenAppend site m (t :: ts) path number

inductive PrintTo (site : Site) (m : Machine) : List Token → Value → Value → Prop
  | intro {t u w : Token} {ts us : List Token} {number v : Value} {j k : Job}
      (keyword : t.category = some (.keyword .PRINT))
      (channel : Exec.channelNumber site ⟨⟨t, ts, 0⟩, m⟩ = .ok number j)
      (rest : j.cursor.rest = u :: w :: us) (comma : u.isMark .comma)
      (right : Exec.value site { j with cursor := j.cursor.advance } = .ok v k)
      (ended : k.cursor.current.isMark .semicolon = false) :
      PrintTo site m (t :: ts) number v

inductive CloseChannel (site : Site) (m : Machine) : List Token → Value → Prop
  | intro {t : Token} {ts : List Token} {number : Value} {j : Job}
      (keyword : t.category = some (.keyword .CLOSE))
      (channel : Exec.channelNumber site ⟨⟨t, ts, 0⟩, m⟩ = .ok number j) :
      CloseChannel site m (t :: ts) number

def Sending (number : Int) (path : String) (base : List UInt8) (start : Nat) (before : Disk)
    (sent : List UInt8) (m : Machine) : Prop :=
  ∃ c, m.channels.get? (.int number) = some c ∧
    c.Sends path base start before sent m.disk

variable {number : Int} {path : String} {base sent : List UInt8} {start : Nat} {before : Disk}
  {m n : Machine} {site : Site} {tokens : List Token}

theorem Sending.of_intact (h : Sending number path base start before sent m) (hn : m.Intact n) :
    Sending number path base start before sent n := by
  obtain ⟨_, _, rfl⟩ := hn
  exact h

end Machine

namespace Exec

open Machine

variable {number : Int} {path : String} {base sent : List UInt8} {start : Nat} {before : Disk}
  {site : Site} {j k : Job}

theorem atomic_channelNumber (m : Machine) : Atomic m m.Intact channelNumber :=
  (atomic_expect _).bind fun _ => atomic_evaluate _

theorem isMark_of_channelNumber {v : Value} (h : channelNumber site j = .ok v k) :
    isMark .hash site j = .ok true j := by
  obtain ⟨⟨⟩, j', hhash, -⟩ := of_bind_ok h
  show EStateM.Result.ok (j.cursor.current.isMark .hash) j = _
  rw [Token.isMark, of_expect hhash, beq_self_eq_true]

theorem channelNumber_numeral (n : Numeral) {t u : Token} {ts : List Token}
    (rest : j.cursor.rest = t :: u :: ts) (hash : t.isMark .hash)
    (hu : u.face = (some .integer, n.lexeme)) (hts : Eval.Stops 3 ts) :
    channelNumber site j =
      .ok (.int n.value) { j with cursor := j.cursor.advance.advance } := by
  rw [channelNumber, expectMark, expect_bind (Cursor.category_of_isMark rest hash)]
  exact arithmetic_numeral n (Cursor.rest_advance rest) hu hts

theorem openChannel_eq {v : Value} {c : Channel} (h : channelNumber site j = .ok v k)
    (hopen : k.machine.channels.get? v = some c) (verb : String) :
    openChannel verb site j = .ok (v, c) k := by
  obtain ⟨⟨⟩, j', hhash, hnumber⟩ := of_bind_ok h
  rw [openChannel, bind_ok hhash, bind_ok hnumber, machine_bind, hopen]
  rfl

theorem printSink_channel {v : Value} {c : Channel} {u w : Token} {us : List Token}
    (channel : channelNumber site j = .ok v k) (hopen : k.machine.channels.get? v = some c)
    (rest : k.cursor.rest = u :: w :: us) (comma : u.isMark .comma) :
    printSink site j = .ok (some v) { k with cursor := k.cursor.advance } := by
  have hcomma := Cursor.category_of_isMark rest comma
  have hend : k.cursor.atEnd = false := by rw [Cursor.atEnd, rest]; rfl
  rw [printSink, bind_ok (isMark_of_channelNumber channel), if_pos rfl,
    bind_ok (openChannel_eq channel hopen "PRINT")]
  dsimp only
  rw [atEnd_bind, hend, Bool.not_false, if_pos rfl, expectMark, expect_bind hcomma]
  rfl

theorem onChannel_ok {α : Type} {v : Value} {c c' : Channel} {d' : Disk} {a : α}
    {act : EStateM Fault (Channel × Disk) α} (h : act (c, j.machine.disk) = .ok a (c', d')) :
    onChannel v c act site j = .ok a { j with machine := { j.machine with
      channels := j.machine.channels.put v c', disk := d' } } := by
  simp only [onChannel, h]

theorem openFile_append {t u v w : Token} {ts us : List Token} {m : Machine} {f : String}
    {number : Value} {c c' : Channel} {d d' : Disk}
    (file : value site ⟨⟨t, ts, 0⟩, m⟩ = .ok (.text f) j)
    (rest : j.cursor.rest = u :: v :: w :: us) (forWord : u.isKeyword .FOR)
    (mode : v.isKeyword .APPEND) (asWord : w.lexeme = "AS")
    (channel : channelNumber site { j with cursor := j.cursor.advance.advance.advance } =
      .ok number k) (ended : k.cursor.current.isKeyword .ELSE = false)
    (hfree : k.machine.channels.get? number = none)
    (hopen : Channel.open? k.machine.disk f .append = some (c, d))
    (hseek : Channel.seekEnd (c, d) = .ok () (c', d')) :
    openFile site ⟨⟨t, t :: ts, 0⟩, m⟩ = .ok none { k with machine := { k.machine with
      channels := (k.machine.channels.put number c).put number c', disk := d' } } := by
  have hrest₁ := Cursor.rest_advance rest
  have hrest₂ := Cursor.rest_advance hrest₁
  have hfor := Cursor.category_of_isKeyword rest forWord
  have haccess : access site { j with cursor := j.cursor.advance } =
      .ok .append { j with cursor := j.cursor.advance } := by
    rw [access, current_bind, Cursor.category_of_isKeyword hrest₁ mode]
    rfl
  have has : j.cursor.advance.advance.current.lexeme = "AS" := by
    rw [Cursor.current_eq hrest₂, asWord]
  have htarget : elseTarget site k = .ok none k := by
    have helse : isKeyword .ELSE site k = .ok false k := by
      rw [← ended]
      rfl
    rw [elseTarget, bind_ok helse]
    rfl
  have htry : tryOpen (.text f) .append site k = .ok (some (c, d)) k := by
    rw [← hopen]
    rfl
  obtain ⟨⟨⟩, j', hhash, hnumber⟩ := of_bind_ok channel
  rw [openFile, advance_bind]
  refine (bind_ok file).trans ?_
  rw [expectKeyword, expect_bind hfor, bind_ok haccess, advance_bind, lexeme_bind]
  dsimp only
  rw [if_neg (not_not_intro has), advance_bind]
  refine (bind_ok hhash).trans ?_
  rw [bind_ok hnumber, bind_ok htarget, machine_bind, hfree, if_neg (by simp), bind_ok htry]
  exact bind_ok (onChannel_ok hseek)

theorem put_sending (h : Sending number path base start before sent j.machine) (site : Site)
    (s : String) :
    ∃ m, put (some (.int number)) s site j = .ok () { j with machine := m } ∧
      Sending number path base start before (sent ++ Text.encode s.toList) m := by
  obtain ⟨c, hopen, hsends⟩ := h
  obtain ⟨c', d', hwrite, hsends'⟩ := hsends.write s
  have hself : (j.machine.channels.put (.int number) c').get? (.int number) = some c' :=
    Channels.get?_put_self (Value.same_int.mpr rfl) _ _
  refine ⟨{ j.machine with
    channels := j.machine.channels.put (.int number) c', disk := d' }, ?_, c', hself, hsends'⟩
  rw [put, machine_bind, hopen]
  exact onChannel_ok hwrite

end Exec

namespace Machine

open Outcome

variable {number : Int} {path : String} {base sent : List UInt8} {start : Nat} {before : Disk}
  {m : Machine} {site : Site} {tokens : List Token}

theorem PrintTo.sends {s : String} (h : PrintTo site m tokens (.int number) (.text s))
    (hm : Sending number path base start before sent m) :
    ∃ n, runPart site tokens m = .ok none n ∧
      Sending number path base start before (sent ++ Text.encode s.toList ++ [10]) n := by
  obtain @⟨t, u, w, ts, us, _, _, j, k, keyword, channel, rest, comma, right, ended⟩ := h
  have hj : m.Intact j.machine := (Exec.atomic_channelNumber m).intact (.refl m) channel
  have hk : m.Intact k.machine :=
    (Exec.atomic_evaluate _).intact (j := { j with cursor := j.cursor.advance }) hj right
  obtain ⟨c, hopen, -⟩ := hm.of_intact hj
  obtain ⟨n₁, hput, hn₁⟩ := Exec.put_sending (hm.of_intact hk) site s
  obtain ⟨n₂, hline, hn₂⟩ := Exec.put_sending (j := { k with machine := n₁ }) hn₁ site "\n"
  have hcategory : (Cursor.current ⟨t, t :: ts, 0⟩).category = some (.keyword .PRINT) := keyword
  have hsink := Exec.printSink_channel channel hopen rest comma
  have hmore : j.cursor.advance.atEnd = false := by rw [Cursor.atEnd, Cursor.rest_advance rest]; rfl
  have hwritten : Exec.written (.text s) site k = .ok s k := rfl
  have hsemicolon : Exec.isMark .semicolon site ⟨k.cursor, n₁⟩ = .ok false ⟨k.cursor, n₁⟩ := by
    rw [← ended]
    rfl
  refine ⟨n₂, runPart_of_statement (x := Exec.print) (j := ⟨k.cursor, n₂⟩) ?_ ?_, hn₂⟩
  · rw [Exec.statement, Exec.current_bind, hcategory]
  · rw [Exec.print, Exec.advance_bind]
    refine (Exec.bind_ok hsink).trans ?_
    rw [Exec.atEnd_bind, hmore, if_neg (by decide), Exec.bind_ok right, Exec.bind_ok hwritten,
      Exec.bind_ok hput]
    show Exec.printMore (some (.int number)) (k.cursor.rest.length + 2) site ⟨k.cursor, n₁⟩ = _
    rw [Exec.printMore, Exec.bind_ok hsemicolon, if_neg (by decide)]
    exact hline

theorem CloseChannel.stores (h : CloseChannel site m tokens (.int number))
    (hm : Sending number path base start before sent m) :
    ∃ n, runPart site tokens m = .ok none n ∧
      n.disk.read? path = some (Disk.grown base start sent) ∧
      ∀ other ≠ path, n.disk.read? other = before.read? other := by
  obtain @⟨t, ts, _, j, keyword, channel⟩ := h
  have hj : m.Intact j.machine := (Exec.atomic_channelNumber m).intact (.refl m) channel
  obtain ⟨c, hopen, hsends⟩ := hm.of_intact hj
  have hcategory : (Cursor.current ⟨t, t :: ts, 0⟩).category = some (.keyword .CLOSE) := keyword
  refine ⟨{ j.machine with
    channels := j.machine.channels.remove (.int number), disk := (c.flush j.machine.disk).2 },
    ?_, hsends.read?_flush, hsends.flush.others⟩
  refine runPart_of_statement (x := Exec.closeFile) (j := ⟨j.cursor, _⟩) ?_ ?_
  · rw [Exec.statement, Exec.current_bind, hcategory]
  · exact Exec.bind_ok (Exec.openChannel_eq channel hopen "CLOSE")

theorem OpenAppend.sends {f : String} {content : List Char}
    (h : OpenAppend site m tokens (.text f) (.int number))
    (hfree : m.channels.get? (.int number) = none) (hpath : m.disk.resolve? f = some path)
    (hfile : m.disk.read? path = some (content.map Text.byte))
    (hascii : ∀ e ∈ content, e.toNat < 128) :
    ∃ n, runPart site tokens m = .ok none n ∧ Sending number path (content.map Text.byte)
      (content.length + Channel.gaps content) m.disk [] n := by
  obtain @⟨t, u, v, w, ts, us, _, _, j, k, keyword, file, rest, forWord, mode, asWord, channel,
    ended⟩ := h
  have hj : m.Intact j.machine := (Exec.atomic_evaluate _).intact (.refl m) file
  have hk : m.Intact k.machine := (Exec.atomic_channelNumber m).intact
    (j := { j with cursor := j.cursor.advance.advance.advance }) hj channel
  have hmachine : k.machine.channels = m.channels ∧ k.machine.disk = m.disk := by
    obtain ⟨_, _, hk⟩ := hk
    rw [hk]
    exact ⟨rfl, rfl⟩
  have hopened : Channel.open? k.machine.disk f .append =
      some (.fresh path .append, m.disk) := by
    rw [hmachine.2, Channel.open?, hpath]
    dsimp only
    rw [hfile]
    rfl
  have hseek := Channel.seekEnd_fresh hascii hfile .append
  let c : Channel :=
    { Channel.fresh path .append with position := content.length + Channel.gaps content }
  let n : Machine := { k.machine with
    channels := (m.channels.put (.int number) (.fresh path .append)).put (.int number) c
    disk := m.disk }
  have hself : n.channels.get? (.int number) = some c :=
    Channels.get?_put_self (Value.same_int.mpr rfl) _ _
  have hcategory : (Cursor.current ⟨t, t :: ts, 0⟩).category = some (.keyword .OPEN) := keyword
  refine ⟨n, ?_, c, hself, rfl, nofun, ?_, ⟨[], rfl, rfl, hfile⟩, fun _ _ => rfl⟩
  · rw [runPart_cons, Exec.statement, Exec.current_bind, hcategory]
    dsimp only
    rw [Exec.openFile_append file rest forWord mode asWord channel ended (by rwa [hmachine.1])
      hopened hseek, hmachine.1]
  · rw [List.length_map]
    exact Nat.le_add_right _ _

/-- A line that is appended comes after the end of the file, but there is a zero byte in front of it
for each line of the file that does not end in a carriage return with a line feed. -/
theorem append_line {f : String} {content : List Char}
    (hfree : m.channels.get? (.int number) = none) (hpath : m.disk.resolve? f = some path)
    (hfile : m.disk.read? path = some (Text.encode content))
    (hascii : ∀ e ∈ content, e.toNat < 128)
    (hopen : OpenAppend site m tokens (.text f) (.int number)) :
    ∃ m₁, runPart site tokens m = .ok none m₁ ∧
      ∀ site tokens s, PrintTo site m₁ tokens (.int number) (.text s) →
      ∃ m₂, runPart site tokens m₁ = .ok none m₂ ∧
        ∀ site tokens, CloseChannel site m₂ tokens (.int number) →
        ∃ m₃, runPart site tokens m₂ = .ok none m₃ ∧
          m₃.disk.read? path = some (Text.encode content ++
            List.replicate (Channel.gaps content) 0 ++ Text.encode s.toList ++ [10]) ∧
          (∀ other ≠ path, m₃.disk.read? other = m.disk.read? other) ∧
          (m₃.disk.read? path = some (Text.encode content ++ Text.encode s.toList ++ [10]) ↔
            ∀ line ∈ Channel.cutLines content, ['\r', '\n'] <:+ line) := by
  have hbytes : Text.encode content = content.map Text.byte := Text.encode_eq_map hascii
  rw [hbytes] at hfile ⊢
  obtain ⟨m₁, hrun₁, hm₁⟩ := hopen.sends hfree hpath hfile hascii
  refine ⟨m₁, hrun₁, fun site tokens s hprint => ?_⟩
  obtain ⟨m₂, hrun₂, hm₂⟩ := hprint.sends hm₁
  refine ⟨m₂, hrun₂, fun site tokens hclose => ?_⟩
  obtain ⟨m₃, hrun₃, hread, hothers⟩ := hclose.stores hm₂
  have hgap : content.length + Channel.gaps content - (content.map Text.byte).length =
      Channel.gaps content := by
    rw [List.length_map, Nat.add_sub_cancel_left]
  rw [Disk.grown, if_neg (by simp), hgap, List.nil_append, ← List.append_assoc] at hread
  refine ⟨m₃, hrun₃, hread, hothers, ?_⟩
  rw [hread, ← Channel.gaps_eq_zero_iff, Option.some_inj]
  constructor
  · intro h
    have hlength := congrArg List.length h
    simp only [List.length_append, List.length_replicate] at hlength
    omega
  · intro h
    rw [h, List.replicate_zero, List.append_nil]

/-- A file of two lines, of which only the first ends in a carriage return with a line feed. -/
theorem append_line_mixed :
    let hash : List Token := [.mark .hash "#", .number "1"]
    let mode : List Token := [.word .FOR "FOR", .word .APPEND "APPEND", .name "AS"] ++ hash
    let line : List Token := [.mark .comma ",", .text "X"]
    let m : Machine :=
      { Machine.blank with disk := ⟨[("log.txt", Text.encode "A\r\nB\n".toList)], []⟩ }
    ∃ m₁ m₂ m₃, runPart "10" (.word .OPEN "OPEN" :: .text "log.txt" :: mode) m = .ok none m₁ ∧
      runPart "20" (.word .PRINT "PRINT" :: (hash ++ line)) m₁ = .ok none m₂ ∧
      runPart "30" (.word .CLOSE "CLOSE" :: hash) m₂ = .ok none m₃ ∧
      m₃.disk.read? "log.txt" = some (Text.encode "A\r\nB\n\x00X\n".toList) := by
  intro hash mode line m
  let one : Numeral := ⟨['1'], List.cons_ne_nil _ _, List.forall_mem_singleton.mpr rfl, by decide⟩
  have hnumber (site : Site) (n : Machine) (t : Token) (ts : List Token) (hts : Eval.Stops 3 ts) :
      Exec.channelNumber site ⟨⟨t, hash ++ ts, 0⟩, n⟩ =
        .ok (.int 1) ⟨⟨.number "1", ts, 0⟩, n⟩ :=
    Exec.channelNumber_numeral one rfl rfl rfl hts
  have htext (site : Site) (n : Machine) (t u : Token) (ts : List Token)
      (hu : u.category = some .text) (hts : Eval.Stops 1 ts) :
      Exec.value site ⟨⟨t, u :: ts, 0⟩, n⟩ = .ok (.text u.lexeme) ⟨⟨u, ts, 0⟩, n⟩ :=
    Exec.value_text rfl hu hts
  have hopen : OpenAppend "10" m (.word .OPEN "OPEN" :: .text "log.txt" :: mode)
      (.text "log.txt") (.int 1) :=
    .intro rfl (htext _ _ _ (.text "log.txt") mode rfl (Eval.stops_cons (by decide)))
      rfl rfl rfl rfl
      (hnumber _ _ _ [] nofun) rfl
  have hprint (n : Machine) :
      PrintTo "20" n (.word .PRINT "PRINT" :: (hash ++ line)) (.int 1) (.text "X") :=
    .intro rfl (hnumber _ _ _ line (Eval.stops_cons (by decide))) rfl rfl
      (htext _ _ _ (.text "X") [] rfl nofun) rfl
  have hclose (n : Machine) : CloseChannel "30" n (.word .CLOSE "CLOSE" :: hash) (.int 1) :=
    .intro rfl (hnumber _ _ _ [] nofun)
  have hpath : m.disk.resolve? "log.txt" = some "log.txt" := by decide +kernel
  have hascii : ∀ e ∈ "A\r\nB\n".toList, e.toNat < 128 := Text.ascii_of_all (by decide +kernel)
  obtain ⟨m₁, hrun₁, hprinted⟩ := append_line rfl hpath rfl hascii hopen
  obtain ⟨m₂, hrun₂, hclosed⟩ := hprinted _ _ _ (hprint m₁)
  obtain ⟨m₃, hrun₃, hread, -⟩ := hclosed _ _ (hclose m₂)
  have hbytes : Text.encode "A\r\nB\n".toList ++
      List.replicate (Channel.gaps "A\r\nB\n".toList) 0 ++ Text.encode "X".toList ++ [10] =
      Text.encode "A\r\nB\n\x00X\n".toList := by decide +kernel
  exact ⟨m₁, m₂, m₃, hrun₁, hrun₂, hrun₃, by rw [hread, hbytes]⟩

/-- A line after two lines that end in line feeds has two zero bytes in front of it. -/
theorem zeros_before_line :
    let m : Machine :=
      { Machine.blank with disk := ⟨[("log.txt", Text.encode "A\nB\n".toList)], []⟩ }
    let opened := runLine "10" (tokensOf "OPEN \"log.txt\" FOR APPEND AS #1") m
    let printed := runLine "20" (tokensOf "PRINT #1, \"X\"") (state opened)
    let closed := runLine "30" (tokensOf "CLOSE #1") (state printed)
    value? opened = some none ∧ value? printed = some none ∧ value? closed = some none ∧
      (state closed).disk.read? "log.txt" =
        some (Text.encode "A\nB\n\x00\x00X\n".toList) := by
  decide +kernel

end Machine

end LineBasic

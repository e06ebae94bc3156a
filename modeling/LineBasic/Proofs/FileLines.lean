import LineBasic.Channel
import LineBasic.Proofs.Ascii

namespace LineBasic.Channel

open Text

def splitLine (text : List Char) : List Char × List Char :=
  match text.dropWhile (· != '\n') with
  | _ :: rest => (text.takeWhile (· != '\n') ++ ['\n'], rest)
  | [] => (text, [])

theorem splitLine_line {line : List Char} (h : '\n' ∉ line) (rest : List Char) :
    splitLine (line ++ '\n' :: rest) = (line ++ ['\n'], rest) := by
  have hall : ∀ c ∈ line, (c != '\n') = true := by
    intro c hc
    have : c ≠ '\n' := fun he => h (he ▸ hc)
    simpa using this
  rw [splitLine, List.dropWhile_append_of_pos hall, List.takeWhile_append_of_pos hall]
  simp

theorem splitLine_append {ready : List Char} (h : '\n' ∈ ready) (s : List Char) :
    splitLine (ready ++ s) = ((splitLine ready).1, (splitLine ready).2 ++ s) := by
  obtain ⟨line, rest, rfl, hline⟩ := List.eq_append_cons_of_mem h
  rw [List.append_assoc, List.cons_append, splitLine_line hline, splitLine_line hline]

theorem takeLine_eq (c : Channel) :
    c.takeLine = ((splitLine c.ready).1, { c with ready := (splitLine c.ready).2 }) := by
  unfold takeLine splitLine
  split <;> simp_all

def carry (c : Channel) : List Char := if c.carriage then ['\r'] else []

structure Leaves (file : List UInt8) (c : Channel) (text : List Char) : Prop where
  unwritten : c.held = [] ∧ c.pending = []
  complete : c.tail = []
  unread : ∃ s, file.drop c.position = s.map byte ∧ (∀ d ∈ s, d.toNat < 128) ∧
    text = c.ready ++ lineFeeds (c.carry ++ s)

theorem lineFeeds_eq {s : List Char} (h : '\r' ∉ s) : lineFeeds s = s := by
  fun_induction lineFeeds s with
  | case1 => rfl
  | case2 => simp at h
  | case3 => simp at h
  | case4 c s _ _ ih => rw [ih (by simp_all)]

/-- A text can be cut anywhere but between a carriage return and its line feed. -/
theorem lineFeeds_append {a b : List Char} (h : a.getLast? = some '\r' → b.head? ≠ some '\n') :
    lineFeeds (a ++ b) = lineFeeds a ++ lineFeeds b := by
  fun_induction lineFeeds a with
  | case1 => rfl
  | case2 s ih =>
      rw [List.cons_append, List.cons_append, lineFeeds, ih, List.cons_append]
      intro hs
      exact h (by simp [List.getLast?_cons, hs])
  | case3 s hs ih =>
      have hcut : lineFeeds ('\r' :: (s ++ b)) = '\n' :: lineFeeds (s ++ b) := by
        cases s with
        | cons d s => rw [lineFeeds]; simpa using hs
        | nil =>
            have hb := h rfl
            cases b with
            | nil => rfl
            | cons d b => rw [lineFeeds]; simpa using hb
      rw [List.cons_append, hcut, ih, List.cons_append]
      intro hlast
      exact h (by simp [List.getLast?_cons, hlast])
  | case4 c s hc hc' ih =>
      have hcut : lineFeeds (c :: (s ++ b)) = c :: lineFeeds (s ++ b) := by
        rw [lineFeeds]
        · exact fun _ hr _ => hc' hr
        · exact hc'
      rw [List.cons_append, hcut, ih, List.cons_append]
      intro hlast
      exact h (by simp [List.getLast?_cons, hlast])

/-- All line ends of a file are read as line feeds. -/
theorem leaves_start {s : List Char} (h : ∀ d ∈ s, d.toNat < 128) (path : String)
    (access : Access) : Leaves (s.map byte) (fresh path access) (lineFeeds s) :=
  ⟨⟨rfl, rfl⟩, rfl, ⟨s, rfl, h, rfl⟩⟩

theorem leaves_fresh {text : List Char} (h : ∀ d ∈ text, d.toNat < 128 ∧ d ≠ '\r') (path : String)
    (access : Access) : Leaves (text.map byte) (fresh path access) text := by
  have hcr : '\r' ∉ text := fun hr => (h _ hr).2 rfl
  have hleaves := leaves_start (fun d hd => (h d hd).1) path access
  rwa [lineFeeds_eq hcr] at hleaves

theorem feed_end {c : Channel} (hc : c.tail = []) :
    c.feed true [] = .ok { c with ready := c.ready ++ lineFeeds c.carry, carriage := false } := by
  obtain ⟨path, access, position, held, pending, ready, tail, carriage⟩ := c
  cases hc
  cases carriage <;> rfl

def settled (cs : List Char) : List Char := if cs.getLast? == some '\r' then cs.dropLast else cs

theorem lineFeeds_settled (cs t : List Char) :
    lineFeeds (settled cs) ++
        lineFeeds ((if cs.getLast? == some '\r' then ['\r'] else []) ++ t) =
      lineFeeds (cs ++ t) := by
  unfold settled
  by_cases hlast : cs.getLast? = some '\r'
  · obtain ⟨ys, rfl⟩ := List.getLast?_eq_some_iff.mp hlast
    simp only [hlast, beq_self_eq_true, if_true, List.dropLast_concat]
    rw [List.append_assoc, lineFeeds_append (a := ys) (by simp)]
  · rw [if_neg (by simpa using hlast), if_neg (by simpa using hlast), List.nil_append,
      lineFeeds_append fun h => absurd h hlast]

theorem feed_bytes {c : Channel} {s : List Char} (hc : c.tail = [])
    (hs : ∀ d ∈ s, d.toNat < 128) (hne : s ≠ []) :
    c.feed false (s.map byte) = .ok { c with
      ready := c.ready ++ lineFeeds (settled (c.carry ++ s))
      carriage := (c.carry ++ s).getLast? == some '\r' } := by
  have hempty : s.isEmpty = false := by simpa using hne
  obtain ⟨path, access, position, held, pending, ready, tail, carriage⟩ := c
  cases hc
  rw [feed, List.nil_append, decode_bytes hs]
  show Except.ok _ = _
  cases carriage <;> simp [hempty, carry, settled]

variable {file : List UInt8} {c : Channel} {text : List Char}

def next (file : List UInt8) (c : Channel) : List UInt8 := (file.drop c.position).take portion

/-- A portion more is ready, and the same text is left. At the end of the file all of it is. -/
theorem Leaves.fetch (h : Leaves file c text) : ∃ ready carriage,
    c.feed (next file c).isEmpty (next file c) =
        .ok { c with ready := ready, carriage := carriage } ∧
      Leaves file { c with ready := ready, carriage := carriage,
                           position := c.position + (next file c).length } text ∧
      (next file c = [] → text = ready) := by
  obtain ⟨u, hu, hascii, rfl⟩ := h.unread
  have hn : next file c = (u.take portion).map byte := by rw [next, hu, List.map_take]
  have hrest : file.drop (c.position + (next file c).length) = (u.drop portion).map byte := by
    rw [hn, List.length_map, ← List.drop_drop, hu, ← List.map_drop, List.length_take]
    rcases Nat.le_total portion u.length with hle | hle
    · rw [Nat.min_eq_left hle]
    · rw [Nat.min_eq_right hle, List.drop_length, List.drop_eq_nil_of_le hle]
  have hdrop : ∀ d ∈ u.drop portion, d.toNat < 128 := fun d hd => hascii d (List.mem_of_mem_drop hd)
  by_cases hnil : u = []
  · subst hnil
    rw [hn] at hrest ⊢
    refine ⟨c.ready ++ lineFeeds c.carry, false, feed_end h.complete,
      ⟨h.unwritten, h.complete, [], hrest, hdrop, ?_⟩, fun _ => ?_⟩
    · simp [carry, lineFeeds]
    · rw [List.append_nil]
  · have htake : u.take portion ≠ [] := by simp [List.take_eq_nil_iff, hnil, portion]
    have hnext : next file c ≠ [] := by rw [hn]; simpa using htake
    have hfeed := feed_bytes h.complete (fun d hd => hascii d (List.mem_of_mem_take hd)) htake
    rw [← hn] at hfeed
    refine ⟨_, _, (by rw [List.isEmpty_eq_false_iff.mpr hnext, hfeed]),
      ⟨h.unwritten, h.complete, u.drop portion, hrest, hdrop, ?_⟩, fun he => absurd he hnext⟩
    show _ = _ ++ lineFeeds ((if _ then _ else _) ++ _)
    rw [List.append_assoc, lineFeeds_settled, List.append_assoc, List.take_append_drop]

theorem Leaves.takeLine_eq {line : List Char} {c' : Channel} (h : Leaves file c text)
    (hr : '\n' ∈ c.ready ∨ text = c.ready) (ht : c.takeLine = (line, c')) :
    line = (splitLine text).1 ∧ (c'.path = c.path ∧ c'.access = c.access) ∧
      Leaves file c' (splitLine text).2 := by
  obtain ⟨s, hs, hascii, rfl⟩ := h.unread
  generalize hrest : lineFeeds (c.carry ++ s) = rest at hr ⊢
  have hsplit : splitLine (c.ready ++ rest) =
      ((splitLine c.ready).1, (splitLine c.ready).2 ++ rest) := by
    rcases hr with hr | hr
    · exact splitLine_append hr rest
    · obtain rfl : rest = [] := by simpa using hr
      rw [List.append_nil, List.append_nil]
  rw [Channel.takeLine_eq] at ht
  cases ht
  rw [hsplit]
  exact ⟨rfl, ⟨rfl, rfl⟩, h.unwritten, h.complete, s, hs, hascii, by rw [← hrest]; rfl⟩

/-- A line is read as if all of the text were ready. -/
theorem Leaves.readLineOf_eq (h : Leaves file c text) :
    ∃ c', readLineOf file c = .ok (splitLine text).1 c' ∧
      (c'.path = c.path ∧ c'.access = c.access) ∧ Leaves file c' (splitLine text).2 := by
  fun_induction readLineOf file c with
  | case1 c hn line c' ht =>
      obtain ⟨rfl, hsame, hl⟩ := h.takeLine_eq (.inl (by simpa using hn)) ht
      exact ⟨c', rfl, hsame, hl⟩
  | case2 c hn bytes position f hf =>
      obtain ⟨ready, carriage, hfeed, -⟩ := h.fetch
      cases hf.symm.trans hfeed
  | case3 c hn bytes c' hf hb line c'' ht =>
      obtain ⟨ready, carriage, hfeed, hl, hready⟩ := h.fetch
      cases hf.symm.trans hfeed
      have hnil : next file c = [] := hb
      rw [hnil] at hl
      obtain ⟨rfl, hsame, hl'⟩ := hl.takeLine_eq (.inr (hready hnil)) ht
      exact ⟨c'', rfl, hsame, hl'⟩
  | case4 c hn bytes position c' hf hb =>
      rename_i ih
      obtain ⟨ready, carriage, hfeed, hl, -⟩ := h.fetch
      cases hf.symm.trans hfeed
      exact ih hl

theorem Leaves.readLine_same {d : Disk} (h : Leaves file c text) (hfile : c.contents d = file) :
    ∃ c', readLine (c, d) = .ok (splitLine text).1 (c', d) ∧
      (c'.path = c.path ∧ c'.access = c.access) ∧ Leaves file c' (splitLine text).2 := by
  have hover : c.handOver d = (c, d) := by
    obtain ⟨path, access, position, held, pending, ready, tail, carriage⟩ := c
    obtain ⟨rfl, rfl⟩ := h.unwritten
    rfl
  obtain ⟨c', hread, hsame, hl⟩ := h.readLineOf_eq
  refine ⟨c', ?_, hsame, hl⟩
  rw [readLine, hover]
  dsimp only
  rw [hfile, hread]

theorem Leaves.readLine_eq {d : Disk} (h : Leaves file c text) (hfile : c.contents d = file) :
    ∃ c', readLine (c, d) = .ok (splitLine text).1 (c', d) ∧ c'.path = c.path ∧
      Leaves file c' (splitLine text).2 := by
  obtain ⟨c', hread, hsame, hl⟩ := h.readLine_same hfile
  exact ⟨c', hread, hsame.1, hl⟩

end LineBasic.Channel

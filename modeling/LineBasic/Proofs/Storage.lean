import LineBasic.Proofs.FileLines
import LineBasic.Proofs.Lines
import LineBasic.Proofs.Listing

namespace LineBasic

open Text Token

namespace Disk

theorem walk?_write (d : Disk) (path : String) (bytes : List UInt8) (here parts : List String) :
    (d.write path bytes).walk? here parts = d.walk? here parts := by
  induction parts generalizing here with
  | nil => rfl
  | cons part parts ih =>
      unfold walk?
      simp only [ih]
      rfl

theorem resolve?_write (d : Disk) (path : String) (bytes : List UInt8) (name : String) :
    (d.write path bytes).resolve? name = d.resolve? name := by
  unfold resolve?
  simp only [walk?_write]
  rfl

end Disk

structure Storable (line : String) : Prop where
  ascii : ∀ c ∈ line.toList, c.toNat < 128
  unbroken : ∀ c ∈ line.toList, c ≠ '\r' ∧ c ≠ '\n'
  numbered : ∃ t ts, tokenize line = .ok (t :: ts) ∧ t.category = some .integer
  closed : ∀ c ∈ line.toList.getLast?, isBlank c = false

def isNumbered (line : String) : Bool :=
  match tokenize line with
  | .ok (t :: _) => t.category == some .integer
  | _ => false

theorem isNumbered_iff {line : String} :
    isNumbered line = true ↔
      ∃ t ts, tokenize line = .ok (t :: ts) ∧ t.category = some .integer := by
  constructor
  · intro h
    rw [isNumbered] at h
    split at h
    · rename_i t ts hts
      exact ⟨t, ts, hts, by simpa using h⟩
    · cases h
  · rintro ⟨t, ts, hts, ht⟩
    rw [isNumbered, hts]
    simpa using ht

def isStorable (line : String) : Bool :=
  line.toList.all (fun c => decide (Plain c)) && isNumbered line &&
    line.toList.getLast?.all fun c => !isBlank c

theorem storable_of_isStorable {line : String} (h : isStorable line = true) : Storable line := by
  simp only [isStorable, Bool.and_eq_true, List.all_eq_true, decide_eq_true_eq] at h
  obtain ⟨⟨hplain, hnumbered⟩, hclosed⟩ := h
  refine ⟨fun c hc => (hplain c hc).1, fun c hc => (hplain c hc).2, isNumbered_iff.mp hnumbered, ?_⟩
  intro c hc
  rw [Option.mem_def.mp hc] at hclosed
  simpa using hclosed

namespace Program

def addAll (p : Program) : List String → Except Fault Program
  | [] => pure p
  | line :: lines => do (← p.addText line.toList).addAll lines

def faces? (p : Program) (n : Int) : Option (List Face) :=
  (p.lines.get? n).map fun tokens => (p.shownTokens n tokens).map Token.face

theorem get?_shown (p : Program) (n : Int) : p.shown.get? n = p.faces? n :=
  Lines.get?_map (fun m tokens => (p.shownTokens m tokens).map Token.face) n

variable {p q : Program} {line : String}

theorem Kept.addText (hp : p.Kept) (hl : Storable line) (h : p.addText line.toList = .ok q) :
    q.Kept ∧ q.machine.disk = p.machine.disk := by
  obtain ⟨t, ts, hts, ht⟩ := hl.numbered
  have hplain : ∀ c ∈ line.toList, Plain c := fun c hc => ⟨hl.ascii c hc, hl.unbroken c hc⟩
  have hclosed : Stops isBlank line.toList.reverse := by
    intro c hc
    exact hl.closed c (by rwa [List.head?_reverse] at hc)
  have hlex := lexemes_of_scanAll hts
  have hline := hlex.legibleLine hplain hclosed
  have hadd : p.add (t :: ts) = .ok q := by
    rw [Program.addText, show scanAll 0 line.toList = .ok (t :: ts) from hts] at h
    exact h
  obtain ⟨n, first, body, hn, rfl⟩ := of_add_eq_ok hadd
  obtain ⟨q', hq', hshown, hdisk⟩ := @add_ok p t first body n hn
    (hline.legible first.face (by simp)).data
  cases hadd.symm.trans hq'
  refine ⟨⟨fun l hmem => ?_⟩, hdisk⟩
  rw [hshown] at hmem
  rcases Lines.mem_put hmem with rfl | hmem
  · have hnumber := (hline.legible t.face (by simp)).number_eq ht hn
    exact ⟨hnumber, hline.tail.kept, Face.kept_ne_nil (List.cons_ne_nil _ _),
      Face.kept_kept ((first :: body).map Token.face)⟩
  · exact hp.stored l hmem

theorem Kept.addAll {lines : List String} (hp : p.Kept) (hl : ∀ line ∈ lines, Storable line)
    (h : p.addAll lines = .ok q) : q.Kept ∧ q.machine.disk = p.machine.disk := by
  induction lines generalizing p with
  | nil =>
      cases h
      exact ⟨hp, rfl⟩
  | cons line lines ih =>
      obtain ⟨p', hp', h⟩ := of_bind_eq_ok h
      obtain ⟨hkept, hdisk⟩ := hp.addText (hl line List.mem_cons_self) hp'
      obtain ⟨hq, hdisk'⟩ := ih hkept (fun l hmem => hl l (List.mem_cons_of_mem _ hmem)) h
      exact ⟨hq, hdisk'.trans hdisk⟩

section Load

variable {ls : Lines (List Face)}

theorem listingOf_cons (l : Int × List Face) (ls : Lines (List Face)) :
    listingOf (l :: ls) = listing (Face.number l.1 :: l.2) ++ '\n' :: listingOf ls := by
  simp [listingOf]

theorem plain_listingOf (h : ∀ l ∈ ls, Stored l) :
    ∀ c ∈ listingOf ls, c.toNat < 128 ∧ c ≠ '\r' := by
  intro c hc
  obtain ⟨l, hl, hc⟩ := List.mem_flatMap.mp hc
  rcases List.mem_append.mp hc with hc | hc
  · have hplain := plain_listing (h l hl).legible_listing c hc
    exact ⟨hplain.1, hplain.2.1⟩
  · rw [List.mem_singleton.mp hc]
    decide

theorem length_le_listingOf (ls : Lines (List Face)) : ls.length ≤ (listingOf ls).length := by
  induction ls with
  | nil => exact Nat.zero_le _
  | cons l ls ih =>
      rw [listingOf_cons, List.length_append, List.length_cons, List.length_cons]
      omega

theorem filter_line {s : List Char} (h : ∀ c ∈ s, Plain c) :
    ((s ++ ['\n']).filter fun c => c != '\n' && c != '\r') = s := by
  rw [List.filter_append, List.filter_eq_self.mpr]
  · simp
  · intro c hc
    simp [(h c hc).2.1, (h c hc).2.2]

theorem loadLines_line {s : List Char} {c c' : Channel} {d : Disk} {q : Program} (fuel : Nat)
    (hread : Channel.readLine (c, p.machine.disk) = .ok (s ++ ['\n']) (c', d))
    (hs : ∀ b ∈ s, Plain b) (hadd : p.addText (trim s) = .ok q) :
    loadLines (fuel + 1) c p = loadLines fuel c' q := by
  have hfilter := filter_line hs
  rw [loadLines, hread]
  cases hline : s ++ ['\n'] with
  | nil => simp at hline
  | cons b u =>
      rw [hline] at hfilter
      dsimp only
      rw [hfilter, hadd]

/-- The lines of a listing join those that are there. -/
theorem loadLines_listing {file : List UInt8} {c : Channel} {fuel : Nat}
    (hls : ∀ l ∈ ls, Stored l) (hasc : Lines.Ascending (p.shown ++ ls))
    (hc : c.Leaves file (listingOf ls)) (hfile : c.contents p.machine.disk = file)
    (hfuel : ls.length < fuel) :
    ∃ r, loadLines fuel c p = (none, r) ∧ r.shown = p.shown ++ ls := by
  induction ls generalizing p c fuel with
  | nil =>
      obtain ⟨c', hread, -, -⟩ := hc.readLine_eq hfile
      cases fuel with
      | zero => exact absurd hfuel (Nat.not_lt_zero _)
      | succ fuel =>
          refine ⟨p, ?_, (List.append_nil _).symm⟩
          rw [loadLines, hread]
          rfl
  | cons l ls ih =>
      have hl := hls l List.mem_cons_self
      have hplain := plain_listing hl.legible_listing
      have hn : '\n' ∉ listing (Face.number l.1 :: l.2) := fun hn => (hplain _ hn).2.2 rfl
      obtain ⟨c', hread, hpath, hc'⟩ := hc.readLine_eq hfile
      rw [listingOf_cons, Channel.splitLine_line hn] at hread hc'
      obtain ⟨q, hadd, hshown, hdisk⟩ := @addText_listing p l hl
      have hlast : p.shown.put l.1 l.2 = p.shown ++ [l] := by
        apply Lines.put_eq_append
        intro m hm
        rw [Lines.Ascending, Lines.numbers, List.map_append, List.pairwise_append] at hasc
        exact hasc.2.2 m hm l.1 List.mem_cons_self
      rw [hlast] at hshown
      cases fuel with
      | zero => exact absurd hfuel (Nat.not_lt_zero _)
      | succ fuel =>
          have hfile' : c'.contents q.machine.disk = file := by
            rw [Channel.contents, hpath, hdisk]
            exact hfile
          rw [loadLines_line fuel hread hplain hadd]
          have hrest := @ih q c' fuel (fun k hk => hls k (List.mem_cons_of_mem _ hk))
            (by rwa [hshown, List.append_assoc]) hc' hfile' (Nat.lt_of_succ_lt_succ hfuel)
          rwa [hshown, List.append_assoc] at hrest

theorem load_listing {path plain : String}
    (hpath : p.machine.disk.resolve? (filePath path) = some plain)
    (hfile : p.machine.disk.read? plain = some (encode (listingOf ls)))
    (hls : ∀ l ∈ ls, Stored l) (hasc : ls.Ascending) :
    ∃ r, p.load path = (none, r) ∧ r.shown = ls := by
  have hplain := plain_listingOf hls
  rw [encode_eq_map fun c hc => (hplain c hc).1] at hfile
  have hopen : Channel.open? p.clear.machine.disk (filePath path) .input =
      some (Channel.fresh plain .input, p.clear.machine.disk) := by
    show Channel.open? p.machine.disk _ _ = some (_, p.machine.disk)
    simp [Channel.open?, hpath, hfile]
  have hcontents : (Channel.fresh plain .input).contents p.clear.machine.disk =
      (listingOf ls).map byte := congrArg (·.getD []) hfile
  obtain ⟨r, hload, hshown⟩ := @loadLines_listing p.clear ls _ _
    ((listingOf ls).length + 1) hls hasc
    (Channel.leaves_fresh hplain plain .input) hcontents
    (Nat.lt_succ_of_le (length_le_listingOf ls))
  refine ⟨r, ?_, hshown⟩
  have hlength : ((p.clear.machine.disk.read? plain).getD []).length = (listingOf ls).length := by
    rw [show p.clear.machine.disk.read? plain = _ from hfile]
    simp
  -- The equation lemmas of `load` split on all that can go wrong with the file.
  delta load
  dsimp only
  rw [hopen]
  show loadLines (((p.clear.machine.disk.read? plain).getD []).length + 1) _ _ = _
  rw [hlength, hload]

end Load

theorem save_ok {path plain : String}
    (hpath : p.machine.disk.resolve? (filePath path) = some plain) :
    ∃ q, p.save path = .ok q ∧ q.machine.disk.resolve? (filePath path) = some plain ∧
      q.machine.disk.read? plain = some (encode (listingOf p.shown)) := by
  refine ⟨p.onDisk (p.machine.disk.write plain (encode p.text.toList)), ?_, ?_, ?_⟩
  · delta save
    rw [hpath]
    rfl
  · exact (Disk.resolve?_write _ _ _ _).trans hpath
  · rw [← toList_text]
    exact Assoc.get?_put_self _ _ _

/-- A program made of lines of ASCII text can be saved under each path that a file can have, and
whoever loads the file gets the same line numbers, the same listing, and under each number the same
tokens. -/
theorem load_save {start p : Program} {lines : List String} {path : String}
    (hstart : start.lines = []) (hlines : ∀ line ∈ lines, Storable line)
    (hp : start.addAll lines = .ok p) (hpath : (p.machine.disk.resolve? (filePath path)).isSome) :
    ∃ q, p.save path = .ok q ∧
      ∀ other : Program, other.machine.disk = q.machine.disk →
        ∃ r, other.load path = (none, r) ∧ r.numbers = p.numbers ∧ r.text = p.text ∧
          ∀ n, r.faces? n = p.faces? n := by
  obtain ⟨plain, hplain⟩ := Option.isSome_iff_exists.mp hpath
  obtain ⟨q, hsave, hresolve, hread⟩ := save_ok hplain
  obtain ⟨hkept, -⟩ := (kept_of_nil hstart).addAll hlines hp
  refine ⟨q, hsave, fun other hother => ?_⟩
  rw [← hother] at hresolve hread
  have hasc : p.shown.Ascending := by
    rw [Lines.Ascending, numbers_shown]
    exact p.ascending_lines
  obtain ⟨r, hload, hshown⟩ := load_listing hresolve hread hkept.stored hasc
  refine ⟨r, hload, ?_, text_eq_of_shown hshown, fun n => ?_⟩
  · rw [← numbers_shown, hshown, numbers_shown]
  · rw [← get?_shown, hshown, get?_shown]

theorem exists_of_text {x : Except Fault Program} {s : String}
    (h : x.toOption.map text = some s) : ∃ p, x = .ok p ∧ p.text = s := by
  cases x with
  | error f => cases h
  | ok p => exact ⟨p, rfl, Option.some.inj h⟩

/-- The texts in the lines hold blanks, a remark and the word `DATA`, and line 10 is replaced. -/
theorem load_save_mixed :
    let lines := ["30 \"DATA\" 1, 2", "10 print", "20 if a$<=\" \" then x=1. rem Say \"x\"",
      "010 data \"a  b\",-1"]
    ∃ p q r : Program, (fresh .blank).addAll lines = .ok p ∧
      p.text = "10 DATA \"a  b\" , - 1 \n" ++
        "20 IF A$ <= \" \" THEN X = 1. REM Say \"x\" \n30 \"DATA\" \n" ∧
      p.save "prog" = .ok q ∧ q.load "prog" = (none, r) ∧ r.numbers = p.numbers ∧ r.text = p.text ∧
      ∀ n, r.faces? n = p.faces? n := by
  intro lines
  have hall : lines.all isStorable := by decide +kernel
  have hlines : ∀ line ∈ lines, Storable line := fun line hline =>
    storable_of_isStorable (List.all_eq_true.mp hall line hline)
  have htext : (((fresh .blank).addAll lines).toOption.map text) =
      some ("10 DATA \"a  b\" , - 1 \n" ++
        "20 IF A$ <= \" \" THEN X = 1. REM Say \"x\" \n30 \"DATA\" \n") := by
    decide +kernel
  obtain ⟨p, hp, hptext⟩ := exists_of_text htext
  obtain ⟨-, hdisk⟩ := Kept.addAll (kept_of_nil rfl) hlines hp
  have hpath : (p.machine.disk.resolve? (filePath "prog")).isSome := by
    rw [hdisk]
    decide +kernel
  obtain ⟨q, hsave, hload⟩ := load_save rfl hlines hp hpath
  obtain ⟨r, hr⟩ := hload q rfl
  exact ⟨p, q, r, hp, hptext, hsave, hr⟩

end Program

end LineBasic

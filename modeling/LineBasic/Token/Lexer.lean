import LineBasic.Fault
import LineBasic.Text.Case
import LineBasic.Text.Letter
import LineBasic.Text.Ranges

namespace LineBasic

namespace Token

open Text

def isNameChar (c : Char) : Bool := isLetter c || isDigit c || c == '_' || c == '$'

def scanText (column : Nat) (rest : List Char) : Except Fault (Token × List Char) :=
  match rest.dropWhile (· != '"') with
  | [] => throw .openQuote
  | _ :: after => pure (⟨column, some .text, String.ofList (rest.takeWhile (· != '"'))⟩, after)

def scanNumber (column : Nat) (c : Char) (rest : List Char) : Token × List Char :=
  let whole := c :: rest.takeWhile isDigit
  match rest.dropWhile isDigit with
  | '.' :: after =>
      (⟨column, some .decimal, String.ofList (whole ++ '.' :: after.takeWhile isDigit)⟩,
        after.dropWhile isDigit)
  | after => (⟨column, some .integer, String.ofList whole⟩, after)

/-- A name or a reserved word, in capitals. A remark takes the rest of the line as it stands. -/
def scanWord (column : Nat) (c : Char) (rest : List Char) : Token × List Char :=
  let word := String.ofList (upper (c :: rest.takeWhile isNameChar))
  let after := rest.dropWhile isNameChar
  if word = "REM" then (⟨column, some (.keyword .REM), word ++ String.ofList after⟩, [])
  else (⟨column, some (Category.ofWord word), word⟩, after)

def scanMark (column : Nat) (c : Char) (rest : List Char) : Except Fault (Token × List Char) :=
  match Mark.ofPair? c rest, Mark.ofChar? c with
  | some m, _ => pure (⟨column, some (.mark m), String.ofList (c :: rest.take 1)⟩, rest.tail)
  | none, some m => pure (⟨column, some (.mark m), c.toString⟩, rest)
  | none, none => throw .strangeCharacter

def scan (column : Nat) (c : Char) (rest : List Char) : Except Fault (Token × List Char) :=
  if c == '"' then scanText column rest
  else if isDigit c then pure (scanNumber column c rest)
  else if isLetter c then pure (scanWord column c rest)
  else scanMark column c rest

theorem scanText_length {column : Nat} {rest after : List Char} {t : Token}
    (h : scanText column rest = .ok (t, after)) : after.length ≤ rest.length := by
  unfold scanText at h
  split at h
  · cases h
  · rename_i d hd
    cases h
    have := (List.dropWhile_suffix (fun x => x != '"') (l := rest)).length_le
    rw [hd] at this
    simp at this
    omega

theorem scanNumber_length (column : Nat) (c : Char) (rest : List Char) :
    (scanNumber column c rest).2.length ≤ rest.length := by
  have h := (List.dropWhile_suffix isDigit (l := rest)).length_le
  unfold scanNumber
  dsimp only
  split
  · rename_i after ha
    have h' := (List.dropWhile_suffix isDigit (l := after)).length_le
    rw [ha] at h
    simp at h
    show (after.dropWhile isDigit).length ≤ rest.length
    omega
  · exact h

theorem scanWord_length (column : Nat) (c : Char) (rest : List Char) :
    (scanWord column c rest).2.length ≤ rest.length := by
  unfold scanWord
  dsimp only
  split
  · simp
  · exact (List.dropWhile_suffix isNameChar).length_le

theorem scanMark_length {column : Nat} {c : Char} {rest after : List Char} {t : Token}
    (h : scanMark column c rest = .ok (t, after)) : after.length ≤ rest.length := by
  unfold scanMark at h
  split at h <;> cases h <;> simp

theorem scan_length {column : Nat} {c : Char} {rest after : List Char} {t : Token}
    (h : scan column c rest = .ok (t, after)) : after.length ≤ rest.length := by
  unfold scan at h
  split at h
  · exact scanText_length h
  · split at h
    · have e : scanNumber column c rest = (t, after) := Except.ok.inj h
      have l := scanNumber_length column c rest
      rwa [e] at l
    · split at h
      · have e : scanWord column c rest = (t, after) := Except.ok.inj h
        have l := scanWord_length column c rest
        rwa [e] at l
      · exact scanMark_length h

def scanAll (column : Nat) (s : List Char) : Except Fault (List Token) :=
  match hs : s.dropWhile isBlank with
  | [] => pure (if s = [] then [] else [⟨column + s.length - 1, none, ""⟩])
  | c :: rest =>
      let start := column + (s.length - (rest.length + 1))
      match ht : scan start c rest with
      | .error f => throw f
      | .ok (t, after) => do
          let ts ← scanAll (start + 1 + (rest.length - after.length)) after
          pure (t :: ts)
termination_by s.length
decreasing_by
  have h := (List.dropWhile_suffix isBlank (l := s)).length_le
  rw [hs] at h
  have := scan_length ht
  simp at h
  omega

end Token

def tokenize (text : String) : Except Fault (List Token) := Token.scanAll 0 text.toList

end LineBasic

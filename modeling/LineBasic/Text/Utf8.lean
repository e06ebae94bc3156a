import LineBasic.Fault
import LineBasic.Text.Quoted

namespace LineBasic.Text

def encode (s : List Char) : List UInt8 := s.flatMap String.utf8EncodeChar

def lead? (b : Nat) : Option (Nat × Nat × Nat) :=
  if b < 0x80 then some (0, 0, 0)
  else if b < 0xC2 then none
  else if b < 0xE0 then some (1, 0x80, 0xBF)
  else if b = 0xE0 then some (2, 0xA0, 0xBF)
  else if b = 0xED then some (2, 0x80, 0x9F)
  else if b < 0xF0 then some (2, 0x80, 0xBF)
  else if b = 0xF0 then some (3, 0x90, 0xBF)
  else if b < 0xF4 then some (3, 0x80, 0xBF)
  else if b = 0xF4 then some (3, 0x80, 0x8F)
  else none

def continuation : Nat → Nat → Nat → List UInt8 → List UInt8
  | 0, _, _, _ => []
  | _, _, _, [] => []
  | n + 1, low, high, b :: bs =>
      if low ≤ b.toNat ∧ b.toNat ≤ high then b :: continuation n 0x80 0xBF bs else []

def leadBits (n b : Nat) : Nat :=
  match n with
  | 0 => b
  | 1 => b % 0x20
  | 2 => b % 0x10
  | _ => b % 0x08

def assemble (n : Nat) (b : UInt8) (bs : List UInt8) : Char :=
  Char.ofNat (bs.foldl (fun a c => a * 64 + c.toNat % 64) (leadBits n b.toNat))

def decodeFault (position length : Nat) (b : UInt8) (reason : String) : Fault :=
  if length = 1 then
    .undecodable (String.ofList (padLeft 2 '0' (hexDigits b.toNat))) position reason
  else .undecodableRun position (position + length - 1) reason

/-- Characters of the bytes from `position` on. Unless the bytes are the last ones, a character
that is not complete is left for later. -/
def decodeFrom (last : Bool) : Nat → Nat → List UInt8 → Except Fault (List Char × List UInt8)
  | 0, _, bs => pure ([], bs)
  | _, _, [] => pure ([], [])
  | fuel + 1, position, b :: bs =>
      match lead? b.toNat with
      | none => throw (decodeFault position 1 b "invalid start byte")
      | some (n, low, high) =>
          let more := continuation n low high bs
          if more.length = n then do
            let (cs, rest) ← decodeFrom last fuel (position + n + 1) (bs.drop n)
            pure (assemble n b more :: cs, rest)
          else if more.length < bs.length then
            throw (decodeFault position (more.length + 1) b "invalid continuation byte")
          else if last then
            throw (decodeFault position (more.length + 1) b "unexpected end of data")
          else pure ([], b :: bs)

def decodeMarked : Nat → List UInt8 → List Char
  | 0, _ => []
  | _, [] => []
  | fuel + 1, b :: bs =>
      match lead? b.toNat with
      | none => Char.ofNat 0xFFFD :: decodeMarked fuel bs
      | some (n, low, high) =>
          let more := continuation n low high bs
          (if more.length = n then assemble n b more else Char.ofNat 0xFFFD) ::
            decodeMarked fuel (bs.drop more.length)

def shownBytes (bs : List UInt8) : String := String.ofList (decodeMarked bs.length bs)

def decode (last : Bool) (bs : List UInt8) : Except Fault (List Char × List UInt8) :=
  decodeFrom last bs.length 0 bs

end LineBasic.Text

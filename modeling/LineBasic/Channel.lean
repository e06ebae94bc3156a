import LineBasic.Disk
import LineBasic.Text.Utf8
import LineBasic.Value
import LineBasic.Value.Order

namespace LineBasic

/-- A place to read on from: a byte of the file, whether a carriage return was read just before it,
and how many characters of how many bytes from there on are to be passed. A negative count of bytes
means all of them; `last` says that no bytes follow those. -/
structure Place where
  start : Int
  carriage : Bool
  taken : Int
  passed : Int
  last : Bool
  deriving DecidableEq, Repr

namespace Place

def bits : Nat := 168

def field (low width n : Nat) : Int := Int.bmod (n >>> low) (Nat.pow 2 width)

/-- Any number that is not too wide says a place. One below 2 ^ 63 is simply a byte of the file. -/
def ofNat (n : Nat) : Except Fault Place :=
  if Nat.pow 2 bits ≤ n then throw .placeTooBig
  else pure ⟨field 0 64 n, n.testBit 64, field 96 32 n, field 128 32 n, field 160 8 n != 0⟩

end Place

inductive Access
  | input | append | output
  deriving DecidableEq, Repr

/-- An open file. `position` is where the next bytes are read or put. Text that was written waits in
`pending` and then in `held`; text that was read ahead waits in `ready`, behind it the bytes of a
character and the carriage return that are not complete yet. -/
structure Channel where
  path : String
  access : Access
  position : Nat
  held : List UInt8
  pending : List UInt8
  ready : List Char
  tail : List UInt8
  carriage : Bool

namespace Channel

def portion : Nat := 8192

def block : Nat := 4096

def fresh (path : String) (access : Access) : Channel := ⟨path, access, 0, [], [], [], [], false⟩

def open? (d : Disk) (path : String) (access : Access) : Option (Channel × Disk) :=
  match d.resolve? path with
  | none => none
  | some plain =>
      match access with
      | .output => some (fresh plain access, d.write plain [])
      | _ => (d.read? plain).map fun _ => (fresh plain access, d)

def contents (c : Channel) (d : Disk) : List UInt8 := (d.read? c.path).getD []

def reset (c : Channel) : Channel := { c with ready := [], tail := [], carriage := false }

def put (c : Channel) (bytes : List UInt8) (d : Disk) : Channel × Disk :=
  if bytes.isEmpty then (c, d)
  else
    ({ c with position := c.position + bytes.length },
      d.write c.path (Disk.overlay (c.contents d) c.position bytes))

def flush (c : Channel) (d : Disk) : Channel × Disk :=
  put { c with held := [], pending := [] } (c.held ++ c.pending) d

/-- Moves what is pending to what is held. If both are too much, what was held goes into the file,
and what is more than a block by itself goes there at once. -/
def handOver (c : Channel) (d : Disk) : Channel × Disk :=
  if c.held.length + c.pending.length ≤ block then
    ({ c with held := c.held ++ c.pending, pending := [] }, d)
  else if block < c.pending.length then c.flush d
  else put { c with held := c.pending, pending := [] } c.held d

def write (s : String) : EStateM Fault (Channel × Disk) Unit := fun (c, d) =>
  if c.access = .input then .error .notWritable (c, d)
  else
    let bytes := Text.encode s.toList
    let (c, d) := if portion < c.pending.length + bytes.length then c.handOver d else (c, d)
    let c := { c.reset with pending := c.pending ++ bytes }
    .ok () (if portion ≤ c.pending.length then c.handOver d else (c, d))

def lineFeeds : List Char → List Char
  | [] => []
  | '\r' :: '\n' :: s => '\n' :: lineFeeds s
  | '\r' :: s => '\n' :: lineFeeds s
  | c :: s => c :: lineFeeds s

def feed (c : Channel) (last : Bool) (bytes : List UInt8) : Except Fault Channel := do
  let (cs, tail) ← Text.decode last (c.tail ++ bytes)
  let held := c.carriage && cs.isEmpty && !last
  let cs := if c.carriage && !held then '\r' :: cs else cs
  let split := !last && cs.getLast? == some '\r'
  let cs := if split then cs.dropLast else cs
  pure { c with ready := c.ready ++ lineFeeds cs, tail := tail, carriage := held || split }

def takeLine (c : Channel) : List Char × Channel :=
  match c.ready.dropWhile (· != '\n') with
  | _ :: rest => (c.ready.takeWhile (· != '\n') ++ ['\n'], { c with ready := rest })
  | [] => (c.ready, { c with ready := [] })

def readLineOf (file : List UInt8) (c : Channel) : EStateM.Result Fault Channel (List Char) :=
  if c.ready.contains '\n' then
    let (line, c) := c.takeLine
    .ok line c
  else
    let bytes := (file.drop c.position).take portion
    let position := c.position + bytes.length
    match c.feed bytes.isEmpty bytes with
    | .error f => .error f { c with position := position, ready := [] }
    | .ok c' =>
        if h : bytes = [] then
          let (line, c) := c'.takeLine
          .ok line c
        else
          have : file.length - position < file.length - c.position := by
            have := List.length_pos_iff.mpr h
            simp only [position, bytes, List.length_take, List.length_drop] at this ⊢
            omega
          readLineOf file { c' with position := position }
termination_by file.length - c.position
decreasing_by exact this

def readLine : EStateM Fault (Channel × Disk) (List Char) := fun (c, d) =>
  let (c, d) := c.handOver d
  match readLineOf (c.contents d) c with
  | .ok line c => .ok line (c, d)
  | .error f c => .error f (c, d)

def seekTo (place : Place) : EStateM Fault (Channel × Disk) Unit := fun (c, d) =>
  if place.start < 0 then .error .noSuchPlace (c, d)
  else
    let c := { c.reset with position := place.start.toNat, carriage := place.carriage }
    if place.passed = 0 then .ok () (c, d)
    else if place.taken < -1 then .error .negativeCount (c, d)
    else
      let rest := (c.contents d).drop c.position
      let bytes := if place.taken < 0 then rest else rest.take place.taken.toNat
      let c := { c with position := c.position + bytes.length }
      match c.feed place.last bytes with
      | .error f => .error f (c, d)
      | .ok c =>
          if c.ready.length < place.passed then .error .lostPlace (c, d)
          else .ok () ({ c with ready := c.ready.drop place.passed.toNat }, d)

def placeOf (v : Value) : Except Fault Place := do
  let n ← match v with
    | .real x => Value.truncateReal x
    | v => pure (v.integer?.getD 0)
  Place.ofNat n.toNat

def seek (v : Value) : EStateM Fault (Channel × Disk) Unit := fun (c, d) =>
  match v.relate .less (.int 0) with
  | .error f => .error f (c, d)
  | .ok true =>
      match v.quoted with
      | .ok s => .error (.negativeSeek s) (c, d)
      | .error f => .error f (c, d)
  | .ok false =>
      match placeOf v with
      | .error f => .error f (c.flush d)
      | .ok place => seekTo place (c.flush d)

def measureIn : Nat → Nat → EStateM Fault (Channel × Disk) Nat
  | 0, total => pure total
  | n + 1, total => do
      match ← readLine with
      | [] => pure total
      | line => measureIn n (total + line.length + 1)

def seekByte (n : Nat) : EStateM Fault (Channel × Disk) Unit :=
  modify fun (c, d) =>
    let (c, d) := c.flush d
    ({ c.reset with position := n }, d)

/-- Goes to the place where an appended line is put: as many bytes from the start as the file has
characters and lines. -/
def seekEnd : EStateM Fault (Channel × Disk) Unit := do
  seekByte 0
  let (c, d) ← get
  let total ← measureIn ((c.contents d).length + 1) 0
  seekByte total

end Channel

/-- Open files under their channel numbers. Numbers of different kinds with the same value mean
the same channel. -/
abbrev Channels := List (Value × Channel)

namespace Channels

def get? : Channels → Value → Option Channel
  | [], _ => none
  | (k, c) :: cs, v => if k.same v then some c else get? cs v

def put : Channels → Value → Channel → Channels
  | [], v, c => [(v, c)]
  | (k, b) :: cs, v, c => if k.same v then (k, c) :: cs else (k, b) :: put cs v c

def remove : Channels → Value → Channels
  | [], _ => []
  | (k, b) :: cs, v => if k.same v then cs else (k, b) :: remove cs v

def flushAll (cs : Channels) (d : Disk) : Disk := cs.foldl (fun d c => (c.2.flush d).2) d

end Channels

end LineBasic

import LineBasic.Double.Parts

namespace LineBasic

/-- A Mersenne Twister of 624 words. Those in `left` are still to be used. -/
structure Generator where
  words : List UInt32
  left : List UInt32

namespace Generator

def size : Nat := 624

def middle : Nat := 397

def spread : Nat → UInt32 → List UInt32
  | 0, _ => []
  | n + 1, w => w :: spread n ((1812433253 : UInt32) * (w ^^^ (w >>> 30)) + UInt32.ofNat (size - n))

structure Walk where
  behind : List UInt32
  ahead : List UInt32

/-- Changes the word ahead by the one behind it. The last word takes the place of the first too,
and the walk goes on at the second. -/
def Walk.step (change : UInt32 → UInt32 → UInt32) : Walk → Walk
  | ⟨last :: behind, word :: ahead⟩ =>
      let word := change last word
      match ahead with
      | [] => ⟨[word], (word :: last :: behind).reverse.tail⟩
      | ahead => ⟨word :: last :: behind, ahead⟩
  | w => w

def mixed (factor last word : UInt32) : UInt32 := word ^^^ ((last ^^^ (last >>> 30)) * factor)

def absorb (key : List UInt32) : Nat → List UInt32 → Walk → Walk
  | n + 1, k :: ks, w =>
      absorb key n (if ks.isEmpty then key else ks)
        (w.step fun last word => mixed 1664525 last word + k)
  | _, _, w => w

def settle : Nat → Nat → Walk → Walk
  | 0, _, w => w
  | n + 1, i, w =>
      settle n (if i + 1 < size then i + 1 else 1)
        (w.step fun last word => mixed 1566083941 last word - UInt32.ofNat i)

def ofKey (key : List UInt32) : Generator :=
  let words := spread size 19650218
  let key := key.zipIdx.map fun (k, j) => k + UInt32.ofNat j
  let w := absorb key (max size key.length) key ⟨words.take 1, words.tail⟩
  let w := settle (size - 1) w.behind.length w
  ⟨0x80000000 :: (w.behind.reverse ++ w.ahead).tail, []⟩

def keyOf (n : Nat) : List UInt32 :=
  if n < Nat.pow 2 32 then [UInt32.ofNat n]
  else UInt32.ofNat n :: keyOf (n / Nat.pow 2 32)
termination_by n
decreasing_by
  have hn : Nat.pow 2 32 ≤ n := Nat.not_lt.mp ‹_›
  exact Nat.div_lt_self (Nat.lt_of_lt_of_le (by decide) hn) (by decide)

def seed (n : Nat) : Generator := ofKey (keyOf n)

/-- The residue of a real modulo `2 ^ 61 - 1`, where powers of two have period 61. -/
def residue (x : Float) : Int :=
  match Double.view x with
  | .nan => 0
  | .infinite negative => if negative then -314159 else 314159
  | .finite p =>
      let r := p.significand * Nat.pow 2 (p.exponent % 61).toNat % (Nat.pow 2 61 - 1)
      if p.signed r = -1 then -2 else p.signed r

def seedReal (x : Float) : Generator := seed (residue x % Nat.pow 2 64).toNat

def twist (a b : UInt32) : UInt32 :=
  let y := (a &&& 0x80000000) ||| (b &&& 0x7FFFFFFF)
  (y >>> 1) ^^^ (if y &&& 1 = 1 then 0x9908B0DF else 0)

/-- A fresh set of words, each from its neighbour and the one `middle` places on. Where there is
none, the fresh words take their turn. -/
def renew (words : List UInt32) : List UInt32 :=
  let twisted := List.zipWith twist words words.tail
  let first := List.zipWith (· ^^^ ·) (words.drop middle) twisted
  let twisted := twisted.drop (size - middle)
  let second := List.zipWith (· ^^^ ·) first twisted
  let twisted := twisted.drop (size - middle) ++ [twist (words.getLastD 0) (first.headD 0)]
  first ++ second ++ List.zipWith (· ^^^ ·) second twisted

def temper (y : UInt32) : UInt32 :=
  let y := y ^^^ (y >>> 11)
  let y := y ^^^ ((y <<< 7) &&& 0x9D2C5680)
  let y := y ^^^ ((y <<< 15) &&& 0xEFC60000)
  y ^^^ (y >>> 18)

def next (g : Generator) : UInt32 × Generator :=
  match g.left with
  | w :: left => (temper w, { g with left := left })
  | [] =>
      let words := renew g.words
      (temper (words.headD 0), ⟨words, words.tail⟩)

def nextReal (g : Generator) : Float × Generator :=
  let (a, g) := g.next
  let (b, g) := g.next
  (Double.ofRatio false ((a >>> 5).toNat * Nat.pow 2 26 + (b >>> 6).toNat) (Nat.pow 2 53), g)

def nextBits (bits : Nat) (g : Generator) : Nat × Generator :=
  if bits ≤ 32 then
    let (w, g) := g.next
    (w.toNat / Nat.pow 2 (32 - bits), g)
  else
    let (w, g) := g.next
    let (high, g) := nextBits (bits - 32) g
    (w.toNat + Nat.pow 2 32 * high, g)
termination_by bits

def nextBelowIn (n : Nat) : Nat → Generator → Nat × Generator
  | 0, g => (0, g)
  | tries + 1, g =>
      let (r, g) := nextBits (n.log2 + 1) g
      if r < n then (r, g) else nextBelowIn n tries g

/-- A number below `n`. A draw fails less than half of the time. -/
def nextBelow (n : Nat) (g : Generator) : Nat × Generator := nextBelowIn n 10000 g

end Generator

end LineBasic

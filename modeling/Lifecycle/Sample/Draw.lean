import Lifecycle.Number.Double

namespace Lifecycle.Sample

-- The Mersenne Twister on 624 words: a source of equally distributed 32-bit
-- words that a seed determines.
structure Twister where
  words : Array UInt32
  used : Nat

namespace Twister

def size : Nat := 624

def wordAt (words : Array UInt32) (i : Nat) : UInt32 := words.getD i 0

def plant (seed : UInt32) : Array UInt32 :=
  (List.range (size - 1)).foldl
    (fun (words : Array UInt32) (i : Nat) =>
      let last : UInt32 := wordAt words i
      words.push ((last ^^^ (last >>> 30)) * 1812433253 + UInt32.ofNat (i + 1)))
    #[seed]

structure Mixing where
  words : Array UInt32
  i : Nat
  j : Nat

def Mixing.advance (m : Mixing) (value : UInt32) : Mixing :=
  let words := m.words.setIfInBounds m.i value
  if size ≤ m.i + 1 then { m with words := words.setIfInBounds 0 (wordAt words (size - 1)), i := 1 }
  else { m with words, i := m.i + 1 }

def Mixing.spread (m : Mixing) : UInt32 :=
  let last := wordAt m.words (m.i - 1)
  last ^^^ (last >>> 30)

def mixKey (key : Array UInt32) (m : Mixing) : Mixing :=
  let value := (wordAt m.words m.i ^^^ (m.spread * 1664525)) + wordAt key m.j + UInt32.ofNat m.j
  let next := m.advance value
  { next with j := if key.size ≤ m.j + 1 then 0 else m.j + 1 }

def mixIndex (m : Mixing) : Mixing :=
  m.advance ((wordAt m.words m.i ^^^ (m.spread * 1566083941)) - UInt32.ofNat m.i)

def ofKey (key : Array UInt32) : Twister :=
  let start : Mixing := ⟨plant 19650218, 1, 0⟩
  let mixed := (List.range (max size key.size)).foldl (fun m _ => mixKey key m) start
  let mixed := (List.range (size - 1)).foldl (fun m _ => mixIndex m) mixed
  ⟨mixed.words.setIfInBounds 0 0x80000000, size⟩

def keyWords (n : Nat) : List UInt32 :=
  if n < twoPow 32 then [UInt32.ofNat n]
  else UInt32.ofNat (n % twoPow 32) :: keyWords (n / twoPow 32)
termination_by n
decreasing_by exact Nat.div_lt_self (Nat.lt_of_lt_of_le (by decide) (Nat.le_of_not_lt ‹¬n < twoPow 32›)) (by decide)

def ofSeed (seed : Int) : Twister := ofKey (keyWords seed.natAbs).toArray

def turn (words : Array UInt32) (i : Nat) : Array UInt32 :=
  let joined := (wordAt words i &&& 0x80000000) ||| (wordAt words ((i + 1) % size) &&& 0x7fffffff)
  let twist : UInt32 := if joined &&& 1 = 1 then 0x9908b0df else 0
  words.setIfInBounds i (wordAt words ((i + 397) % size) ^^^ (joined >>> 1) ^^^ twist)

def temper (y : UInt32) : UInt32 :=
  let y := y ^^^ (y >>> 11)
  let y := y ^^^ ((y <<< 7) &&& 0x9d2c5680)
  let y := y ^^^ ((y <<< 15) &&& 0xefc60000)
  y ^^^ (y >>> 18)

def next (t : Twister) : UInt32 × Twister :=
  let t := if t.used < size then t else ⟨(List.range size).foldl turn t.words, 0⟩
  (temper (wordAt t.words t.used), { t with used := t.used + 1 })

end Twister

abbrev Draw := StateM Twister

namespace Draw

def word : Draw UInt32 := Twister.next

def bits (count : Nat) : Draw Nat := do
  let w ← word
  return w.toNat / twoPow (32 - count)

def wideBits : Nat → Draw Nat
  | 0 => return 0
  | words + 1 => do
    let low ← word
    let high ← wideBits words
    return low.toNat + high * twoPow 32

-- The first draw below the bound. Each draw succeeds at least every second
-- time, so the rounds allowed here are never used up; zero stands for that case.
def belowWithin (bound width : Nat) : Nat → Draw Nat
  | 0 => return 0
  | rounds + 1 => do
    let r ← bits width
    if r < bound then return r else belowWithin bound width rounds

def below (bound : Nat) : Draw Nat := belowWithin bound (bound.log2 + 1) 4096

def between (low high : Nat) : Draw Nat := do
  return low + (← below (high - low + 1))

def oneOf {α : Type} (choices : List α) (fallback : α) : Draw α := do
  return choices.getD (← below choices.length) fallback

def unitReal : Draw Double := do
  let a ← word
  let b ← word
  return .ofQuotient (((a.toNat / twoPow 5) * twoPow 26 + b.toNat / twoPow 6 : Nat) : Int) (twoPow 53)

def totals (weights : List Nat) : List Nat :=
  (weights.foldl (fun (sums : List Nat) w => sums ++ [sums.getLastD 0 + w]) [])

-- Each choice with a chance in proportion to its weight: the first running
-- total beyond the drawn part of the whole decides.
def weighted {α : Type} (choices : List (α × Nat)) (fallback : α) : Draw α := do
  let sums := totals (choices.map (·.2))
  let r ← unitReal
  let point := Number.real (r.mul (.ofQuotient ((sums.getLastD 0 : Nat) : Int) 1))
  let index := sums.findIdx fun (total : Nat) => point.lt (.int (total : Int))
  return ((choices.map (·.1)).getD (min index (choices.length - 1)) fallback)

end Draw
end Lifecycle.Sample

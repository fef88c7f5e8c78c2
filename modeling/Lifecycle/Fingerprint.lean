import Lifecycle.Json.Printer
import Lifecycle.Replay
import Lifecycle.Text.Basic

namespace Lifecycle.Digest

-- SHA-256: a message padded to blocks of sixteen words, each folded into eight
-- words of state by sixty-four rounds.
def roundConstants : List UInt32 := [
  0x428a2f98, 0x71374491, 0xb5c0fbcf, 0xe9b5dba5, 0x3956c25b, 0x59f111f1, 0x923f82a4, 0xab1c5ed5,
  0xd807aa98, 0x12835b01, 0x243185be, 0x550c7dc3, 0x72be5d74, 0x80deb1fe, 0x9bdc06a7, 0xc19bf174,
  0xe49b69c1, 0xefbe4786, 0x0fc19dc6, 0x240ca1cc, 0x2de92c6f, 0x4a7484aa, 0x5cb0a9dc, 0x76f988da,
  0x983e5152, 0xa831c66d, 0xb00327c8, 0xbf597fc7, 0xc6e00bf3, 0xd5a79147, 0x06ca6351, 0x14292967,
  0x27b70a85, 0x2e1b2138, 0x4d2c6dfc, 0x53380d13, 0x650a7354, 0x766a0abb, 0x81c2c92e, 0x92722c85,
  0xa2bfe8a1, 0xa81a664b, 0xc24b8b70, 0xc76c51a3, 0xd192e819, 0xd6990624, 0xf40e3585, 0x106aa070,
  0x19a4c116, 0x1e376c08, 0x2748774c, 0x34b0bcb5, 0x391c0cb3, 0x4ed8aa4a, 0x5b9cca4f, 0x682e6ff3,
  0x748f82ee, 0x78a5636f, 0x84c87814, 0x8cc70208, 0x90befffa, 0xa4506ceb, 0xbef9a3f7, 0xc67178f2]

structure Words where
  a : UInt32
  b : UInt32
  c : UInt32
  d : UInt32
  e : UInt32
  f : UInt32
  g : UInt32
  h : UInt32
deriving DecidableEq, Repr

def Words.start : Words :=
  ⟨0x6a09e667, 0xbb67ae85, 0x3c6ef372, 0xa54ff53a, 0x510e527f, 0x9b05688c, 0x1f83d9ab, 0x5be0cd19⟩

def Words.add (x y : Words) : Words :=
  ⟨x.a + y.a, x.b + y.b, x.c + y.c, x.d + y.d, x.e + y.e, x.f + y.f, x.g + y.g, x.h + y.h⟩

def Words.toList (w : Words) : List UInt32 := [w.a, w.b, w.c, w.d, w.e, w.f, w.g, w.h]

def rotate (x : UInt32) (n : UInt32) : UInt32 := (x >>> n) ||| (x <<< (32 - n))

def nextWord (recent : Array UInt32) : UInt32 :=
  let back (i : Nat) : UInt32 := recent.getD (recent.size - i) 0
  let s0 := rotate (back 15) 7 ^^^ rotate (back 15) 18 ^^^ (back 15 >>> 3)
  let s1 := rotate (back 2) 17 ^^^ rotate (back 2) 19 ^^^ (back 2 >>> 10)
  back 16 + s0 + back 7 + s1

def schedule (block : Array UInt32) : Array UInt32 :=
  (List.range 48).foldl (fun words _ => words.push (nextWord words)) block

def round (s : Words) (constant word : UInt32) : Words :=
  let s1 := rotate s.e 6 ^^^ rotate s.e 11 ^^^ rotate s.e 25
  let choice := (s.e &&& s.f) ^^^ ((~~~ s.e) &&& s.g)
  let t1 := s.h + s1 + choice + constant + word
  let s0 := rotate s.a 2 ^^^ rotate s.a 13 ^^^ rotate s.a 22
  let majority := (s.a &&& s.b) ^^^ (s.a &&& s.c) ^^^ (s.b &&& s.c)
  ⟨t1 + (s0 + majority), s.a, s.b, s.c, s.d + t1, s.e, s.f, s.g⟩

def absorb (s : Words) (block : Array UInt32) : Words :=
  s.add ((roundConstants.zip (schedule block).toList).foldl (fun s p => round s p.1 p.2) s)

def padding (length : Nat) : List UInt8 :=
  let zeros := (119 - length % 64) % 64
  let size := 8 * length
  (0x80 : UInt8) :: List.replicate zeros 0 ++ (List.range 8).map fun i => UInt8.ofNat (size >>> (8 * (7 - i)))

def byteAt (bytes : ByteArray) (i : Nat) : UInt32 := if h : i < bytes.size then bytes[i].toUInt32 else 0

def word (bytes : ByteArray) (i : Nat) : UInt32 :=
  (byteAt bytes i <<< 24) ||| (byteAt bytes (i + 1) <<< 16) ||| (byteAt bytes (i + 2) <<< 8) |||
    byteAt bytes (i + 3)

def block (bytes : ByteArray) (i : Nat) : Array UInt32 :=
  ((List.range 16).map fun k => word bytes (64 * i + 4 * k)).toArray

def sha256 (message : ByteArray) : Words :=
  let padded := message ++ (padding message.size).toByteArray
  (List.range (padded.size / 64)).foldl (fun s i => absorb s (block padded i)) Words.start

end Lifecycle.Digest

namespace Lifecycle

namespace Fingerprint

-- The time of entry is left out, so that every replay of the same histories has
-- the same fingerprint. Keys are in order.
def row (a : Assignment) : Json := .record [
  ("stateId", .text a.stageId), ("userId", .text a.userId), ("versionId", .int a.versionId)]

def canonical (assignments : List Assignment) : String :=
  (Json.list ((assignments.mergeSort fun a b => a.userId ≤ b.userId).map row)).compact

def hex (w : Digest.Words) : String :=
  String.join (w.toList.map fun x => Text.hexOfNat 8 x.toNat)

def ofAssignments (assignments : List Assignment) : String :=
  hex (Digest.sha256 (canonical assignments).toUTF8)

def save (value : String) : String := value ++ "\n"

def load (text : String) : String := String.ofList (Text.trimChars (Text.unifyLines text.toList))

end Fingerprint

def Engine.verify (e : Engine) (expected : String) (version : Option Int) (limit : Json) (s : Store) :
    Except Fault (Bool × String) × Store :=
  match e.immerseAll version limit s with
  | (.error f, s) => (.error f, s)
  | (.ok total, s) =>
    let actual := Fingerprint.ofAssignments (s.assignmentsOf (some total.versionId))
    (.ok (actual = expected, actual), s)

end Lifecycle

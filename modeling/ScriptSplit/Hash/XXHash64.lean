import ScriptSplit.Hash.Word

/-!
# XXH64

The fast hash of 64 bits, with seed zero.

* `XXHash64.digest`: the hash; `XXHash64.hex`: as hexadecimal digits without leading zeros.
-/

namespace ScriptSplit.Hash.XXHash64

def prime1 : UInt64 := 11400714785074694791
def prime2 : UInt64 := 14029467366897019727
def prime3 : UInt64 := 1609587929392839161
def prime4 : UInt64 := 9650029242287828579
def prime5 : UInt64 := 2870177450012600261

/-- Rotation to the left. -/
def rotate (w n : UInt64) : UInt64 := (w <<< n) ||| (w >>> (64 - n))

/-- Takes a word into a lane. -/
def round (lane input : UInt64) : UInt64 := rotate (lane + input * prime2) 31 * prime1

/-- Takes a finished lane into the hash. -/
def merge (hash lane : UInt64) : UInt64 := (hash ^^^ round 0 lane) * prime1 + prime4

/-- The word of eight bytes. -/
def word (bytes : Bytes) : UInt64 := UInt64.ofNat (littleEndian bytes)

/-- The four lanes. -/
structure Lanes where
  a : UInt64
  b : UInt64
  c : UInt64
  d : UInt64

/-- Takes a stripe of 32 bytes into the lanes. -/
def Lanes.stripe (l : Lanes) (s : Bytes) : Lanes :=
  ⟨round l.a (word (s.take 8)), round l.b (word ((s.drop 8).take 8)),
   round l.c (word ((s.drop 16).take 8)), round l.d (word ((s.drop 24).take 8))⟩

/-- The hash of finished lanes. -/
def Lanes.hash (l : Lanes) : UInt64 :=
  let h := rotate l.a 1 + rotate l.b 7 + rotate l.c 12 + rotate l.d 18
  merge (merge (merge (merge h l.a) l.b) l.c) l.d

/-- Takes fewer than 32 bytes into the hash: words of eight, then one of four, then single bytes. -/
def tailBytes (hash : UInt64) (t : Bytes) : UInt64 :=
  let eights := (pieces 8 t).filter fun p => p.length == 8
  let h := eights.foldl (fun h p => rotate (h ^^^ round 0 (word p)) 27 * prime1 + prime4) hash
  let t := t.drop (8 * eights.length)
  let (h, t) :=
    if 4 ≤ t.length then (rotate (h ^^^ (word (t.take 4) * prime1)) 23 * prime2 + prime3, t.drop 4)
    else (h, t)
  t.foldl (fun h b => rotate (h ^^^ (UInt64.ofNat b.toNat * prime5)) 11 * prime1) h

/-- Spreads the bits of the hash. -/
def avalanche (h : UInt64) : UInt64 :=
  let h := (h ^^^ (h >>> 33)) * prime2
  let h := (h ^^^ (h >>> 29)) * prime3
  h ^^^ (h >>> 32)

/-- The hash of a text. -/
def digest (t : Bytes) : UInt64 :=
  let stripes := (pieces 32 t).filter fun p => p.length == 32
  let h :=
    if stripes.isEmpty then prime5
    else (stripes.foldl Lanes.stripe ⟨prime1 + prime2, prime2, 0, 0 - prime1⟩).hash
  avalanche (tailBytes (h + UInt64.ofNat t.length) (t.drop (32 * stripes.length)))

/-- The hash as hexadecimal digits without leading zeros. -/
def hex (t : Bytes) : String := String.ofList (Nat.toDigits 16 (digest t).toNat)

end ScriptSplit.Hash.XXHash64

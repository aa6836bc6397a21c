/-! The 64-bit XXH3 digest of a text, with seed zero. Short inputs are mixed at once; longer ones go
stripe by stripe through eight accumulators. -/

namespace Marginalia.Digest

def primeA : UInt64 := 0x9E3779B185EBCA87
def primeB : UInt64 := 0xC2B2AE3D27D4EB4F
def primeC : UInt64 := 0x165667B19E3779F9
def primeD : UInt64 := 0x85EBCA77C2B2AE63
def primeE : UInt64 := 0x27D4EB2F165667C5
def smallPrimeA : UInt64 := 0x9E3779B1
def smallPrimeB : UInt64 := 0x85EBCA77
def smallPrimeC : UInt64 := 0xC2B2AE3D

def secret : Array UInt8 := #[
  0xb8, 0xfe, 0x6c, 0x39, 0x23, 0xa4, 0x4b, 0xbe, 0x7c, 0x01, 0x81, 0x2c, 0xf7, 0x21, 0xad, 0x1c,
  0xde, 0xd4, 0x6d, 0xe9, 0x83, 0x90, 0x97, 0xdb, 0x72, 0x40, 0xa4, 0xa4, 0xb7, 0xb3, 0x67, 0x1f,
  0xcb, 0x79, 0xe6, 0x4e, 0xcc, 0xc0, 0xe5, 0x78, 0x82, 0x5a, 0xd0, 0x7d, 0xcc, 0xff, 0x72, 0x21,
  0xb8, 0x08, 0x46, 0x74, 0xf7, 0x43, 0x24, 0x8e, 0xe0, 0x35, 0x90, 0xe6, 0x81, 0x3a, 0x26, 0x4c,
  0x3c, 0x28, 0x52, 0xbb, 0x91, 0xc3, 0x00, 0xcb, 0x88, 0xd0, 0x65, 0x8b, 0x1b, 0x53, 0x2e, 0xa3,
  0x71, 0x64, 0x48, 0x97, 0xa2, 0x0d, 0xf9, 0x4e, 0x38, 0x19, 0xef, 0x46, 0xa9, 0xde, 0xac, 0xd8,
  0xa8, 0xfa, 0x76, 0x3f, 0xe3, 0x9c, 0x34, 0x3f, 0xf9, 0xdc, 0xbb, 0xc7, 0xc7, 0x0b, 0x4f, 0x1d,
  0x8a, 0x51, 0xe0, 0x4b, 0xcd, 0xb4, 0x59, 0x31, 0xc8, 0x9f, 0x7e, 0xc9, 0xd9, 0x78, 0x73, 0x64,
  0xea, 0xc5, 0xac, 0x83, 0x34, 0xd3, 0xeb, 0xc3, 0xc5, 0x81, 0xa0, 0xff, 0xfa, 0x13, 0x63, 0xeb,
  0x17, 0x0d, 0xdd, 0x51, 0xb7, 0xf0, 0xda, 0x49, 0xd3, 0x16, 0x55, 0x26, 0x29, 0xd4, 0x68, 0x9e,
  0x2b, 0x16, 0xbe, 0x58, 0x7d, 0x47, 0xa1, 0xfc, 0x8f, 0xf8, 0xb8, 0xd1, 0x7a, 0xd0, 0x31, 0xce,
  0x45, 0xcb, 0x3a, 0x8f, 0x95, 0x16, 0x04, 0x28, 0xaf, 0xd7, 0xfb, 0xca, 0xbb, 0x4b, 0x40, 0x7e]

/-- The little-endian number in `count` bytes. -/
def read (bytes : Array UInt8) (start count : Nat) : UInt64 :=
  (List.range count).foldr
    (fun (i : Nat) (high : UInt64) => (high <<< 8) ||| (bytes.getD (start + i) 0).toUInt64) 0

def word (bytes : Array UInt8) (start : Nat) : UInt64 := read bytes start 8

/-- The two words of the secret at these places, mixed. -/
def secretPair (a b : Nat) : UInt64 := word secret a ^^^ word secret b

/-- The halves of the full product, mixed. -/
def foldedProduct (x y : UInt64) : UInt64 :=
  let product := x.toNat * y.toNat
  UInt64.ofNat (product % Nat.pow 2 64) ^^^ UInt64.ofNat (product / Nat.pow 2 64)

def rotateLeft (x : UInt64) (by' : UInt64) : UInt64 := (x <<< by') ||| (x >>> (64 - by'))

def swapBytes (x : UInt64) : UInt64 :=
  (List.range 8).foldl (fun (swapped : UInt64) (i : Nat) =>
    (swapped <<< 8) ||| ((x >>> (8 * i).toUInt64) &&& 0xff)) 0

def avalanche (h : UInt64) : UInt64 :=
  let h : UInt64 := (h ^^^ (h >>> 37)) * 0x165667919E3779F9
  h ^^^ (h >>> 32)

/-- The finish for the shortest inputs. -/
def strongAvalanche (h : UInt64) : UInt64 :=
  let h := (h ^^^ (h >>> 33)) * primeB
  let h := (h ^^^ (h >>> 29)) * primeC
  h ^^^ (h >>> 32)

/-- Sixteen bytes of input with sixteen bytes of the secret. -/
def mix (bytes : Array UInt8) (start key : Nat) : UInt64 :=
  foldedProduct (word bytes start ^^^ word secret key)
    (word bytes (start + 8) ^^^ word secret (key + 8))

def upToThree (bytes : Array UInt8) : UInt64 :=
  let size := bytes.size
  let byte (i : Nat) : UInt64 := (bytes.getD i 0).toUInt64
  let combined := (byte 0 <<< 16) ||| (byte (size / 2) <<< 24) ||| byte (size - 1)
    ||| (size.toUInt64 <<< 8)
  strongAvalanche (combined ^^^ (read secret 0 4 ^^^ read secret 4 4))

def upToEight (bytes : Array UInt8) : UInt64 :=
  let size := bytes.size
  let input := read bytes (size - 4) 4 + (read bytes 0 4 <<< 32)
  let h := input ^^^ secretPair 8 16
  let h := (h ^^^ rotateLeft h 49 ^^^ rotateLeft h 24) * 0x9FB21C651E98DF25
  let h := (h ^^^ ((h >>> 35) + size.toUInt64)) * 0x9FB21C651E98DF25
  h ^^^ (h >>> 28)

def upToSixteen (bytes : Array UInt8) : UInt64 :=
  let size := bytes.size
  let low := word bytes 0 ^^^ secretPair 24 32
  let high := word bytes (size - 8) ^^^ secretPair 40 48
  avalanche (size.toUInt64 + swapBytes low + high + foldedProduct low high)

/-- Inputs of 17 to 128 bytes: sixteen bytes at a time from both ends. -/
def upTo128 (bytes : Array UInt8) : UInt64 :=
  let size := bytes.size
  let rounds := (size - 1) / 32 + 1
  avalanche <| (List.range rounds).foldl (fun sum i =>
    sum + mix bytes (16 * i) (32 * i) + mix bytes (size - 16 * (i + 1)) (32 * i + 16))
    (size.toUInt64 * primeA)

def upTo240 (bytes : Array UInt8) : UInt64 :=
  let size := bytes.size
  let first := avalanche <| (List.range 8).foldl
    (fun sum i => sum + mix bytes (16 * i) (16 * i)) (size.toUInt64 * primeA)
  let rest := (List.range (size / 16 - 8)).foldl
    (fun sum i => sum + mix bytes (16 * (i + 8)) (16 * i + 3)) first
  avalanche (rest + mix bytes (size - 16) 119)

/-- The accumulators before the first stripe. -/
def initial : List UInt64 :=
  [smallPrimeC, primeA, primeB, primeC, primeD, smallPrimeB, primeE, smallPrimeA]

/-- One stripe of 64 bytes. -/
def accumulate (bytes : Array UInt8) (start key : Nat) (lanes : List UInt64) : List UInt64 :=
  lanes.mapIdx fun (i : Nat) (lane : UInt64) =>
    let keyed : UInt64 := word bytes (start + 8 * i) ^^^ word secret (key + 8 * i)
    let neighbour := if i % 2 = 0 then i + 1 else i - 1
    lane + word bytes (start + 8 * neighbour) + (keyed &&& (0xffffffff : UInt64)) * (keyed >>> (32 : UInt64))

/-- The end of a block of sixteen stripes. -/
def scramble (lanes : List UInt64) : List UInt64 :=
  lanes.mapIdx fun (i : Nat) (lane : UInt64) =>
    (lane ^^^ (lane >>> 47) ^^^ word secret (128 + 8 * i)) * smallPrimeA

/-- Some stripes of a block that begins at `start`. -/
def stripes (bytes : Array UInt8) (start count : Nat) (lanes : List UInt64) : List UInt64 :=
  (List.range count).foldl (fun lanes n => accumulate bytes (start + 64 * n) (8 * n) lanes) lanes

/-- The accumulators as one number. -/
def merged (lanes : List UInt64) (start : UInt64) : UInt64 :=
  let lane (i : Nat) : UInt64 := lanes.getD i 0
  avalanche <| (List.range 4).foldl (fun sum i =>
    sum + foldedProduct (lane (2 * i) ^^^ word secret (11 + 16 * i))
      (lane (2 * i + 1) ^^^ word secret (19 + 16 * i))) start

/-- Inputs above 240 bytes: blocks of 1024 bytes, the rest of the stripes, and the last 64 bytes. -/
def long (bytes : Array UInt8) : UInt64 :=
  let size := bytes.size
  let blocks := (size - 1) / 1024
  let lanes := (List.range blocks).foldl
    (fun lanes n => scramble (stripes bytes (1024 * n) 16 lanes)) initial
  let lanes := stripes bytes (1024 * blocks) ((size - 1 - 1024 * blocks) / 64) lanes
  merged (accumulate bytes (size - 64) 121 lanes) (size.toUInt64 * primeA)

def ofBytes (bytes : Array UInt8) : UInt64 :=
  if bytes.size = 0 then strongAvalanche (secretPair 56 64)
  else if bytes.size ≤ 3 then upToThree bytes
  else if bytes.size ≤ 8 then upToEight bytes
  else if bytes.size ≤ 16 then upToSixteen bytes
  else if bytes.size ≤ 128 then upTo128 bytes
  else if bytes.size ≤ 240 then upTo240 bytes
  else long bytes

def ofText (text : String) : UInt64 := ofBytes (text.toList.flatMap String.utf8EncodeChar).toArray

/-- Sixteen hexadecimal digits. -/
def hex (digest : UInt64) : String :=
  let digits := Nat.toDigits 16 digest.toNat
  String.ofList (List.replicate (16 - digits.length) '0' ++ digits)

end Marginalia.Digest

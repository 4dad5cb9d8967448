import Dptf.Lib.Layout

/-!
# Secure hashes

`esif_sdk_sha.c`, with all of its four hashes.  An `esif_sha_t` holds the hash value as words in
the order of the machine, lowest byte first, and the bytes of a block that is not full yet.

A function is `none` where it writes outside of the block.
-/

open Lib

/-- `esif_sha_t`. -/
structure EsifSha where
  hashtype : UInt16
  hashsize : UInt8
  blocksize : UInt8
  hash : List UInt8
  block : List UInt8
  blockused : UInt16
  digestBits : BitVec 64
  digestHibits : BitVec 64
deriving DecidableEq, Repr

namespace EsifSha

variable {w : Nat}

/-! ## Words -/

/-- `LEFTROTATE`. -/
def leftRotate (a : BitVec w) (b : Nat) : BitVec w := a <<< b ||| a >>> (w - b)

/-- `RIGHTROTATE`. -/
def rightRotate (a : BitVec w) (b : Nat) : BitVec w := a >>> b ||| a <<< (w - b)

/-- `REORDERBYTES`. -/
def reorderBytes (a : BitVec 32) : BitVec 32 :=
  a <<< 24 ||| (a &&& 0x00ff0000) >>> 8 ||| (a &&& 0x0000ff00) <<< 8 ||| a >>> 24

/-- `REORDERBYTES64`. -/
def reorderBytes64 (a : BitVec 64) : BitVec 64 :=
  a <<< 56 ||| (a &&& 0x00ff000000000000) >>> 40 ||| (a &&& 0x0000ff0000000000) >>> 24 |||
    (a &&& 0x000000ff00000000) >>> 8 ||| (a &&& 0x00000000ff000000) <<< 8 |||
    (a &&& 0x0000000000ff0000) <<< 24 ||| (a &&& 0x000000000000ff00) <<< 40 ||| a >>> 56

/-- The first words of the memory. -/
def wordsOf (w n : Nat) (m : List UInt8) : List (BitVec w) :=
  (List.range n).map fun i => BitVec.ofNat w (leDec (peekAt m (i * (w / 8)) (w / 8)))

/-- Words as they are in the memory. -/
def leBytes (words : List (BitVec w)) : List UInt8 :=
  words.flatMap fun x => leEnc (w / 8) x.toNat

/-- Words put over the first ones. -/
def putWords (m : List UInt8) (words : List (BitVec w)) : List UInt8 := overwrite m 0 (leBytes words)

/-- The rounds behind the first sixteen, each made of the ones before it. -/
def extendRounds (next : List (BitVec w) → Nat → BitVec w) (n : Nat) (rounds : List (BitVec w)) :
    List (BitVec w) :=
  (List.range' 16 (n - 16)).foldl (fun rounds i => rounds ++ [next rounds i]) rounds

/-! ## SHA-1 -/

def sha1Next (rounds : List (BitVec 32)) (i : Nat) : BitVec 32 :=
  leftRotate (rounds.getD (i - 3) 0 ^^^ rounds.getD (i - 8) 0 ^^^ rounds.getD (i - 14) 0 ^^^
    rounds.getD (i - 16) 0) 1

def sha1Round (rounds chunk : List (BitVec 32)) (i : Nat) : List (BitVec 32) :=
  let c (j : Nat) := chunk.getD j 0
  let temp :=
    match i / 20 with
    | 0 => leftRotate (c 0) 5 + ((c 1 &&& c 2) ^^^ (~~~c 1 &&& c 3)) + c 4 + 0x5a827999 +
        rounds.getD i 0
    | 1 => leftRotate (c 0) 5 + (c 1 ^^^ c 2 ^^^ c 3) + c 4 + 0x6ed9eba1 + rounds.getD i 0
    | 2 => leftRotate (c 0) 5 + ((c 1 &&& c 2) ^^^ (c 1 &&& c 3) ^^^ (c 2 &&& c 3)) + c 4 +
        0x8f1bbcdc + rounds.getD i 0
    | _ => leftRotate (c 0) 5 + (c 1 ^^^ c 2 ^^^ c 3) + c 4 + 0xca62c1d6 + rounds.getD i 0
  let chunk := chunk.set 4 (chunk.getD 3 0)
  let chunk := chunk.set 3 (chunk.getD 2 0)
  let chunk := chunk.set 2 (leftRotate (chunk.getD 1 0) 30)
  let chunk := chunk.set 1 (chunk.getD 0 0)
  chunk.set 0 temp

/-- `esif_sha1_transform`. -/
def sha1Transform (self : EsifSha) : EsifSha :=
  let values := wordsOf 32 5 self.hash
  let rounds := extendRounds sha1Next 80 ((wordsOf 32 16 self.block).map reorderBytes)
  let chunk := (List.range 80).foldl (sha1Round rounds) values
  { self with hash := putWords self.hash (List.zipWith (· + ·) values chunk) }

/-! ## SHA-2 -/

/-- `kvalues` of `esif_sha256_transform`. -/
def kvalues256 : List (BitVec 32) :=
  [0x428a2f98, 0x71374491, 0xb5c0fbcf, 0xe9b5dba5, 0x3956c25b, 0x59f111f1, 0x923f82a4, 0xab1c5ed5,
    0xd807aa98, 0x12835b01, 0x243185be, 0x550c7dc3, 0x72be5d74, 0x80deb1fe, 0x9bdc06a7, 0xc19bf174,
    0xe49b69c1, 0xefbe4786, 0x0fc19dc6, 0x240ca1cc, 0x2de92c6f, 0x4a7484aa, 0x5cb0a9dc, 0x76f988da,
    0x983e5152, 0xa831c66d, 0xb00327c8, 0xbf597fc7, 0xc6e00bf3, 0xd5a79147, 0x06ca6351, 0x14292967,
    0x27b70a85, 0x2e1b2138, 0x4d2c6dfc, 0x53380d13, 0x650a7354, 0x766a0abb, 0x81c2c92e, 0x92722c85,
    0xa2bfe8a1, 0xa81a664b, 0xc24b8b70, 0xc76c51a3, 0xd192e819, 0xd6990624, 0xf40e3585, 0x106aa070,
    0x19a4c116, 0x1e376c08, 0x2748774c, 0x34b0bcb5, 0x391c0cb3, 0x4ed8aa4a, 0x5b9cca4f, 0x682e6ff3,
    0x748f82ee, 0x78a5636f, 0x84c87814, 0x8cc70208, 0x90befffa, 0xa4506ceb, 0xbef9a3f7, 0xc67178f2]

/-- `kvalues` of `esif_sha512_transform`. -/
def kvalues512 : List (BitVec 64) :=
  [0x428a2f98d728ae22, 0x7137449123ef65cd, 0xb5c0fbcfec4d3b2f, 0xe9b5dba58189dbbc,
    0x3956c25bf348b538, 0x59f111f1b605d019, 0x923f82a4af194f9b, 0xab1c5ed5da6d8118,
    0xd807aa98a3030242, 0x12835b0145706fbe, 0x243185be4ee4b28c, 0x550c7dc3d5ffb4e2,
    0x72be5d74f27b896f, 0x80deb1fe3b1696b1, 0x9bdc06a725c71235, 0xc19bf174cf692694,
    0xe49b69c19ef14ad2, 0xefbe4786384f25e3, 0x0fc19dc68b8cd5b5, 0x240ca1cc77ac9c65,
    0x2de92c6f592b0275, 0x4a7484aa6ea6e483, 0x5cb0a9dcbd41fbd4, 0x76f988da831153b5,
    0x983e5152ee66dfab, 0xa831c66d2db43210, 0xb00327c898fb213f, 0xbf597fc7beef0ee4,
    0xc6e00bf33da88fc2, 0xd5a79147930aa725, 0x06ca6351e003826f, 0x142929670a0e6e70,
    0x27b70a8546d22ffc, 0x2e1b21385c26c926, 0x4d2c6dfc5ac42aed, 0x53380d139d95b3df,
    0x650a73548baf63de, 0x766a0abb3c77b2a8, 0x81c2c92e47edaee6, 0x92722c851482353b,
    0xa2bfe8a14cf10364, 0xa81a664bbc423001, 0xc24b8b70d0f89791, 0xc76c51a30654be30,
    0xd192e819d6ef5218, 0xd69906245565a910, 0xf40e35855771202a, 0x106aa07032bbd1b8,
    0x19a4c116b8d2d0c8, 0x1e376c085141ab53, 0x2748774cdf8eeb99, 0x34b0bcb5e19b48a8,
    0x391c0cb3c5c95a63, 0x4ed8aa4ae3418acb, 0x5b9cca4f7763e373, 0x682e6ff3d6b2b8a3,
    0x748f82ee5defb2fc, 0x78a5636f43172f60, 0x84c87814a1f0ab72, 0x8cc702081a6439ec,
    0x90befffa23631e28, 0xa4506cebde82bde9, 0xbef9a3f7b2c67915, 0xc67178f2e372532b,
    0xca273eceea26619c, 0xd186b8c721c0c207, 0xeada7dd6cde0eb1e, 0xf57d4f7fee6ed178,
    0x06f067aa72176fba, 0x0a637dc5a2c898a6, 0x113f9804bef90dae, 0x1b710b35131c471b,
    0x28db77f523047d84, 0x32caab7b40c72493, 0x3c9ebe0a15c9bebc, 0x431d67c49c100d4c,
    0x4cc5d4becb3e42b6, 0x597f299cfc657e2a, 0x5fcb6fab3ad6faec, 0x6c44198c4a475817]

def sha2Next (s0 s1 : BitVec w → BitVec w) (rounds : List (BitVec w)) (i : Nat) : BitVec w :=
  rounds.getD (i - 16) 0 + s0 (rounds.getD (i - 15) 0) + rounds.getD (i - 7) 0 +
    s1 (rounds.getD (i - 2) 0)

def sha2Round (S0 S1 : BitVec w → BitVec w) (kvalues rounds chunk : List (BitVec w)) (i : Nat) :
    List (BitVec w) :=
  let c (j : Nat) := chunk.getD j 0
  let ch := (c 4 &&& c 5) ^^^ (~~~c 4 &&& c 6)
  let maj := (c 0 &&& c 1) ^^^ (c 0 &&& c 2) ^^^ (c 1 &&& c 2)
  let temp1 := c 7 + S1 (c 4) + ch + kvalues.getD i 0 + rounds.getD i 0
  let temp2 := S0 (c 0) + maj
  let chunk := chunk.set 7 (chunk.getD 6 0)
  let chunk := chunk.set 6 (chunk.getD 5 0)
  let chunk := chunk.set 5 (chunk.getD 4 0)
  let chunk := chunk.set 4 (chunk.getD 3 0 + temp1)
  let chunk := chunk.set 3 (chunk.getD 2 0)
  let chunk := chunk.set 2 (chunk.getD 1 0)
  let chunk := chunk.set 1 (chunk.getD 0 0)
  chunk.set 0 (temp1 + temp2)

/-- What `esif_sha256_transform` and `esif_sha512_transform` do, each with its words. -/
def sha2Transform (reorder S0 S1 s0 s1 : BitVec w → BitVec w) (kvalues : List (BitVec w))
    (self : EsifSha) : EsifSha :=
  let values := wordsOf w 8 self.hash
  let rounds := extendRounds (sha2Next s0 s1) kvalues.length ((wordsOf w 16 self.block).map reorder)
  let chunk := (List.range kvalues.length).foldl (sha2Round S0 S1 kvalues rounds) values
  { self with hash := putWords self.hash (List.zipWith (· + ·) values chunk) }

/-- `esif_sha256_transform`. -/
def sha256Transform : EsifSha → EsifSha :=
  sha2Transform reorderBytes
    (fun x => rightRotate x 2 ^^^ rightRotate x 13 ^^^ rightRotate x 22)
    (fun x => rightRotate x 6 ^^^ rightRotate x 11 ^^^ rightRotate x 25)
    (fun x => rightRotate x 7 ^^^ rightRotate x 18 ^^^ x >>> 3)
    (fun x => rightRotate x 17 ^^^ rightRotate x 19 ^^^ x >>> 10) kvalues256

/-- `esif_sha512_transform`. -/
def sha512Transform : EsifSha → EsifSha :=
  sha2Transform reorderBytes64
    (fun x => rightRotate x 28 ^^^ rightRotate x 34 ^^^ rightRotate x 39)
    (fun x => rightRotate x 14 ^^^ rightRotate x 18 ^^^ rightRotate x 41)
    (fun x => rightRotate x 1 ^^^ rightRotate x 8 ^^^ x >>> 7)
    (fun x => rightRotate x 19 ^^^ rightRotate x 61 ^^^ x >>> 6) kvalues512

/-! ## Shared code -/

/-- `SHA1_TYPE` and its siblings. -/
def sha1Type : UInt16 := 1
def sha256Type : UInt16 := 256
def sha384Type : UInt16 := 384
def sha512Type : UInt16 := 512

/-- `esif_sha_transform`. -/
def transform (self : EsifSha) : EsifSha :=
  if self.hashtype = sha1Type then self.sha1Transform
  else if self.hashtype = sha256Type then self.sha256Transform
  else if self.hashtype = sha384Type ∨ self.hashtype = sha512Type then self.sha512Transform
  else self

/-- All bytes of an `esif_sha_t` set to zero. -/
def cleared : EsifSha := ⟨0, 0, 0, List.replicate 64 0, List.replicate 128 0, 0, 0, 0⟩

/-- The start of one of the hashes. -/
def start (hashtype : UInt16) (hashsize blocksize : UInt8) (values : List (BitVec w)) : EsifSha :=
  { cleared with hashtype, hashsize, blocksize, hash := putWords cleared.hash values }

/-- `esif_sha_init`. -/
def init (hashtype : UInt16) : EsifSha :=
  if hashtype = sha1Type then
    start (w := 32) sha1Type 20 64 [0x67452301, 0xefcdab89, 0x98badcfe, 0x10325476, 0xc3d2e1f0]
  else if hashtype = sha256Type then
    start (w := 32) sha256Type 32 64 [0x6a09e667, 0xbb67ae85, 0x3c6ef372, 0xa54ff53a, 0x510e527f,
      0x9b05688c, 0x1f83d9ab, 0x5be0cd19]
  else if hashtype = sha384Type then
    start (w := 64) sha384Type 48 128 [0xcbbb9d5dc1059ed8, 0x629a292a367cd507, 0x9159015a3070dd17,
      0x152fecd8f70e5939, 0x67332667ffc00b31, 0x8eb44a8768581511, 0xdb0c2e0d64f98fa7,
      0x47b5481dbefa4fa4]
  else if hashtype = sha512Type then
    start (w := 64) sha512Type 64 128 [0x6a09e667f3bcc908, 0xbb67ae8584caa73b, 0x3c6ef372fe94f82b,
      0xa54ff53a5f1d36f1, 0x510e527fade682d1, 0x9b05688c2b3e6c1f, 0x1f83d9abfb41bd6b,
      0x5be0cd19137e2179]
  else cleared

/-- More bits, with what does not fit in the lower half carried. -/
def addBits (self : EsifSha) (more : BitVec 64) : EsifSha :=
  let bits := self.digestBits
  let digestBits := bits + more
  { self with
    digestBits
    digestHibits := self.digestHibits + if digestBits < bits then 1 else 0 }

/-- The loop of `esif_sha_update`: the bytes that fill a block are hashed. -/
def updateLoop : Nat → EsifSha → List UInt8 → Option (EsifSha × List UInt8)
  | 0, _, _ => none
  | fuel + 1, self, octets =>
    if self.blocksize.toNat ≤ self.blockused.toNat + octets.length then do
      let room := self.blocksize.toNat - self.blockused.toNat
      let block ← poke self.block self.blockused.toNat (octets.take room)
      let self := transform { self with block }
      let self := self.addBits (BitVec.ofNat 64 self.blocksize.toNat * 8)
      updateLoop fuel { self with blockused := 0 } (octets.drop room)
    else some (self, octets)

/-- The test in front of `esif_sha_update` and `esif_sha_finish`. -/
def Usable (self : EsifSha) : Prop :=
  8 ≤ self.blocksize.toNat ∧ self.blocksize.toNat ≤ 128 ∧
    self.blockused.toNat < self.blocksize.toNat

instance (self : EsifSha) : Decidable self.Usable := inferInstanceAs (Decidable (_ ∧ _))

/-- `esif_sha_update`. -/
def update (self : EsifSha) (source : Option (List UInt8)) : Option EsifSha :=
  match source with
  | none => some self
  | some octets =>
    if 0 < octets.length ∧ self.Usable then do
      let (self, octets) ← updateLoop (octets.length + 1) self octets
      let block ← poke self.block self.blockused.toNat octets
      return { self with block, blockused := self.blockused + UInt16.ofNat octets.length }
    else some self

/-- The size of the length that is hashed last. -/
def digestSize (self : EsifSha) : Nat :=
  if self.hashtype = sha384Type ∨ self.hashtype = sha512Type then 16 else 8

/-- The data is ended with 0x80, and the block filled with zeros. -/
def terminate (self : EsifSha) : Option EsifSha := do
  let used := self.blockused.toNat
  let block ← poke self.block used [0x80]
  let block ←
    if used + 1 < self.blocksize.toNat then
      poke block (used + 1) (List.replicate (self.blocksize.toNat - used - 1) 0)
    else some block
  return { self with block }

/-- A block too full for the length is hashed, and a new one started. -/
def makeRoom (self : EsifSha) : Option EsifSha :=
  if self.blocksize.toNat - self.digestSize ≤ self.blockused.toNat then do
    let self := self.transform
    let block ← poke self.block 0 (List.replicate self.blocksize.toNat 0)
    return { self with block }
  else some self

/-- The length goes to the end of the block, which is hashed, and the words of the hash are put
in the order of the standard. -/
def close (self : EsifSha) : Option EsifSha :=
  let size := self.blocksize.toNat
  if self.hashtype = sha1Type ∨ self.hashtype = sha256Type then do
    let block ← poke self.block (size - 8) (leBytes [reorderBytes64 self.digestBits])
    let self := transform { self with block }
    let values := (wordsOf 32 (self.hashsize.toNat / 4) self.hash).map reorderBytes
    return { self with hash := putWords self.hash values }
  else if self.hashtype = sha384Type ∨ self.hashtype = sha512Type then do
    let block ← poke self.block (size - self.digestSize)
      (leBytes [reorderBytes64 self.digestHibits])
    let block ← poke block (size - 8) (leBytes [reorderBytes64 self.digestBits])
    let self := transform { self with block }
    let values := (wordsOf 64 (self.hashsize.toNat / 8) self.hash).map reorderBytes64
    return { self with hash := putWords self.hash values }
  else some self

/-- `esif_sha_finish`. -/
def finish (self : EsifSha) : Option EsifSha :=
  if self.Usable then do
    let self ← self.terminate
    let self ← self.makeRoom
    let self := self.addBits (BitVec.ofNat 64 self.blockused.toNat * 8)
    let self ← self.close
    let block ← poke self.block 0 (List.replicate self.blocksize.toNat 0)
    return { self with block, blockused := 0, blocksize := 0 }
  else some self

/-- A hash of bytes that come in parts. -/
def hashOf (hashtype : UInt16) (parts : List (List UInt8)) : Option (List UInt8) := do
  let self ← parts.foldlM (fun self part => self.update (some part)) (init hashtype)
  let self ← self.finish
  return self.hash.take self.hashsize.toNat

end EsifSha

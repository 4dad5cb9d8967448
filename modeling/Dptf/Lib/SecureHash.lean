import Dptf.Lib.Layout
import Mathlib.Analysis.SpecialFunctions.Pow.NthRootLemmas
import Mathlib.Data.List.Forall2
import Mathlib.Data.Nat.Prime.Basic

/-!
# Messages hashed block by block, and the Secure Hash Standard

A hash has a state and a function that takes a block into it.  A message is fed to it in blocks
of one length; what does not fill a block is left over.

SHA-1, SHA-256, SHA-384 and SHA-512 of a byte string are such hashes, as the standard has them:
words with the highest byte first, a message that is padded to whole blocks, and a hash value
that takes in one block after the other.  The constants of the SHA-2 hashes are not listed but
computed: they are the first bits of the fractional parts of roots of prime numbers.

* `feed_append` — **a message fed in parts**: what is left over of the first part comes in front
  of the second.
* `pad` — the padding; `length_pad` — **it fills whole blocks**.
-/

namespace Lib

section BlockHash

variable {σ α : Type*} (compress : σ → List α → σ) (size : Nat)

/-- The whole blocks of a message are taken into the state. -/
def feed (s : σ) (msg : List α) : σ × List α :=
  if _h : 0 < size ∧ size ≤ msg.length then feed (compress s (msg.take size)) (msg.drop size)
  else (s, msg)
termination_by msg.length
decreasing_by
  rw [List.length_drop]
  omega

variable {compress size}

theorem feed_of_lt (s : σ) {msg : List α} (h : msg.length < size) :
    feed compress size s msg = (s, msg) := by
  rw [feed, dif_neg fun hle => Nat.not_le_of_lt h hle.2]

theorem feed_of_le (hsize : 0 < size) (s : σ) {msg : List α} (h : size ≤ msg.length) :
    feed compress size s msg = feed compress size (compress s (msg.take size)) (msg.drop size) := by
  rw [feed, dif_pos ⟨hsize, h⟩]

/-- A message that starts with a block. -/
theorem feed_block (hsize : 0 < size) (s : σ) {block : List α} (rest : List α)
    (h : block.length = size) :
    feed compress size s (block ++ rest) = feed compress size (compress s block) rest := by
  rw [feed_of_le hsize s (by rw [List.length_append]; omega), List.take_left' h, List.drop_left' h]

/-- A message that is one block. -/
theorem feed_one (hsize : 0 < size) (s : σ) {block : List α} (h : block.length = size) :
    feed compress size s block = (compress s block, []) := by
  rw [feed_of_le hsize s (Nat.le_of_eq h.symm), List.take_of_length_le (Nat.le_of_eq h),
    List.drop_eq_nil_of_le (Nat.le_of_eq h), feed_of_lt _ hsize]

/-- **A message in two parts.**  What is left over of the first comes in front of the second. -/
theorem feed_append (hsize : 0 < size) (s : σ) (msg more : List α) :
    feed compress size s (msg ++ more) =
      feed compress size (feed compress size s msg).1 ((feed compress size s msg).2 ++ more) := by
  induction hlen : msg.length using Nat.strongRecOn generalizing s msg with
  | _ len ih =>
  subst hlen
  by_cases h : size ≤ msg.length
  · have hshort : (msg.drop size).length < msg.length := by
      rw [List.length_drop]
      omega
    rw [feed_of_le hsize s h, feed_of_le hsize s (by rw [List.length_append]; omega),
      List.take_append_of_le_length h, List.drop_append_of_le_length h]
    exact ih _ hshort _ _ rfl
  · rw [feed_of_lt s (Nat.lt_of_not_le h)]

/-- What is left over is no whole block, and what was taken in are whole ones. -/
theorem length_feed (hsize : 0 < size) (s : σ) (msg : List α) :
    (feed compress size s msg).2.length = msg.length % size := by
  induction hlen : msg.length using Nat.strongRecOn generalizing s msg with
  | _ len ih =>
  subst hlen
  by_cases h : size ≤ msg.length
  · have hshort : (msg.drop size).length < msg.length := by
      rw [List.length_drop]
      omega
    rw [feed_of_le hsize s h, ih _ hshort _ _ rfl, List.length_drop, ← Nat.mod_eq_sub_mod h]
  · have hlt := Nat.lt_of_not_le h
    rw [feed_of_lt s hlt, Nat.mod_eq_of_lt hlt]

end BlockHash

namespace SecureHash

variable {w : Nat}

/-! ## Words -/

/-- The word at a place in a block. -/
def wordAt (w : Nat) (block : List UInt8) (t : Nat) : BitVec w :=
  BitVec.ofNat w (beDec (peekAt block (t * (w / 8)) (w / 8)))

/-- The bytes of words. -/
def bytesOf (words : List (BitVec w)) : List UInt8 :=
  words.flatMap fun x => beEnc (w / 8) x.toNat

/-- A word is where it is, whatever is behind it. -/
theorem wordAt_take {block : List UInt8} {n t : Nat} (h : (t + 1) * (w / 8) ≤ n) :
    wordAt w (block.take n) t = wordAt w block t := by
  have hle : t * (w / 8) + w / 8 ≤ n := Nat.succ_mul t (w / 8) ▸ h
  rw [wordAt, wordAt, peekAt, peekAt, List.drop_take, List.take_take, Nat.min_eq_left (by omega)]

theorem length_bytesOf (words : List (BitVec w)) :
    (bytesOf words).length = words.length * (w / 8) := by
  induction words with
  | nil => simp [bytesOf]
  | cons x words ih =>
    rw [bytesOf, List.flatMap_cons, List.length_append, length_beEnc, ← bytesOf, ih,
      List.length_cons, Nat.succ_mul, Nat.add_comm]

/-- The first bytes are those of the first words. -/
theorem bytesOf_take {n : Nat} {words : List (BitVec w)} (h : n ≤ words.length) :
    (bytesOf words).take (n * (w / 8)) = bytesOf (words.take n) := by
  have hlen : (bytesOf (words.take n)).length = n * (w / 8) := by
    rw [length_bytesOf, List.length_take, Nat.min_eq_left h]
  conv_lhs => rw [← List.take_append_drop n words, bytesOf, List.flatMap_append]
  exact List.take_left' hlen

def ch (x y z : BitVec w) : BitVec w := (x &&& y) ^^^ (~~~x &&& z)

def parity (x y z : BitVec w) : BitVec w := x ^^^ y ^^^ z

def maj (x y z : BitVec w) : BitVec w := (x &&& y) ^^^ (x &&& z) ^^^ (y &&& z)

/-! ## Padding -/

/-- The zeros between the bit that ends a message and its length: the fewest that fill the last
block, for blocks of `size` bytes and lengths of `lenBytes`. -/
def zeros (size lenBytes len : Nat) : Nat := (size - (len + 1 + lenBytes) % size) % size

/-- A message with a one bit, zeros and its length in bits. -/
def pad (size lenBytes : Nat) (msg : List UInt8) : List UInt8 :=
  msg ++ 0x80 :: (List.replicate (zeros size lenBytes msg.length) 0 ++
    beEnc lenBytes (8 * msg.length))

/-- How many zeros there are where `used` bytes are left over: as many as the block has room for,
or as that block and one more have. -/
theorem zeros_eq {size lenBytes : Nat} (hfits : lenBytes < size) {len used : Nat}
    (hused : len % size = used) :
    zeros size lenBytes len = if used + 1 + lenBytes ≤ size then size - (used + 1 + lenBytes)
      else size + size - (used + 1 + lenBytes) := by
  have hlt : used < size := hused ▸ Nat.mod_lt _ (by omega)
  have hmod : (len + 1 + lenBytes) % size = (used + 1 + lenBytes) % size := by
    rw [Nat.add_assoc, Nat.add_mod, hused, Nat.add_mod_mod, Nat.add_assoc]
  rw [zeros, hmod]
  rcases Nat.lt_trichotomy (used + 1 + lenBytes) size with h | h | h
  · rw [if_pos (Nat.le_of_lt h), Nat.mod_eq_of_lt h, Nat.mod_eq_of_lt (by omega)]
  · rw [if_pos (Nat.le_of_eq h), h, Nat.mod_self, Nat.sub_zero, Nat.mod_self, Nat.sub_self]
  · rw [if_neg (Nat.not_le_of_lt h), Nat.mod_eq_sub_mod (Nat.le_of_lt h),
      Nat.mod_eq_of_lt (by omega : used + 1 + lenBytes - size < size), Nat.mod_eq_of_lt (by omega)]
    omega

/-- The digest of a message: its first `digestBytes` bytes of the last hash value. -/
def digest {σ : Type} (compress : σ → List UInt8 → σ) (words : σ → List (BitVec w))
    (size lenBytes digestBytes : Nat) (initial : σ) (msg : List UInt8) : List UInt8 :=
  (bytesOf (words (feed compress size initial (pad size lenBytes msg)).1)).take digestBytes

/-! ## Constants -/

/-- The first eighty prime numbers. -/
def primes : List Nat :=
  [2, 3, 5, 7, 11, 13, 17, 19, 23, 29, 31, 37, 41, 43, 47, 53, 59, 61, 67, 71,
    73, 79, 83, 89, 97, 101, 103, 107, 109, 113, 127, 131, 137, 139, 149, 151, 157, 163, 167, 173,
    179, 181, 191, 193, 197, 199, 211, 223, 227, 229, 233, 239, 241, 251, 257, 263, 269, 271, 277,
    281, 283, 293, 307, 311, 313, 317, 331, 337, 347, 349, 353, 359, 367, 373, 379, 383, 389, 397,
    401, 409]

/-- The first `w` bits of the fractional part of an `n`-th root. -/
def rootFraction (n w p : Nat) : BitVec w := BitVec.ofNat w (Nat.nthRoot n (p * 2 ^ (n * w)))

/-- A root is recognised by the powers around it. -/
theorem map_rootFraction_eq {n w : Nat} {ps : List Nat} {ks : List (BitVec w)}
    (h : List.Forall₂ (fun p k =>
      let root := Nat.nthRoot n p * 2 ^ w + BitVec.toNat k
      root ^ n ≤ p * 2 ^ (n * w) ∧ p * 2 ^ (n * w) < (root + 1) ^ n) ps ks) :
    ps.map (rootFraction n w) = ks := by
  induction h with
  | nil => rfl
  | @cons p k _ _ hroot _ ih =>
    have hk : rootFraction n w p = k := by
      rw [rootFraction, Nat.nthRoot_eq_of_le_of_lt hroot.1 hroot.2]
      refine BitVec.eq_of_toNat_eq ?_
      rw [BitVec.toNat_ofNat, Nat.mul_add_mod', Nat.mod_eq_of_lt k.isLt]
    rw [List.map_cons, hk, ih]

/-! ## SHA-2 -/

/-- The words of a SHA-2 hash value, and the variables of its rounds. -/
structure Words8 (w : Nat) where
  a : BitVec w
  b : BitVec w
  c : BitVec w
  d : BitVec w
  e : BitVec w
  f : BitVec w
  g : BitVec w
  h : BitVec w

def Words8.toList (v : Words8 w) : List (BitVec w) := [v.a, v.b, v.c, v.d, v.e, v.f, v.g, v.h]

@[simp] theorem Words8.length_toList (v : Words8 w) : v.toList.length = 8 := rfl

def Words8.add (v u : Words8 w) : Words8 w :=
  ⟨v.a + u.a, v.b + u.b, v.c + u.c, v.d + u.d, v.e + u.e, v.f + u.f, v.g + u.g, v.h + u.h⟩

/-- What the SHA-2 hashes of one word length have in common. -/
structure Sha2 (w : Nat) where
  bigSigma0 : BitVec w → BitVec w
  bigSigma1 : BitVec w → BitVec w
  smallSigma0 : BitVec w → BitVec w
  smallSigma1 : BitVec w → BitVec w
  constants : List (BitVec w)

namespace Sha2

variable (p : Sha2 w)

/-- The message schedule. -/
def schedule (block : List UInt8) (t : Nat) : BitVec w :=
  if t < 16 then wordAt w block t
  else p.smallSigma1 (schedule block (t - 2)) + schedule block (t - 7) +
    p.smallSigma0 (schedule block (t - 15)) + schedule block (t - 16)
termination_by t

/-- A block counts as far as its words go. -/
theorem schedule_take {block : List UInt8} {n : Nat} (h : 16 * (w / 8) ≤ n) (t : Nat) :
    p.schedule (block.take n) t = p.schedule block t := by
  induction t using Nat.strongRecOn with
  | _ t ih =>
  rw [schedule.eq_def p (block.take n), schedule.eq_def p block]
  by_cases ht : t < 16
  · have hle : (t + 1) * (w / 8) ≤ 16 * (w / 8) := Nat.mul_le_mul_right _ ht
    rw [if_pos ht, if_pos ht, wordAt_take (Nat.le_trans hle h)]
  · rw [if_neg ht, if_neg ht, ih _ (by omega), ih _ (by omega), ih _ (by omega), ih _ (by omega)]

/-- One round. -/
def round (schedule : Nat → BitVec w) (v : Words8 w) (t : Nat) : Words8 w :=
  let t1 := v.h + p.bigSigma1 v.e + ch v.e v.f v.g + p.constants.getD t 0 + schedule t
  let t2 := p.bigSigma0 v.a + maj v.a v.b v.c
  ⟨t1 + t2, v.a, v.b, v.c, v.d + t1, v.e, v.f, v.g⟩

/-- A block taken into the hash value, in as many rounds as there are constants. -/
def compress (v : Words8 w) (block : List UInt8) : Words8 w :=
  ((List.range p.constants.length).foldl (p.round (p.schedule block)) v).add v

theorem compress_take (v : Words8 w) {block : List UInt8} {n : Nat} (h : 16 * (w / 8) ≤ n) :
    p.compress v (block.take n) = p.compress v block := by
  rw [compress, compress, funext (p.schedule_take h)]

end Sha2

/-- SHA-256. -/
def sha2x32 : Sha2 32 where
  bigSigma0 x := x.rotateRight 2 ^^^ x.rotateRight 13 ^^^ x.rotateRight 22
  bigSigma1 x := x.rotateRight 6 ^^^ x.rotateRight 11 ^^^ x.rotateRight 25
  smallSigma0 x := x.rotateRight 7 ^^^ x.rotateRight 18 ^^^ x >>> 3
  smallSigma1 x := x.rotateRight 17 ^^^ x.rotateRight 19 ^^^ x >>> 10
  constants := (primes.take 64).map (rootFraction 3 32)

/-- SHA-384 and SHA-512. -/
def sha2x64 : Sha2 64 where
  bigSigma0 x := x.rotateRight 28 ^^^ x.rotateRight 34 ^^^ x.rotateRight 39
  bigSigma1 x := x.rotateRight 14 ^^^ x.rotateRight 18 ^^^ x.rotateRight 41
  smallSigma0 x := x.rotateRight 1 ^^^ x.rotateRight 8 ^^^ x >>> 7
  smallSigma1 x := x.rotateRight 19 ^^^ x.rotateRight 61 ^^^ x >>> 6
  constants := primes.map (rootFraction 3 64)

/-- The initial hash value of roots of eight primes. -/
def initial8 (w : Nat) (ps : List Nat) : Words8 w :=
  let root (i : Nat) := rootFraction 2 w (ps.getD i 0)
  ⟨root 0, root 1, root 2, root 3, root 4, root 5, root 6, root 7⟩

def sha256 : List UInt8 → List UInt8 :=
  digest sha2x32.compress Words8.toList 64 8 32 (initial8 32 primes)

def sha384 : List UInt8 → List UInt8 :=
  digest sha2x64.compress Words8.toList 128 16 48 (initial8 64 (primes.drop 8))

def sha512 : List UInt8 → List UInt8 :=
  digest sha2x64.compress Words8.toList 128 16 64 (initial8 64 primes)

/-! ## SHA-1 -/

/-- The words of a SHA-1 hash value, and the variables of its rounds. -/
structure Words5 where
  a : BitVec 32
  b : BitVec 32
  c : BitVec 32
  d : BitVec 32
  e : BitVec 32

def Words5.toList (v : Words5) : List (BitVec 32) := [v.a, v.b, v.c, v.d, v.e]

@[simp] theorem Words5.length_toList (v : Words5) : v.toList.length = 5 := rfl

def Words5.add (v u : Words5) : Words5 :=
  ⟨v.a + u.a, v.b + u.b, v.c + u.c, v.d + u.d, v.e + u.e⟩

namespace Sha1

/-- The message schedule. -/
def schedule (block : List UInt8) (t : Nat) : BitVec 32 :=
  if t < 16 then wordAt 32 block t
  else (schedule block (t - 3) ^^^ schedule block (t - 8) ^^^ schedule block (t - 14) ^^^
    schedule block (t - 16)).rotateLeft 1
termination_by t

/-- A block counts as far as its words go. -/
theorem schedule_take {block : List UInt8} {n : Nat} (h : 64 ≤ n) (t : Nat) :
    schedule (block.take n) t = schedule block t := by
  induction t using Nat.strongRecOn with
  | _ t ih =>
  rw [schedule.eq_def (block.take n), schedule.eq_def block]
  by_cases ht : t < 16
  · rw [if_pos ht, if_pos ht, wordAt_take (by omega)]
  · rw [if_neg ht, if_neg ht, ih _ (by omega), ih _ (by omega), ih _ (by omega), ih _ (by omega)]

/-- The function of a round and its constant. -/
def ofRound (t : Nat) : (BitVec 32 → BitVec 32 → BitVec 32 → BitVec 32) × BitVec 32 :=
  if t < 20 then (ch, 0x5a827999)
  else if t < 40 then (parity, 0x6ed9eba1)
  else if t < 60 then (maj, 0x8f1bbcdc)
  else (parity, 0xca62c1d6)

/-- One round. -/
def round (schedule : Nat → BitVec 32) (v : Words5) (t : Nat) : Words5 :=
  let (f, k) := ofRound t
  ⟨v.a.rotateLeft 5 + f v.b v.c v.d + v.e + k + schedule t, v.a, v.b.rotateLeft 30, v.c, v.d⟩

/-- A block taken into the hash value. -/
def compress (v : Words5) (block : List UInt8) : Words5 :=
  ((List.range 80).foldl (round (schedule block)) v).add v

theorem compress_take (v : Words5) {block : List UInt8} {n : Nat} (h : 64 ≤ n) :
    compress v (block.take n) = compress v block := by
  rw [compress, compress, funext (schedule_take h)]

/-- The initial hash value. -/
def initial : Words5 := ⟨0x67452301, 0xefcdab89, 0x98badcfe, 0x10325476, 0xc3d2e1f0⟩

end Sha1

def sha1 : List UInt8 → List UInt8 := digest Sha1.compress Words5.toList 64 8 20 Sha1.initial

end SecureHash

end Lib

import Dptf.Common.Sha
import Dptf.Lib.SecureHash
import Mathlib.Tactic.IntervalCases

/-!
# The transforms of the secure hashes

Each of the three takes a block into the hash value as the standard says.  The words of the block
and of the hash are in the order of the machine and are turned around; the rounds are an array
that is filled from the front; the variables are an array whose elements are shifted.

* `extendRounds_eq` — **the rounds are the message schedule**.
* `sha1Transform_eq`, `sha2Transform_eq` — **a transform is the compression of the standard**.
-/

open Lib

namespace EsifSha

variable {w : Nat}
variable {b n i : Nat} {rest : List UInt8} {self : EsifSha}

/-! ## Rotations -/

theorem leftRotate_eq (a : BitVec w) (h : b < w) : leftRotate a b = a.rotateLeft b := by
  simp only [leftRotate, BitVec.rotateLeft, BitVec.rotateLeftAux, Nat.mod_eq_of_lt h]

theorem rightRotate_eq (a : BitVec w) (h : b < w) : rightRotate a b = a.rotateRight b := by
  simp only [rightRotate, BitVec.rotateRight, BitVec.rotateRightAux, Nat.mod_eq_of_lt h]

/-! ## The order of the bytes -/

/-- A function that turns around the bytes of a word. -/
structure Reorders (reorder : BitVec w → BitVec w) : Prop where
  bytes : 8 * (w / 8) = w
  bits : ∀ x i, i < w →
    (reorder x).getLsbD i = x.getLsbD (8 * (w / 8 - 1 - i / 8) + i % 8)

theorem reorders_reorderBytes : Reorders reorderBytes where
  bytes := rfl
  bits x i hi := by
    simp only [reorderBytes, BitVec.getLsbD_or]
    interval_cases i <;> simp

theorem reorders_reorderBytes64 : Reorders reorderBytes64 where
  bytes := rfl
  bits x i hi := by
    simp only [reorderBytes64, BitVec.getLsbD_or]
    interval_cases i <;> simp

/-- A word that is read is the one with the bytes the other way round. -/
theorem Reorders.ofNat_leDec {reorder : BitVec w → BitVec w} (h : Reorders reorder)
    {bs : List UInt8} (hlen : bs.length = w / 8) :
    reorder (BitVec.ofNat w (leDec bs)) = BitVec.ofNat w (beDec bs) := by
  have hbytes := h.bytes
  refine BitVec.eq_of_getLsbD_eq fun i hi => ?_
  have hin : 8 * (w / 8 - 1 - i / 8) + i % 8 < w := by omega
  have hbyte : (8 * (w / 8 - 1 - i / 8) + i % 8) / 8 = w / 8 - 1 - i / 8 := by omega
  have hbit : (8 * (w / 8 - 1 - i / 8) + i % 8) % 8 = i % 8 := by omega
  have hreverse : bs.reverse.getD (i / 8) 0 = bs.getD (w / 8 - 1 - i / 8) 0 := by
    rw [List.getD_eq_getElem?_getD, List.getD_eq_getElem?_getD, List.getElem?_reverse (by omega),
      hlen]
  rw [h.bits _ i hi, BitVec.getLsbD_ofNat, BitVec.getLsbD_ofNat, beDec, testBit_leDec,
    testBit_leDec, hbyte, hbit, hreverse, decide_eq_true hi, decide_eq_true hin]

/-- A word that is put down has the bytes the other way round. -/
theorem Reorders.leEnc_toNat {reorder : BitVec w → BitVec w} (h : Reorders reorder)
    (x : BitVec w) : leEnc (w / 8) (reorder x).toNat = beEnc (w / 8) x.toNat := by
  have hpow : 256 ^ (w / 8) = 2 ^ w := by
    rw [show 256 = 2 ^ 8 by rfl, ← Nat.pow_mul, h.bytes]
  have hx : x = BitVec.ofNat w (leDec (leEnc (w / 8) x.toNat)) := by
    rw [leDec_leEnc_of_lt (hpow ▸ x.isLt), BitVec.ofNat_toNat, BitVec.setWidth_eq]
  have hlen : (leEnc (w / 8) x.toNat).reverse.length = w / 8 := by
    rw [List.length_reverse, length_leEnc]
  have hlt := leDec_lt (leEnc (w / 8) x.toNat).reverse
  rw [hlen, hpow] at hlt
  have hback := leEnc_leDec (leEnc (w / 8) x.toNat).reverse
  rw [hlen] at hback
  conv_lhs => rw [hx, h.ofNat_leDec (length_leEnc _ _), beDec, BitVec.toNat_ofNat,
    Nat.mod_eq_of_lt hlt, hback]
  rfl

/-! ## Words in the memory -/

theorem wordsOf_succ (n : Nat) (m : List UInt8) :
    wordsOf w (n + 1) m =
      BitVec.ofNat w (leDec (m.take (w / 8))) :: wordsOf w n (m.drop (w / 8)) := by
  rw [wordsOf, List.range_succ_eq_map, List.map_cons, List.map_map]
  refine congrArg₂ List.cons ?_ (List.map_congr_left fun i _ => ?_)
  · rw [Nat.zero_mul, peekAt, List.drop_zero]
  · rw [Function.comp, peekAt, peekAt, List.drop_drop, Nat.succ_mul, Nat.add_comm]

/-- The words that were put down are read. -/
theorem wordsOf_leBytes (h8 : 8 * (w / 8) = w) {words : List (BitVec w)} (hn : n ≤ words.length)
    (rest : List UInt8) : wordsOf w n (leBytes words ++ rest) = words.take n := by
  have hpow : 256 ^ (w / 8) = 2 ^ w := by
    rw [show 256 = 2 ^ 8 by rfl, ← Nat.pow_mul, h8]
  induction n generalizing words with
  | zero => rfl
  | succ n ih =>
    cases words with
    | nil => exact absurd hn (Nat.not_succ_le_zero n)
    | cons x words =>
      have hform : leBytes (x :: words) ++ rest =
          leEnc (w / 8) x.toNat ++ (leBytes words ++ rest) := by
        rw [leBytes, List.flatMap_cons, List.append_assoc, leBytes]
      rw [wordsOf_succ, hform, List.take_left' (length_leEnc _ _),
        List.drop_left' (length_leEnc _ _), ih (Nat.le_of_succ_le_succ hn),
        leDec_leEnc_of_lt (hpow ▸ x.isLt), BitVec.ofNat_toNat, BitVec.setWidth_eq]
      rfl

theorem length_leBytes (words : List (BitVec w)) :
    (leBytes words).length = words.length * (w / 8) := by
  induction words with
  | nil => simp [leBytes]
  | cons x words ih =>
    rw [leBytes, List.flatMap_cons, List.length_append, length_leEnc, ← leBytes, ih,
      List.length_cons, Nat.succ_mul, Nat.add_comm]

/-- Words are put over as many others. -/
theorem putWords_leBytes {old new : List (BitVec w)} (h : old.length = new.length)
    (rest : List UInt8) : putWords (leBytes old ++ rest) new = leBytes new ++ rest := by
  have hlen : (leBytes old).length = (leBytes new).length := by
    rw [length_leBytes, length_leBytes, h]
  exact @overwrite_append [] _ rest _ hlen

/-- Words turned around are in the order of the standard. -/
theorem Reorders.leBytes_map {reorder : BitVec w → BitVec w} (h : Reorders reorder)
    (words : List (BitVec w)) : leBytes (words.map reorder) = SecureHash.bytesOf words := by
  rw [leBytes, SecureHash.bytesOf, List.flatMap_map]
  exact congrArg (List.flatMap · words) (funext h.leEnc_toNat)

/-- The words of a block turned around are those of the standard. -/
theorem Reorders.map_wordsOf {reorder : BitVec w → BitVec w} (h : Reorders reorder)
    {block : List UInt8} (hlen : n * (w / 8) ≤ block.length) :
    (wordsOf w n block).map reorder = (List.range n).map (SecureHash.wordAt w block) := by
  rw [wordsOf, List.map_map]
  refine List.map_congr_left fun i hi => ?_
  have hle : (i + 1) * (w / 8) ≤ n * (w / 8) :=
    Nat.mul_le_mul_right _ (Nat.succ_le_of_lt (List.mem_range.mp hi))
  rw [Nat.succ_mul] at hle
  exact h.ofNat_leDec (length_peekAt (Nat.le_trans hle hlen))

/-- The first words turned around where they are. -/
theorem Reorders.take_putWords {reorder : BitVec w → BitVec w} (h : Reorders reorder)
    {words : List (BitVec w)} (hn : n ≤ words.length) (rest : List UInt8) :
    (putWords (leBytes words ++ rest)
        ((wordsOf w n (leBytes words ++ rest)).map reorder)).take (n * (w / 8)) =
      (SecureHash.bytesOf words).take (n * (w / 8)) := by
  have hlen : (SecureHash.bytesOf (words.take n)).length = n * (w / 8) := by
    rw [SecureHash.length_bytesOf, List.length_take, Nat.min_eq_left hn]
  rw [wordsOf_leBytes h.bytes hn, putWords, h.leBytes_map, overwrite, List.take_zero,
    List.nil_append, List.take_left' hlen, SecureHash.bytesOf_take hn]

/-! ## The rounds -/

/-- **The rounds are filled from the front** with what each is made of. -/
theorem extendRounds_eq {next : List (BitVec w) → Nat → BitVec w} {schedule : Nat → BitVec w}
    (hnext : ∀ i, 16 ≤ i → next ((List.range i).map schedule) i = schedule i) (hn : 16 ≤ n) :
    extendRounds next n ((List.range 16).map schedule) = (List.range n).map schedule := by
  obtain ⟨k, rfl⟩ := Nat.exists_eq_add_of_le hn
  rw [extendRounds, Nat.add_sub_cancel_left]
  clear hn
  induction k with
  | zero => rfl
  | succ k ih =>
    rw [List.range'_concat, List.foldl_append, ih, Nat.one_mul, List.foldl_cons, List.foldl_nil,
      hnext _ (Nat.le_add_right 16 k), ← Nat.add_assoc, List.range_succ, List.map_append]
    rfl

theorem getD_map_range {schedule : Nat → BitVec w} (h : i < n) :
    ((List.range n).map schedule).getD i 0 = schedule i := by
  rw [List.getD_eq_getElem?_getD, List.getElem?_map, List.getElem?_range h]
  rfl

/-! ## SHA-2 -/

section Sha2

variable {S0 S1 s0 s1 : BitVec w → BitVec w} {p : SecureHash.Sha2 w}

theorem sha2Next_eq (h0 : s0 = p.smallSigma0) (h1 : s1 = p.smallSigma1) (block : List UInt8)
    {i : Nat} (hi : 16 ≤ i) :
    sha2Next s0 s1 ((List.range i).map (p.schedule block)) i = p.schedule block i := by
  rw [sha2Next, getD_map_range (by omega), getD_map_range (by omega), getD_map_range (by omega),
    getD_map_range (by omega), h0, h1, SecureHash.Sha2.schedule.eq_def p block i,
    if_neg (by omega)]
  ac_rfl

/-- The array is shifted as the variables are. -/
theorem sha2Round_eq (h0 : S0 = p.bigSigma0) (h1 : S1 = p.bigSigma1) {rounds : List (BitVec w)}
    {schedule : Nat → BitVec w} {i : Nat} (hi : rounds.getD i 0 = schedule i)
    (v : SecureHash.Words8 w) :
    sha2Round S0 S1 p.constants rounds v.toList i = (p.round schedule v i).toList := by
  subst h0 h1
  rw [SecureHash.Sha2.round, ← hi]
  rfl

/-- The rounds as far as the rounds array goes. -/
theorem sha2Rounds_eq (h0 : S0 = p.bigSigma0) (h1 : S1 = p.bigSigma1) (schedule : Nat → BitVec w)
    (v : SecureHash.Words8 w) {n m : Nat} (hn : n ≤ m) :
    (List.range n).foldl (sha2Round S0 S1 p.constants ((List.range m).map schedule)) v.toList =
      ((List.range n).foldl (p.round schedule) v).toList := by
  induction n with
  | zero => rfl
  | succ n ih =>
    rw [List.range_succ, List.foldl_append, List.foldl_append, ih (Nat.le_of_succ_le hn)]
    exact sha2Round_eq h0 h1 (getD_map_range hn) _

/-- The digest values are added to. -/
theorem zipWith_words8 (v u : SecureHash.Words8 w) :
    List.zipWith (· + ·) v.toList u.toList = (u.add v).toList := by
  simp only [SecureHash.Words8.toList, SecureHash.Words8.add, List.zipWith_cons_cons,
    List.zipWith_nil_right, BitVec.add_comm]

/-- **A block is taken into the hash value** as the standard says. -/
theorem sha2Transform_eq {reorder : BitVec w → BitVec w} (hreorder : Reorders reorder)
    (hS0 : S0 = p.bigSigma0) (hS1 : S1 = p.bigSigma1) (hs0 : s0 = p.smallSigma0)
    (hs1 : s1 = p.smallSigma1) (hrounds : 16 ≤ p.constants.length) {self : EsifSha}
    {v : SecureHash.Words8 w} {rest : List UInt8} (hhash : self.hash = leBytes v.toList ++ rest)
    (hblock : 16 * (w / 8) ≤ self.block.length) :
    sha2Transform reorder S0 S1 s0 s1 p.constants self =
      { self with hash := leBytes (p.compress v self.block).toList ++ rest } := by
  have hvalues : wordsOf w 8 self.hash = v.toList := by
    rw [hhash]
    exact wordsOf_leBytes hreorder.bytes (Nat.le_refl 8) rest
  have hfirst : (wordsOf w 16 self.block).map reorder =
      (List.range 16).map (p.schedule self.block) := by
    rw [hreorder.map_wordsOf hblock]
    refine List.map_congr_left fun t ht => ?_
    rw [SecureHash.Sha2.schedule.eq_def, if_pos (List.mem_range.mp ht)]
  have hextend := extendRounds_eq (fun i hi => sha2Next_eq hs0 hs1 self.block hi) hrounds
  rw [sha2Transform, hvalues, hfirst, hextend, sha2Rounds_eq hS0 hS1 _ v (Nat.le_refl _),
    zipWith_words8, hhash]
  have hlen : v.toList.length = (p.compress v self.block).toList.length := by simp
  exact congrArg (fun hash => { self with hash := hash }) (putWords_leBytes hlen rest)

end Sha2

/-- **`esif_sha256_transform`** is the compression of SHA-256. -/
theorem sha256Transform_eq {v : SecureHash.Words8 32} (hhash : self.hash = leBytes v.toList ++ rest)
    (hblock : 64 ≤ self.block.length) :
    self.sha256Transform =
      { self with hash := leBytes (SecureHash.sha2x32.compress v self.block).toList ++ rest } := by
  have hk : SecureHash.sha2x32.constants = kvalues256 :=
    SecureHash.map_rootFraction_eq (by decide +kernel)
  have hrotate (b : Nat) (h : b < 32) (x : BitVec 32) : rightRotate x b = x.rotateRight b :=
    rightRotate_eq x h
  rw [sha256Transform, ← hk]
  refine sha2Transform_eq reorders_reorderBytes (funext fun x => ?_) (funext fun x => ?_) (funext fun x => ?_)
    (funext fun x => ?_) (by rw [hk]; decide) hhash hblock
  · rw [hrotate 2 (by decide), hrotate 13 (by decide), hrotate 22 (by decide)]
    rfl
  · rw [hrotate 6 (by decide), hrotate 11 (by decide), hrotate 25 (by decide)]
    rfl
  · rw [hrotate 7 (by decide), hrotate 18 (by decide)]
    rfl
  · rw [hrotate 17 (by decide), hrotate 19 (by decide)]
    rfl

/-- **`esif_sha512_transform`** is the compression of SHA-384 and SHA-512. -/
theorem sha512Transform_eq {v : SecureHash.Words8 64} (hhash : self.hash = leBytes v.toList ++ rest)
    (hblock : 128 ≤ self.block.length) :
    self.sha512Transform =
      { self with hash := leBytes (SecureHash.sha2x64.compress v self.block).toList ++ rest } := by
  have hk : SecureHash.sha2x64.constants = kvalues512 :=
    SecureHash.map_rootFraction_eq (by decide +kernel)
  have hrotate (b : Nat) (h : b < 64) (x : BitVec 64) : rightRotate x b = x.rotateRight b :=
    rightRotate_eq x h
  rw [sha512Transform, ← hk]
  refine sha2Transform_eq reorders_reorderBytes64 (funext fun x => ?_) (funext fun x => ?_) (funext fun x => ?_)
    (funext fun x => ?_) (by rw [hk]; decide) hhash hblock
  · rw [hrotate 28 (by decide), hrotate 34 (by decide), hrotate 39 (by decide)]
    rfl
  · rw [hrotate 14 (by decide), hrotate 18 (by decide), hrotate 41 (by decide)]
    rfl
  · rw [hrotate 1 (by decide), hrotate 8 (by decide)]
    rfl
  · rw [hrotate 19 (by decide), hrotate 61 (by decide)]
    rfl

/-! ## SHA-1 -/

theorem sha1Next_eq (block : List UInt8) (hi : 16 ≤ i) :
    sha1Next ((List.range i).map (SecureHash.Sha1.schedule block)) i =
      SecureHash.Sha1.schedule block i := by
  rw [sha1Next, getD_map_range (by omega), getD_map_range (by omega), getD_map_range (by omega),
    getD_map_range (by omega), leftRotate_eq _ (by decide),
    SecureHash.Sha1.schedule.eq_def block i, if_neg (by omega)]

/-- The array is shifted as the variables are, and the function is that of the twenty rounds. -/
theorem sha1Round_eq {rounds : List (BitVec 32)} {schedule : Nat → BitVec 32} (hlt : i < 80)
    (hi : rounds.getD i 0 = schedule i) (v : SecureHash.Words5) :
    sha1Round rounds v.toList i = (SecureHash.Sha1.round schedule v i).toList := by
  have hrotate (b : Nat) (h : b < 32) (x : BitVec 32) : leftRotate x b = x.rotateLeft b :=
    leftRotate_eq x h
  simp only [sha1Round, SecureHash.Sha1.round, SecureHash.Sha1.ofRound, ← hi,
    hrotate 5 (by decide), hrotate 30 (by decide)]
  by_cases h0 : i < 20
  · rw [if_pos h0, Nat.div_eq_of_lt h0]
    rfl
  · rw [if_neg h0]
    by_cases h1 : i < 40
    · have hdiv : i / 20 = 1 := by omega
      rw [if_pos h1, hdiv]
      rfl
    · rw [if_neg h1]
      by_cases h2 : i < 60
      · have hdiv : i / 20 = 2 := by omega
        rw [if_pos h2, hdiv]
        rfl
      · have hdiv : i / 20 = 3 := by omega
        rw [if_neg h2, hdiv]
        rfl

/-- The rounds as far as the rounds array goes. -/
theorem sha1Rounds_eq (schedule : Nat → BitVec 32) (v : SecureHash.Words5) {n m : Nat}
    (hn : n ≤ m) (hm : m ≤ 80) :
    (List.range n).foldl (sha1Round ((List.range m).map schedule)) v.toList =
      ((List.range n).foldl (SecureHash.Sha1.round schedule) v).toList := by
  induction n with
  | zero => rfl
  | succ n ih =>
    rw [List.range_succ, List.foldl_append, List.foldl_append, ih (Nat.le_of_succ_le hn)]
    exact sha1Round_eq (Nat.lt_of_lt_of_le hn hm) (getD_map_range hn) _

/-- The digest values are added to. -/
theorem zipWith_words5 (v u : SecureHash.Words5) :
    List.zipWith (· + ·) v.toList u.toList = (u.add v).toList := by
  simp only [SecureHash.Words5.toList, SecureHash.Words5.add, List.zipWith_cons_cons,
    List.zipWith_nil_right, BitVec.add_comm]

/-- **`esif_sha1_transform`** is the compression of SHA-1. -/
theorem sha1Transform_eq {v : SecureHash.Words5} (hhash : self.hash = leBytes v.toList ++ rest)
    (hblock : 64 ≤ self.block.length) :
    self.sha1Transform =
      { self with hash := leBytes (SecureHash.Sha1.compress v self.block).toList ++ rest } := by
  have hvalues : wordsOf 32 5 self.hash = v.toList := by
    rw [hhash]
    exact wordsOf_leBytes reorders_reorderBytes.bytes (Nat.le_refl 5) rest
  have hfirst : (wordsOf 32 16 self.block).map reorderBytes =
      (List.range 16).map (SecureHash.Sha1.schedule self.block) := by
    rw [reorders_reorderBytes.map_wordsOf hblock]
    refine List.map_congr_left fun t ht => ?_
    rw [SecureHash.Sha1.schedule.eq_def, if_pos (List.mem_range.mp ht)]
  have hextend := extendRounds_eq (fun i hi => sha1Next_eq self.block hi) (show 16 ≤ 80 by decide)
  have hlen : v.toList.length = (SecureHash.Sha1.compress v self.block).toList.length := by simp
  rw [sha1Transform, hvalues, hfirst, hextend, sha1Rounds_eq _ v (Nat.le_refl 80) (Nat.le_refl 80),
    zipWith_words5, hhash]
  exact congrArg (fun hash => { self with hash := hash }) (putWords_leBytes hlen rest)

end EsifSha

import Dptf.Common.ShaTransform

/-!
# The digest of a message in parts

The code that the four hashes share, for any one of them.  A part fills the block that was begun,
whole blocks are hashed, and what is left begins the next one; the last block is filled with
zeros, with a second one where the length does not fit.

* `Fed` — **the state a message leaves**, however it was cut.
* `hashOf_eq_digest` — **the hash of the parts is the digest of the standard**.
-/

open Lib

namespace EsifSha

variable {w : Nat} {σ : Type}
variable {self : EsifSha}

/-- One of the hashes: its numbers, its compression and its first hash value, which are those of
the source. -/
structure Variant (w : Nat) (σ : Type) where
  hashtype : UInt16
  hashsize : UInt8
  blocksize : UInt8
  lenBytes : Nat
  compress : σ → List UInt8 → σ
  words : σ → List (BitVec w)
  initial : σ
  reorder : BitVec w → BitVec w
  reorders : Reorders reorder
  eight_le : 8 ≤ blocksize.toNat
  le_block : blocksize.toNat ≤ 128
  lenBytes_lt : lenBytes < blocksize.toNat
  init_eq : init hashtype = start hashtype hashsize blocksize (words initial)
  hashsize_eq : hashsize.toNat / (w / 8) * (w / 8) = hashsize.toNat
  le_words : ∀ v, hashsize.toNat / (w / 8) ≤ (words v).length
  transform_eq : ∀ {self : EsifSha} {v : σ} {rest : List UInt8}, self.hashtype = hashtype →
    self.hash = leBytes (words v) ++ rest → self.block.length = 128 →
    self.transform =
      { self with hash := leBytes (words (compress v (self.block.take blocksize.toNat))) ++ rest }
  digestSize_eq : ∀ {self : EsifSha}, self.hashtype = hashtype → self.digestSize = lenBytes
  close_eq : ∀ {self : EsifSha} {n : Nat}, self.hashtype = hashtype →
    self.blocksize = blocksize → self.block.length = 128 → self.digestBits = BitVec.ofNat 64 n →
    n < 2 ^ 64 → self.digestHibits = 0 →
    self.close = some
      (let sha := transform
        { self with
          block := overwrite self.block (blocksize.toNat - lenBytes) (beEnc lenBytes n) }
      { sha with
        hash := putWords sha.hash
          ((wordsOf w (sha.hashsize.toNat / (w / 8)) sha.hash).map reorder) })

namespace Variant

variable (V : Variant w σ)

/-- The size of its blocks. -/
def size : Nat := V.blocksize.toNat

/-- The hash value behind the whole blocks of a message, and the bytes left over. -/
def fed (msg : List UInt8) : σ × List UInt8 := feed V.compress V.size V.initial msg

theorem size_pos : 0 < V.size := Nat.lt_of_lt_of_le (by decide) V.eight_le

theorem length_fed (msg : List UInt8) : (V.fed msg).2.length = msg.length % V.size :=
  length_feed V.size_pos _ _

/-- A message with a part behind it. -/
theorem fed_append (msg part : List UInt8) :
    V.fed (msg ++ part) = feed V.compress V.size (V.fed msg).1 ((V.fed msg).2 ++ part) :=
  feed_append V.size_pos _ _ _

end Variant

/-- **The state a message leaves.**  The hash value has taken in its whole blocks, the block begins
with the bytes left over, and the bits of the whole blocks are counted. -/
structure Fed (V : Variant w σ) (msg : List UInt8) (sha : EsifSha) : Prop where
  hashtype : sha.hashtype = V.hashtype
  hashsize : sha.hashsize = V.hashsize
  blocksize : sha.blocksize = V.blocksize
  hash : ∃ rest, sha.hash = leBytes (V.words (V.fed msg).1) ++ rest
  length_block : sha.block.length = 128
  blockused : sha.blockused.toNat = msg.length % V.size
  block : sha.block.take sha.blockused.toNat = (V.fed msg).2
  digestBits : sha.digestBits = BitVec.ofNat 64 (8 * (msg.length - msg.length % V.size))
  digestHibits : sha.digestHibits = 0

/-- Bits are counted as long as the lower half is enough. -/
theorem addBits_eq {n m : Nat} (hbits : self.digestBits = BitVec.ofNat 64 n)
    (hlt : n + 8 * m < 2 ^ 64) :
    self.addBits (BitVec.ofNat 64 m * 8) =
      { self with digestBits := BitVec.ofNat 64 (n + 8 * m) } := by
  have hsum : self.digestBits + BitVec.ofNat 64 m * 8 = BitVec.ofNat 64 (n + 8 * m) := by
    have height : (8 : BitVec 64).toNat = 8 := rfl
    apply BitVec.eq_of_toNat_eq
    rw [hbits]
    simp only [BitVec.toNat_add, BitVec.toNat_mul, BitVec.toNat_ofNat, height]
    omega
  have hcarry : ¬BitVec.ofNat 64 (n + 8 * m) < self.digestBits := by
    rw [hbits, BitVec.lt_def, BitVec.toNat_ofNat, BitVec.toNat_ofNat]
    omega
  rw [addBits, hsum, if_neg hcarry]
  congr 1
  exact BitVec.add_zero _

section Run

variable {V : Variant w σ} {msg : List UInt8} {self : EsifSha}
variable {piece : List UInt8}

theorem fed_init (V : Variant w σ) : Fed V [] (init V.hashtype) := by
  have hempty : V.fed [] = (V.initial, []) := feed_of_lt _ V.size_pos
  rw [V.init_eq]
  exact {
    hashtype := rfl
    hashsize := rfl
    blocksize := rfl
    hash := ⟨(List.replicate 64 0).drop (0 + (leBytes (V.words V.initial)).length), by
      rw [hempty]
      rfl⟩
    length_block := rfl
    blockused := (Nat.zero_mod _).symm
    block := by rw [hempty]; rfl
    digestBits := by rw [List.length_nil, Nat.zero_sub]; rfl
    digestHibits := rfl }

theorem Fed.used_lt (h : Fed V msg self) : self.blockused.toNat < V.size :=
  h.blockused ▸ Nat.mod_lt _ V.size_pos

theorem Fed.usable (h : Fed V msg self) : self.Usable := by
  rw [Usable, h.blocksize]
  exact ⟨V.eight_le, V.le_block, h.used_lt⟩

/-- What the block starts with once more bytes are copied behind those left over. -/
theorem Fed.take_overwrite (h : Fed V msg self)
    (hroom : self.blockused.toNat + piece.length ≤ V.size) :
    poke self.block self.blockused.toNat piece =
        some (overwrite self.block self.blockused.toNat piece) ∧
      (overwrite self.block self.blockused.toNat piece).length = 128 ∧
      (overwrite self.block self.blockused.toNat piece).take
        (self.blockused.toNat + piece.length) = (V.fed msg).2 ++ piece := by
  have hin : self.blockused.toNat + piece.length ≤ self.block.length :=
    h.length_block ▸ Nat.le_trans hroom V.le_block
  refine ⟨poke_eq hin, (length_overwrite hin).trans h.length_block, ?_⟩
  rw [take_overwrite_end (Nat.le_of_add_right_le hin), h.block]

/-- **A block that becomes full** is hashed. -/
theorem Fed.fill (h : Fed V msg self) (hfull : self.blockused.toNat + piece.length = V.size)
    (hlen : (msg ++ piece).length < 2 ^ 61) :
    ∃ block sha, poke self.block self.blockused.toNat piece = some block ∧
      transform { self with block } = sha ∧
      Fed V (msg ++ piece)
        { sha.addBits (BitVec.ofNat 64 sha.blocksize.toNat * 8) with blockused := 0 } := by
  obtain ⟨hpoke, hlength, htake⟩ := h.take_overwrite (Nat.le_of_eq hfull)
  rw [hfull] at htake
  obtain ⟨rest, hhash⟩ := h.hash
  have hfed : V.fed (msg ++ piece) = (V.compress (V.fed msg).1 ((V.fed msg).2 ++ piece), []) := by
    have hblock : ((V.fed msg).2 ++ piece).length = V.size := by
      rw [List.length_append, V.length_fed, ← h.blockused, hfull]
    rw [V.fed_append, feed_one V.size_pos _ hblock]
  have hmod : (msg ++ piece).length % V.size = 0 := by
    rw [← V.length_fed, hfed]
    rfl
  have hused := h.blockused
  have hle := Nat.mod_le msg.length V.size
  have hbits : 8 * (msg.length - msg.length % V.size) + 8 * V.size = 8 * (msg ++ piece).length := by
    rw [List.length_append]
    omega
  obtain ⟨sha, hsha⟩ : ∃ sha, transform
      { self with block := overwrite self.block self.blockused.toNat piece } = sha := ⟨_, rfl⟩
  have htransform := hsha.symm.trans (V.transform_eq h.hashtype hhash hlength)
  have hsize : sha.blocksize.toNat = V.size := by
    rw [htransform]
    exact congrArg UInt8.toNat h.blocksize
  have hcounted : sha.digestBits = BitVec.ofNat 64 (8 * (msg.length - msg.length % V.size)) := by
    rw [htransform]
    exact h.digestBits
  refine ⟨_, sha, hpoke, hsha, ?_⟩
  rw [hsize, addBits_eq hcounted (by omega), hbits, htransform]
  exact {
    hashtype := h.hashtype
    hashsize := h.hashsize
    blocksize := h.blocksize
    hash := ⟨rest, by rw [hfed, ← htake]; rfl⟩
    length_block := hlength
    blockused := hmod.symm
    block := by rw [hfed]; rfl
    digestBits := by rw [hmod, Nat.sub_zero]
    digestHibits := h.digestHibits }

/-- **A block that does not** keeps the bytes. -/
theorem Fed.begin (h : Fed V msg self) (hroom : self.blockused.toNat + piece.length < V.size) :
    ∃ block, poke self.block self.blockused.toNat piece = some block ∧ Fed V (msg ++ piece)
        { self with block, blockused := self.blockused + UInt16.ofNat piece.length } := by
  obtain ⟨hpoke, hlength, htake⟩ := h.take_overwrite (Nat.le_of_lt hroom)
  have hfed : V.fed (msg ++ piece) = ((V.fed msg).1, (V.fed msg).2 ++ piece) := by
    rw [V.fed_append, feed_of_lt]
    rw [List.length_append, V.length_fed, ← h.blockused]
    exact hroom
  have hmod : (msg ++ piece).length % V.size = self.blockused.toNat + piece.length := by
    rw [← V.length_fed, hfed, List.length_append, V.length_fed, h.blockused]
  have hused : (self.blockused + UInt16.ofNat piece.length).toNat =
      self.blockused.toNat + piece.length := by
    have hmax : V.size ≤ 128 := V.le_block
    rw [UInt16.toNat_add, UInt16.toNat_ofNat']
    omega
  have hwhole : (msg ++ piece).length - (self.blockused.toNat + piece.length) =
      msg.length - msg.length % V.size := by
    rw [List.length_append, h.blockused]
    omega
  obtain ⟨rest, hhash⟩ := h.hash
  refine ⟨_, hpoke, ?_⟩
  exact {
    hashtype := h.hashtype
    hashsize := h.hashsize
    blocksize := h.blocksize
    hash := ⟨rest, by rw [hfed]; exact hhash⟩
    length_block := hlength
    blockused := hused.trans hmod.symm
    block := by rw [hfed]; exact hused ▸ htake
    digestBits := by rw [hmod, hwhole]; exact h.digestBits
    digestHibits := h.digestHibits }

/-- The loop takes the blocks that become full, and leaves less than one. -/
theorem Fed.updateLoop {fuel : Nat} {octets : List UInt8} (hfuel : octets.length < fuel) :
    ∀ {msg : List UInt8} {self : EsifSha}, Fed V msg self → (msg ++ octets).length < 2 ^ 61 →
      ∃ piece rest sha, octets = piece ++ rest ∧
        EsifSha.updateLoop fuel self octets = some (sha, rest) ∧ Fed V (msg ++ piece) sha ∧
        sha.blockused.toNat + rest.length < V.size := by
  induction fuel generalizing octets with
  | zero => exact absurd hfuel (Nat.not_lt_zero _)
  | succ fuel ih =>
    intro msg self h hlen
    have hsize : self.blocksize.toNat = V.size := congrArg UInt8.toNat h.blocksize
    have hlt := h.used_lt
    rw [EsifSha.updateLoop, hsize]
    by_cases hfull : V.size ≤ self.blockused.toNat + octets.length
    · have hpiece : (octets.take (V.size - self.blockused.toNat)).length =
          V.size - self.blockused.toNat := by
        rw [List.length_take]
        omega
      have hcut := List.take_append_drop (V.size - self.blockused.toNat) octets
      have hshort : (octets.drop (V.size - self.blockused.toNat)).length < fuel := by
        rw [List.length_drop]
        omega
      have hfirst : (msg ++ octets.take (V.size - self.blockused.toNat)).length < 2 ^ 61 := by
        rw [List.length_append] at hlen ⊢
        omega
      obtain ⟨block, sha, hpoke, htransform, hfed⟩ := h.fill (by omega) hfirst
      obtain ⟨piece, rest, last, hsplit, hloop, hlast, hless⟩ := ih hshort hfed
        (by rw [List.append_assoc, hcut]; exact hlen)
      rw [if_pos hfull]
      simp only [hpoke, Option.bind_eq_bind, Option.bind_some, htransform]
      refine ⟨octets.take (V.size - self.blockused.toNat) ++ piece, rest, last, ?_, hloop, ?_, hless⟩
      · rw [List.append_assoc, ← hsplit, hcut]
      · rwa [← List.append_assoc]
    · rw [if_neg hfull]
      exact ⟨[], octets, self, rfl, rfl, by rwa [List.append_nil], Nat.lt_of_not_le hfull⟩

/-- **A part more**, empty or not. -/
theorem Fed.update (h : Fed V msg self) {part : List UInt8} (hlen : (msg ++ part).length < 2 ^ 61) :
    ∃ sha, self.update (some part) = some sha ∧ Fed V (msg ++ part) sha := by
  cases part with
  | nil =>
    rw [List.append_nil]
    refine ⟨self, ?_, h⟩
    rw [EsifSha.update]
    exact if_neg fun hall => Nat.lt_irrefl 0 hall.1
  | cons b part =>
    obtain ⟨piece, rest, sha, hsplit, hloop, hfed, hroom⟩ :=
      Fed.updateLoop (Nat.lt_succ_self _) h hlen
    obtain ⟨block, hpoke, hbegin⟩ := hfed.begin hroom
    rw [List.append_assoc, ← hsplit] at hbegin
    refine ⟨_, ?_, hbegin⟩
    have htest : 0 < (b :: part).length ∧ self.Usable := ⟨Nat.succ_pos _, h.usable⟩
    simp only [EsifSha.update, if_pos htest, hloop, Option.bind_eq_bind, Option.bind_some, hpoke]
    rfl

/-- All parts, one behind the other. -/
theorem Fed.parts {parts : List (List UInt8)} :
    ∀ {msg : List UInt8} {self : EsifSha}, Fed V msg self → (msg ++ parts.flatten).length < 2 ^ 61 →
      ∃ sha, parts.foldlM (fun self part => self.update (some part)) self = some sha ∧
        Fed V (msg ++ parts.flatten) sha := by
  induction parts with
  | nil =>
    intro msg self h _
    exact ⟨self, rfl, by rwa [List.flatten_nil, List.append_nil]⟩
  | cons part parts ih =>
    intro msg self h hlen
    rw [List.flatten_cons, ← List.append_assoc] at hlen ⊢
    have hfirst : (msg ++ part).length < 2 ^ 61 :=
      Nat.lt_of_le_of_lt (List.sublist_append_left _ parts.flatten).length_le hlen
    obtain ⟨sha, hupdate, hfed⟩ := h.update hfirst
    obtain ⟨last, hparts, hlast⟩ := ih hfed hlen
    refine ⟨last, ?_, hlast⟩
    rw [List.foldlM_cons, hupdate]
    exact hparts

/-! ## The end -/

/-- The block is filled behind the bytes left over. -/
theorem Fed.terminate (h : Fed V msg self) :
    ∃ block, self.terminate = some { self with block } ∧ block.length = 128 ∧ block.take V.size =
        (V.fed msg).2 ++ 0x80 :: List.replicate (V.size - (self.blockused.toNat + 1)) 0 := by
  have hlt := h.used_lt
  have hmax : V.size ≤ 128 := V.le_block
  have hsize : self.blocksize.toNat = V.size := congrArg UInt8.toNat h.blocksize
  have hfill : self.blockused.toNat +
      (0x80 :: List.replicate (V.size - (self.blockused.toNat + 1)) (0 : UInt8)).length =
        V.size := by
    rw [List.length_cons, List.length_replicate]
    omega
  obtain ⟨-, hlength, htake⟩ := h.take_overwrite (Nat.le_of_eq hfill)
  rw [hfill] at htake
  refine ⟨_, ?_, hlength, htake⟩
  have hmark : self.blockused.toNat + [(0x80 : UInt8)].length ≤ self.block.length := by
    rw [h.length_block, List.length_singleton]
    omega
  have hboth := overwrite_overwrite hmark (List.replicate (V.size - (self.blockused.toNat + 1)) 0)
  rw [List.length_singleton] at hboth
  rw [EsifSha.terminate]
  simp only [poke_eq hmark, Option.bind_eq_bind, Option.bind_some, hsize, Nat.sub_sub]
  by_cases hmore : self.blockused.toNat + 1 < V.size
  · rw [if_pos hmore, poke_eq, hboth]
    · rfl
    · rw [length_overwrite hmark, h.length_block, List.length_replicate]
      omega
  · have hnone : V.size - (self.blockused.toNat + 1) = 0 := by omega
    rw [if_neg hmore, hnone]
    rfl

/-- The last block before its length is put in: with it, it completes the padded message. -/
structure Padded (V : Variant w σ) (msg : List UInt8) (sha : EsifSha) : Prop where
  hashtype : sha.hashtype = V.hashtype
  hashsize : sha.hashsize = V.hashsize
  blocksize : sha.blocksize = V.blocksize
  length_block : sha.block.length = 128
  blockused : sha.blockused.toNat = msg.length % V.size
  digestBits : sha.digestBits = BitVec.ofNat 64 (8 * (msg.length - msg.length % V.size))
  digestHibits : sha.digestHibits = 0
  hash : ∃ v rest, sha.hash = leBytes (V.words v) ++ rest ∧
    ∀ len : List UInt8, len.length = V.lenBytes →
      (V.fed (msg ++ 0x80 ::
        (List.replicate (SecureHash.zeros V.size V.lenBytes msg.length) 0 ++ len))).1 =
      V.compress v (sha.block.take (V.size - V.lenBytes) ++ len)

/-- A block that is too full for the length is hashed, and the next one is empty. -/
theorem Fed.makeRoom (h : Fed V msg self) {block : List UInt8} (hlength : block.length = 128)
    (htake : block.take V.size =
      (V.fed msg).2 ++ 0x80 :: List.replicate (V.size - (self.blockused.toNat + 1)) 0) :
    ∃ sha, EsifSha.makeRoom { self with block } = some sha ∧ Padded V msg sha := by
  have hlt := h.used_lt
  have hmax : V.size ≤ 128 := V.le_block
  have hfits : V.lenBytes < V.size := V.lenBytes_lt
  have hzeros := SecureHash.zeros_eq hfits h.blockused.symm
  have hsize : self.blocksize.toNat = V.size := congrArg UInt8.toNat h.blocksize
  have hdigest : EsifSha.digestSize { self with block } = V.lenBytes := V.digestSize_eq h.hashtype
  obtain ⟨rest, hhash⟩ := h.hash
  rw [EsifSha.makeRoom, hdigest]
  simp only [hsize]
  by_cases hfull : V.size - V.lenBytes ≤ self.blockused.toNat
  · -- the block is full, and the length is behind as many zeros as the next one has room for
    have hblock : (block.take V.size).length = V.size := by
      rw [List.length_take]
      omega
    have hzeros : SecureHash.zeros V.size V.lenBytes msg.length =
        V.size - (self.blockused.toNat + 1) + (V.size - V.lenBytes) := by
      rw [hzeros, if_neg (by omega)]
      omega
    have hfill : 0 + (List.replicate V.size (0 : UInt8)).length ≤ block.length := by
      rw [List.length_replicate]
      omega
    have htransform : transform { self with block } = _ := V.transform_eq h.hashtype hhash hlength
    rw [if_pos hfull, htransform]
    simp only [hsize, poke_eq hfill, Option.bind_eq_bind, Option.bind_some]
    refine ⟨_, rfl, h.hashtype, h.hashsize, h.blocksize, (length_overwrite hfill).trans hlength,
      h.blockused, h.digestBits, h.digestHibits, _, rest, rfl, fun len hlen => ?_⟩
    have hempty : (overwrite block 0 (List.replicate V.size 0)).take (V.size - V.lenBytes) =
        List.replicate (V.size - V.lenBytes) 0 := by
      rw [overwrite, List.take_zero, List.nil_append, List.take_append_of_le_length (by simp),
        List.take_replicate, Nat.min_eq_left (Nat.sub_le _ _)]
    have hlast : (List.replicate (V.size - V.lenBytes) (0 : UInt8) ++ len).length = V.size := by
      rw [List.length_append, List.length_replicate, hlen]
      omega
    have hsplit : (V.fed msg).2 ++ 0x80 ::
        (List.replicate (SecureHash.zeros V.size V.lenBytes msg.length) 0 ++ len) =
          block.take V.size ++ (List.replicate (V.size - V.lenBytes) 0 ++ len) := by
      rw [htake, hzeros, List.replicate_add]
      simp only [List.append_assoc, List.cons_append]
    rw [V.fed_append, hsplit, feed_block V.size_pos _ _ hblock, feed_one V.size_pos _ hlast, hempty]
    rfl
  · have hzeros : SecureHash.zeros V.size V.lenBytes msg.length =
        V.size - V.lenBytes - (self.blockused.toNat + 1) := by
      rw [hzeros, if_pos (by omega)]
      omega
    have hleft : (V.fed msg).2.length = self.blockused.toNat := by
      rw [V.length_fed, h.blockused]
    rw [if_neg hfull]
    refine ⟨_, rfl, h.hashtype, h.hashsize, h.blocksize, hlength, h.blockused, h.digestBits,
      h.digestHibits, _, rest, hhash, fun len hlen => ?_⟩
    have hlen80 : ((V.fed msg).2 ++ 0x80 ::
        List.replicate (V.size - V.lenBytes - (self.blockused.toNat + 1)) (0 : UInt8)).length =
          V.size - V.lenBytes := by
      rw [List.length_append, List.length_cons, List.length_replicate, hleft]
      omega
    have hfront : block.take (V.size - V.lenBytes) = (V.fed msg).2 ++ 0x80 ::
        List.replicate (V.size - V.lenBytes - (self.blockused.toNat + 1)) 0 := by
      have hcut : V.size - (self.blockused.toNat + 1) =
          V.size - V.lenBytes - (self.blockused.toNat + 1) + V.lenBytes := by omega
      rw [← Nat.min_eq_left (Nat.sub_le V.size V.lenBytes), ← List.take_take, htake, hcut,
        List.replicate_add, ← List.cons_append, ← List.append_assoc, Nat.min_eq_left (Nat.sub_le _ _),
        List.take_left' hlen80]
    have hlast : (block.take (V.size - V.lenBytes) ++ len).length = V.size := by
      rw [hfront, List.length_append, hlen80, hlen]
      omega
    rw [V.fed_append, hzeros, ← List.cons_append, ← List.append_assoc, ← hfront,
      feed_one V.size_pos _ hlast]

/-- The length is put in, the last block hashed, and the words turned around. -/
theorem Padded.close {sha : EsifSha} (h : Padded V msg sha) (hlen : msg.length < 2 ^ 61) :
    ∃ last, (sha.addBits (BitVec.ofNat 64 sha.blockused.toNat * 8)).close = some last ∧
      last.block.length = 128 ∧ last.blocksize = V.blocksize ∧ last.hashsize = V.hashsize ∧
      last.hash.take V.hashsize.toNat = SecureHash.digest V.compress V.words V.size V.lenBytes
        V.hashsize.toNat V.initial msg := by
  have hmax : V.size ≤ 128 := V.le_block
  have hfits : V.lenBytes < V.size := V.lenBytes_lt
  have hle := Nat.mod_le msg.length V.size
  have hbits : 8 * (msg.length - msg.length % V.size) + 8 * (msg.length % V.size) =
      8 * msg.length := by omega
  obtain ⟨v, rest, hhash, hlast⟩ := h.hash
  have hin : V.size - V.lenBytes + (beEnc V.lenBytes (8 * msg.length)).length ≤
      sha.block.length := by
    rw [length_beEnc, h.length_block]
    omega
  have hblock : (overwrite sha.block (V.size - V.lenBytes)
      (beEnc V.lenBytes (8 * msg.length))).take V.size =
        sha.block.take (V.size - V.lenBytes) ++ beEnc V.lenBytes (8 * msg.length) := by
    have htake := take_overwrite_end (Nat.le_of_add_right_le hin)
      (beEnc V.lenBytes (8 * msg.length))
    rwa [length_beEnc, Nat.sub_add_cancel (Nat.le_of_lt hfits)] at htake
  have hlength := (length_overwrite hin).trans h.length_block
  rw [h.blockused, addBits_eq h.digestBits (by omega), hbits]
  have hclose : EsifSha.close { sha with digestBits := BitVec.ofNat 64 (8 * msg.length) } = _ :=
    V.close_eq h.hashtype h.blocksize h.length_block rfl (by omega) h.digestHibits
  have htransform : transform
      { sha with
        block := overwrite sha.block (V.size - V.lenBytes) (beEnc V.lenBytes (8 * msg.length))
        digestBits := BitVec.ofNat 64 (8 * msg.length) } = _ :=
    V.transform_eq h.hashtype hhash hlength
  have hsum : (V.fed (SecureHash.pad V.size V.lenBytes msg)).1 = _ :=
    hlast _ (length_beEnc V.lenBytes (8 * msg.length))
  have htaken : (overwrite sha.block (V.blocksize.toNat - V.lenBytes)
      (beEnc V.lenBytes (8 * msg.length))).take V.blocksize.toNat = _ := hblock
  refine ⟨_, hclose, ?_⟩
  simp only [Variant.size] at htransform
  simp only [htransform, htaken]
  refine ⟨hlength, h.blocksize, h.hashsize, ?_⟩
  rw [h.hashsize]
  have hout := V.reorders.take_putWords (V.le_words (V.compress v
    (sha.block.take (V.size - V.lenBytes) ++ beEnc V.lenBytes (8 * msg.length)))) rest
  rw [V.hashsize_eq] at hout
  rw [hout, ← hsum]
  rfl

/-- **`esif_sha_finish`** leaves the digest. -/
theorem Fed.finish (h : Fed V msg self) (hlen : msg.length < 2 ^ 61) :
    ∃ sha, self.finish = some sha ∧
      sha.hash.take sha.hashsize.toNat = SecureHash.digest V.compress V.words V.size V.lenBytes
        V.hashsize.toNat V.initial msg := by
  obtain ⟨block, hterminate, hlength, htake⟩ := h.terminate
  obtain ⟨sha, hroom, hpadded⟩ := h.makeRoom hlength htake
  obtain ⟨last, hclose, hlast, hsize, hhashsize, hhash⟩ := hpadded.close hlen
  have hmax : V.blocksize.toNat ≤ 128 := V.le_block
  have hclear : 0 + (List.replicate last.blocksize.toNat (0 : UInt8)).length ≤
      last.block.length := by
    rw [List.length_replicate, hsize]
    omega
  rw [EsifSha.finish, if_pos h.usable, hterminate]
  simp only [Option.bind_eq_bind, Option.bind_some, hroom, hclose, poke_eq hclear]
  exact ⟨_, rfl, hhashsize ▸ hhash⟩

end Run

/-! ## The four hashes -/

/-- A length as it is put into the block. -/
theorem leBytes_length {bits : BitVec 64} {n : Nat} (hbits : bits = BitVec.ofNat 64 n)
    (hn : n < 2 ^ 64) : leBytes [reorderBytes64 bits] = beEnc 8 n := by
  have h := reorders_reorderBytes64.leBytes_map [bits]
  rw [List.map_singleton, SecureHash.bytesOf, List.flatMap_singleton, hbits, BitVec.toNat_ofNat,
    Nat.mod_eq_of_lt hn] at h
  rw [hbits, h]

/-- The end of SHA-1 and SHA-256. -/
theorem close_words32 {n : Nat} (htype : self.hashtype = sha1Type ∨ self.hashtype = sha256Type)
    (hsize : self.blocksize = 64) (hblock : self.block.length = 128)
    (hbits : self.digestBits = BitVec.ofNat 64 n) (hn : n < 2 ^ 64) :
    self.close = some
      (let sha := transform { self with block := overwrite self.block (64 - 8) (beEnc 8 n) }
      { sha with
        hash := putWords sha.hash
          ((wordsOf 32 (sha.hashsize.toNat / (32 / 8)) sha.hash).map reorderBytes) }) := by
  have hpoke : 64 - 8 + (beEnc 8 n).length ≤ self.block.length := by
    rw [length_beEnc, hblock]
    decide
  have hsize : self.blocksize.toNat = 64 := congrArg UInt8.toNat hsize
  rw [close, if_pos htype, hsize, leBytes_length hbits hn, poke_eq hpoke]
  rfl

/-- The end of SHA-384 and SHA-512, whose length has a lower and a higher half. -/
theorem close_words64 {n : Nat} (htype : self.hashtype = sha384Type ∨ self.hashtype = sha512Type)
    (hsize : self.blocksize = 128) (hblock : self.block.length = 128)
    (hbits : self.digestBits = BitVec.ofNat 64 n) (hn : n < 2 ^ 64) (hhigh : self.digestHibits = 0)
    :
    self.close = some
      (let sha := transform { self with block := overwrite self.block (128 - 16) (beEnc 16 n) }
      { sha with
        hash := putWords sha.hash
          ((wordsOf 64 (sha.hashsize.toNat / (64 / 8)) sha.hash).map reorderBytes64) }) := by
  have hshort : ¬(self.hashtype = sha1Type ∨ self.hashtype = sha256Type) := by
    rcases htype with h | h <;> rw [h] <;> decide
  have hdigest : self.digestSize = 16 := if_pos htype
  have hzero : leBytes [reorderBytes64 self.digestHibits] = beEnc 8 0 :=
    leBytes_length hhigh (by decide)
  have hboth : beEnc 8 0 ++ beEnc 8 n = beEnc 16 n := by
    have h := beEnc_add 8 8 n
    rw [Nat.div_eq_of_lt (by omega)] at h
    exact h.symm
  have hpoke : 128 - 16 + (beEnc 8 0).length ≤ self.block.length := by
    rw [length_beEnc, hblock]
    decide
  have hpoke' : 128 - 8 + (beEnc 8 n).length ≤
      (overwrite self.block (128 - 16) (beEnc 8 0)).length := by
    rw [length_overwrite hpoke, length_beEnc, hblock]
  have hwrite := overwrite_overwrite hpoke (beEnc 8 n)
  rw [hboth, length_beEnc] at hwrite
  have hsize : self.blocksize.toNat = 128 := congrArg UInt8.toNat hsize
  rw [close, if_neg hshort, if_pos htype, hsize, hdigest, hzero, leBytes_length hbits hn,
    poke_eq hpoke]
  simp only [Option.bind_eq_bind, Option.bind_some, poke_eq hpoke']
  rw [← hwrite]
  rfl

/-- SHA-1. -/
def sha1Variant : Variant 32 SecureHash.Words5 where
  hashtype := sha1Type
  hashsize := 20
  blocksize := 64
  lenBytes := 8
  compress := SecureHash.Sha1.compress
  words := SecureHash.Words5.toList
  initial := SecureHash.Sha1.initial
  reorder := reorderBytes
  reorders := reorders_reorderBytes
  eight_le := by decide
  le_block := by decide
  lenBytes_lt := by decide
  init_eq := rfl
  hashsize_eq := rfl
  le_words v := by rw [SecureHash.Words5.length_toList]; decide
  transform_eq {self v rest} htype hhash hblock := by
    have hlen : 64 ≤ self.block.length := by omega
    rw [transform, if_pos htype, sha1Transform_eq hhash hlen,
      ← SecureHash.Sha1.compress_take v (show 64 ≤ UInt8.toNat 64 by decide)]
  digestSize_eq htype := if_neg (by rw [htype]; decide)
  close_eq htype hsize hblock hbits hn _ := close_words32 (Or.inl htype) hsize hblock hbits hn

/-- SHA-256. -/
def sha256Variant : Variant 32 (SecureHash.Words8 32) where
  hashtype := sha256Type
  hashsize := 32
  blocksize := 64
  lenBytes := 8
  compress := SecureHash.sha2x32.compress
  words := SecureHash.Words8.toList
  initial := SecureHash.initial8 32 SecureHash.primes
  reorder := reorderBytes
  reorders := reorders_reorderBytes
  eight_le := by decide
  le_block := by decide
  lenBytes_lt := by decide
  init_eq := by decide +kernel
  hashsize_eq := rfl
  le_words v := by rw [SecureHash.Words8.length_toList]; decide
  transform_eq {self v rest} htype hhash hblock := by
    have hlen : 64 ≤ self.block.length := by omega
    have hother : ¬self.hashtype = sha1Type := by rw [htype]; decide
    rw [transform, if_neg hother, if_pos htype, sha256Transform_eq hhash hlen,
      ← SecureHash.Sha2.compress_take _ v (show 16 * (32 / 8) ≤ UInt8.toNat 64 by decide)]
  digestSize_eq htype := if_neg (by rw [htype]; decide)
  close_eq htype hsize hblock hbits hn _ := close_words32 (Or.inr htype) hsize hblock hbits hn

/-- SHA-384 and SHA-512, which differ in their first value and in how much of the last one is the
digest. -/
theorem transform_words64 {v : SecureHash.Words8 64} {rest : List UInt8}
    (htype : self.hashtype = sha384Type ∨ self.hashtype = sha512Type)
    (hhash : self.hash = leBytes v.toList ++ rest) (hblock : self.block.length = 128) :
    self.transform =
      { self with
        hash := leBytes (SecureHash.sha2x64.compress v (self.block.take 128)).toList ++ rest } := by
  have hother : ¬self.hashtype = sha1Type ∧ ¬self.hashtype = sha256Type := by
    rcases htype with h | h <;> rw [h] <;> decide
  rw [transform, if_neg hother.1, if_neg hother.2, if_pos htype,
    sha512Transform_eq hhash (Nat.le_of_eq hblock.symm),
    List.take_of_length_le (Nat.le_of_eq hblock)]

/-- SHA-384. -/
def sha384Variant : Variant 64 (SecureHash.Words8 64) where
  hashtype := sha384Type
  hashsize := 48
  blocksize := 128
  lenBytes := 16
  compress := SecureHash.sha2x64.compress
  words := SecureHash.Words8.toList
  initial := SecureHash.initial8 64 (SecureHash.primes.drop 8)
  reorder := reorderBytes64
  reorders := reorders_reorderBytes64
  eight_le := by decide
  le_block := by decide
  lenBytes_lt := by decide
  init_eq := by decide +kernel
  hashsize_eq := rfl
  le_words v := by rw [SecureHash.Words8.length_toList]; decide
  transform_eq htype := transform_words64 (Or.inl htype)
  digestSize_eq htype := if_pos (Or.inl htype)
  close_eq htype := close_words64 (Or.inl htype)

/-- SHA-512. -/
def sha512Variant : Variant 64 (SecureHash.Words8 64) where
  hashtype := sha512Type
  hashsize := 64
  blocksize := 128
  lenBytes := 16
  compress := SecureHash.sha2x64.compress
  words := SecureHash.Words8.toList
  initial := SecureHash.initial8 64 SecureHash.primes
  reorder := reorderBytes64
  reorders := reorders_reorderBytes64
  eight_le := by decide
  le_block := by decide
  lenBytes_lt := by decide
  init_eq := by decide +kernel
  hashsize_eq := rfl
  le_words v := by rw [SecureHash.Words8.length_toList]; decide
  transform_eq htype := transform_words64 (Or.inr htype)
  digestSize_eq htype := if_pos (Or.inr htype)
  close_eq htype := close_words64 (Or.inr htype)

/-- One of the hashes, of bytes that come in parts. -/
theorem Variant.hashOf_eq (V : Variant w σ) (parts : List (List UInt8))
    (hlen : parts.flatten.length < 2 ^ 61) :
    hashOf V.hashtype parts = some (SecureHash.digest V.compress V.words V.size V.lenBytes
      V.hashsize.toNat V.initial parts.flatten) := by
  obtain ⟨sha, hparts, hfed⟩ :=
    Fed.parts (fed_init V) (show ([] ++ parts.flatten).length < 2 ^ 61 from hlen)
  obtain ⟨last, hfinish, hdigest⟩ := hfed.finish hlen
  rw [hashOf, hparts]
  simp only [Option.bind_eq_bind, Option.bind_some, hfinish]
  exact congrArg some hdigest

/-- The hashes there are. -/
inductive ShaType
  | sha1
  | sha256
  | sha384
  | sha512

/-- The number of a hash in the source. -/
def ShaType.hashtype : ShaType → UInt16
  | sha1 => sha1Type
  | sha256 => sha256Type
  | sha384 => sha384Type
  | sha512 => sha512Type

/-- The digest of the standard. -/
def ShaType.digest : ShaType → List UInt8 → List UInt8
  | sha1 => SecureHash.sha1
  | sha256 => SecureHash.sha256
  | sha384 => SecureHash.sha384
  | sha512 => SecureHash.sha512

/-- **The hash of bytes in parts** is the digest that the standard gives of all of them, whatever
the parts are. -/
theorem hashOf_eq_digest (type : ShaType) (parts : List (List UInt8))
    (hlen : parts.flatten.length < 2 ^ 61) :
    hashOf type.hashtype parts = some (type.digest parts.flatten) := by
  cases type with
  | sha1 => exact sha1Variant.hashOf_eq parts hlen
  | sha256 => exact sha256Variant.hashOf_eq parts hlen
  | sha384 => exact sha384Variant.hashOf_eq parts hlen
  | sha512 => exact sha512Variant.hashOf_eq parts hlen

/-- "ab", nothing and "c" hash as "abc" does. -/
theorem hashOf_eq_digest_abc :
    hashOf 256 [[97, 98], [], [99]] = some (SecureHash.sha256 [97, 98, 99]) :=
  hashOf_eq_digest .sha256 [[97, 98], [], [99]] (by decide)

end EsifSha

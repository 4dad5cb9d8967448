import Dptf.Vault.Segment

/-!
# The two hashes of a payload

The payload of a segment is hashed twice: as it stands in the file before it is read,
and while it is read, from what was made of it.  The second hash has to come to the
first one.

* `passesAgree_iff` — when the second hash is the first one.
-/

open Lib

namespace Vault

variable {δ : Type}

/-! ## Items -/

/-- A well-formed item of a version 2 payload. -/
structure Item where
  flags : UInt32
  /-- The key with its NUL. -/
  key : List UInt8
  type : UInt32
  data : List UInt8
  key_bounds : 1 < key.length ∧ key.length ≤ maxLen
  key_nul : key.getLast? = some 0
  data_le : data.length ≤ maxLen

namespace Item

/-- What follows the flags. -/
def body (i : Item) : List UInt8 :=
  leEnc 4 i.key.length ++ i.key ++ (leEnc 4 i.type.toNat ++ leEnc 4 i.data.length ++ i.data)

/-- The item in the file. -/
def encode (i : Item) : List UInt8 :=
  leEnc 2 itemSignature.toNat ++ leEnc 4 i.flags.toNat ++ i.body

/-- The item as it goes into the digest while it is read: without the ignored flags. -/
def hashed (i : Item) : List UInt8 :=
  leEnc 2 itemSignature.toNat ++ leEnc 4 (itemFlags i.flags).toNat ++ i.body

/-- None of the flags is ignored. -/
def Plain (i : Item) : Prop := itemFlags i.flags = i.flags

@[simp] theorem length_hashed (i : Item) : i.hashed.length = i.encode.length := by
  simp [hashed, encode]

theorem length_encode_pos (i : Item) : 0 < i.encode.length := by
  simp only [encode, List.length_append, length_leEnc]
  omega

/-- Four bytes are one number. -/
theorem toNat_inj_of_leEnc {a b : UInt32} (h : leEnc 4 a.toNat = leEnc 4 b.toNat) : a = b := by
  have hdec := congrArg leDec h
  rw [leDec_leEnc_of_lt (by have := a.toNat_lt; omega),
    leDec_leEnc_of_lt (by have := b.toNat_lt; omega)] at hdec
  exact UInt32.toNat_inj.mp hdec

/-- **An item is hashed as it stands** just if it has no flag that is ignored. -/
theorem hashed_eq_encode_iff {i : Item} : i.hashed = i.encode ↔ i.Plain := by
  constructor
  · intro h
    rw [hashed, encode, List.append_assoc, List.append_assoc] at h
    have hflags := List.append_cancel_left h
    exact toNat_inj_of_leEnc (List.append_cancel_right hflags)
  · intro h
    rw [hashed, encode, h]

end Item

/-- The payload of some items. -/
def encodeItems (items : List Item) : List UInt8 := items.flatMap Item.encode

/-- What reading them adds to the digest. -/
def hashedItems (items : List Item) : List UInt8 := items.flatMap Item.hashed

@[simp] theorem length_hashedItems (items : List Item) :
    (hashedItems items).length = (encodeItems items).length := by
  simp [hashedItems, encodeItems, List.length_flatMap]

/-- **Items are hashed as they stand** just if none has a flag that is ignored. -/
theorem hashedItems_eq_encodeItems_iff {items : List Item} :
    hashedItems items = encodeItems items ↔ ∀ i ∈ items, i.Plain := by
  induction items with
  | nil => simp [hashedItems, encodeItems]
  | cons i items ih =>
    rw [hashedItems, encodeItems, List.flatMap_cons, List.flatMap_cons, List.forall_mem_cons,
      ← Item.hashed_eq_encode_iff, ← ih]
    constructor
    · intro h
      exact List.append_inj h i.length_hashed
    · rintro ⟨hitem, hitems⟩
      rw [hitem]
      exact congrArg _ hitems

/-! ## Reading an item -/

section Read

variable {r : Reading} {contents : List UInt8} {p : ReadPos}
variable {p' : ReadPos} {flags type : UInt32} {bytes : List UInt8}

@[simp] theorem ReadPos.advance_advance (p : ReadPos) (m n : Nat) (as bs : List UInt8) :
    (p.advance m as).advance n bs = p.advance (m + n) (as ++ bs) := by
  simp [ReadPos.advance, Nat.add_assoc]

/-- What is there is read where the payload may end, -/
theorem readFirst_of_hasAt {pos n : Nat} (h : HasAt contents pos bytes) (hn : bytes.length = n) :
    readFirst contents pos n = .ok bytes := by
  subst hn
  rw [readFirst, h.peekAt]
  exact if_pos rfl

/-- and inside a pair. -/
theorem readRest_of_hasAt {pos n : Nat} (h : HasAt contents pos bytes) (hn : bytes.length = n) :
    readRest contents pos n = .ok bytes := by
  subst hn
  rw [readRest, h.peekAt]
  exact if_pos rfl

/-- The payload is read to the size of its header, and the vault does not read on. -/
def Reading.Over (r : Reading) (p : ReadPos) : Prop :=
  flagsTest r.flags ServiceConfig.compressed = false ∧ r.payloadSize ≤ p.hashed.length

theorem readSignature_item (hmajor : r.major = 2) (hover : ¬ r.Over p)
    (hat : HasAt contents p.pos (leEnc 2 itemSignature.toNat)) :
    readSignature r contents p = .ok (p.advance 2 (leEnc 2 itemSignature.toNat)) := by
  unfold Reading.Over at hover
  unfold readSignature
  rw [if_pos hmajor, if_neg hover]
  exact bind_eq_ok.mpr ⟨_, readFirst_of_hasAt hat (length_leEnc 2 _), rfl⟩

theorem readFlags_item (hmajor : r.major = 2) (hat : HasAt contents p.pos (leEnc 4 flags.toNat)) :
    readFlags r contents p =
      .ok (itemFlags flags, p.advance 4 (leEnc 4 (itemFlags flags).toNat)) := by
  have hone : r.major ≠ 1 := by
    rw [hmajor]
    decide
  have hdec : UInt32.ofNat (leDec (leEnc 4 flags.toNat)) = flags := by
    rw [leDec_leEnc_of_lt (by have := flags.toNat_lt; omega), UInt32.ofNat_toNat]
  refine bind_eq_ok.mpr ⟨_, readFirst_of_hasAt hat (length_leEnc 4 _), ?_⟩
  dsimp only
  rw [if_neg fun h => hone h.1, if_neg fun h => hone h.1, hdec]

theorem readKey_item (i : Item) (hat : HasAt contents p.pos (leEnc 4 i.key.length ++ i.key)) :
    readKey contents p = .ok (CName.ofBuffer i.key,
      p.advance (4 + i.key.length) (leEnc 4 i.key.length ++ i.key)) := by
  have hlen : leDec (leEnc 4 i.key.length) = i.key.length := by
    have hle := i.key_bounds.2
    exact leDec_leEnc_of_lt (by unfold maxLen at hle; omega)
  have hkey := hat.right
  rw [length_leEnc] at hkey
  refine bind_eq_ok.mpr ⟨_, readRest_of_hasAt hat.left (length_leEnc 4 _), ?_⟩
  dsimp only
  rw [hlen, if_neg (by have := i.key_bounds; omega)]
  refine bind_eq_ok.mpr ⟨_, readRest_of_hasAt hkey rfl, ?_⟩
  rw [if_neg (by rw [i.key_nul]; simp), ReadPos.advance_advance]

theorem readData_item {data : List UInt8} (hat : HasAt contents p.pos data) :
    ∃ value, readData r contents flags type data.length p =
      .ok (value, p.advance data.length data) := by
  unfold readData
  split
  · rw [hat.peekAt]
    exact ⟨_, rfl⟩
  · exact ⟨_, bind_eq_ok.mpr ⟨_, readRest_of_hasAt hat rfl, rfl⟩⟩

theorem readValue_item (i : Item)
    (hat : HasAt contents p.pos (leEnc 4 i.type.toNat ++ leEnc 4 i.data.length ++ i.data)) :
    ∃ value, readValue r contents flags p = .ok (value, p.advance (8 + i.data.length)
        (leEnc 4 i.type.toNat ++ leEnc 4 i.data.length ++ i.data)) := by
  have hlen : leDec (leEnc 4 i.data.length) = i.data.length := by
    have hle := i.data_le
    exact leDec_leEnc_of_lt (by unfold maxLen at hle; omega)
  have hsize := hat.left.right
  have hdata := hat.right
  rw [length_leEnc] at hsize
  rw [List.length_append, length_leEnc, length_leEnc] at hdata
  obtain ⟨value, hvalue⟩ : ∃ value, readData r contents flags
      (UInt32.ofNat (leDec (leEnc 4 i.type.toNat))) i.data.length
      ((p.advance 4 (leEnc 4 i.type.toNat)).advance 4 (leEnc 4 i.data.length)) =
        .ok (value, _) := readData_item (by simpa [ReadPos.advance] using hdata)
  refine ⟨value, bind_eq_ok.mpr ⟨_, readRest_of_hasAt hat.left.left (length_leEnc 4 _), ?_⟩⟩
  refine bind_eq_ok.mpr ⟨_, readRest_of_hasAt hsize (length_leEnc 4 _), ?_⟩
  dsimp only
  rw [hlen, if_neg (Nat.not_lt.mpr i.data_le), hvalue, ReadPos.advance_advance,
    ReadPos.advance_advance, ← Nat.add_assoc, List.append_assoc]

/-- **An item that is there is read**, and moves the reading behind it. -/
theorem readKeyValuePair_item (i : Item) (hmajor : r.major = 2) (hover : ¬ r.Over p)
    (hat : HasAt contents p.pos i.encode) :
    ∃ e, readKeyValuePair r contents p = .ok (e, p.advance i.encode.length i.hashed) := by
  have hflags := hat.left.right
  have hbody := hat.right
  rw [length_leEnc] at hflags
  rw [List.length_append, length_leEnc, length_leEnc, ← Nat.add_assoc] at hbody
  have hvalue := hbody.right
  rw [List.length_append, length_leEnc] at hvalue
  let p₁ := p.advance 2 (leEnc 2 itemSignature.toNat)
  let p₂ := p₁.advance 4 (leEnc 4 (itemFlags i.flags).toNat)
  let p₃ := p₂.advance (4 + i.key.length) (leEnc 4 i.key.length ++ i.key)
  have hend : p₃.advance (8 + i.data.length)
      (leEnc 4 i.type.toNat ++ leEnc 4 i.data.length ++ i.data) =
        p.advance i.encode.length i.hashed := by
    have hlen : i.encode.length = 2 + 4 + (4 + i.key.length) + (8 + i.data.length) := by
      simp only [Item.encode, Item.body, List.length_append, length_leEnc]
      omega
    simp only [p₃, p₂, p₁, ReadPos.advance_advance, hlen, Item.hashed, Item.body,
      List.append_assoc, Nat.add_assoc]
  have hkey : readKey contents p₂ = .ok (CName.ofBuffer i.key, p₃) := readKey_item i hbody.left
  obtain ⟨value, hvalue⟩ : ∃ value, readValue r contents
      (if r.static then flagsClear (itemFlags i.flags) ServiceConfig.nocache
        else itemFlags i.flags) p₃ = .ok (value, p.advance i.encode.length i.hashed) :=
    hend ▸ readValue_item i hvalue
  exact ⟨_, bind_eq_ok.mpr ⟨p₁, readSignature_item hmajor hover hat.left.left,
    bind_eq_ok.mpr ⟨_, readFlags_item hmajor hflags, bind_eq_ok.mpr ⟨_, hkey,
      bind_eq_ok.mpr ⟨_, hvalue, rfl⟩⟩⟩⟩⟩

/-! ## Reading on -/

/-- Nothing read is taken back. -/
def ReadPos.Leads (p p' : ReadPos) : Prop :=
  p.pos ≤ p'.pos ∧ p.hashed.length ≤ p'.hashed.length

theorem ReadPos.leads_refl (p : ReadPos) : p.Leads p := ⟨Nat.le_refl _, Nat.le_refl _⟩

theorem ReadPos.leads_advance (p : ReadPos) (n : Nat) (bytes : List UInt8) :
    p.Leads (p.advance n bytes) := by
  simp [ReadPos.Leads, ReadPos.advance]

theorem ReadPos.Leads.trans {p p' p'' : ReadPos} (h : p.Leads p') (h' : p'.Leads p'') :
    p.Leads p'' := ⟨h.1.trans h'.1, h.2.trans h'.2⟩

/-- A signature that is read is two bytes, and only version 2 has one. -/
theorem readSignature_cases (h : readSignature r contents p = .ok p') :
    (r.major ≠ 2 ∧ p' = p) ∨ ∃ bytes, bytes.length = 2 ∧ p' = p.advance 2 bytes := by
  unfold readSignature at h
  split at h
  · split at h
    · cases h
    · obtain ⟨bytes, hread, h⟩ := bind_eq_ok.mp h
      obtain ⟨rfl, hlen⟩ := readFirst_ok hread
      dsimp only at h
      split at h
      · cases h
      · split at h
        · cases h
        · exact .inr ⟨_, hlen, (Except.ok.inj h).symm⟩
  · exact .inl ⟨‹_›, (Except.ok.inj h).symm⟩

theorem readSignature_leads (h : readSignature r contents p = .ok p') : p.Leads p' := by
  rcases readSignature_cases h with ⟨_, rfl⟩ | ⟨bytes, _, rfl⟩
  · exact p'.leads_refl
  · exact p.leads_advance 2 bytes

/-- The flags are four bytes. -/
theorem readFlags_eq_advance (h : readFlags r contents p = .ok (flags, p')) :
    p' = p.advance 4 (leEnc 4 flags.toNat) := by
  obtain ⟨bytes, _, h⟩ := bind_eq_ok.mp h
  dsimp only at h
  split at h
  · cases h
  · split at h
    · cases h
    · obtain ⟨rfl, rfl⟩ := Prod.mk.inj (Except.ok.inj h)
      rfl

theorem readKey_leads {key : CName} (h : readKey contents p = .ok (key, p')) : p.Leads p' := by
  obtain ⟨bytes, _, h⟩ := bind_eq_ok.mp h
  dsimp only at h
  split at h
  · cases h
  · obtain ⟨name, _, h⟩ := bind_eq_ok.mp h
    split at h
    · cases h
    · obtain ⟨_, rfl⟩ := Prod.mk.inj (Except.ok.inj h)
      exact (p.leads_advance _ _).trans (ReadPos.leads_advance _ _ _)

theorem readData_leads {len : Nat} {value : CacheData}
    (h : readData r contents flags type len p = .ok (value, p')) : p.Leads p' := by
  unfold readData at h
  split at h
  · obtain ⟨_, rfl⟩ := Prod.mk.inj (Except.ok.inj h)
    exact p.leads_advance _ _
  · obtain ⟨bytes, _, h⟩ := bind_eq_ok.mp h
    obtain ⟨_, rfl⟩ := Prod.mk.inj (Except.ok.inj h)
    exact p.leads_advance _ _

theorem readValue_leads {value : CacheData} (h : readValue r contents flags p = .ok (value, p')) :
    p.Leads p' := by
  obtain ⟨type, _, h⟩ := bind_eq_ok.mp h
  obtain ⟨len, _, h⟩ := bind_eq_ok.mp h
  dsimp only at h
  split at h
  · cases h
  · exact ((p.leads_advance _ _).trans (ReadPos.leads_advance _ _ _)).trans (readData_leads h)

/-- **A pair moves the reading on**, by four bytes at least. -/
theorem readKeyValuePair_leads {e : DataCacheEntry}
    (h : readKeyValuePair r contents p = .ok (e, p')) :
    p.pos + 4 ≤ p'.pos ∧ p.hashed.length + 4 ≤ p'.hashed.length := by
  obtain ⟨p₁, hsignature, h⟩ := bind_eq_ok.mp h
  obtain ⟨⟨flags, p₂⟩, hflags, h⟩ := bind_eq_ok.mp h
  obtain ⟨⟨key, p₃⟩, hkey, h⟩ := bind_eq_ok.mp h
  obtain ⟨⟨value, p₄⟩, hvalue, h⟩ := bind_eq_ok.mp h
  obtain ⟨_, rfl⟩ := Prod.mk.inj (Except.ok.inj h)
  obtain ⟨hpos, hlen⟩ := readSignature_leads hsignature
  obtain rfl := readFlags_eq_advance hflags
  obtain ⟨hpos', hlen'⟩ := (readKey_leads hkey).trans (readValue_leads hvalue)
  simp only [ReadPos.advance, List.length_append, length_leEnc] at hpos' hlen'
  omega

/-- What fails has a code that is not `ESIF_OK`. -/
def Genuine {α : Type} (x : Except ReadEnd α) : Prop :=
  ∀ rc, x = .error (.failed rc) → rc ≠ esifOk

theorem genuine_ok {α : Type} (a : α) : Genuine (.ok a) := fun _ h => nomatch h

theorem genuine_done {α : Type} : Genuine (.error .done : Except ReadEnd α) :=
  fun _ h => nomatch h

theorem genuine_failed {α : Type} {rc : EsifError} (h : rc ≠ esifOk) :
    Genuine (.error (.failed rc) : Except ReadEnd α) := by
  rintro rc' hrc
  cases hrc
  exact h

theorem Genuine.bind {α β : Type} {x : Except ReadEnd α} {f : α → Except ReadEnd β}
    (hx : Genuine x) (hf : ∀ a, Genuine (f a)) : Genuine (x >>= f) := by
  intro rc h
  cases x with
  | error e =>
    obtain rfl := Except.error.inj h
    exact hx rc rfl
  | ok a => exact hf a rc h

theorem genuine_readFirst (pos n : Nat) : Genuine (readFirst contents pos n) := by
  unfold readFirst
  dsimp only
  split
  · exact genuine_ok _
  · split
    · exact genuine_done
    · exact genuine_failed (by decide)

theorem genuine_readRest (pos n : Nat) : Genuine (readRest contents pos n) := by
  unfold readRest
  dsimp only
  split
  · exact genuine_ok _
  · exact genuine_failed (by decide)

theorem genuine_readSignature : Genuine (readSignature r contents p) := by
  unfold readSignature
  split
  · split
    · exact genuine_done
    · refine (genuine_readFirst _ _).bind fun bytes => ?_
      dsimp only
      split
      · exact genuine_done
      · split
        · exact genuine_failed (by decide)
        · exact genuine_ok _
  · exact genuine_ok _

theorem genuine_readFlags : Genuine (readFlags r contents p) := by
  refine (genuine_readFirst _ _).bind fun bytes => ?_
  dsimp only
  split
  · exact genuine_done
  · split
    · exact genuine_failed (by decide)
    · exact genuine_ok _

theorem genuine_readKey : Genuine (readKey contents p) := by
  refine (genuine_readRest _ _).bind fun bytes => ?_
  dsimp only
  split
  · exact genuine_failed (by decide)
  · refine (genuine_readRest _ _).bind fun name => ?_
    split
    · exact genuine_failed (by decide)
    · exact genuine_ok _

theorem genuine_readValue : Genuine (readValue r contents flags p) := by
  refine (genuine_readRest _ _).bind fun type => (genuine_readRest _ _).bind fun len => ?_
  dsimp only
  split
  · exact genuine_failed (by decide)
  · unfold readData
    split
    · exact genuine_ok _
    · exact (genuine_readRest _ _).bind fun bytes => genuine_ok _

theorem genuine_readKeyValuePair : Genuine (readKeyValuePair r contents p) :=
  genuine_readSignature.bind fun _ => genuine_readFlags.bind fun _ => genuine_readKey.bind fun _ =>
    genuine_readValue.bind fun _ => genuine_ok _

/-! ## All items, and what is behind them -/

/-- Nothing stands at a position, or the next header does. -/
def StopsAt (contents : List UInt8) (pos : Nat) : Prop :=
  contents.drop pos = [] ∨ peekAt contents pos 2 = leEnc 2 headerSignature.toNat

variable {mode : ImportType} {image : List UInt8}

theorem readPairs_of_ok {e : DataCacheEntry} (h : readKeyValuePair r contents p = .ok (e, p'))
    (fuel : Nat) (cache : DataCache) :
    readPairs r mode image contents (fuel + 1) p cache =
      readPairs r mode image contents fuel p' (addPair mode image cache e) := by
  rw [readPairs, h]

/-- **Items that are there are read**, as long as the payload is not over. -/
theorem readPairs_items (hmajor : r.major = 2) {items : List Item} (cache : DataCache)
    (hat : HasAt contents p.pos (encodeItems items))
    (hsize : flagsTest r.flags ServiceConfig.compressed = true ∨
      p.hashed.length + (encodeItems items).length ≤ r.payloadSize) :
    ∃ cache', ∀ fuel, readPairs r mode image contents (items.length + fuel) p cache =
      readPairs r mode image contents fuel
        (p.advance (encodeItems items).length (hashedItems items)) cache' := by
  induction items generalizing p cache with
  | nil =>
    refine ⟨cache, fun fuel => ?_⟩
    simp [encodeItems, hashedItems, ReadPos.advance]
  | cons i items ih =>
    have hcons : encodeItems (i :: items) = i.encode ++ encodeItems items := List.flatMap_cons
    rw [hcons] at hat hsize
    rw [List.length_append] at hsize
    have hpos := i.length_encode_pos
    have hover : ¬ r.Over p := by
      rintro ⟨hplain, hle⟩
      rcases hsize with hcompressed | hsize
      · rw [hplain] at hcompressed
        cases hcompressed
      · omega
    obtain ⟨e, he⟩ := readKeyValuePair_item i hmajor hover hat.left
    obtain ⟨cache', hrest⟩ := ih (addPair mode image cache e)
      (p := p.advance i.encode.length i.hashed) hat.right (hsize.imp_right fun hsize => by
        simp only [ReadPos.advance, List.length_append, Item.length_hashed]
        omega)
    refine ⟨cache', fun fuel => ?_⟩
    rw [List.length_cons, Nat.add_right_comm, readPairs_of_ok he, hrest fuel, hcons,
      ReadPos.advance_advance, List.length_append]
    rfl

theorem readSignature_of_over (hmajor : r.major = 2) (hover : r.Over p) :
    readSignature r contents p = .error .done := by
  unfold readSignature
  rw [if_pos hmajor]
  exact if_pos hover

theorem readSignature_of_stopsAt (hmajor : r.major = 2) (hstops : StopsAt contents p.pos) :
    readSignature r contents p = .error .done := by
  by_cases hover : r.Over p
  · exact readSignature_of_over hmajor hover
  unfold Reading.Over at hover
  unfold readSignature
  rw [if_pos hmajor, if_neg hover]
  rcases hstops with hnone | hheader
  · have hread : readFirst contents p.pos 2 = .error .done := by
      unfold readFirst peekAt
      rw [hnone]
      rfl
    rw [hread]
    rfl
  · have hread : readFirst contents p.pos 2 = .ok (leEnc 2 headerSignature.toNat) := by
      unfold readFirst
      rw [hheader]
      rfl
    rw [hread]
    rfl

/-- Two bytes that are read as the signature of a header are that signature. -/
theorem eq_of_headerSignature (hlen : bytes.length = 2)
    (h : UInt16.ofNat (leDec bytes) = headerSignature) : bytes = leEnc 2 headerSignature.toNat := by
  have hlt : leDec bytes < 2 ^ 16 := by
    have := leDec_lt bytes
    rw [hlen] at this
    omega
  have hdec : leDec bytes = headerSignature.toNat := by
    rw [← h, UInt16.toNat_ofNat', Nat.mod_eq_of_lt hlt]
  rw [← hdec, ← hlen, leEnc_leDec]

/-- Where no signature is read and that is no error, the payload is over or stops. -/
theorem readSignature_done (h : readSignature r contents p = .error .done) :
    r.Over p ∨ StopsAt contents p.pos := by
  unfold readSignature at h
  split at h
  · split at h
    · exact .inl ‹_›
    · refine .inr ?_
      cases hread : readFirst contents p.pos 2 with
      | error e =>
        rw [hread] at h
        obtain rfl := Except.error.inj h
        unfold readFirst at hread
        dsimp only at hread
        split at hread
        · cases hread
        · split at hread
          · rename_i hnone
            exact .inl ((List.take_eq_nil_iff.mp hnone).resolve_left (by decide))
          · cases hread
      | ok bytes =>
        rw [hread] at h
        obtain ⟨rfl, hlen⟩ := readFirst_ok hread
        change (if _ then _ else if _ then _ else _) = _ at h
        split at h
        · exact .inr (eq_of_headerSignature hlen ‹_›)
        · split at h <;> cases h
  · cases h

/-- The reading of pairs takes nothing back that was hashed. -/
theorem length_hashed_le_readPairs (fuel : Nat) (cache : DataCache) :
    p.hashed.length ≤ (readPairs r mode image contents fuel p cache).hashed.length := by
  induction fuel generalizing p cache with
  | zero => exact Nat.le_refl _
  | succ fuel ih =>
    unfold readPairs
    split
    · unfold pairsEnd
      split
      · exact Nat.le_refl _
      · exact (readSignature_leads ‹_›).2
    · exact Nat.le_refl _
    · rename_i hpair
      have hmore := (readKeyValuePair_leads hpair).2
      exact le_trans (Nat.le_trans (Nat.le_add_right _ 4) hmore) (ih _)

theorem readPairs_of_done (h : readSignature r contents p = .error .done) (fuel : Nat)
    (cache : DataCache) :
    readPairs r mode image contents (fuel + 1) p cache = ⟨esifOk, cache, p.hashed⟩ := by
  have hpair : readKeyValuePair r contents p = .error .done := by
    unfold readKeyValuePair
    rw [h]
    rfl
  rw [readPairs, hpair]
  dsimp only
  rw [pairsEnd, h]

/-- **Reading on behind the payload** fails, or adds to the digest. -/
theorem readPairs_behind (hover : ¬ r.Over p) (hmajor : r.major = 2)
    (hon : ¬ StopsAt contents p.pos) {fuel : Nat} {cache : DataCache}
    (hok : (readPairs r mode image contents (fuel + 1) p cache).rc = esifOk) :
    p.hashed.length < (readPairs r mode image contents (fuel + 1) p cache).hashed.length := by
  unfold readPairs at hok ⊢
  cases hpair : readKeyValuePair r contents p with
  | error e =>
    rw [hpair] at hok
    cases e with
    | done =>
      dsimp only
      unfold pairsEnd
      cases hsignature : readSignature r contents p with
      | error e =>
        unfold readKeyValuePair at hpair
        rw [hsignature] at hpair
        obtain rfl := Except.error.inj hpair
        rcases readSignature_done hsignature with h | h
        · exact absurd h hover
        · exact absurd h hon
      | ok p₁ =>
        rcases readSignature_cases hsignature with ⟨hnot, _⟩ | ⟨bytes, hlen, rfl⟩
        · exact absurd hmajor hnot
        · dsimp only [ReadPos.advance]
          rw [List.length_append]
          omega
    | failed rc => exact absurd hok (genuine_readKeyValuePair rc hpair)
  | ok ep =>
    obtain ⟨e, p'⟩ := ep
    have hmore := (readKeyValuePair_leads hpair).2
    have hle : p'.hashed.length ≤ (readPairs r mode image contents fuel p'
        (addPair mode image cache e)).hashed.length := length_hashed_le_readPairs _ _
    dsimp only
    omega

end Read

/-! ## The second hash -/

section Passes

variable [DecidableEq δ] {env : Env δ} {v : DigestedVault δ} {mode : ImportType}
  {seg : DvFile δ} {v2 : HeaderV2 δ} {items : List Item}

/-- A version 2 segment of keys that is not compressed, was found valid, and whose payload is that
of some items. -/
structure ValidKeys (env : Env δ) (seg : DvFile δ) (v2 : HeaderV2 δ) (items : List Item) :
    Prop where
  header : seg.header.v2 = some v2
  major : esifhdrGetMajor seg.header.version = 2
  uncompressed : flagsTest seg.header.flags ServiceConfig.compressed = false
  keys : v2.payloadClass = payloadClassKeys
  valid : validatePayload env seg = .ok ()
  items : peekAt seg.payload 0 v2.payloadSize.toNat = encodeItems items

/-- The segment is loaded: the digest computed while reading is that of the header. -/
def PassesAgree (env : Env δ) (memory : Bool) (mode : ImportType) (v : DigestedVault δ)
    (seg : DvFile δ) : Prop :=
  (v.readSegment env (DigestedVault.readKeys env memory) mode seg).1 = esifOk

/-- What is read is hashed as it stands: no item has a flag that is ignored, and the vault does
not read on behind the payload, as one with the flag of a compressed segment does. -/
structure HashedAsItStands (mode : ImportType) (v : DigestedVault δ) (seg : DvFile δ)
    (v2 : HeaderV2 δ) (items : List Item) : Prop where
  plain : ∀ i ∈ items, i.Plain
  behind : v.takesHeader mode seg.header = true ∨
    flagsTest v.flags ServiceConfig.compressed = false ∨
    StopsAt seg.payload v2.payloadSize.toNat

/-- A payload that is valid is there in full, with the hash of its header. -/
theorem matches_of_valid (hv2 : seg.header.v2 = some v2)
    (hvalid : validatePayload env seg = .ok ()) : seg.Matches env v2 := by
  by_contra hnot
  obtain ⟨e, he, _⟩ := validatePayload_of_not_matches hv2 hnot
  rw [he] at hvalid
  cases hvalid

theorem length_le_encodeItems (items : List Item) : items.length ≤ (encodeItems items).length := by
  induction items with
  | nil => exact Nat.le_refl _
  | cons i items ih =>
    have hpos := i.length_encode_pos
    rw [encodeItems, List.flatMap_cons, List.length_append, List.length_cons]
    unfold encodeItems at ih
    omega

namespace ValidKeys

theorem length_items (h : ValidKeys env seg v2 items) :
    (encodeItems items).length = v2.payloadSize.toNat := by
  rw [← h.items]
  exact (matches_of_valid h.header h.valid).1

theorem hash_items (h : ValidKeys env seg v2 items) :
    env.sha256 (encodeItems items) = v2.payloadHash := by
  rw [← h.items]
  exact (matches_of_valid h.header h.valid).2

theorem hasAt_items (h : ValidKeys env seg v2 items) : HasAt seg.payload 0 (encodeItems items) := by
  refine ⟨[], seg.payload.drop v2.payloadSize.toNat, ?_, rfl⟩
  rw [← h.items, peekAt, List.drop_zero, List.nil_append, List.take_append_drop]

/-- The payload goes by the flags of the header if it is taken, else by those of the vault. -/
theorem compressed_enter (h : ValidKeys env seg v2 items) :
    flagsTest (v.enter mode seg.header).flags ServiceConfig.compressed = false ↔
      v.takesHeader mode seg.header = true ∨
        flagsTest v.flags ServiceConfig.compressed = false := by
  cases htakes : v.takesHeader mode seg.header with
  | true =>
    have hflags : (v.enter mode seg.header).flags = seg.header.flags :=
      congrArg (fun values => values.2.1) (DigestedVault.enter_headerValues h.header htakes)
    rw [hflags, h.uncompressed]
    simp
  | false =>
    rw [DigestedVault.enter_of_not_takesHeader htakes]
    simp

/-- What the loop over the pairs comes to: all items, and then what is behind them. -/
theorem readPairs_eq (h : ValidKeys env seg v2 items) {r : Reading} (hmajor : r.major = 2)
    (hsize : r.payloadSize = v2.payloadSize.toNat) (mode : ImportType) (image : List UInt8)
    (cache : DataCache) :
    ∃ fuel cache', readPairs r mode image seg.payload (seg.payload.length + 1) ⟨0, []⟩ cache =
      readPairs r mode image seg.payload (fuel + 1)
        ⟨v2.payloadSize.toNat, hashedItems items⟩ cache' := by
  have hroom : ([] : List UInt8).length + (encodeItems items).length ≤ r.payloadSize := by
    rw [hsize, h.length_items]
    simp
  obtain ⟨cache', hcache⟩ : ∃ cache', ∀ fuel,
      readPairs r mode image seg.payload (items.length + fuel) ⟨0, []⟩ cache =
        readPairs r mode image seg.payload fuel (ReadPos.advance ⟨0, []⟩ (encodeItems items).length
          (hashedItems items)) cache' := readPairs_items hmajor cache h.hasAt_items (.inr hroom)
  have hfuel : items.length + (seg.payload.length - items.length + 1) = seg.payload.length + 1 := by
    have hitems := length_le_encodeItems items
    have hthere := h.hasAt_items.length_le
    omega
  refine ⟨seg.payload.length - items.length, cache', ?_⟩
  rw [← hfuel, hcache]
  simp [ReadPos.advance, h.length_items]

end ValidKeys

/-- The second validation, of what was hashed. -/
theorem validateHash_eq_ok (hv2 : seg.header.v2 = some v2) (hashed : List UInt8) :
    validateHash env seg.header hashed = esifOk ↔
      env.sha256 hashed = v2.payloadHash ∧ v2.payloadSize = UInt32.ofNat hashed.length := by
  unfold validateHash
  rw [hv2]
  dsimp only
  split
  · rename_i hor
    refine iff_of_false (by decide) ?_
    rintro ⟨hhash, hsize⟩
    rcases hor with hne | hne
    · exact hne hhash
    · exact hne hsize
  · rename_i hnot
    rw [not_or, not_not, not_not] at hnot
    exact iff_of_true rfl hnot

/-- **What the pairs of a valid payload come to.**  Where the reading ends with the payload, its
items are hashed; where it does not, more is. -/
theorem ValidKeys.readPairs_cases (h : ValidKeys env seg v2 items) {r : Reading}
    (hmajor : r.major = 2) (hsize : r.payloadSize = v2.payloadSize.toNat) (mode : ImportType)
    (image : List UInt8) (cache : DataCache) :
    let result := readPairs r mode image seg.payload (seg.payload.length + 1) ⟨0, []⟩ cache
    (flagsTest r.flags ServiceConfig.compressed = false ∨ StopsAt seg.payload v2.payloadSize.toNat →
      result.rc = esifOk ∧ result.hashed = hashedItems items) ∧
    (¬ (flagsTest r.flags ServiceConfig.compressed = false ∨
        StopsAt seg.payload v2.payloadSize.toNat) →
      result.rc = esifOk → (encodeItems items).length < result.hashed.length) := by
  obtain ⟨fuel, cache', hresult⟩ := h.readPairs_eq hmajor hsize mode image cache
  rw [hresult]
  refine ⟨fun hends => ?_, fun hon hok => ?_⟩
  · have hdone : readSignature r seg.payload ⟨v2.payloadSize.toNat, hashedItems items⟩ =
        .error .done := by
      rcases hends with hplain | hstops
      · refine readSignature_of_over hmajor ⟨hplain, ?_⟩
        rw [hsize, length_hashedItems, h.length_items]
      · exact readSignature_of_stopsAt hmajor hstops
    rw [readPairs_of_done hdone]
    exact ⟨rfl, rfl⟩
  · rw [not_or] at hon
    have hmore := readPairs_behind (fun hover => hon.1 hover.1) hmajor hon.2 hok
    rwa [length_hashedItems] at hmore

/-- What is checked only after a success succeeds if both do. -/
theorem ite_rc_eq_ok {rc rc' : EsifError} :
    (if rc = esifOk then rc' else rc) = esifOk ↔ rc = esifOk ∧ rc' = esifOk := by
  split
  · exact (and_iff_right ‹_›).symm
  · exact iff_of_false ‹_› fun hok => absurd hok.1 ‹_›

/-- The load succeeds just if the pairs are read and their hash is that of the header. -/
theorem ValidKeys.passesAgree (h : ValidKeys env seg v2 items) (memory : Bool)
    (mode : ImportType) (v : DigestedVault δ) :
    ∃ (r : Reading) (image : List UInt8) (cache : DataCache),
      r.major = 2 ∧ r.payloadSize = v2.payloadSize.toNat ∧
      r.flags = (v.enter mode seg.header).flags ∧
      (PassesAgree env memory mode v seg ↔
        (readPairs r mode image seg.payload (seg.payload.length + 1) ⟨0, []⟩ cache).rc = esifOk ∧
          validateHash env seg.header
            (readPairs r mode image seg.payload (seg.payload.length + 1) ⟨0, []⟩ cache).hashed =
              esifOk) := by
  let w := (v.enter mode seg.header).validated seg
  have hsize : (w.reading mode memory seg.header).payloadSize = v2.payloadSize.toNat := by
    unfold DataVault.reading
    rw [h.header]
    rfl
  have hflags : w.flags = (v.enter mode seg.header).flags :=
    congrArg DataVault.flags DigestedVault.validated_toDataVault
  refine ⟨w.reading mode memory seg.header, if memory then w.image ++ seg.payload else w.image,
    w.cache, h.major, hsize, hflags, ?_⟩
  unfold PassesAgree DigestedVault.readSegment
  rw [h.valid]
  exact ite_rc_eq_ok

/-- **When the second hash is the first one**: when no item has a flag that is ignored and the
reading ends with the payload.  Then the segment is loaded; and then only, if nothing else has the
hash of the payload. -/
theorem passesAgree_iff (memory : Bool) (mode : ImportType) (v : DigestedVault δ)
    (h : ValidKeys env seg v2 items) :
    (HashedAsItStands mode v seg v2 items → PassesAgree env memory mode v seg) ∧
      ((∀ bytes, env.sha256 bytes = v2.payloadHash → bytes = encodeItems items) →
        PassesAgree env memory mode v seg → HashedAsItStands mode v seg v2 items) := by
  obtain ⟨r, image, cache, hmajor, hsize, hflags, hpass⟩ := h.passesAgree memory mode v
  obtain ⟨hends, hon⟩ := h.readPairs_cases hmajor hsize mode image cache
  rw [hpass, validateHash_eq_ok h.header]
  rw [hflags, h.compressed_enter, or_assoc] at hends hon
  constructor
  · rintro ⟨hplain, hbehind⟩
    obtain ⟨hrc, hhashed⟩ := hends hbehind
    rw [hashedItems_eq_encodeItems_iff.mpr hplain] at hhashed
    rw [hhashed, h.length_items, UInt32.ofNat_toNat]
    exact ⟨hrc, h.hash_items, rfl⟩
  · rintro hunique ⟨hrc, hhash, _⟩
    have hsame := hunique _ hhash
    have hbehind : v.takesHeader mode seg.header = true ∨
        flagsTest v.flags ServiceConfig.compressed = false ∨
        StopsAt seg.payload v2.payloadSize.toNat := by
      by_contra hnot
      have hmore := hon hnot hrc
      rw [hsame] at hmore
      exact lt_irrefl _ hmore
    refine ⟨?_, hbehind⟩
    rw [← hashedItems_eq_encodeItems_iff, ← (hends hbehind).2, hsame]

end Passes

/-- The key `k` with the text `v`. -/
def itemOf (flags : UInt32) : Item where
  flags := flags
  key := [107, 0]
  type := esifDataString
  data := [118, 0]
  key_bounds := by decide
  key_nul := rfl
  data_le := by decide

/-- An item that is persisted. -/
def persistedItem : Item := itemOf ServiceConfig.persist

/-- An item whose writing may be delayed, too. -/
def delayedItem : Item := itemOf (ServiceConfig.persist ||| ServiceConfig.delaywrite)

/-- The SHA-256 of the one payload. -/
def persistedHash : List UInt8 :=
  [243, 156, 96, 19, 194, 193, 47, 196, 97, 177, 153, 35, 48, 138, 49, 151,
   36, 243, 73, 153, 227, 101, 184, 213, 14, 50, 133, 114, 227, 176, 176, 32]

/-- The SHA-256 of the other payload. -/
def delayedHash : List UInt8 :=
  [30, 79, 67, 231, 246, 116, 145, 163, 45, 176, 250, 43, 197, 191, 33, 65,
   158, 171, 9, 183, 82, 30, 120, 222, 207, 128, 254, 135, 129, 111, 110, 253]

/-- SHA-256 on these two payloads. -/
def itemEnv : Env (List UInt8) :=
  { plainEnv with
    sha256 := fun bytes =>
      if bytes = persistedItem.encode then persistedHash
      else if bytes = delayedItem.encode then delayedHash
      else [] }

/-- The segment of one item. -/
def segmentOf (i : Item) (hash : List UInt8) : DvFile (List UInt8) where
  header :=
    { signature := headerSignature, headersize := sizeofHeaderV2, version := currentVersion,
      flags := 0,
      v2 := some ⟨⟨[97], nul_free_a⟩, ⟨[], CName.nul_free_nil⟩, hash, .ofNat i.encode.length,
        payloadClassKeys⟩ }
  payload := i.encode

theorem persistedItem_plain : ∀ i ∈ [persistedItem], i.Plain := by
  intro i hi
  obtain rfl := List.mem_singleton.mp hi
  unfold Item.Plain
  decide

theorem persisted_validKeys : ValidKeys itemEnv (segmentOf persistedItem persistedHash)
    ⟨⟨[97], by decide⟩, ⟨[], by decide⟩, persistedHash, .ofNat persistedItem.encode.length,
      payloadClassKeys⟩ [persistedItem] :=
  ⟨rfl, by decide, by decide, rfl, by decide +kernel, by decide +kernel⟩

/-- The item that is persisted only is loaded. -/
theorem passesAgree_persisted : PassesAgree itemEnv false .merge ⟨emptyVault, none⟩
    (segmentOf persistedItem persistedHash) :=
  (passesAgree_iff false .merge ⟨emptyVault, none⟩ persisted_validKeys).1
    ⟨persistedItem_plain, .inl (by decide)⟩

/-- Not every valid payload passes the second time: the flag for a delayed writing is cleared
before it is hashed. -/
theorem not_passesAgree : ¬ ∀ (env : Env (List UInt8)) (memory : Bool) (mode : ImportType)
    (v : DigestedVault (List UInt8)) (seg : DvFile (List UInt8)) (v2 : HeaderV2 (List UInt8))
    (items : List Item), ValidKeys env seg v2 items → PassesAgree env memory mode v seg := by
  intro h
  have hvalid : ValidKeys itemEnv (segmentOf delayedItem delayedHash)
      ⟨⟨[97], by decide⟩, ⟨[], by decide⟩, delayedHash, .ofNat delayedItem.encode.length,
        payloadClassKeys⟩ [delayedItem] :=
    ⟨rfl, by decide, by decide, rfl, by decide +kernel, by decide +kernel⟩
  have hpass := h itemEnv false .merge ⟨emptyVault, none⟩ _ _ _ hvalid
  unfold PassesAgree at hpass
  exact absurd hpass (by decide +kernel)

end Vault

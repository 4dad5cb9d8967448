import Dptf.Vault.Opened

/-!
# One segment and the vault it is read into

`DataVault_ReadSegment` with the digest of the vault, which says whether a segment
was loaded before.  The header is taken first, where it is the vault's own; then the
payload is validated, which computes the digest anew; then it is read; and where the
header was not taken the digest is put back.

* `readSegment_of_corrupted` — what a payload that is not the header's leaves.
-/

open Lib

namespace Vault

variable {δ : Type}

/-! ## Reading a segment -/

/-- A `DataVault` with its `digest`. -/
structure DigestedVault (δ : Type) extends DataVault δ where
  /-- What was hashed since `esif_sha256_init`; nothing as long as the digest is all zeros. -/
  digest : Option (List UInt8)
deriving DecidableEq, Repr

/-- What the reading of a payload returns and changes. -/
structure PayloadRead where
  rc : EsifError
  cache : DataCache
  image : List UInt8
  digest : Option (List UInt8)

/-- What is returned to a caller, for whom the end is no error. -/
def ReadEnd.rc : ReadEnd → EsifError
  | .done => esifOk
  | .failed rc => rc

/-- A payload class that is read. -/
def isSupportedClass (payloadClass : UInt32) : Bool :=
  payloadClass = payloadClassKeys ∨ payloadClass = payloadClassRepo

namespace DigestedVault

/-- `IsEmptyDigest`. -/
def isEmptyDigest (v : DigestedVault δ) : Bool := v.digest.isNone

/-- The vault takes the values of a header, and `restoreDigest` is false. -/
def takesHeader (mode : ImportType) (v : DigestedVault δ) (h : DataVaultHeader δ) : Bool :=
  match h.v2 with
  | none => v.isEmptyDigest ∨ mode = .copy
  | some _ => v.isEmptyDigest ∨ v.isSegmentMatch h ∧ mode = .copy

/-- The vault with the values of a header, if it takes them. -/
def enter (mode : ImportType) (v : DigestedVault δ) (h : DataVaultHeader δ) : DigestedVault δ :=
  { v with toDataVault := v.takeHeader v.isEmptyDigest mode h }

/-- The vault as `DataVault_ValidatePayload` leaves it.  The digest is of the bytes there are. -/
def validated (v : DigestedVault δ) (seg : DvFile δ) : DigestedVault δ :=
  match seg.header.v2 with
  | none => v
  | some v2 =>
    if maxLen < v2.payloadSize.toNat ∨ isSupportedClass v2.payloadClass = false then v
    else { v with digest := some (peekAt seg.payload 0 v2.payloadSize.toNat) }

/-- The vault as `DataVault_ReadSegment` leaves it: the digest it had before is put back, unless
the header was taken. -/
def leave (taken : Bool) (before : Option (List UInt8)) (v : DigestedVault δ) : DigestedVault δ :=
  if taken then v else { v with digest := before }

/-- `DataVault_ReadSegment`. -/
def readSegment [DecidableEq δ] (env : Env δ)
    (readPayload : ImportType → DigestedVault δ → DvFile δ → PayloadRead) (mode : ImportType)
    (v : DigestedVault δ) (seg : DvFile δ) : EsifError × DigestedVault δ :=
  let w := (v.enter mode seg.header).validated seg
  let taken := v.takesHeader mode seg.header
  match validatePayload env seg with
  | .error e => (e.rc, w.leave taken v.digest)
  | .ok () =>
    let r := readPayload mode w seg
    (r.rc, DigestedVault.leave taken v.digest
      { w with cache := r.cache, image := r.image, digest := r.digest })

/-- `DataVault_ReadPayload` of keys that are not compressed. -/
def readKeys [DecidableEq δ] (env : Env δ) (memory : Bool) (mode : ImportType)
    (v : DigestedVault δ) (seg : DvFile δ) : PayloadRead :=
  let image := if memory then v.image ++ seg.payload else v.image
  let r := readPairs (v.reading mode memory seg.header) mode image seg.payload
    (seg.payload.length + 1) ⟨0, []⟩ v.cache
  ⟨if r.rc = esifOk then validateHash env seg.header r.hashed else r.rc, r.cache, image,
    some r.hashed⟩

end DigestedVault

/-! ## The primary stream -/

/-- A `DataRepo`: its name, a path or the name of a buffer, and its stream. -/
structure DataRepo where
  name : CName
  stream : IOStream
deriving DecidableEq, Repr

/-- `DataRepo_GetName` into a buffer for so many characters: the name without path and
extension. -/
def DataRepo.getName (repo : DataRepo) (room : Nat) : CName :=
  let file := (repo.name.bytes.reverse.takeWhile (· ≠ 47)).reverse
  CName.ofBuffer ((file.take room).takeWhile (· ≠ 46))

/-- `strrchr(repo->name, '.')`. -/
def DataRepo.extension (repo : DataRepo) : Option (List UInt8) :=
  if (46 : UInt8) ∈ repo.name.bytes then
    some (46 :: (repo.name.bytes.reverse.takeWhile (· ≠ 46)).reverse)
  else none

/-- `ESIFDV_FILEEXT`, the characters `.dv`. -/
def dvFileExt : List UInt8 := [46, 100, 118]

namespace DataVault

/-- The conditions of `DataVault_IsPrimary` that are not about the header: there is no other
primary stream, and the repository has the name of the vault. -/
def namesRepo (v : DataVault δ) (repo : DataRepo) : Bool :=
  repo.stream.type ≠ .memory ∧
    (v.stream.type = .null ∨ v.stream.type = .memory ∧ repo.stream.type = .file) ∧
    v.name.folded = (repo.getName nameLen).folded ∧
    repo.extension.all fun ext => ext.map tolower = dvFileExt

/-- `DataVault_IsPrimary`. -/
def isPrimary (v : DataVault δ) (repo : DataRepo) (h : DataVaultHeader δ) : Bool :=
  v.isSegmentMatch h && v.namesRepo repo

/-- What a vault takes from a header. -/
def headerValues (v : DataVault δ) : UInt32 × UInt32 × CName × CName × UInt32 :=
  (v.version, v.flags, v.segmentid, v.comment, v.dataclass)

end DataVault

/-- What a version 2 header gives to a vault. -/
def DataVaultHeader.values (h : DataVaultHeader δ) (v2 : HeaderV2 δ) :
    UInt32 × UInt32 × CName × CName × UInt32 :=
  (h.version, h.flags, v2.segmentid, v2.comment, v2.payloadClass)

/-! ## What each step leaves as it is -/

namespace DigestedVault

variable {v : DigestedVault δ} {mode : ImportType} {h : DataVaultHeader δ} {v2 : HeaderV2 δ}
  {seg : DvFile δ}

/-- A header that is not taken leaves no trace. -/
theorem enter_of_not_takesHeader (hnot : v.takesHeader mode h = false) : v.enter mode h = v := by
  have htake : v.takeHeader v.isEmptyDigest mode h = v.toDataVault := by
    unfold takesHeader at hnot
    unfold DataVault.takeHeader
    cases hv2 : h.v2 with
    | none | some _ =>
      rw [hv2] at hnot
      exact if_neg (of_decide_eq_false hnot)
  rw [enter, htake]

/-- A version 2 header that is taken gives its values. -/
theorem enter_headerValues (hv2 : h.v2 = some v2) (htaken : v.takesHeader mode h = true) :
    (v.enter mode h).headerValues = h.values v2 := by
  unfold takesHeader at htaken
  rw [hv2] at htaken
  unfold enter DataVault.takeHeader
  rw [hv2]
  dsimp only
  rw [if_pos (of_decide_eq_true htaken)]
  rfl

@[simp] theorem enter_cache : (v.enter mode h).cache = v.cache := by
  unfold enter DataVault.takeHeader
  dsimp only
  split <;> split <;> rfl

/-- To validate a payload changes the digest only. -/
@[simp] theorem validated_toDataVault : (v.validated seg).toDataVault = v.toDataVault := by
  unfold validated
  split
  · rfl
  · split <;> rfl

@[simp] theorem leave_toDataVault (taken : Bool) (before : Option (List UInt8)) :
    (v.leave taken before).toDataVault = v.toDataVault := by
  unfold leave
  split <;> rfl

/-- Where the header is not taken, the digest is as it was. -/
theorem validated_leave (seg : DvFile δ) : (v.validated seg).leave false v.digest = v := by
  calc (v.validated seg).leave false v.digest
      = ⟨(v.validated seg).toDataVault, v.digest⟩ := rfl
    _ = v := by rw [validated_toDataVault]

section

variable [DecidableEq δ] {env : Env δ}
  {readPayload : ImportType → DigestedVault δ → DvFile δ → PayloadRead}

/-- **The header values after a segment** are those from before its payload. -/
theorem readSegment_headerValues : (v.readSegment env readPayload mode seg).2.headerValues =
      (v.enter mode seg.header).headerValues := by
  unfold readSegment
  dsimp only
  split
  · rw [leave_toDataVault, validated_toDataVault]
  · rw [leave_toDataVault]
    unfold DataVault.headerValues
    dsimp only
    rw [validated_toDataVault]

/-- A segment that is not found valid: what is returned, and the vault that is left. -/
theorem readSegment_of_error {e : ReadEnd} (he : validatePayload env seg = .error e) :
    v.readSegment env readPayload mode seg = (e.rc,
        ((v.enter mode seg.header).validated seg).leave (v.takesHeader mode seg.header) v.digest) := by
  unfold readSegment
  rw [he]

end

end DigestedVault

/-! ## Corrupted segments -/

section Corrupted

variable {env : Env δ} {v : DigestedVault δ} {h : DataVaultHeader δ} {v2 : HeaderV2 δ}
  {seg : DvFile δ}

/-- The payload is there in full, and has the hash of the header. -/
def DvFile.Matches (env : Env δ) (seg : DvFile δ) (v2 : HeaderV2 δ) : Prop :=
  (peekAt seg.payload 0 v2.payloadSize.toNat).length = v2.payloadSize.toNat ∧
    env.sha256 (peekAt seg.payload 0 v2.payloadSize.toNat) = v2.payloadHash

/-- The payload is passed over: it is of a class that is not read, and has a size. -/
def HeaderV2.Skipped (v2 : HeaderV2 δ) : Prop :=
  isSupportedClass v2.payloadClass = false ∧ v2.payloadSize ≠ 0 ∧ v2.payloadSize.toNat ≤ maxLen

/-- The segment has no name, or that of the vault. -/
def DataVault.Names (v : DataVault δ) (v2 : HeaderV2 δ) : Prop :=
  v2.segmentid.bytes = [] ∨ v2.segmentid.folded = v.name.folded

theorem isSupportedClass_eq_false {payloadClass : UInt32} :
    isSupportedClass payloadClass = false ↔
      payloadClass ≠ payloadClassKeys ∧ payloadClass ≠ payloadClassRepo := by
  simp [isSupportedClass]

/-- A segment without a name, or of the vault's name, matches. -/
theorem isSegmentMatch_of_names (hv2 : h.v2 = some v2) (hnames : v.Names v2) :
    v.isSegmentMatch h = true := by
  unfold DataVault.isSegmentMatch
  rw [hv2]
  refine decide_eq_true ?_
  rintro ⟨_, hne, hdiffer⟩
  rcases hnames with hempty | hsame
  · exact hne hempty
  · exact hdiffer (by rw [hsame])

variable [DecidableEq δ]

/-- **What is no error about a payload that does not match**: that it is passed over. -/
theorem validatePayload_of_not_matches (hv2 : seg.header.v2 = some v2)
    (hnot : ¬ seg.Matches env v2) :
    ∃ e, validatePayload env seg = .error e ∧ (e.rc = esifOk ↔ v2.Skipped) := by
  unfold validatePayload
  rw [hv2]
  dsimp only
  by_cases hmax : maxLen < v2.payloadSize.toNat
  · rw [if_pos hmax]
    refine ⟨_, rfl, iff_of_false (by decide) ?_⟩
    rintro ⟨_, _, hle⟩
    omega
  rw [if_neg hmax]
  by_cases hclass : v2.payloadClass ≠ payloadClassKeys ∧ v2.payloadClass ≠ payloadClassRepo
  · rw [if_pos hclass]
    refine ⟨_, rfl, ?_⟩
    by_cases hzero : v2.payloadSize = 0
    · rw [if_pos hzero]
      exact iff_of_false (by decide) fun hskip => hskip.2.1 hzero
    · rw [if_neg hzero]
      exact iff_of_true rfl ⟨isSupportedClass_eq_false.mpr hclass, hzero, by omega⟩
  rw [if_neg hclass]
  have hread : ¬ v2.Skipped := fun hskip => hclass (isSupportedClass_eq_false.mp hskip.1)
  by_cases hlen : (peekAt seg.payload 0 v2.payloadSize.toNat).length ≠ v2.payloadSize.toNat
  · rw [if_pos hlen]
    exact ⟨_, rfl, iff_of_false (by decide) hread⟩
  rw [if_neg hlen]
  have hhash : env.sha256 (peekAt seg.payload 0 v2.payloadSize.toNat) ≠ v2.payloadHash :=
    fun hhash => hnot ⟨not_not.mp hlen, hhash⟩
  rw [if_pos hhash]
  exact ⟨_, rfl, iff_of_false (by decide) hread⟩

/-- **A corrupted segment does not come into the cache**, and is reported unless its class is one
that is passed over.  The vault as a whole is as it was where the segment is merged into one that
is loaded; a vault that is not loaded yet, or takes the segment for its own, has the values of the
header by then. -/
theorem readSegment_of_corrupted
    (readPayload : ImportType → DigestedVault δ → DvFile δ → PayloadRead) (mode : ImportType)
    (v : DigestedVault δ) (hv2 : seg.header.v2 = some v2) (hnot : ¬ seg.Matches env v2) :
    (v.readSegment env readPayload mode seg).2.cache = v.cache ∧
      ((v.readSegment env readPayload mode seg).1 = esifOk ↔ v2.Skipped) ∧
      (v.digest ≠ none → mode = .merge → (v.readSegment env readPayload mode seg).2 = v) ∧
      (v.digest = none ∨ mode = .copy ∧ v.Names v2 →
        (v.readSegment env readPayload mode seg).2.headerValues = seg.header.values v2) := by
  obtain ⟨e, he, hrc⟩ := validatePayload_of_not_matches hv2 hnot
  refine ⟨?_, ?_, fun hdigest hmode => ?_, fun htaken => ?_⟩
  · rw [DigestedVault.readSegment_of_error he]
    dsimp only
    rw [DigestedVault.leave_toDataVault, DigestedVault.validated_toDataVault,
      DigestedVault.enter_cache]
  · rwa [DigestedVault.readSegment_of_error he]
  · have hnot : v.takesHeader mode seg.header = false := by
      unfold DigestedVault.takesHeader DigestedVault.isEmptyDigest
      rw [hv2, hmode]
      simpa using hdigest
    rw [DigestedVault.readSegment_of_error he, hnot, DigestedVault.enter_of_not_takesHeader hnot]
    exact DigestedVault.validated_leave seg
  · have htakes : v.takesHeader mode seg.header = true := by
      unfold DigestedVault.takesHeader DigestedVault.isEmptyDigest
      rw [hv2]
      refine decide_eq_true ?_
      rcases htaken with hempty | ⟨hcopy, hnames⟩
      · exact .inl (by rw [hempty]; rfl)
      · exact .inr ⟨isSegmentMatch_of_names hv2 hnames, hcopy⟩
    rw [DigestedVault.readSegment_headerValues, DigestedVault.enter_headerValues hv2 htakes]

end Corrupted

/-- A segment for the vault `a` with keys of one byte, which is missing. -/
def truncatedSegment : DvFile (List UInt8) where
  header :=
    { signature := headerSignature, headersize := sizeofHeaderV2,
      version := esifhdrVersion 2 0 1, flags := ServiceConfig.readonly,
      v2 := some ⟨⟨[97], nul_free_a⟩, ⟨[], CName.nul_free_nil⟩, [], 1, payloadClassKeys⟩ }
  payload := []

/-- It is merged into a vault that was loaded from an empty payload. -/
theorem readSegment_of_corrupted_truncated :
    (DigestedVault.readSegment plainEnv (DigestedVault.readKeys plainEnv false) .merge
        ⟨emptyVault, some []⟩ truncatedSegment).2 = ⟨emptyVault, some []⟩ :=
  (@readSegment_of_corrupted _ plainEnv _ truncatedSegment _
    (DigestedVault.readKeys plainEnv false) .merge ⟨emptyVault, some []⟩ rfl
    fun h => absurd h.1 (by decide)).2.2.1 (by simp) rfl

/-- A vault is not left as it was by every corrupted segment: the first one it reads makes it
read-only. -/
theorem not_readSegment_of_corrupted : ¬ ∀ (env : Env (List UInt8))
    (readPayload : ImportType → DigestedVault (List UInt8) → DvFile (List UInt8) → PayloadRead)
    (mode : ImportType) (v : DigestedVault (List UInt8)) (seg : DvFile (List UInt8))
    (v2 : HeaderV2 (List UInt8)), seg.header.v2 = some v2 → ¬ seg.Matches env v2 →
      (v.readSegment env readPayload mode seg).1 ≠ esifOk ∧
        (v.readSegment env readPayload mode seg).2.cache = v.cache ∧
        (v.readSegment env readPayload mode seg).2.headerValues = v.headerValues ∧
        (v.readSegment env readPayload mode seg).2.digest = v.digest := by
  intro h
  obtain ⟨_, _, hvalues, _⟩ := h plainEnv (DigestedVault.readKeys plainEnv false) .merge
    ⟨emptyVault, none⟩ truncatedSegment _ rfl fun h => absurd h.1 (by decide)
  exact absurd hvalues (by decide +kernel)

/-! ## Foreign segments -/

section Foreign

variable {v : DigestedVault δ} {mode : ImportType} {h : DataVaultHeader δ} {v2 : HeaderV2 δ}
  {repo : DataRepo}

/-- The segment has a name, and it is not the vault's. -/
def DataVault.Foreign (v : DataVault δ) (v2 : HeaderV2 δ) : Prop :=
  v2.segmentid.bytes ≠ [] ∧ v2.segmentid.folded ≠ v.name.folded

/-- No version that has 2 for its major part is 2. -/
theorem ne_two_of_major {version : UInt32} (hmajor : esifhdrGetMajor version = 2) :
    version ≠ 2 := by
  rintro rfl
  exact absurd hmajor (by decide)

/-- **Every version 2 segment matches**, whatever its name: the whole version is asked for, where
its major part is meant. -/
theorem isSegmentMatch_of_major {v : DataVault δ} (hmajor : esifhdrGetMajor h.version = 2) :
    v.isSegmentMatch h = true := by
  unfold DataVault.isSegmentMatch
  split
  · rfl
  · exact decide_eq_true fun hdiffer => ne_two_of_major hmajor hdiffer.1

/-- Into a vault that is loaded a segment is merged, or copied with its header. -/
theorem takesHeader_of_loaded (hv2 : h.v2 = some v2) (hmajor : esifhdrGetMajor h.version = 2)
    (hloaded : v.digest ≠ none) : v.takesHeader mode h = true ↔ mode = .copy := by
  have hdigest : v.isEmptyDigest = false := by
    rw [DigestedVault.isEmptyDigest, Option.isNone_eq_false_iff]
    exact Option.isSome_iff_ne_none.mpr hloaded
  unfold DigestedVault.takesHeader
  rw [hv2, hdigest, isSegmentMatch_of_major hmajor]
  simp

/-- Only the other conditions keep a repository from being the primary one. -/
theorem isPrimary_of_major {v : DataVault δ} (hmajor : esifhdrGetMajor h.version = 2) :
    v.isPrimary repo h = v.namesRepo repo := by
  rw [DataVault.isPrimary, isSegmentMatch_of_major hmajor, Bool.true_and]

/-- A segment of another vault does not take over one that is loaded: the vault keeps its header
values, and the repository is not its primary one. -/
def KeepsHeader [DecidableEq δ] (env : Env δ)
    (readPayload : ImportType → DigestedVault δ → DvFile δ → PayloadRead) (mode : ImportType)
    (v : DigestedVault δ) (repo : DataRepo) (seg : DvFile δ) (v2 : HeaderV2 δ) : Prop :=
  v.digest ≠ none → v.Foreign v2 →
    (v.readSegment env readPayload mode seg).2.headerValues = v.headerValues ∧
      v.isPrimary repo seg.header = false

/-- **When a foreign segment does not take over a vault**: when it is merged, or has the vault's own
header values, and the repository does not have the name of the vault.  That the segment has
another name is not what keeps it out. -/
theorem keepsHeader_iff [DecidableEq δ] (env : Env δ)
    (readPayload : ImportType → DigestedVault δ → DvFile δ → PayloadRead) (mode : ImportType)
    (v : DigestedVault δ) (repo : DataRepo) {seg : DvFile δ} (hv2 : seg.header.v2 = some v2)
    (hmajor : esifhdrGetMajor seg.header.version = 2) :
    KeepsHeader env readPayload mode v repo seg v2 ↔
      (v.digest ≠ none → v.Foreign v2 →
        (mode = .merge ∨ seg.header.values v2 = v.headerValues) ∧ v.namesRepo repo = false) := by
  refine forall_congr' fun hloaded => forall_congr' fun _ => ?_
  rw [isPrimary_of_major hmajor, DigestedVault.readSegment_headerValues]
  refine and_congr_left fun _ => ?_
  have htaken : v.takesHeader mode seg.header = true ↔ mode = .copy :=
    takesHeader_of_loaded hv2 hmajor hloaded
  cases mode with
  | merge =>
    have hnot : v.takesHeader .merge seg.header = false := by
      simpa using htaken
    rw [DigestedVault.enter_of_not_takesHeader hnot]
    exact iff_of_true rfl (.inl rfl)
  | copy =>
    rw [DigestedVault.enter_headerValues hv2 (htaken.mpr rfl)]
    simp

end Foreign

/-- A segment for the vault `b`, with no keys and the hash of nothing. -/
def segmentOfB : DvFile (List UInt8) where
  header :=
    { signature := headerSignature, headersize := sizeofHeaderV2,
      version := currentVersion, flags := ServiceConfig.readonly,
      v2 := some ⟨⟨[98], by decide⟩, ⟨[], CName.nul_free_nil⟩, [], 0, payloadClassKeys⟩ }
  payload := []

/-- The file `a.dv`. -/
def fileOfA : DataRepo := ⟨⟨[97, 46, 100, 118], by decide⟩, ⟨.file, .readWrite⟩⟩

/-- It is kept out of the vault `a` where it is merged from a file of another name. -/
theorem keepsHeader_merged :
    KeepsHeader plainEnv (DigestedVault.readKeys plainEnv false) .merge ⟨emptyVault, some []⟩
      { fileOfA with name := ⟨[99], by decide⟩ } segmentOfB
      ⟨⟨[98], by decide⟩, ⟨[], by decide⟩, [], 0, payloadClassKeys⟩ :=
  (keepsHeader_iff plainEnv (DigestedVault.readKeys plainEnv false) .merge ⟨emptyVault, some []⟩
    { fileOfA with name := ⟨[99], by decide⟩ } rfl (by decide)).mpr
      fun _ _ => ⟨.inl rfl, by decide⟩

/-- It makes the vault `a` read-only where `a` is read from its own file, which counts as the
primary stream of `a` too. -/
theorem not_keepsHeader : ¬ ∀ (env : Env (List UInt8))
    (readPayload : ImportType → DigestedVault (List UInt8) → DvFile (List UInt8) → PayloadRead)
    (mode : ImportType) (v : DigestedVault (List UInt8)) (repo : DataRepo)
    (seg : DvFile (List UInt8)) (v2 : HeaderV2 (List UInt8)), seg.header.v2 = some v2 →
      esifhdrGetMajor seg.header.version = 2 → KeepsHeader env readPayload mode v repo seg v2 := by
  intro h
  obtain ⟨hvalues, _⟩ := h plainEnv (DigestedVault.readKeys plainEnv false) .copy
    ⟨emptyVault, some []⟩ fileOfA segmentOfB _ rfl (by decide) (by simp) ⟨by decide, by decide⟩
  exact absurd hvalues (by decide +kernel)

end Vault

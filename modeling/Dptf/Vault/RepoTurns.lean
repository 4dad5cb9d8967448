import Dptf.Vault.Repo

/-!
# What a turn of a load can do

A segment moves its stream on by its header at least, wherever the stream was put back
to on the way; the repository in a payload is no longer than what the payload's own
stream was moved on by; and a pair moves the loop over the pairs on.  A turn that can do
nothing waits for a lock its own thread holds.
-/

open Lib

namespace Vault

variable {f f' f'' : Frame} {h : DataVaultHeader (List UInt8)} {s : LoadState} {env : LoadEnv}
  {b : DataBank}

/-! ## What is read moves a stream on -/

/-- So many bytes are there. -/
theorem add_le_of_length_peekAt {m : List UInt8} {pos n : Nat} (hn : 0 < n)
    (h : (peekAt m pos n).length = n) : pos + n ≤ m.length := by
  simp only [peekAt, List.length_take, List.length_drop] at h
  omega

/-- The versions that are supported. -/
theorem major_of_supported {version : UInt32}
    (h : ¬ (version < esifhdrVersion 1 0 0 ∨ esifhdrVersion 2 0 0xFFFF < version)) :
    esifhdrGetMajor version = 1 ∨ esifhdrGetMajor version = 2 := by
  have hmin : (esifhdrVersion 1 0 0).toNat = 2 ^ 24 := by decide
  have hmax : (esifhdrVersion 2 0 0xFFFF).toNat = 2 ^ 25 + 0xFFFF := by decide
  rw [UInt32.lt_iff_toNat_lt, UInt32.lt_iff_toNat_lt, hmin, hmax] at h
  have hmajor : (esifhdrGetMajor version).toNat = version.toNat / 2 ^ 24 % 2 ^ 8 := by
    rw [esifhdrGetMajor, UInt32.toNat_and, UInt32.toNat_shiftRight, Nat.shiftRight_eq_div_pow]
    exact Nat.and_two_pow_sub_one_eq_mod _ 8
  rw [← UInt32.toNat_inj, ← UInt32.toNat_inj, hmajor]
  change _ = 1 ∨ _ = 2
  omega

/-- A header whose first eight bytes are accepted has the twelve bytes of version 1. -/
theorem le_headersize_of_common (hok : commonError h = none) : sizeofHeaderV1 ≤ h.headersize := by
  unfold commonError at hok
  dsimp only at hok
  split at hok
  · cases hok
  split at hok
  · cases hok
  rename_i hversion
  split at hok
  · cases hok
  split at hok
  · cases hok
  rename_i hone
  split at hok
  · cases hok
  rename_i htwo
  rcases major_of_supported hversion with hmajor | hmajor
  · by_contra hlt
    exact hone ⟨hmajor, fun heq => hlt (Nat.le_of_eq heq.symm)⟩
  · by_contra hlt
    exact htwo ⟨hmajor, lt_trans (Nat.lt_of_not_le hlt) (by decide)⟩

/-- A header that is accepted passes the checks of its first eight bytes. -/
theorem readHeader_common {h h' : DataVaultHeader (List UInt8)}
    (hread : Vault.readHeader h = .ok h') :
    commonError h = none ∧ h'.headersize = h.headersize ∧ h'.version = h.version ∧
      (h'.v2 = h.v2 ∨ h'.v2 = none) := by
  unfold Vault.readHeader at hread
  unfold commonError
  dsimp only at hread ⊢
  split at hread
  · cases hread
  rw [if_neg ‹_›]
  split at hread
  · cases hread
  rw [if_neg ‹_›]
  split at hread
  · cases hread
  rw [if_neg ‹_›]
  split at hread
  · cases hread
  rw [if_neg ‹_›]
  split at hread
  · cases hread
  rw [if_neg ‹_›]
  refine ⟨rfl, ?_⟩
  split at hread
  · split at hread
    · obtain rfl := Except.ok.inj hread
      exact ⟨rfl, rfl, .inr rfl⟩
    · cases hread
  · split at hread
    · cases hread
    · split at hread
      · obtain rfl := Except.ok.inj hread
        exact ⟨rfl, rfl, .inl rfl⟩
      · cases hread

/-- **A header that is read** is there, and the stream is behind it. -/
theorem OpenStream.readHeader_ok {s s' : OpenStream} (hread : s.readHeader = .ok (h, s')) :
    s' = s.skip h.headersize ∧ sizeofHeaderV1 ≤ h.headersize ∧
      s.offset + sizeofHeaderV1 ≤ s.contents.length := by
  unfold readHeader at hread
  dsimp only at hread
  split at hread
  · cases hread
  split at hread
  · cases hread
  split at hread
  · cases hread
  split at hread
  · cases hread
  rename_i hcommon
  split at hread
  · cases hread
  split at hread
  · cases hread
  rename_i hheader
  split at hread
  · cases hread
  rename_i hlong
  obtain ⟨rfl, rfl⟩ := Prod.mk.inj (Except.ok.inj hread)
  obtain ⟨hagain, hsize, _, _⟩ := readHeader_common hheader
  have hfirst := le_headersize_of_common hcommon
  have hmin : sizeofHeaderV1 ≤
      min (parseHeader (s.peek 8)).headersize sizeofHeaderV2 := le_min hfirst (by decide)
  have hthere := add_le_of_length_peekAt (lt_of_lt_of_le (by decide) hmin)
    (not_not.mp fun hne => hlong (decide_eq_true hne))
  refine ⟨rfl, hsize ▸ le_headersize_of_common hagain, ?_⟩
  omega

/-- **A pair that is read** is there, and the reading is behind its flags. -/
theorem readKeyValuePairOf_ok {banned : UInt32} {r : Reading} {contents : List UInt8}
    {p p' : ReadPos} {e : DataCacheEntry}
    (h : readKeyValuePairOf banned r contents p = .ok (e, p')) :
    p.pos < p'.pos ∧ p.pos < contents.length := by
  obtain ⟨p₁, hsignature, h⟩ := bind_eq_ok.mp h
  obtain ⟨⟨flags, p₂⟩, hflags, h⟩ := bind_eq_ok.mp h
  obtain ⟨⟨key, p₃⟩, hkey, h⟩ := bind_eq_ok.mp h
  obtain ⟨⟨value, p₄⟩, hvalue, h⟩ := bind_eq_ok.mp h
  obtain ⟨_, rfl⟩ := Prod.mk.inj (Except.ok.inj h)
  have hon := (readSignature_leads hsignature).1
  have hbehind := ((readKey_leads hkey).trans (readValue_leads hvalue)).1
  obtain ⟨bytes, hread, _⟩ := bind_eq_ok.mp hflags
  have hthere := add_le_of_length_peekAt (by decide) (readFirst_ok hread).2
  simp only [ReadPos.advance] at hbehind
  omega

/-! ## What a turn can do -/

/-- The same stream, not further back. -/
def Frame.Within (f f' : Frame) : Prop :=
  f'.stream.contents = f.stream.contents ∧ f.stream.offset ≤ f'.stream.offset

/-- The same stream, behind a header. -/
def Frame.Past (f f' : Frame) : Prop :=
  f'.stream.contents = f.stream.contents ∧
    f.stream.offset + sizeofHeaderV1 ≤ f'.stream.offset ∧
    f.stream.offset + sizeofHeaderV1 ≤ f.stream.contents.length

/-- The bytes that are still to be read in the loop over the pairs. -/
def KeysLoop.left (loop : KeysLoop) : Nat := loop.contents.length - loop.pos.pos

/-- A call is between two segments, or behind the last one. -/
def Phase.Between (ph : Phase) : Prop := ph = .head ∨ ∃ rc, ph = .ended rc

/-- All a turn can do. -/
inductive Move : LoadState → LoadState → Prop
  /-- There is no further header. -/
  | last {b : DataBank} {f : Frame} {rc : EsifError} {below : List (Frame × SegmentRead)} :
    Move (.running b f .head below) (.running b f (.ended rc) below)
  /-- A header is read, and the payload passed over, refused, or one of keys. -/
  | turn {b b' : DataBank} {f f' : Frame} {ph : Phase} {below : List (Frame × SegmentRead)} :
    f.Past f' → Move (.running b f .head below) (.running b' f' ph below)
  /-- A header is read, and the payload is a repository: the stream has left it behind. -/
  | nest {b b' : DataBank} {f f' child : Frame} {seg : SegmentRead}
    {below : List (Frame × SegmentRead)} :
    f.Past f' → child.stream.offset = 0 →
      f'.stream.left + child.stream.contents.length + sizeofHeaderV1 ≤ f.stream.left →
      Move (.running b f .head below) (.running b' child .head ((f', seg) :: below))
  /-- A pair is read. -/
  | pair {b b' : DataBank} {f : Frame} {seg : SegmentRead} {loop loop' : KeysLoop}
    {below : List (Frame × SegmentRead)} :
    loop'.left < loop.left →
      Move (.running b f (.keys seg loop) below) (.running b' f (.keys seg loop') below)
  /-- There is no further pair. -/
  | keysEnd {b b' : DataBank} {f f' : Frame} {seg : SegmentRead} {loop : KeysLoop} {ph : Phase}
    {below : List (Frame × SegmentRead)} :
    f.Within f' → ph.Between →
      Move (.running b f (.keys seg loop) below) (.running b' f' ph below)
  /-- A call returns to the segment it was made for. -/
  | back {b b' : DataBank} {f g g' : Frame} {rc : EsifError} {seg : SegmentRead} {ph : Phase}
    {below : List (Frame × SegmentRead)} :
    g'.stream = g.stream → ph.Between →
      Move (.running b f (.ended rc) ((g, seg) :: below)) (.running b' g' ph below)
  /-- The first call returns. -/
  | finish {b b' : DataBank} {f : Frame} {rc : EsifError} :
    Move (.running b f (.ended rc) []) (.finished b' rc)

theorem Frame.within_refl (f : Frame) : f.Within f := ⟨rfl, Nat.le_refl _⟩

theorem Frame.within_of_stream (h : f'.stream = f.stream) : f.Within f' := by
  rw [Frame.Within, h]
  exact ⟨rfl, Nat.le_refl _⟩

theorem Frame.Within.trans (h : f.Within f') (h' : f'.Within f'') :
    f.Within f'' := ⟨h'.1.trans h.1, h.2.trans h'.2⟩

theorem Frame.Past.trans (h : f.Past f') (h' : f'.Within f'') :
    f.Past f'' := ⟨h'.1.trans h.1, h.2.1.trans h'.2, h.2.2⟩

theorem Frame.Past.within (h : f.Past f') : f.Within f' :=
  ⟨h.1, le_trans (Nat.le_add_right _ _) h.2.1⟩

/-- A segment ends where its stream is. -/
theorem endSegment_cases (b : DataBank) (f : Frame) (seg : SegmentRead) (rc : EsifError)
    (below : List (Frame × SegmentRead)) :
    ∃ b' f' ph, endSegment b f seg rc below = .running b' f' ph below ∧
      f'.stream = f.stream ∧ ph.Between := by
  unfold endSegment
  dsimp only
  split
  · exact ⟨_, _, _, rfl, rfl, .inl rfl⟩
  · exact ⟨_, _, _, rfl, rfl, .inr ⟨rc, rfl⟩⟩

/-- The loop over the pairs goes on, or the segment ends behind it. -/
theorem keysTurn_move (env : LoadEnv) (b : DataBank) (f : Frame) (seg : SegmentRead)
    (loop : KeysLoop) (below : List (Frame × SegmentRead)) :
    Move (.running b f (.keys seg loop) below) (keysTurn env b f seg loop below) := by
  have hends (b' : DataBank) {f' : Frame} (rc : EsifError) (hf : f.Within f') :
      Move (.running b f (.keys seg loop) below) (endSegment b' f' seg rc below) := by
    obtain ⟨b'', f'', ph, heq, hstream, hph⟩ := endSegment_cases b' f' seg rc below
    rw [heq]
    exact .keysEnd (hf.trans (Frame.within_of_stream hstream)) hph
  have hskip (n : Nat) : f.Within { f with stream := f.stream.skip n } :=
    ⟨rfl, Nat.le_add_right _ n⟩
  unfold keysTurn
  dsimp only
  split
  · rename_i e p hpair
    obtain ⟨hon, hthere⟩ := readKeyValuePairOf_ok hpair
    refine .pair ?_
    unfold KeysLoop.left
    dsimp only
    omega
  · exact hends _ _ f.within_refl
  · split
    · exact hends _ _ f.within_refl
    · split
      · exact hends _ _ (hskip _)
      · exact hends _ _ (hskip _)

/-- What comes of a segment whose payload the stream of a frame stands at. -/
inductive Comes (f : Frame) (below : List (Frame × SegmentRead)) : LoadState → Prop
  | stays {b : DataBank} {f' : Frame} {ph : Phase} :
    f.Within f' → Comes f below (.running b f' ph below)
  | nests {b : DataBank} {f' child : Frame} {seg : SegmentRead} :
    f.Within f' → child.stream.offset = 0 →
      f'.stream.left + child.stream.contents.length ≤ f.stream.left →
      Comes f below (.running b child .head ((f', seg) :: below))

theorem Comes.of_within {below : List (Frame × SegmentRead)} (hf : f.Within f')
    (h : Comes f' below s) : Comes f below s := by
  cases h with
  | stays h => exact .stays (hf.trans h)
  | nests h hoffset hleft =>
    refine .nests (hf.trans h) hoffset (le_trans hleft ?_)
    unfold OpenStream.left
    rw [hf.1]
    exact Nat.sub_le_sub_left hf.2 _

theorem endSegment_comes (b : DataBank) (seg : SegmentRead) (rc : EsifError)
    (below : List (Frame × SegmentRead)) (hf : f.Within f') :
    Comes f below (endSegment b f' seg rc below) := by
  obtain ⟨b', f'', ph, heq, hstream, _⟩ := endSegment_cases b f' seg rc below
  rw [heq]
  exact .stays (hf.trans (Frame.within_of_stream hstream))

/-- **A payload that is a repository** is no longer than what its stream is moved on by. -/
theorem readPayload_comes (env : LoadEnv) (b : DataBank) (f : Frame) {seg : SegmentRead}
    (below : List (Frame × SegmentRead))
    (hplain : ¬ (isRepo seg.header = true ∧ isCompressed seg.header = true)) :
    Comes f below (readPayload env b f seg below) := by
  have hbehind : f.Within { f with stream := f.stream.skip (payloadSize seg.header) } :=
    ⟨rfl, Nat.le_add_right _ _⟩
  unfold readPayload
  dsimp only
  split
  · exact endSegment_comes _ _ _ _ hbehind
  · rename_i bytes hbytes
    split
    · rename_i hrepo
      split
      · exact endSegment_comes _ _ _ _ hbehind
      · refine .nests hbehind rfl ?_
        have hraw : isCompressed seg.header ≠ true := fun h => hplain ⟨hrepo, h⟩
        rw [if_neg hraw] at hbytes
        obtain rfl := Except.ok.inj hbytes
        simp only [nestedFrame, OpenStream.left, OpenStream.skip, OpenStream.peek, peekAt,
          List.length_take, List.length_drop]
        omega
    · refine .stays ?_
      split
      · exact hbehind
      · exact f.within_refl

/-- The same of the whole segment. -/
theorem readSegment_comes (env : LoadEnv) (b : DataBank) (f : Frame) (ptr : Nat)
    (below : List (Frame × SegmentRead)) (hplain : ¬ (isRepo h = true ∧ isCompressed h = true)) :
    Comes f below (readSegment env b f h ptr below) := by
  unfold readSegment
  dsimp only
  generalize hf : (if importMode (b.heap ptr).toDataVault ⟨f.name, f.stream.toIOStream⟩ h = .copy
    then { f with primaryDV := DataRepo.getName ⟨f.name, f.stream.toIOStream⟩ nameLen }
    else f) = f₁
  have hwithin : f.Within f₁ := by
    refine Frame.within_of_stream ?_
    rw [← hf]
    split <;> rfl
  split
  · exact endSegment_comes _ _ _ _ hwithin
  · exact endSegment_comes _ _ _ _ (hwithin.trans ⟨rfl, Nat.le_add_right _ _⟩)
  · split
    · exact endSegment_comes _ _ _ _ hwithin
    · exact (readPayload_comes env _ f₁ below hplain).of_within hwithin

/-- A header that is next is behind the frame's stream. -/
theorem nextHeader_past (hread : f.nextHeader = .ok (h, f')) : f.Past f' := by
  unfold Frame.nextHeader at hread
  split at hread
  · cases hread
  · rename_i hheader
    obtain ⟨rfl, hsize, hthere⟩ := OpenStream.readHeader_ok hheader
    dsimp only at hread
    split at hread
    · cases hread
    · obtain ⟨_, rfl⟩ := Prod.mk.inj (Except.ok.inj hread)
      exact ⟨rfl, Nat.add_le_add_left hsize _, hthere⟩

/-- The vault of the next segment is locked, by a call below. -/
def isBlocked (env : LoadEnv) : LoadState → Bool
  | .running b f .head below =>
    match f.nextHeader with
    | .error _ => false
    | .ok (_, f') =>
      match b.openDataVault env f'.segmentid with
      | none => false
      | some (ptr, _) => ptr ∈ held below
  | _ => false

/-- The payload of the next segment is a repository that is compressed. -/
def opensCompressedRepo : LoadState → Bool
  | .running _ f .head _ =>
    match f.nextHeader with
    | .error _ => false
    | .ok (h, _) => isRepo h && isCompressed h
  | _ => false

/-- The first call has returned. -/
def isFinished : LoadState → Bool
  | .running .. => false
  | .finished .. => true

/-- What comes of a segment behind its header. -/
theorem Comes.move {below : List (Frame × SegmentRead)} (hpast : f.Past f') (h : Comes f' below s) :
    Move (.running b f .head below) s := by
  cases h with
  | stays h => exact .turn (hpast.trans h)
  | nests h hoffset hleft =>
    refine .nest (hpast.trans h) hoffset ?_
    have hheader : f'.stream.left + sizeofHeaderV1 ≤ f.stream.left := by
      obtain ⟨hcontents, hon, hthere⟩ := hpast
      unfold OpenStream.left
      rw [hcontents]
      omega
    omega

/-- A call that waits for a vault stays where it is. -/
theorem headTurn_of_isBlocked {below : List (Frame × SegmentRead)}
    (h : isBlocked env (.running b f .head below)) :
    headTurn env b f below = .running b f .head below := by
  unfold isBlocked at h
  unfold headTurn
  dsimp only at h
  cases hread : f.nextHeader with
  | error e =>
    rw [hread] at h
    cases h
  | ok x =>
    obtain ⟨header, f'⟩ := x
    rw [hread] at h
    dsimp only at h ⊢
    cases hopen : b.openDataVault env f'.segmentid with
    | none =>
      rw [hopen] at h
      cases h
    | some x =>
      rw [hopen] at h
      exact if_pos (of_decide_eq_true h)

/-- A call that need not wait reads the next segment. -/
theorem headTurn_move {below : List (Frame × SegmentRead)}
    (hplain : ¬ opensCompressedRepo (.running b f .head below))
    (hnot : ¬ isBlocked env (.running b f .head below)) :
    Move (.running b f .head below) (headTurn env b f below) := by
  unfold opensCompressedRepo at hplain
  unfold isBlocked at hnot
  unfold headTurn
  dsimp only at hplain hnot
  cases hread : f.nextHeader with
  | error e => exact .last
  | ok x =>
    obtain ⟨h, f'⟩ := x
    rw [hread] at hplain hnot
    dsimp only at hplain hnot ⊢
    have hpast := nextHeader_past hread
    have hraw : ¬ (isRepo h = true ∧ isCompressed h = true) := by
      rwa [Bool.and_eq_true] at hplain
    cases hopen : b.openDataVault env f'.segmentid with
    | none => exact .turn (hpast.trans (Frame.within_of_stream rfl))
    | some x =>
      obtain ⟨ptr, b'⟩ := x
      rw [hopen] at hnot
      dsimp only at hnot ⊢
      rw [if_neg fun hheld => hnot (decide_eq_true hheld)]
      exact (readSegment_comes env b' f' ptr below hraw).move hpast

/-- **A turn that need not wait is a move.** -/
theorem next_move (hplain : ¬ opensCompressedRepo s) (hnot : ¬ isBlocked env s)
    (hrunning : ¬ isFinished s) : Move s (next env s) := by
  cases s with
  | finished b rc => exact absurd rfl hrunning
  | running b f ph below =>
    cases ph with
    | head => exact headTurn_move hplain hnot
    | keys seg loop => exact keysTurn_move env b f seg loop below
    | ended rc =>
      unfold next returnTurn
      cases below with
      | nil => exact .finish
      | cons g below =>
        obtain ⟨g, seg⟩ := g
        dsimp only
        obtain ⟨b', g', ph, heq, hstream, hph⟩ :=
          endSegment_cases (transferStream b f) g seg rc below
        rw [heq]
        exact .back hstream hph

/-- **A load that waits for a lock it holds** waits for ever. -/
theorem next_of_isBlocked (h : isBlocked env s) : next env s = s ∧ ¬ isFinished s := by
  cases s with
  | finished => cases h
  | running b f ph below =>
    cases ph with
    | head => exact ⟨headTurn_of_isBlocked h, Bool.false_ne_true⟩
    | keys => cases h
    | ended => cases h

theorem next_of_isFinished (h : isFinished s) : next env s = s := by
  cases s with
  | running => cases h
  | finished => rfl

end Vault

import Dptf.Vault.RepoTurns

/-!
# The end of a load

Every turn of a load leaves less before it, in its streams or in the loop over the pairs.
So a load ends, unless it comes to wait for a lock it holds.

* `loadSegments_ends_iff` — when a load ends.
-/

open Lib

namespace Vault

variable {f f' : Frame} {s s' : LoadState}

/-! ## What gets smaller -/

/-- What a call has before it, in its stream. -/
def Frame.weight (f : Frame) : Phase → Nat
  | .ended _ => 1
  | _ => f.stream.left + 2

/-- What is left of the loop over the pairs. -/
def Phase.weight : Phase → Nat
  | .keys _ loop => loop.left + 1
  | _ => 0

/-- What is before a load: in the streams of its calls, and in the loop over the pairs. -/
def LoadState.weight : LoadState → Nat × Nat
  | .running _ f ph below =>
    ((below.map fun g => g.1.stream.left + 2).sum + f.weight ph, ph.weight)
  | .finished _ _ => (0, 0)

/-- The order of the weights: first the streams, then the loop. -/
abbrev WeightLess : Nat × Nat → Nat × Nat → Prop := Prod.Lex (· < ·) (· < ·)

theorem weightLess_wf : WellFounded WeightLess :=
  WellFounded.prod_lex Nat.lt_wfRel.wf Nat.lt_wfRel.wf

theorem weightLess_of_le {a a' b b' : Nat} (h : a ≤ a') (h' : b < b') :
    WeightLess (a, b) (a', b') := by
  rcases Nat.lt_or_eq_of_le h with hlt | rfl
  · exact .left _ _ hlt
  · exact .right _ h'

theorem Frame.weight_le (f : Frame) (ph : Phase) : f.weight ph ≤ f.stream.left + 2 := by
  cases ph <;> simp [Frame.weight]

theorem Frame.Within.left_le (h : f.Within f') : f'.stream.left ≤ f.stream.left := by
  unfold OpenStream.left
  rw [h.1]
  exact Nat.sub_le_sub_left h.2 _

theorem Frame.Past.left_lt (h : f.Past f') : f'.stream.left < f.stream.left := by
  obtain ⟨hcontents, hon, hthere⟩ := h
  unfold OpenStream.left
  rw [hcontents]
  unfold sizeofHeaderV1 at hon hthere
  omega

/-- **Every move makes the weight less.** -/
theorem Move.weight_lt (h : Move s s') : WeightLess s'.weight s.weight := by
  cases h with
  | last =>
    refine .left _ _ ?_
    simp only [Frame.weight]
    omega
  | @turn _ _ f f' ph _ hpast =>
    refine .left _ _ ?_
    have hless := hpast.left_lt
    have hle := f'.weight_le ph
    have hhead : f.weight .head = f.stream.left + 2 := rfl
    exact Nat.add_lt_add_left (by omega) _
  | @nest _ _ f f' child _ _ hpast hoffset hroom =>
    refine .left _ _ ?_
    have hchild : child.stream.left = child.stream.contents.length := by
      rw [OpenStream.left, hoffset, Nat.sub_zero]
    simp only [Frame.weight, List.map_cons, List.sum_cons, hchild, sizeofHeaderV1] at hroom ⊢
    omega
  | pair hloop => exact weightLess_of_le (Nat.le_refl _) (Nat.add_lt_add_right hloop 1)
  | @keysEnd _ _ f f' _ loop ph _ hwithin hph =>
    have hle := le_trans (f'.weight_le ph) (Nat.add_le_add_right hwithin.left_le 2)
    refine weightLess_of_le (Nat.add_le_add_left hle _) ?_
    rcases hph with rfl | ⟨rc, rfl⟩ <;> exact Nat.succ_pos _
  | @back _ _ f g g' rc _ ph _ hstream hph =>
    refine .left _ _ ?_
    have hle := g'.weight_le ph
    have hended : f.weight (.ended rc) = 1 := rfl
    rw [hstream] at hle
    rw [List.map_cons, List.sum_cons, hended]
    dsimp only
    omega
  | finish => exact .left _ _ (Nat.succ_pos _)

/-! ## The calls of a load -/

/-- The calls that were not returned from, the last one first. -/
def LoadState.calls : LoadState → List Frame
  | .running _ f _ below => f :: below.map Prod.fst
  | .finished _ _ => []

/-- The size of the repository of a call. -/
def Frame.size (f : Frame) : Nat := f.stream.contents.length

/-- What a turn does to the calls. -/
inductive CallsMove : List Frame → List Frame → Prop
  /-- It stays in the last one. -/
  | stay {f f' : Frame} {fs : List Frame} : f.Within f' → CallsMove (f :: fs) (f' :: fs)
  /-- It makes one, for a smaller repository. -/
  | call {f f' child : Frame} {fs : List Frame} :
    f.Within f' → f.stream.offset < f'.stream.offset → child.size < f.size →
      CallsMove (f :: fs) (child :: f' :: fs)
  /-- It returns from the last one. -/
  | back {f g g' : Frame} {fs : List Frame} :
    g.Within g' → CallsMove (f :: g :: fs) (g' :: fs)
  /-- It returns from the first one. -/
  | exit {f : Frame} : CallsMove [f] []

theorem Frame.Past.offset_lt (h : f.Past f') : f.stream.offset < f'.stream.offset :=
  lt_of_lt_of_le (Nat.lt_add_of_pos_right (by decide)) h.2.1

theorem Move.callsMove (h : Move s s') : CallsMove s.calls s'.calls := by
  cases h with
  | @last _ f => exact .stay f.within_refl
  | turn hpast => exact .stay hpast.within
  | @nest _ _ f f' child _ _ hpast _ hroom =>
    refine .call hpast.within hpast.offset_lt ?_
    unfold OpenStream.left sizeofHeaderV1 at hroom
    unfold Frame.size
    omega
  | @pair _ _ f => exact .stay f.within_refl
  | keysEnd hwithin _ => exact .stay hwithin
  | back hstream _ => exact .back (Frame.within_of_stream hstream)
  | finish => exact .exit

theorem Frame.Within.size_eq (h : f.Within f') : f'.size = f.size :=
  congrArg List.length h.1

/-- Every repository is smaller than those it is nested in. -/
def Shrinks (calls : List Frame) : Prop := (calls.map Frame.size).Pairwise (· < ·)

theorem CallsMove.shrinks {fs fs' : List Frame} (h : CallsMove fs fs') (hs : Shrinks fs) :
    Shrinks fs' := by
  unfold Shrinks at hs ⊢
  cases h with
  | stay hwithin => rwa [List.map_cons, hwithin.size_eq]
  | call hwithin _ hless =>
    rw [List.map_cons, List.map_cons, hwithin.size_eq, List.pairwise_cons]
    rw [List.map_cons] at hs
    refine ⟨fun n hn => ?_, hs⟩
    rcases List.mem_cons.mp hn with rfl | hn
    · exact hless
    · exact lt_trans hless (List.rel_of_pairwise_cons hs hn)
  | back hwithin =>
    rw [List.map_cons, hwithin.size_eq]
    exact hs.of_cons
  | exit => exact List.Pairwise.nil

/-- A call that was at a position of its stream is further on, with the calls below it as they
were. -/
def Advanced (f : Frame) (below fs : List Frame) : Prop :=
  ∃ above f', fs = above ++ f' :: below ∧ f.Within f' ∧ f.stream.offset < f'.stream.offset

/-- A call that is further on stays so, until it is returned from. -/
theorem CallsMove.advanced {below fs fs' : List Frame} (h : CallsMove fs fs')
    (hf : Advanced f below fs) (hdepth : below.length < fs'.length) : Advanced f below fs' := by
  obtain ⟨above, f', hfs, hwithin, hon⟩ := hf
  have hfurther {g : Frame} (hg : f'.Within g) : f.Within g ∧ f.stream.offset < g.stream.offset :=
    ⟨hwithin.trans hg, lt_of_lt_of_le hon hg.2⟩
  cases h with
  | @stay g g' gs hg =>
    cases above with
    | nil =>
      obtain ⟨rfl, rfl⟩ := List.cons.inj hfs
      exact ⟨[], g', rfl, hfurther hg⟩
    | cons _ above =>
      obtain ⟨_, rfl⟩ := List.cons.inj hfs
      exact ⟨g' :: above, f', rfl, hwithin, hon⟩
  | @call g g' child gs hg =>
    cases above with
    | nil =>
      obtain ⟨rfl, rfl⟩ := List.cons.inj hfs
      exact ⟨[child], g', rfl, hfurther hg⟩
    | cons _ above =>
      obtain ⟨_, rfl⟩ := List.cons.inj hfs
      exact ⟨child :: g' :: above, f', rfl, hwithin, hon⟩
  | @back _ g g' gs hg =>
    cases above with
    | nil =>
      obtain ⟨_, rfl⟩ := List.cons.inj hfs
      exact absurd hdepth (lt_irrefl _)
    | cons _ above =>
      obtain ⟨_, hfs⟩ := List.cons.inj hfs
      cases above with
      | nil =>
        obtain ⟨rfl, rfl⟩ := List.cons.inj hfs
        exact ⟨[], g', rfl, hfurther hg⟩
      | cons _ above =>
        obtain ⟨_, rfl⟩ := List.cons.inj hfs
        exact ⟨g' :: above, f', rfl, hwithin, hon⟩
  | exit => exact absurd hdepth (Nat.not_lt_zero _)

/-- The first turn from the head of a loop: the call is further on, or behind its loop. -/
theorem Move.advanced {b : DataBank} {below : List (Frame × SegmentRead)}
    (h : Move (.running b f .head below) s) :
    (∃ rc, s = .running b f (.ended rc) below) ∨ Advanced f (below.map Prod.fst) s.calls := by
  cases h with
  | last => exact .inl ⟨_, rfl⟩
  | turn hpast => exact .inr ⟨[], _, rfl, hpast.within, hpast.offset_lt⟩
  | @nest _ _ _ f' child _ _ hpast => exact .inr ⟨[child], f', rfl, hpast.within, hpast.offset_lt⟩

/-- A call that is behind its loop is returned from. -/
theorem Move.length_calls {b : DataBank} {rc : EsifError} {below : List (Frame × SegmentRead)}
    (h : Move (.running b f (.ended rc) below) s) : s.calls.length ≤ below.length := by
  cases h with
  | back => simp [LoadState.calls]
  | finish => exact Nat.le_refl _

/-! ## The end -/

/-- Between two turns at the head of the loop of one call its stream advances. -/
def Advances (run : Nat → LoadState) : Prop :=
  ∀ n m b f below b' f' below', n < m → run n = .running b f .head below →
    run m = .running b' f' .head below' → below'.length = below.length →
    (∀ k, n ≤ k → k ≤ m → below.length < (run k).calls.length) →
      f'.stream.contents = f.stream.contents ∧ f.stream.offset < f'.stream.offset

/-- A load comes to its end, the streams of its calls advance in every turn, and every repository
in a payload is smaller than the one it is nested in. -/
structure Ends (env : LoadEnv) (s : LoadState) : Prop where
  halts : ∃ n, isFinished ((next env)^[n] s)
  advances : Advances fun n => (next env)^[n] s
  shrinks : ∀ n, Shrinks ((next env)^[n] s).calls

section Runs

variable {env : LoadEnv} {s : LoadState}

theorem not_isFinished_of_calls (h : 0 < s.calls.length) : ¬ isFinished s := by
  cases s with
  | running => exact Bool.false_ne_true
  | finished => exact absurd h (lt_irrefl 0)

/-- A turn of a run that never waits is a move. -/
theorem move_of_never_blocked (hplain : ∀ n, ¬ opensCompressedRepo ((next env)^[n] s))
    (hnever : ∀ n, ¬ isBlocked env ((next env)^[n] s)) {n : Nat}
    (hrunning : ¬ isFinished ((next env)^[n] s)) :
    Move ((next env)^[n] s) ((next env)^[n + 1] s) := by
  rw [Function.iterate_succ_apply']
  exact next_move (hplain n) (hnever n) hrunning

/-- **The streams of a run that never waits advance.** -/
theorem advances_of_never_blocked (hplain : ∀ n, ¬ opensCompressedRepo ((next env)^[n] s))
    (hnever : ∀ n, ¬ isBlocked env ((next env)^[n] s)) : Advances fun n => (next env)^[n] s := by
  intro n m b f below b' f' below' hlt hn hm hlength hcalls
  dsimp only at hn hm hcalls
  have hmove {k : Nat} (hle : n ≤ k) (hkm : k ≤ m) :
      Move ((next env)^[k] s) ((next env)^[k + 1] s) :=
    move_of_never_blocked hplain hnever
      (not_isFinished_of_calls (lt_of_le_of_lt (Nat.zero_le _) (hcalls k hle hkm)))
  have hfirst := hmove (Nat.le_refl n) hlt.le
  rw [hn] at hfirst
  rcases hfirst.advanced with ⟨rc, hended⟩ | hadvanced
  · exfalso
    rcases Nat.lt_or_eq_of_le (Nat.succ_le_of_lt hlt) with hmore | rfl
    · have hsecond := hmove (Nat.le_succ n) hmore.le
      rw [hended] at hsecond
      exact absurd (hcalls (n + 2) (by omega) hmore) (Nat.not_lt.mpr hsecond.length_calls)
    · rw [hended] at hm
      cases hm
  · have hall (k : Nat) (hk : n + 1 + k ≤ m) :
        Advanced f (below.map Prod.fst) ((next env)^[n + 1 + k] s).calls := by
      induction k with
      | zero => exact hadvanced
      | succ k ih =>
        have hdepth := hcalls (n + 1 + (k + 1)) (by omega) hk
        rw [← List.length_map Prod.fst] at hdepth
        have hturn := hmove (k := n + 1 + k) (by omega) (by omega)
        exact hturn.callsMove.advanced (ih (by omega)) hdepth
    obtain ⟨above, f₁, hfs, hwithin, hon⟩ := hall (m - (n + 1)) (by omega)
    rw [Nat.add_sub_cancel' (Nat.succ_le_of_lt hlt), hm] at hfs
    have habove : above = [] := by
      have hlen := congrArg List.length hfs
      simp only [LoadState.calls, List.length_cons, List.length_append, List.length_map] at hlen
      exact List.length_eq_zero_iff.mp (by omega)
    subst habove
    obtain ⟨rfl, _⟩ := List.cons.inj hfs
    exact ⟨hwithin.1, hon⟩

/-- **The repositories of a run that never waits get smaller.** -/
theorem shrinks_of_never_blocked (hplain : ∀ n, ¬ opensCompressedRepo ((next env)^[n] s))
    (hnever : ∀ n, ¬ isBlocked env ((next env)^[n] s)) (hs : Shrinks s.calls) (n : Nat) :
    Shrinks ((next env)^[n] s).calls := by
  refine @iterate_invariant _ (next env) (fun s => ¬ opensCompressedRepo s ∧ ¬ isBlocked env s)
    (fun s => Shrinks s.calls) ?_ s (fun n => ⟨hplain n, hnever n⟩) hs n
  rintro s ⟨hplain, hnot⟩ hs
  by_cases hfinished : isFinished s
  · rwa [next_of_isFinished hfinished]
  · exact (next_move hplain hnot hfinished).callsMove.shrinks hs

end Runs

/-- **When a load ends**, its streams advance and its repositories get smaller: when no segment is
for a vault that is locked by a call below, which waits for the segment to be read.  Payloads that
are compressed repositories are left out. -/
theorem loadSegments_ends_iff (env : LoadEnv) (b : DataBank) (name : CName) (type : StreamType)
    (store : StoreType) (contents : List UInt8)
    (hplain : ∀ n, ¬ opensCompressedRepo
      ((next env)^[n] (loadSegments b name type store contents))) :
    Ends env (loadSegments b name type store contents) ↔
      ∀ n, ¬ isBlocked env ((next env)^[n] (loadSegments b name type store contents)) := by
  have hhalts : (∃ n, isFinished ((next env)^[n] (loadSegments b name type store contents))) ↔
      ∀ n, ¬ isBlocked env ((next env)^[n] (loadSegments b name type store contents)) :=
    halts_iff_never_stuck weightLess_wf LoadState.weight (fun _ => next_of_isFinished)
      (fun _ => next_of_isBlocked) fun n hrunning hnot =>
        (next_move (hplain n) hnot hrunning).weight_lt
  constructor
  · intro hends
    exact hhalts.mp hends.halts
  · intro hnever
    exact ⟨hhalts.mpr hnever, advances_of_never_blocked hplain hnever,
      shrinks_of_never_blocked hplain hnever (List.pairwise_singleton _ _)⟩

/-- The bytes of a version 2 header. -/
def headerBytes (segmentid hash : List UInt8) (size : Nat) (payloadClass : UInt32) : List UInt8 :=
  leEnc 2 headerSignature.toNat ++ leEnc 2 sizeofHeaderV2 ++ leEnc 4 currentVersion.toNat ++
    leEnc 4 0 ++ segmentid ++ List.replicate (nameLen - segmentid.length) 0 ++
    List.replicate descLen 0 ++ hash ++ leEnc 4 size ++ leEnc 4 payloadClass.toNat

/-- The SHA-256 of nothing. -/
def emptyHash : List UInt8 :=
  [227, 176, 196, 66, 152, 252, 28, 20, 154, 251, 244, 200, 153, 111, 185, 36,
   39, 174, 65, 228, 100, 155, 147, 76, 164, 149, 153, 27, 120, 82, 184, 85]

/-- A segment without keys. -/
def emptySegment (segmentid : List UInt8) : List UInt8 :=
  headerBytes segmentid emptyHash 0 payloadClassKeys

/-- The SHA-256 of the segment `b` without keys. -/
def segmentHashB : List UInt8 :=
  [130, 162, 213, 121, 225, 246, 143, 161, 49, 131, 251, 247, 212, 159, 190, 252,
   205, 81, 122, 191, 57, 30, 43, 117, 233, 31, 107, 146, 205, 151, 69, 81]

/-- The SHA-256 of the segment `a` without keys. -/
def segmentHashA : List UInt8 :=
  [39, 208, 93, 4, 227, 246, 22, 226, 195, 230, 118, 120, 79, 159, 166, 121,
   238, 147, 175, 66, 186, 30, 203, 90, 144, 16, 81, 93, 209, 66, 175, 189]

/-- SHA-256 on these three, and nothing that is compressed or on disk. -/
def segmentEnv : LoadEnv :=
  { plainEnv with
    sha256 := fun bytes =>
      if bytes = [] then emptyHash
      else if bytes = emptySegment [98] then segmentHashB
      else if bytes = emptySegment [97] then segmentHashA
      else []
    decompress := fun _ => .error esifENotSupported
    onDisk := fun _ => none
    defaultComment := fun _ => ⟨[], CName.nul_free_nil⟩ }

/-- A DataBank without vaults. -/
def emptyBank : DataBank := ⟨fun _ => ⟨emptyVault, none⟩, 0, []⟩

/-- The file `x.dv`, with one segment for the vault `a`: a repository with one segment. -/
def nestedLoad (segment hash : List UInt8) : LoadState :=
  loadSegments emptyBank ⟨[120, 46, 100, 118], by decide⟩ .file .readOnly
    (headerBytes [97] hash segment.length payloadClassRepo ++ segment)

/-- With a segment for the vault `b` it ends. -/
theorem loadSegments_ends_nested :
    Ends segmentEnv (nestedLoad (emptySegment [98]) segmentHashB) := by
  have hfinished : isFinished
      ((next segmentEnv)^[10] (nestedLoad (emptySegment [98]) segmentHashB)) := by
    decide +kernel
  have hruns (n : Nat) :
      ¬ opensCompressedRepo ((next segmentEnv)^[n] (nestedLoad (emptySegment [98]) segmentHashB)) ∧
        ¬ isBlocked segmentEnv
          ((next segmentEnv)^[n] (nestedLoad (emptySegment [98]) segmentHashB)) :=
    forall_iterate_of_fixed (p := fun s => ¬ opensCompressedRepo s ∧ ¬ isBlocked segmentEnv s)
      (next_of_isFinished hfinished) (by decide +kernel) n
  exact (loadSegments_ends_iff segmentEnv emptyBank ⟨[120, 46, 100, 118], by decide⟩ .file .readOnly
    (headerBytes [97] segmentHashB (emptySegment [98]).length payloadClassRepo ++
      emptySegment [98]) fun n => (hruns n).1).mpr fun n => (hruns n).2

/-- With a segment for the vault `a`, which is locked, it does not. -/
theorem not_loadSegments_ends : ¬ ∀ (env : LoadEnv) (b : DataBank) (name : CName)
    (type : StreamType) (store : StoreType) (contents : List UInt8),
    (∀ n, ¬ opensCompressedRepo ((next env)^[n] (loadSegments b name type store contents))) →
      Ends env (loadSegments b name type store contents) := by
  intro h
  have hblocked : isBlocked segmentEnv
      ((next segmentEnv)^[1] (nestedLoad (emptySegment [97]) segmentHashA)) := by
    decide +kernel
  obtain ⟨hstays, hrunning⟩ := next_of_isBlocked hblocked
  have hplain (n : Nat) : ¬ opensCompressedRepo
      ((next segmentEnv)^[n] (nestedLoad (emptySegment [97]) segmentHashA)) :=
    forall_iterate_of_fixed (p := fun s => ¬ opensCompressedRepo s) hstays (by decide +kernel) n
  obtain ⟨n, hn⟩ : ∃ n, isFinished
      ((next segmentEnv)^[n] (nestedLoad (emptySegment [97]) segmentHashA)) :=
    (h segmentEnv emptyBank ⟨[120, 46, 100, 118], by decide⟩ .file .readOnly
    (headerBytes [97] segmentHashA (emptySegment [97]).length payloadClassRepo ++
      emptySegment [97]) hplain).halts
  rcases Nat.eq_zero_or_pos n with rfl | hpos
  · cases hn
  · rw [iterate_eq_of_fixed hstays hpos] at hn
    exact hrunning hn

end Vault

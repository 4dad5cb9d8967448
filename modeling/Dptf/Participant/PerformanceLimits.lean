import Dptf.Tables.PerformanceControlSet

/-!
# Performance limits of a processor

`DomainPerformanceControl_002.cpp`.  The P-states and the T-states of a processor are two
tables that are used as one; the first T-state is left out if it is the last P-state.  Limits
that are read and limits that are set go from one numbering to the other in unsigned numbers.

* `StateTables` — the tables; `safe_createStateSets` takes them from firmware.
-/

open Lib Lib.Parse

namespace Participant

open Tables

/-- `Constants::Invalid`. -/
def invalidIndex : Nat := 2 ^ 32 - 1

/-- A difference of `UIntN`s. -/
def subUIntN (a b : Nat) : Nat := (a + 2 ^ 32 - b) % 2 ^ 32

/-! ## The tables -/

/-- The P-states and the T-states, as the parsers of PSS and TSS give them.  The counts leave
room for the sums of the code. -/
structure StateTables where
  pStates : List PerformanceControl
  tStates : List PerformanceControl
  pStates_ne : pStates ≠ []
  pStates_type : ∀ c ∈ pStates, c.performanceControlType = .performanceState
  tStates_type : ∀ c ∈ tStates, c.performanceControlType = .throttleState
  pStates_lt : pStates.length < 2 ^ 30
  tStates_lt : tStates.length < 2 ^ 30

namespace StateTables

variable (t : StateTables)

/-- `performanceStateSet.getCount()`. -/
def pCount : Nat := t.pStates.length

/-- `throttlingStateSet.getCount()`. -/
def tCount : Nat := t.tStates.length

/-- `isFirstTstateDeleted`: the last P-state and the first T-state are the same. -/
def isFirstTstateDeleted : Bool :=
  match t.tStates with
  | [] => false
  | first :: _ =>
    (t.pStates.getLast t.pStates_ne).controlAbsoluteValue = first.controlAbsoluteValue

/-- One if the first T-state is deleted. -/
def deleted : Nat := if t.isFirstTstateDeleted then 1 else 0

/-- `createCombinedPerformanceControlSet`. -/
def combined : List PerformanceControl := t.pStates ++ t.tStates.drop t.deleted

end StateTables

/-- `createPerformanceStateSet` and `createThrottlingStateSet`: any exception of the second
leaves no T-states.  There is no buffer where the primitive throws. -/
def createStateSets (scale : Scaling) (pss : DptfBuffer) (tss : Option DptfBuffer) :
    Parse (List PerformanceControl × List PerformanceControl) := do
  let performanceStateSet ← createFromProcessorPss pss
  match performanceStateSet.getLast?, tss with
  | none, _ => throw "P-state set is empty.  Impossible if we support performance controls."
  | some _, none => pure (performanceStateSet, [])
  | some pN, some tss =>
    let throttlingStateSet ← tryCatch (createFromProcessorTss scale pN tss) fun _ => pure []
    pure (performanceStateSet, throttlingStateSet)

/-- The tables that are read are tables as they should be, and a TSS that gives no table leaves no
T-states. -/
theorem safe_createStateSets (scale : Scaling) (pss : DptfBuffer) (tss : Option DptfBuffer) :
    Safe (createStateSets scale pss tss) fun sets =>
      (∃ t : StateTables, sets = (t.pStates, t.tStates)) ∧
        ((∀ pN ∈ sets.1.getLast?, ∀ buffer ∈ tss, ∀ ts,
            ¬Returns (createFromProcessorTss scale pN buffer) ts) →
          sets.2 = []) := by
  refine (safe_createFromProcessorPss pss).bind fun ps hps => ?_
  cases hlast : ps.getLast? with
  | none => exact safe_throw _ _
  | some pN =>
    have hne : ps ≠ [] := by
      rintro rfl
      cases hlast
    cases tss with
    | none => exact safe_pure ⟨⟨⟨ps, [], hne, hps.2, by simp, hps.1, by simp⟩, rfl⟩, fun _ => rfl⟩
    | some tss =>
      -- what is caught leaves the empty table, and what is returned was given by the parser
      have hparsed := (safe_createFromProcessorTss scale pN tss).returns.mono fun ts hts =>
        show _ ∧ ((∀ ts, ¬Returns (createFromProcessorTss scale pN tss) ts) → ts = []) from
          ⟨hts.1, fun hno => absurd hts.2 (hno ts)⟩
      refine Safe.bind (safe_tryCatch hparsed fun _ =>
        safe_pure ⟨⟨by simp, by simp⟩, fun _ => rfl⟩) fun ts hts => ?_
      exact safe_pure ⟨⟨⟨ps, ts, hne, hps.2, hts.1.2, hps.1, hts.1.1⟩, rfl⟩,
        fun hno => hts.2 (hno pN hlast tss rfl)⟩

/-! ## Limits that are read -/

/-- What the primitives for the limits give; `none` if they throw. -/
structure LimitReads where
  pstateDepthLimit : Option UInt32
  tstatePresentCapability : Option UInt32
  tstateDepthLimit : Option UInt32

/-- The primitives that are set. -/
inductive SetPrimitive
  | tstateCurrent
  | perfPresentCapability
  | procPerfPstateDepthLimit
  | procPerfTstateDepthLimit
  | participantMaxPerfState
  | procMaxThrottleState
deriving DecidableEq, Repr

/-- A primitive that is set, and the number it is set to. -/
abbrev Write := SetPrimitive × Nat

/-- `PerformanceControlDynamicCaps`. -/
structure PerformanceCaps where
  lower : Nat
  upper : Nat
deriving DecidableEq

section Read

variable (t : StateTables) (reads : LimitReads)

/-- `calculatePerformanceStateLimits`: upper and lower limit.  A table without a P-state is
refused when it is read. -/
def calculatePerformanceStateLimits : Nat × Nat :=
  let ppdl := match reads.pstateDepthLimit with
    | some limit => limit.toNat
    | none => t.pCount - 1
  (0, if ppdl < t.pCount then ppdl else t.pCount - 1)

/-- What it writes, if the depth limit cannot be read.  The capabilities are kept afterwards, so
that it is written the first time only. -/
def depthLimitWrites : List Write :=
  match reads.pstateDepthLimit with
  | some _ => []
  | none => [(.procPerfPstateDepthLimit, t.pCount - 1)]

/-- `calculateThrottlingStateLimits`: upper and lower limit. -/
def calculateThrottlingStateLimits : Nat × Nat :=
  let upper := (reads.tstatePresentCapability.map UInt32.toNat).getD 0
  let lower := (reads.tstateDepthLimit.map UInt32.toNat).getD (t.tCount - 1)
  let upper' := if upper ≥ t.tCount then 0 else upper
  (upper', if lower ≥ t.tCount ∨ upper' > lower then t.tCount - 1 else lower)

/-- `arbitratePerformanceStateLimits`; `m_tdpFrequencyLimitControlIndex` is never set. -/
def arbitratePerformanceStateLimits (p tstate : Nat × Nat) : PerformanceCaps where
  upper :=
    if (p.1 ≥ t.pCount - 1 ∨ tstate.1 ≠ 0) ∧ t.tCount > 0 then t.pCount + tstate.1 - t.deleted
    else p.1
  lower :=
    if p.2 ≥ t.pCount - 1 ∧ t.tCount > 0 then t.pCount + tstate.2 - t.deleted else p.2

/-- `createPerformanceControlDynamicCaps`. -/
def createPerformanceControlDynamicCaps : PerformanceCaps :=
  let tstate := if t.tCount > 0 then calculateThrottlingStateLimits t reads
    else (invalidIndex, invalidIndex)
  arbitratePerformanceStateLimits t (calculatePerformanceStateLimits t reads) tstate

end Read

/-! ## Limits that are set -/

section Set

variable (t : StateTables)

/-- `snapIfPerformanceControlIndexIsOutOfBounds`. -/
def snapIfPerformanceControlIndexIsOutOfBounds (caps : PerformanceCaps) (index : Nat) : Nat :=
  if index < caps.upper then caps.upper
  else if index > caps.lower then caps.lower
  else index

/-- `setPerformanceControl`: what is written; `none` is the exception of an index that is not in
the table. -/
def setPerformanceControl (reads : LimitReads) (performanceControlIndex : UInt32) :
    Option (List Write) :=
  let caps := createPerformanceControlDynamicCaps t reads
  let index := snapIfPerformanceControlIndexIsOutOfBounds caps performanceControlIndex.toNat
  (t.combined[index]?).map fun control =>
    depthLimitWrites t reads ++
      match control.performanceControlType with
      | .performanceState =>
        (match t.tStates with
          | [] => []
          | first :: _ => [(.tstateCurrent, first.controlId.toNat)]) ++
          [(.perfPresentCapability, index)]
      | .throttleState =>
        [(.perfPresentCapability, t.pCount - 1), (.tstateCurrent, control.controlId.toNat)]

/-- `pstateUpperLimit` and `tstateUpperLimit`. -/
def upperLimits (ppdl upper : Nat) : Nat × Nat :=
  if upper ≥ t.combined.length then (0, if t.tCount > 0 then 0 else invalidIndex)
  else if upper < (if ppdl < t.pCount then ppdl else t.pCount) then
    (upper, if t.tCount > 0 then 0 else invalidIndex)
  else
    (0, if t.tCount > 0 then (subUIntN upper t.pCount + t.deleted) % 2 ^ 32 else invalidIndex)

/-- `pstateLowerLimit` and `tstateLowerLimit`. -/
def lowerLimits (ppdl upper lower : Nat) : Nat × Nat :=
  let minIndex := if ppdl < t.combined.length then ppdl else t.combined.length - 1
  if upper > lower ∨ lower > minIndex then
    (minIndex, if t.tCount > 0 then t.tCount - 1 else invalidIndex)
  else if lower < (if ppdl < t.combined.length then ppdl else t.combined.length) then
    (lower, if t.tCount > 0 then 0 else invalidIndex)
  else
    (minIndex, if t.tCount > 0 then t.combined.length - t.pCount + t.deleted else invalidIndex)

/-- A primitive is set unless the number is invalid. -/
def writeValid (primitive : SetPrimitive) (value : Nat) : List Write :=
  if value ≠ invalidIndex then [(primitive, value)] else []

/-- `setPerformanceControlDynamicCaps`: what is written, or nothing if the depth limit cannot be
read. -/
def setPerformanceControlDynamicCaps (ppdl : Option UInt32) (upper lower : UInt32) : List Write :=
  if upper.toNat ≠ invalidIndex ∧ lower.toNat ≠ invalidIndex then
    match ppdl with
    | none => []
    | some ppdl =>
      let uppers := upperLimits t ppdl.toNat upper.toNat
      let lowers := lowerLimits t ppdl.toNat upper.toNat lower.toNat
      writeValid .procPerfPstateDepthLimit lowers.1 ++
        writeValid .procPerfTstateDepthLimit lowers.2 ++
        writeValid .participantMaxPerfState uppers.1 ++ writeValid .procMaxThrottleState uppers.2
  else []

end Set

/-! ## What the tables are -/

section Tables

variable {t : StateTables}

theorem pCount_pos (t : StateTables) : 0 < t.pCount := List.length_pos_iff.mpr t.pStates_ne

/-- The first T-state can only be deleted if there is one. -/
theorem deleted_le (t : StateTables) : t.deleted ≤ 1 ∧ t.deleted ≤ t.tCount := by
  unfold StateTables.deleted StateTables.isFirstTstateDeleted StateTables.tCount
  cases t.tStates with
  | nil => simp
  | cons first rest =>
    simp only [List.length_cons]
    split <;> omega

theorem length_combined (t : StateTables) :
    t.combined.length = t.pCount + (t.tCount - t.deleted) := by
  simp [StateTables.combined, StateTables.pCount, StateTables.tCount]

/-- What both counts are, with room for the sums. -/
theorem counts_lt (t : StateTables) : t.pCount < 2 ^ 30 ∧ t.tCount < 2 ^ 30 :=
  ⟨t.pStates_lt, t.tStates_lt⟩

end Tables

/-! ## When the limits that are read are a range -/

section CapsInside

variable {t : StateTables} {reads : LimitReads}

/-- The capabilities are a range of the combined table. -/
def CapsInside (t : StateTables) (caps : PerformanceCaps) : Prop :=
  caps.upper ≤ caps.lower ∧ caps.lower < t.combined.length

/-- The depth limit of the P-states ends before the last one, while the present capability of
the T-states begins after the first one. -/
def LimitsApart (t : StateTables) (reads : LimitReads) : Prop :=
  (∃ limit, reads.pstateDepthLimit = some limit ∧ limit.toNat + 1 < t.pCount) ∧
    ∃ present, reads.tstatePresentCapability = some present ∧ present ≠ 0 ∧
      present.toNat < t.tCount

/-- The limits of the P-states. -/
theorem calculatePerformanceStateLimits_spec (t : StateTables) (reads : LimitReads) :
    (calculatePerformanceStateLimits t reads).1 = 0 ∧
      (calculatePerformanceStateLimits t reads).2 < t.pCount ∧
      ((calculatePerformanceStateLimits t reads).2 + 1 < t.pCount ↔
        ∃ limit, reads.pstateDepthLimit = some limit ∧ limit.toNat + 1 < t.pCount) := by
  have hpos := pCount_pos t
  cases hread : reads.pstateDepthLimit with
  | none =>
    simp only [calculatePerformanceStateLimits, hread, reduceCtorEq, false_and, exists_false,
      iff_false, true_and]
    constructor <;> split <;> omega
  | some limit =>
    simp only [calculatePerformanceStateLimits, hread, Option.some.injEq, exists_eq_left', true_and]
    constructor <;> split <;> omega

/-- The limits of the T-states, where there are any. -/
theorem calculateThrottlingStateLimits_spec (reads : LimitReads) (h : 0 < t.tCount) :
    (calculateThrottlingStateLimits t reads).1 ≤ (calculateThrottlingStateLimits t reads).2 ∧
      (calculateThrottlingStateLimits t reads).2 < t.tCount ∧
      ((calculateThrottlingStateLimits t reads).1 ≠ 0 ↔
        ∃ present, reads.tstatePresentCapability = some present ∧ present ≠ 0 ∧
          present.toNat < t.tCount) := by
  refine ⟨?_, ?_, ?_⟩
  · simp only [calculateThrottlingStateLimits]
    split <;> split <;> omega
  · simp only [calculateThrottlingStateLimits]
    split <;> split <;> omega
  · cases hread : reads.tstatePresentCapability with
    | none => simp [calculateThrottlingStateLimits, hread]
    | some present =>
      have hzero : present ≠ 0 ↔ present.toNat ≠ 0 := by
        rw [ne_eq, ← UInt32.toNat_inj]
        rfl
      simp only [calculateThrottlingStateLimits, hread, Option.map_some, Option.getD_some,
        Option.some.injEq, exists_eq_left', hzero]
      split <;> omega

/-- Both limits are indexes of the combined table. -/
theorem caps_lt (t : StateTables) (reads : LimitReads) :
    (createPerformanceControlDynamicCaps t reads).upper < t.combined.length ∧
      (createPerformanceControlDynamicCaps t reads).lower < t.combined.length := by
  obtain ⟨hp, hpl, -⟩ := calculatePerformanceStateLimits_spec t reads
  have hd := deleted_le t
  have hpos := pCount_pos t
  rw [length_combined]
  unfold createPerformanceControlDynamicCaps arbitratePerformanceStateLimits
  by_cases ht : 0 < t.tCount
  · obtain ⟨hle, hlt, -⟩ := calculateThrottlingStateLimits_spec reads ht
    simp only [gt_iff_lt, if_pos ht, hp]
    constructor <;> split <;> omega
  · simp only [gt_iff_lt, ht, if_false, and_false, hp]
    omega

/-- The arbitrated limits cross if only the T-states move the upper one. -/
theorem arbitratePerformanceStateLimits_le_iff {pLower : Nat} {tstate : Nat × Nat}
    (hp : pLower < t.pCount) (hle : tstate.1 ≤ tstate.2) (hlt : tstate.2 < t.tCount) :
    (arbitratePerformanceStateLimits t (0, pLower) tstate).upper ≤
        (arbitratePerformanceStateLimits t (0, pLower) tstate).lower ↔
      ¬(pLower + 1 < t.pCount ∧ tstate.1 ≠ 0) := by
  have hd := deleted_le t
  have ht : 0 < t.tCount := by omega
  simp only [arbitratePerformanceStateLimits, gt_iff_lt, ht, and_true]
  by_cases hend : pLower ≥ t.pCount - 1
  · rw [if_pos hend]
    split <;> omega
  · rw [if_neg hend]
    split <;> omega

/-- **When the capabilities are a range**: unless the limits of the two tables lie apart. -/
theorem capsInside_iff (t : StateTables) (reads : LimitReads) :
    CapsInside t (createPerformanceControlDynamicCaps t reads) ↔ ¬LimitsApart t reads := by
  obtain ⟨hp, hpl, hbefore⟩ := calculatePerformanceStateLimits_spec t reads
  have hd := deleted_le t
  have hpos := pCount_pos t
  have hlast := (caps_lt t reads).2
  unfold CapsInside LimitsApart
  rw [and_iff_left hlast, ← hbefore]
  by_cases ht : 0 < t.tCount
  · obtain ⟨hle, hlt, hafter⟩ := calculateThrottlingStateLimits_spec reads ht
    rw [← hafter, show createPerformanceControlDynamicCaps t reads =
      arbitratePerformanceStateLimits t (0, (calculatePerformanceStateLimits t reads).2)
        (calculateThrottlingStateLimits t reads) by
        unfold createPerformanceControlDynamicCaps
        rw [if_pos ht]
        rfl]
    exact arbitratePerformanceStateLimits_le_iff hpl hle hlt
  · have hnone : ¬∃ present, reads.tstatePresentCapability = some present ∧ present ≠ 0 ∧
        present.toNat < t.tCount := by
      rintro ⟨present, -, -, hlt⟩
      omega
    unfold createPerformanceControlDynamicCaps arbitratePerformanceStateLimits
    simp only [gt_iff_lt, ht, if_false, and_false, hp, hnone, not_false_eq_true, iff_true]
    omega

end CapsInside

/-! ## What is written -/

section Writes

variable {t : StateTables}

/-- The writes stay inside the tables, and no upper limit is after the lower one. -/
structure WritesInside (t : StateTables) (ws : List Write) : Prop where
  pstate : ∀ v, (.perfPresentCapability, v) ∈ ws ∨ (.procPerfPstateDepthLimit, v) ∈ ws ∨
    (.participantMaxPerfState, v) ∈ ws → v < t.pCount
  tstate : ∀ v, (.procPerfTstateDepthLimit, v) ∈ ws ∨ (.procMaxThrottleState, v) ∈ ws →
    v < t.tCount
  tcontrol : ∀ v, (.tstateCurrent, v) ∈ ws → ∃ c ∈ t.tStates, c.controlId.toNat = v
  pOrder : ∀ u l, (.participantMaxPerfState, u) ∈ ws → (.procPerfPstateDepthLimit, l) ∈ ws → u ≤ l
  tOrder : ∀ u l, (.procMaxThrottleState, u) ∈ ws → (.procPerfTstateDepthLimit, l) ∈ ws → u ≤ l

/-- The type of a control says which table it is from. -/
theorem combined_type {index : Nat} {control : PerformanceControl}
    (h : t.combined[index]? = some control) :
    (control.performanceControlType = .performanceState → index < t.pCount) ∧
      (control.performanceControlType = .throttleState → control ∈ t.tStates) := by
  rw [StateTables.combined, List.getElem?_append] at h
  by_cases hlt : index < t.pStates.length
  · rw [if_pos hlt] at h
    have htype := t.pStates_type control (List.mem_of_getElem? h)
    rw [htype]
    exact ⟨fun _ => hlt, fun h => by cases h⟩
  · rw [if_neg hlt] at h
    have hmem := List.mem_of_mem_drop (List.mem_of_getElem? h)
    have htype := t.tStates_type control hmem
    rw [htype]
    exact ⟨fun h => (by cases h), fun _ => hmem⟩

theorem snap_lt (caps : PerformanceCaps) {n : Nat} (hu : caps.upper < n) (hl : caps.lower < n)
    (index : Nat) : snapIfPerformanceControlIndexIsOutOfBounds caps index < n := by
  unfold snapIfPerformanceControlIndexIsOutOfBounds
  split
  · exact hu
  · split <;> omega

/-- **A control that is set is in its table**, whatever index is asked for. -/
theorem writesInside_setPerformanceControl (t : StateTables) (reads : LimitReads)
    (performanceControlIndex : UInt32) :
    ∃ ws, setPerformanceControl t reads performanceControlIndex = some ws ∧ WritesInside t ws := by
  obtain ⟨hu, hl⟩ := caps_lt t reads
  have hlt := snap_lt _ hu hl performanceControlIndex.toNat
  obtain ⟨control, hcontrol⟩ : ∃ control, t.combined[
      snapIfPerformanceControlIndexIsOutOfBounds (createPerformanceControlDynamicCaps t reads)
        performanceControlIndex.toNat]? = some control := ⟨_, List.getElem?_eq_getElem hlt⟩
  obtain ⟨hp, htc⟩ := combined_type hcontrol
  have hpos := pCount_pos t
  unfold setPerformanceControl
  simp only [hcontrol, Option.map_some, Option.some.injEq, exists_eq_left']
  cases htype : control.performanceControlType with
  | performanceState =>
    have hindex := hp htype
    cases hts : t.tStates with
    | nil =>
      unfold depthLimitWrites
      cases reads.pstateDepthLimit <;> constructor <;> simp <;> omega
    | cons first rest =>
      unfold depthLimitWrites
      cases reads.pstateDepthLimit <;> constructor <;> simp [hts] <;> omega
  | throttleState =>
    have hmem := htc htype
    unfold depthLimitWrites
    cases reads.pstateDepthLimit <;> constructor <;> simp <;> first | omega | exact ⟨_, hmem, rfl⟩

theorem mem_writeValid {primitive q : SetPrimitive} {value v : Nat} :
    (q, v) ∈ writeValid primitive value ↔ q = primitive ∧ v = value ∧ value ≠ invalidIndex := by
  unfold writeValid
  split <;> simp_all

/-- The limits that are written, one by one. -/
theorem writesInside_limits {pl tl pu tu : Nat} :
    WritesInside t (writeValid .procPerfPstateDepthLimit pl ++
        writeValid .procPerfTstateDepthLimit tl ++ writeValid .participantMaxPerfState pu ++
        writeValid .procMaxThrottleState tu) ↔
      (pl ≠ invalidIndex → pl < t.pCount) ∧ (tl ≠ invalidIndex → tl < t.tCount) ∧
        (pu ≠ invalidIndex → pu < t.pCount) ∧ (tu ≠ invalidIndex → tu < t.tCount) ∧
        (pu ≠ invalidIndex → pl ≠ invalidIndex → pu ≤ pl) ∧
        (tu ≠ invalidIndex → tl ≠ invalidIndex → tu ≤ tl) := by
  constructor
  · intro h
    refine ⟨fun hpl => h.pstate pl ?_, fun htl => h.tstate tl ?_, fun hpu => h.pstate pu ?_,
      fun htu => h.tstate tu ?_, fun hpu hpl => h.pOrder pu pl ?_ ?_,
      fun htu htl => h.tOrder tu tl ?_ ?_⟩ <;>
      simp only [List.mem_append, mem_writeValid] <;> simp [*]
  · rintro ⟨hpl, htl, hpu, htu, hp, ht⟩
    constructor <;> simp only [List.mem_append, mem_writeValid] <;> simp <;> grind

/-- The caps that are asked for fit the tables where the depth limit is `ppdl`.

Where the lower limit is out of range, it is the depth limit, which has to be a P-state, or one
behind them if there is none but the T-state left out.  An upper limit that is a P-state behind
the depth limit is counted as a T-state then.  A lower limit in range has to be a P-state before
the depth limit: at the depth limit the T-states are counted one too far. -/
def CapsFit (t : StateTables) (ppdl upper lower : Nat) : Prop :=
  t.tCount = 0 ∨
    if upper > lower ∨ lower > ppdl ∨ lower ≥ t.combined.length then
      (ppdl < t.pCount ∨ t.tCount = t.deleted) ∧
        ¬(ppdl ≤ upper ∧ upper + t.deleted + 2 ≤ t.pCount)
    else lower < ppdl ∧ lower < t.pCount

/-- What is left of the T-state upper limit: behind the P-states it is counted from the first
T-state, and before their end it is out of range unless it is left out. -/
theorem tstateUpper_inside {np nt d upper : Nat} (hnp : np < 2 ^ 30) (hnt : nt < 2 ^ 30)
    (hd : d ≤ 1 ∧ d ≤ nt) (ht : 0 < nt) (hu : upper < np + (nt - d)) :
    ((subUIntN upper np + d) % 2 ^ 32 ≠ invalidIndex → (subUIntN upper np + d) % 2 ^ 32 < nt) ↔
      ¬upper + d + 2 ≤ np := by
  unfold subUIntN invalidIndex
  by_cases hle : np ≤ upper
  · have hsub : (upper + 2 ^ 32 - np) % 2 ^ 32 = upper - np := by omega
    rw [hsub]
    omega
  · have hsub : (upper + 2 ^ 32 - np) % 2 ^ 32 = upper + 2 ^ 32 - np := by omega
    rw [hsub]
    omega

/-- The upper limits. -/
theorem upperLimits_spec (t : StateTables) (ppdl upper : Nat) :
    (upperLimits t ppdl upper).1 < t.pCount ∧ (upperLimits t ppdl upper).1 ≤ upper ∧
      (upperLimits t ppdl upper).1 ≤ ppdl ∧
      (t.tCount = 0 → (upperLimits t ppdl upper).2 = invalidIndex) ∧
      (0 < t.tCount → (((upperLimits t ppdl upper).2 ≠ invalidIndex →
        (upperLimits t ppdl upper).2 < t.tCount) ↔
          ¬(ppdl ≤ upper ∧ upper + t.deleted + 2 ≤ t.pCount))) ∧
      (upper < ppdl → upper < t.pCount → 0 < t.tCount → (upperLimits t ppdl upper).2 = 0) := by
  obtain ⟨hnp, hnt⟩ := counts_lt t
  have hpos := pCount_pos t
  have hd := deleted_le t
  have hlen := length_combined t
  unfold upperLimits
  by_cases hout : upper ≥ t.combined.length
  · rw [if_pos hout]
    refine ⟨hpos, Nat.zero_le _, Nat.zero_le _, fun h => by simp [h], fun h => ?_, by omega⟩
    simp only [gt_iff_lt, h, if_true]
    exact iff_of_true (fun _ => trivial) (by omega)
  rw [if_neg hout]
  by_cases hbefore : upper < if ppdl < t.pCount then ppdl else t.pCount
  · rw [if_pos hbefore]
    have hlt : upper < ppdl ∧ upper < t.pCount := by split at hbefore <;> omega
    refine ⟨hlt.2, le_rfl, hlt.1.le, fun h => by simp [h], fun h => ?_, fun _ _ h => by simp [h]⟩
    simp only [gt_iff_lt, h, if_true]
    exact iff_of_true (fun _ => trivial) (by omega)
  rw [if_neg hbefore]
  have hbehind : ppdl ≤ upper ∨ t.pCount ≤ upper := by split at hbefore <;> omega
  refine ⟨hpos, Nat.zero_le _, Nat.zero_le _, fun h => by simp [h], fun h => ?_, by omega⟩
  simp only [gt_iff_lt, h, if_true]
  rw [tstateUpper_inside hnp hnt hd h (by omega)]
  omega

/-- The lower limits. -/
theorem lowerLimits_spec (t : StateTables) (ppdl upper lower : Nat) :
    (upperLimits t ppdl upper).1 ≤ (lowerLimits t ppdl upper lower).1 ∧
      (t.tCount = 0 → (lowerLimits t ppdl upper lower).1 < t.pCount ∧
        (lowerLimits t ppdl upper lower).2 = invalidIndex) ∧
      (0 < t.tCount → (lowerLimits t ppdl upper lower).1 < t.combined.length ∧
        (lowerLimits t ppdl upper lower).2 ≤ t.tCount ∧
        (if upper > lower ∨ lower > ppdl ∨ lower ≥ t.combined.length then
          ((lowerLimits t ppdl upper lower).1 < t.pCount ↔ ppdl < t.pCount ∨ t.tCount = t.deleted) ∧
            (lowerLimits t ppdl upper lower).2 = t.tCount - 1
        else if lower < ppdl then
          (lowerLimits t ppdl upper lower).1 = lower ∧ (lowerLimits t ppdl upper lower).2 = 0
        else (lowerLimits t ppdl upper lower).2 = t.tCount)) := by
  obtain ⟨hnp, hnt⟩ := counts_lt t
  have hpos := pCount_pos t
  have hd := deleted_le t
  have hlen := length_combined t
  obtain ⟨hulim, huu, hup, -, -⟩ := upperLimits_spec t ppdl upper
  generalize (upperLimits t ppdl upper).1 = pu at *
  unfold lowerLimits
  by_cases hout : upper > lower ∨ lower > ppdl ∨ lower ≥ t.combined.length
  · have hcode : upper > lower ∨
        lower > if ppdl < t.combined.length then ppdl else t.combined.length - 1 := by
      split <;> omega
    rw [if_pos hcode]
    simp only [hout, if_true]
    refine ⟨?_, fun h => ⟨?_, by simp [h]⟩, fun h => ⟨?_, by simp [h], ?_, by simp [h]⟩⟩ <;>
      split <;> omega
  · have hcode : ¬(upper > lower ∨
        lower > if ppdl < t.combined.length then ppdl else t.combined.length - 1) := by
      split <;> omega
    rw [if_neg hcode]
    simp only [hout, if_false]
    by_cases hlt : lower < ppdl
    · have hcode' : lower < if ppdl < t.combined.length then ppdl else t.combined.length := by
        split <;> omega
      rw [if_pos hcode']
      simp only [hlt, if_true]
      exact ⟨by omega, fun h => ⟨by omega, by simp [h]⟩,
        fun h => ⟨by omega, by simp [h], by simp [h]⟩⟩
    · have hcode' : ¬lower < if ppdl < t.combined.length then ppdl else t.combined.length := by
        split <;> omega
      rw [if_neg hcode']
      simp only [hlt, if_false]
      refine ⟨?_, fun h => ⟨?_, by simp [h]⟩, fun h => ⟨?_, ?_, ?_⟩⟩
      · split <;> omega
      · split <;> omega
      · split <;> omega
      · rw [if_pos h]
        omega
      · rw [if_pos h]
        omega

/-- **When what is written is inside the tables**, for the limits that are computed. -/
theorem limitsInside_iff (t : StateTables) (ppdl upper lower : Nat) :
    WritesInside t (writeValid .procPerfPstateDepthLimit (lowerLimits t ppdl upper lower).1 ++
        writeValid .procPerfTstateDepthLimit (lowerLimits t ppdl upper lower).2 ++
        writeValid .participantMaxPerfState (upperLimits t ppdl upper).1 ++
        writeValid .procMaxThrottleState (upperLimits t ppdl upper).2) ↔
      CapsFit t ppdl upper lower := by
  obtain ⟨hnp, hnt⟩ := counts_lt t
  have hd := deleted_le t
  have hlen := length_combined t
  have hinvalid : invalidIndex = 2 ^ 32 - 1 := rfl
  obtain ⟨hpu, -, -, htuNone, htu, htuZero⟩ := upperLimits_spec t ppdl upper
  obtain ⟨hle, hlNone, hl⟩ := lowerLimits_spec t ppdl upper lower
  rw [writesInside_limits]
  generalize (upperLimits t ppdl upper).1 = pu at *
  generalize (upperLimits t ppdl upper).2 = tu at *
  generalize (lowerLimits t ppdl upper lower).1 = pl at *
  generalize (lowerLimits t ppdl upper lower).2 = tl at *
  rcases Nat.eq_zero_or_pos t.tCount with ht | ht
  · have htu' := htuNone ht
    obtain ⟨hpl, htl⟩ := hlNone ht
    refine iff_of_true ?_ (.inl ht)
    exact ⟨fun _ => hpl, fun h => absurd htl h, fun _ => hpu, fun h => absurd htu' h,
      fun _ _ => hle, fun h => absurd htu' h⟩
  obtain ⟨hpl, htl, hcases⟩ := hl ht
  have htu := htu ht
  have hne : pl ≠ invalidIndex ∧ tl ≠ invalidIndex ∧ pu ≠ invalidIndex := by omega
  simp only [CapsFit, Nat.pos_iff_ne_zero.mp ht, false_or]
  simp only [hne.1, hne.2.1, hne.2.2, ne_eq, not_false_eq_true, forall_const, hpu, hle, true_and]
  by_cases hout : upper > lower ∨ lower > ppdl ∨ lower ≥ t.combined.length
  · simp only [hout, if_true] at hcases ⊢
    rw [← hcases.1, ← htu]
    constructor
    · rintro ⟨hpl', -, htu', -⟩
      exact ⟨hpl', htu'⟩
    · rintro ⟨hpl', htu'⟩
      exact ⟨hpl', by omega, htu', fun h => by have := htu' h; omega⟩
  · simp only [hout, if_false] at hcases ⊢
    by_cases hlt : lower < ppdl
    · simp only [hlt, if_true, true_and] at hcases ⊢
      constructor
      · rintro ⟨hpl', -⟩
        omega
      · intro hlower
        have hzero := htuZero (by omega) (by omega) ht
        omega
    · simp only [hlt, if_false, false_and, iff_false] at hcases ⊢
      rintro ⟨-, htl', -⟩
      omega

/-- **When setting the capabilities stays inside the tables**: nothing is set if an index is
invalid or the depth limit cannot be read, and otherwise they fit. -/
theorem writesInside_iff (t : StateTables) (ppdl : Option UInt32) (upper lower : UInt32) :
    WritesInside t (setPerformanceControlDynamicCaps t ppdl upper lower) ↔
      (upper.toNat ≠ invalidIndex → lower.toNat ≠ invalidIndex → ∀ limit, ppdl = some limit →
        CapsFit t limit.toNat upper.toNat lower.toNat) := by
  have hnil : WritesInside t [] := by constructor <;> simp
  unfold setPerformanceControlDynamicCaps
  by_cases hvalid : upper.toNat ≠ invalidIndex ∧ lower.toNat ≠ invalidIndex
  · rw [if_pos hvalid]
    cases ppdl with
    | none => exact iff_of_true hnil fun _ _ _ h => nomatch h
    | some limit =>
      refine (limitsInside_iff t limit.toNat upper.toNat lower.toNat).trans ?_
      exact ⟨fun h _ _ _ heq => Option.some.inj heq ▸ h, fun h => h hvalid.1 hvalid.2 _ rfl⟩
  · rw [if_neg hvalid]
    exact iff_of_true hnil fun hu hl => absurd ⟨hu, hl⟩ hvalid

/-! ## The limits stay inside the tables -/

/-- **When the limits of a processor stay inside its tables.**  The capabilities that are read
are a range unless the limits of the two tables lie apart; a control that is set is always in
its table; and the capabilities that are set have to fit. -/
theorem limitsInside (t : StateTables) (reads : LimitReads) (performanceControlIndex : UInt32)
    (upper lower : UInt32) :
    (CapsInside t (createPerformanceControlDynamicCaps t reads) ↔ ¬LimitsApart t reads) ∧
      (∃ ws, setPerformanceControl t reads performanceControlIndex = some ws ∧
        WritesInside t ws) ∧
      (WritesInside t (setPerformanceControlDynamicCaps t reads.pstateDepthLimit upper lower) ↔
        (upper.toNat ≠ invalidIndex → lower.toNat ≠ invalidIndex →
          ∀ limit, reads.pstateDepthLimit = some limit →
            CapsFit t limit.toNat upper.toNat lower.toNat)) :=
  ⟨capsInside_iff t reads, writesInside_setPerformanceControl t reads performanceControlIndex,
    writesInside_iff t reads.pstateDepthLimit upper lower⟩

/-- A state with this number. -/
def stateOf (type : PerformanceControlType) (controlId : UInt32) : PerformanceControl :=
  ⟨controlId, type, 0, 1, 0, controlId, []⟩

/-- Three P-states and two T-states, with none left out. -/
def fiveStates : StateTables where
  pStates := [stateOf .performanceState 1, stateOf .performanceState 2, stateOf .performanceState 3]
  tStates := [stateOf .throttleState 4, stateOf .throttleState 5]
  pStates_ne := by simp
  pStates_type := by decide
  tStates_type := by decide
  pStates_lt := by decide
  tStates_lt := by decide

/-- A depth limit at the first P-state and a present capability at the second T-state leave an
upper limit behind the lower one; and a lower limit at the last P-state, where the depth limit
is, is written as a T-state behind the last one. -/
theorem limitsInside_fails :
    ¬CapsInside fiveStates (createPerformanceControlDynamicCaps fiveStates
        ⟨some 0, some 1, some 1⟩) ∧
      ¬WritesInside fiveStates (setPerformanceControlDynamicCaps fiveStates (some 2) 0 2) := by
  constructor
  · unfold CapsInside
    decide
  · intro h
    have hlt := h.tstate 2 (by decide)
    exact absurd hlt (by decide)

end Writes

end Participant

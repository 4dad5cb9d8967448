import Mathlib.Tactic.Cases
import Dptf.Mgr.TableSteps

/-!
# The power arbitrators

`PowerControlArbitrator.cpp`, `SystemPowerControlArbitrator.cpp` and
`PeakPowerControlArbitrator.cpp`: power limits, time windows and duty cycles of the power
controls and of the system power limits, and the peak powers.

* `holdsThroughout_iff` — in which runs the arbitrated values are the least of the live requests.
-/

open Lib

namespace Mgr

/-! ## Control types -/

/-- `PowerControlType::Type`. -/
inductive PowerControlType
  | pl1 | pl2 | pl3 | pl4
deriving DecidableEq, Repr

instance : ControlType PowerControlType where
  toLinearOrder := LinearOrder.lift' PowerControlType.ctorIdx (by
    intro a b
    cases a <;> cases b <;> decide)
  types := [.pl1, .pl2, .pl3, .pl4]
  mem_types k := by cases k <;> decide

/-- `PsysPowerLimitType::Type`. -/
inductive PsysPowerLimitType
  | psysPL1 | psysPL2 | psysPL3
deriving DecidableEq, Repr

instance : ControlType PsysPowerLimitType where
  toLinearOrder := LinearOrder.lift' PsysPowerLimitType.ctorIdx (by
    intro a b
    cases a <;> cases b <;> decide)
  types := [.psysPL1, .psysPL2, .psysPL3]
  mem_types k := by cases k <;> decide

/-- `PeakPowerType::Type`. -/
inductive PeakPowerType
  | pl4ACPower | pl4DCPower
deriving DecidableEq, Repr

instance : ControlType PeakPowerType where
  toLinearOrder := LinearOrder.lift' PeakPowerType.ctorIdx (by
    intro a b
    cases a <;> cases b <;> decide)
  types := [.pl4ACPower, .pl4DCPower]
  mem_types k := by cases k <;> decide

/-! ## Power limits, time windows and duty cycles -/

section LimitTables

variable {K : Type} [ControlType K]

/-- The requests and arbitrated values of both limit arbitrators. -/
structure LimitTables (K : Type) [ControlType K] where
  powerLimits : RequestTable K Power
  timeWindows : RequestTable K TimeSpan
  dutyCycles : RequestTable K Percentage

/-- What an operation does to each table, if anything. -/
structure LimitOps (K : Type) where
  powerLimit : Option (TableOp K Power)
  timeWindow : Option (TableOp K TimeSpan)
  dutyCycle : Option (TableOp K Percentage)

/-- The live requests for each table. -/
structure LimitRequests (K : Type) where
  powerLimits : LiveRequests K Power
  timeWindows : LiveRequests K TimeSpan
  dutyCycles : LiveRequests K Percentage

/-- An operation on a table, if there is one. -/
def RequestTable.applyOpt {V : Type} [RequestValue V] (t : RequestTable K V) :
    Option (TableOp K V) → RequestTable K V
  | none => t
  | some op => t.apply op

/-- What it means for the requests. -/
def LiveRequests.applyOpt {V : Type} (live : LiveRequests K V) :
    Option (TableOp K V) → LiveRequests K V
  | none => live
  | some op => op.live live

/-- An operation on the three tables. -/
def LimitTables.apply (t : LimitTables K) (ops : LimitOps K) : LimitTables K where
  powerLimits := t.powerLimits.applyOpt ops.powerLimit
  timeWindows := t.timeWindows.applyOpt ops.timeWindow
  dutyCycles := t.dutyCycles.applyOpt ops.dutyCycle

/-- No requests. -/
def LimitTables.empty : LimitTables K := ⟨RequestTable.empty, RequestTable.empty, RequestTable.empty⟩

/-- What it means for the requests. -/
def LimitRequests.apply (live : LimitRequests K) (ops : LimitOps K) : LimitRequests K where
  powerLimits := live.powerLimits.applyOpt ops.powerLimit
  timeWindows := live.timeWindows.applyOpt ops.timeWindow
  dutyCycles := live.dutyCycles.applyOpt ops.dutyCycle

/-- No requests live. -/
def LimitRequests.none : LimitRequests K := ⟨fun _ _ => .none, fun _ _ => .none, fun _ _ => .none⟩

/-- For every control type the arbitrated values are the least live requests. -/
def LimitTables.Holds (t : LimitTables K) (live : LimitRequests K) : Prop :=
  t.powerLimits.Holds live.powerLimits ∧ t.timeWindows.Holds live.timeWindows ∧
    t.dutyCycles.Holds live.dutyCycles

/-- An operation that leaves the least requests arbitrated in each table it touches. -/
def LimitOps.Keeps (t : LimitTables K) (live : LimitRequests K) (ops : LimitOps K) : Prop :=
  (∀ op ∈ ops.powerLimit, op.Keeps t.powerLimits live.powerLimits) ∧
    (∀ op ∈ ops.timeWindow, op.Keeps t.timeWindows live.timeWindows) ∧
      ∀ op ∈ ops.dutyCycle, op.Keeps t.dutyCycles live.dutyCycles

/-- The requests in the tables are the live ones. -/
def LimitTables.Mirrors (t : LimitTables K) (live : LimitRequests K) : Prop :=
  Requests.live t.powerLimits.requested = live.powerLimits ∧
    Requests.live t.timeWindows.requested = live.timeWindows ∧
      Requests.live t.dutyCycles.requested = live.dutyCycles

section Table

variable {V : Type} [RequestValue V] {t : RequestTable K V} {live : LiveRequests K V}

theorem live_applyOpt (h : Requests.live t.requested = live) (o : Option (TableOp K V)) :
    Requests.live (t.applyOpt o).requested = live.applyOpt o := by
  cases o with
  | none => exact h
  | some op =>
    rw [← h]
    exact t.live_apply op

/-- A table that arbitrates the least requests does so after an operation that keeps it so. -/
theorem holds_applyOpt_iff (hlive : Requests.live t.requested = live) (h : t.Holds live)
    (o : Option (TableOp K V)) :
    (t.applyOpt o).Holds (live.applyOpt o) ↔ ∀ op ∈ o, op.Keeps t live := by
  cases o with
  | none => exact iff_of_true h fun op hop => by contradiction
  | some op =>
    subst hlive
    have hcoupled := t.holds_iff_coupled.1 h
    have hnext : (t.apply op).Holds (op.live (Requests.live t.requested)) ↔
        (t.apply op).Coupled := by
      rw [← t.live_apply op]
      exact (t.apply op).holds_iff_coupled
    refine (hnext.trans (RequestTable.coupled_apply_iff hcoupled op)).trans ?_
    simp

end Table

namespace LimitTables

variable {t : LimitTables K} {live : LimitRequests K}

theorem mirrors_apply (h : t.Mirrors live) (ops : LimitOps K) :
    (t.apply ops).Mirrors (live.apply ops) :=
  ⟨live_applyOpt h.1 _, live_applyOpt h.2.1 _, live_applyOpt h.2.2 _⟩

theorem holds_apply_iff (hlive : t.Mirrors live) (h : t.Holds live) (ops : LimitOps K) :
    (t.apply ops).Holds (live.apply ops) ↔ ops.Keeps t live :=
  and_congr (holds_applyOpt_iff hlive.1 h.1 _)
    (and_congr (holds_applyOpt_iff hlive.2.1 h.2.1 _) (holds_applyOpt_iff hlive.2.2 h.2.2 _))

end LimitTables

theorem holds_empty {V : Type} [RequestValue V] :
    (RequestTable.empty : RequestTable K V).Holds fun _ _ => none :=
  (RequestTable.holds_iff_coupled _).2 RequestTable.coupled_empty

end LimitTables

/-! ## The arbitrator of the power controls -/

/-- `PowerControlArbitrator`. -/
structure PowerControlArbitrator extends LimitTables PowerControlType where
  requestedSocPowerFloorStates : KeyMap PolicyIndex Bool
  arbitratedSocPowerFloorState : Option Bool

/-- What is called on a `PowerControlArbitrator`. -/
inductive PowerControlOp
  | commitPowerLimit (policyIndex : PolicyIndex) (controlType : PowerControlType) (v : Power)
  | commitTimeWindow (policyIndex : PolicyIndex) (controlType : PowerControlType) (v : TimeSpan)
  | commitDutyCycle (policyIndex : PolicyIndex) (controlType : PowerControlType) (v : Percentage)
  | commitSocPowerFloorState (policyIndex : PolicyIndex) (state : Bool)
  | removePowerLimitRequestForPolicy (policyIndex : PolicyIndex) (controlType : PowerControlType)
  | removeRequestsForPolicy (policyIndex : PolicyIndex)

namespace PowerControlArbitrator

/-- `PowerControlArbitrator()`. -/
def empty : PowerControlArbitrator := { LimitTables.empty with
  requestedSocPowerFloorStates := KeyMap.empty
  arbitratedSocPowerFloorState := none }

/-- `getLowestRequest` of the floor states: set, if any policy sets it. -/
def getLowestFloorState (requests : KeyMap PolicyIndex Bool) : Option Bool :=
  requests.values.foldl (fun lowestRequest state =>
    match lowestRequest with
    | none => some state
    | some lowest => if lowest = false ∧ state = true then some state else some lowest) none

/-- `removeSocPowerFloorStateRequest`. -/
def removeSocPowerFloorStateRequest (a : PowerControlArbitrator) (policyIndex : PolicyIndex) :
    PowerControlArbitrator :=
  match a.requestedSocPowerFloorStates.find policyIndex with
  | none => a
  | some _ =>
    let requested := a.requestedSocPowerFloorStates.erase policyIndex
    if ¬ requested.isEmpty then
      { a with
        requestedSocPowerFloorStates := requested
        arbitratedSocPowerFloorState := getLowestFloorState requested }
    else
      { a with
        requestedSocPowerFloorStates := requested
        arbitratedSocPowerFloorState := none }

/-- The operations: the overloads of `commitPolicyRequest`, `removePowerLimitRequestForPolicy`
and `removeRequestsForPolicy`. -/
def apply (a : PowerControlArbitrator) : PowerControlOp → PowerControlArbitrator
  | .commitPowerLimit policyIndex controlType v =>
    { a with powerLimits := a.powerLimits.commitPolicyRequest policyIndex controlType v }
  | .commitTimeWindow policyIndex controlType v =>
    { a with timeWindows := a.timeWindows.commitPolicyRequest policyIndex controlType v }
  | .commitDutyCycle policyIndex controlType v =>
    { a with dutyCycles := a.dutyCycles.commitPolicyRequest policyIndex controlType v }
  | .commitSocPowerFloorState policyIndex state =>
    let requested := a.requestedSocPowerFloorStates.assign policyIndex state
    { a with
      requestedSocPowerFloorStates := requested
      arbitratedSocPowerFloorState := getLowestFloorState requested }
  | .removePowerLimitRequestForPolicy policyIndex controlType =>
    { a with powerLimits := a.powerLimits.removeRequestForPolicy policyIndex controlType }
  | .removeRequestsForPolicy policyIndex =>
    removeSocPowerFloorStateRequest { a with
      powerLimits := a.powerLimits.removeRequests policyIndex
      timeWindows := a.timeWindows.removeRequests policyIndex
      dutyCycles := a.dutyCycles.removeRequests policyIndex } policyIndex

end PowerControlArbitrator

/-- What an operation does to the tables. -/
def PowerControlOp.limitOps : PowerControlOp → LimitOps PowerControlType
  | commitPowerLimit p k v => ⟨some (.commit p k v), none, none⟩
  | commitTimeWindow p k v => ⟨none, some (.commit p k v), none⟩
  | commitDutyCycle p k v => ⟨none, none, some (.commit p k v)⟩
  | commitSocPowerFloorState _ _ => ⟨none, none, none⟩
  | removePowerLimitRequestForPolicy p k => ⟨some (.removeOne p k), none, none⟩
  | removeRequestsForPolicy p => ⟨some (.removeAll p), some (.removeAll p), some (.removeAll p)⟩

namespace PowerControlArbitrator

theorem removeSocPowerFloorStateRequest_toLimitTables (a : PowerControlArbitrator)
    (p : PolicyIndex) : (a.removeSocPowerFloorStateRequest p).toLimitTables = a.toLimitTables := by
  unfold removeSocPowerFloorStateRequest
  split
  · rfl
  · simp only
    split <;> rfl

theorem apply_toLimitTables (a : PowerControlArbitrator) (op : PowerControlOp) :
    (a.apply op).toLimitTables = a.toLimitTables.apply op.limitOps := by
  cases op with
  | removeRequestsForPolicy p => exact removeSocPowerFloorStateRequest_toLimitTables _ p
  | _ => rfl

/-- An operation on the arbitrator, and what it means for the requests. -/
def next (s : PowerControlArbitrator × LimitRequests PowerControlType) (op : PowerControlOp) :
    PowerControlArbitrator × LimitRequests PowerControlType :=
  (s.1.apply op, s.2.apply op.limitOps)

/-- The arbitrated values are the least live requests after every operation. -/
def HoldsThroughout (ops : List PowerControlOp) : Prop :=
  EveryStep (fun s op => some (next s op)) (fun s op => (next s op).1.Holds (next s op).2)
    (empty, LimitRequests.none) ops

/-- All operations leave the least requests arbitrated. -/
def AllKeep (ops : List PowerControlOp) : Prop :=
  EveryStep (fun s op => some (next s op)) (fun s op => op.limitOps.Keeps s.1.toLimitTables s.2)
    (empty, LimitRequests.none) ops

end PowerControlArbitrator

/-! ## The arbitrator of the system power limits -/

/-- `SystemPowerControlArbitrator`. -/
structure SystemPowerControlArbitrator extends LimitTables PsysPowerLimitType

/-- What is called on a `SystemPowerControlArbitrator`. -/
inductive SystemPowerControlOp
  | commitPowerLimit (policyIndex : PolicyIndex) (controlType : PsysPowerLimitType) (v : Power)
  | commitTimeWindow (policyIndex : PolicyIndex) (controlType : PsysPowerLimitType) (v : TimeSpan)
  | commitDutyCycle (policyIndex : PolicyIndex) (controlType : PsysPowerLimitType) (v : Percentage)
  | removeRequestsForPolicy (policyIndex : PolicyIndex)

/-- What an operation does to the tables. -/
def SystemPowerControlOp.limitOps : SystemPowerControlOp → LimitOps PsysPowerLimitType
  | commitPowerLimit p k v => ⟨some (.commit p k v), none, none⟩
  | commitTimeWindow p k v => ⟨none, some (.commit p k v), none⟩
  | commitDutyCycle p k v => ⟨none, none, some (.commit p k v)⟩
  | removeRequestsForPolicy p => ⟨some (.removeAll p), some (.removeAll p), some (.removeAll p)⟩

namespace SystemPowerControlArbitrator

/-- `SystemPowerControlArbitrator()`. -/
def empty : SystemPowerControlArbitrator := ⟨LimitTables.empty⟩

/-- The operations. -/
def apply (a : SystemPowerControlArbitrator) : SystemPowerControlOp → SystemPowerControlArbitrator
  | .commitPowerLimit policyIndex controlType v =>
    { a with powerLimits := a.powerLimits.commitPolicyRequest policyIndex controlType v }
  | .commitTimeWindow policyIndex controlType v =>
    { a with timeWindows := a.timeWindows.commitPolicyRequest policyIndex controlType v }
  | .commitDutyCycle policyIndex controlType v =>
    { a with dutyCycles := a.dutyCycles.commitPolicyRequest policyIndex controlType v }
  | .removeRequestsForPolicy policyIndex =>
    { a with
      powerLimits := a.powerLimits.removeRequests policyIndex
      timeWindows := a.timeWindows.removeRequests policyIndex
      dutyCycles := a.dutyCycles.removeRequests policyIndex }

theorem apply_toLimitTables (a : SystemPowerControlArbitrator) (op : SystemPowerControlOp) :
    (a.apply op).toLimitTables = a.toLimitTables.apply op.limitOps := by
  cases op <;> rfl

/-- An operation on the arbitrator, and what it means for the requests. -/
def next (s : SystemPowerControlArbitrator × LimitRequests PsysPowerLimitType)
    (op : SystemPowerControlOp) :
    SystemPowerControlArbitrator × LimitRequests PsysPowerLimitType :=
  (s.1.apply op, s.2.apply op.limitOps)

/-- The arbitrated values are the least live requests after every operation. -/
def HoldsThroughout (ops : List SystemPowerControlOp) : Prop :=
  EveryStep (fun s op => some (next s op)) (fun s op => (next s op).1.Holds (next s op).2)
    (empty, LimitRequests.none) ops

/-- All operations leave the least requests arbitrated. -/
def AllKeep (ops : List SystemPowerControlOp) : Prop :=
  EveryStep (fun s op => some (next s op)) (fun s op => op.limitOps.Keeps s.1.toLimitTables s.2)
    (empty, LimitRequests.none) ops

end SystemPowerControlArbitrator

/-! ## The arbitrator of the peak powers -/

/-- `PeakPowerControlArbitrator`. -/
structure PeakPowerControlArbitrator where
  peakPowers : RequestTable PeakPowerType Power

/-- What is called on a `PeakPowerControlArbitrator`. -/
inductive PeakPowerControlOp
  | commitPolicyRequest (policyIndex : PolicyIndex) (peakPowerType : PeakPowerType) (v : Power)
  | clearPolicyCachedData (policyIndex : PolicyIndex)

/-- What an operation does to the table. -/
def PeakPowerControlOp.tableOp : PeakPowerControlOp → TableOp PeakPowerType Power
  | commitPolicyRequest p k v => .commit p k v
  | clearPolicyCachedData p => .removeAll p

namespace PeakPowerControlArbitrator

/-- `PeakPowerControlArbitrator()`. -/
def empty : PeakPowerControlArbitrator := ⟨RequestTable.empty⟩

/-- The operations. -/
def apply (a : PeakPowerControlArbitrator) : PeakPowerControlOp → PeakPowerControlArbitrator
  | .commitPolicyRequest policyIndex peakPowerType v =>
    ⟨a.peakPowers.commitPolicyRequest policyIndex peakPowerType v⟩
  | .clearPolicyCachedData policyIndex => ⟨a.peakPowers.removeRequests policyIndex⟩

theorem apply_peakPowers (a : PeakPowerControlArbitrator) (op : PeakPowerControlOp) :
    (a.apply op).peakPowers = a.peakPowers.apply op.tableOp := by
  cases op <;> rfl

/-- An operation on the arbitrator, and what it means for the requests. -/
def next (s : PeakPowerControlArbitrator × LiveRequests PeakPowerType Power)
    (op : PeakPowerControlOp) : PeakPowerControlArbitrator × LiveRequests PeakPowerType Power :=
  (s.1.apply op, op.tableOp.live s.2)

/-- The arbitrated values are the least live requests after every operation. -/
def HoldsThroughout (ops : List PeakPowerControlOp) : Prop :=
  EveryStep (fun s op => some (next s op)) (fun s op => (next s op).1.peakPowers.Holds (next s op).2)
    (empty, fun _ _ => none) ops

/-- All operations leave the least requests arbitrated. -/
def AllKeep (ops : List PeakPowerControlOp) : Prop :=
  EveryStep (fun s op => some (next s op)) (fun s op => op.tableOp.Keeps s.1.peakPowers s.2)
    (empty, fun _ _ => none) ops

end PeakPowerControlArbitrator

/-! ## Their runs -/

/-- The run of an arbitrator with three tables, each operation being one on the tables. -/
theorem LimitTables.everyStep_holds_iff {K A Op : Type} [ControlType K] (tables : A → LimitTables K)
    (limitOps : Op → LimitOps K) (next : A × LimitRequests K → Op → A × LimitRequests K)
    (htables : ∀ s op, tables (next s op).1 = (tables s.1).apply (limitOps op))
    (hlive : ∀ s op, (next s op).2 = s.2.apply (limitOps op)) {a : A}
    (hempty : tables a = LimitTables.empty) (ops : List Op) :
    EveryStep (fun s op => some (next s op)) (fun s op => (tables (next s op).1).Holds (next s op).2)
        (a, LimitRequests.none) ops ↔
      EveryStep (fun s op => some (next s op)) (fun s op => (limitOps op).Keeps (tables s.1) s.2)
        (a, LimitRequests.none) ops := by
  refine @everyStep_good_iff _ _ next (fun s => (tables s.1).Mirrors s.2)
    (fun s => (tables s.1).Holds s.2) _ ?_ ?_ _ ?_ ?_ ops
  · intro s op h
    rw [htables, hlive]
    exact mirrors_apply h (limitOps op)
  · intro s op h hgood
    rw [htables, hlive]
    exact holds_apply_iff h hgood (limitOps op)
  · rw [hempty]
    exact ⟨rfl, rfl, rfl⟩
  · rw [hempty]
    exact ⟨holds_empty, holds_empty, holds_empty⟩

theorem PowerControlArbitrator.holdsThroughout_iff_allKeep (ops : List PowerControlOp) :
    HoldsThroughout ops ↔ AllKeep ops :=
  LimitTables.everyStep_holds_iff toLimitTables PowerControlOp.limitOps next
    (fun s op => s.1.apply_toLimitTables op) (fun _ _ => rfl) rfl ops

theorem SystemPowerControlArbitrator.holdsThroughout_iff_allKeep
    (ops : List SystemPowerControlOp) : HoldsThroughout ops ↔ AllKeep ops :=
  LimitTables.everyStep_holds_iff toLimitTables SystemPowerControlOp.limitOps next
    (fun s op => s.1.apply_toLimitTables op) (fun _ _ => rfl) rfl ops

theorem PeakPowerControlArbitrator.holdsThroughout_iff_allKeep (ops : List PeakPowerControlOp) :
    HoldsThroughout ops ↔ AllKeep ops := by
  refine @everyStep_good_iff _ _ next (fun s => Requests.live s.1.peakPowers.requested = s.2)
    (fun s => s.1.peakPowers.Holds s.2) _ ?_ ?_ _ rfl holds_empty ops
  · intro s op h
    rw [next, apply_peakPowers]
    exact live_applyOpt h (some op.tableOp)
  · intro s op h hgood
    rw [next, apply_peakPowers]
    exact (holds_applyOpt_iff h hgood (some op.tableOp)).trans (by simp)

/-- **When the power arbitrators hold the live requests.**  In a run of any of the three, there is
an arbitrated value for a control type exactly where a request lives, and it is the least of
them, after every operation, just if all operations are such that leave it so. -/
theorem holdsThroughout_iff (powerControlOps : List PowerControlOp)
    (systemPowerControlOps : List SystemPowerControlOp)
    (peakPowerControlOps : List PeakPowerControlOp) :
    (PowerControlArbitrator.HoldsThroughout powerControlOps ↔
      PowerControlArbitrator.AllKeep powerControlOps) ∧
      (SystemPowerControlArbitrator.HoldsThroughout systemPowerControlOps ↔
        SystemPowerControlArbitrator.AllKeep systemPowerControlOps) ∧
      (PeakPowerControlArbitrator.HoldsThroughout peakPowerControlOps ↔
        PeakPowerControlArbitrator.AllKeep peakPowerControlOps) :=
  ⟨PowerControlArbitrator.holdsThroughout_iff_allKeep _,
    SystemPowerControlArbitrator.holdsThroughout_iff_allKeep _,
    PeakPowerControlArbitrator.holdsThroughout_iff_allKeep _⟩

/-- A number of watts, up to the most that is valid. -/
def watts (n : Nat) : Power := ⟨min (n * 1000) 10000000, Nat.min_le_right _ _⟩

/-- Two policies ask for peak powers of their own kind; the first one goes, and what it asked for
still is arbitrated. -/
theorem not_holdsThroughout : ¬ PeakPowerControlArbitrator.HoldsThroughout
    [.commitPolicyRequest 0 .pl4ACPower (watts 10), .commitPolicyRequest 1 .pl4DCPower (watts 20),
      .clearPolicyCachedData 0] := by
  intro h
  have hlast := ((h.2 _ rfl).2 _ rfl).1
  obtain ⟨p, hp⟩ := (hlast .pl4ACPower).1.1 (by decide)
  have hlive : (if p = 0 then none else
      if p = 1 ∧ PeakPowerType.pl4ACPower = .pl4DCPower then some (watts 20) else
      if p = 0 ∧ PeakPowerType.pl4ACPower = .pl4ACPower then some (watts 10) else none).isSome :=
    hp
  by_cases h0 : p = 0
  · simp [h0] at hlive
  · simp [h0] at hlive

end Mgr

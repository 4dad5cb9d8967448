import Dptf.Passive.Knobs

/-!
# The proxy of a domain

`PassiveDomainProxy.cpp` of a domain without display controls, and `commitSetting` of its knobs.
-/

open Lib
open Mgr (Power)

namespace Passive

/-- What the controls of the domain answer. -/
structure PassiveCapabilities where
  power : PowerControl
  performance : PerformanceControl
  core : CoreControl

/-- The requests of the knobs for each target. -/
structure PassiveRequests where
  power : KeyMap Nat Power
  performance : KeyMap Nat Nat
  core : KeyMap Nat Nat

namespace PassiveRequests

/-- No target has a request. -/
def empty : PassiveRequests := ⟨KeyMap.empty, KeyMap.empty, KeyMap.empty⟩

variable (c : PassiveCapabilities) (r : PassiveRequests)

/-! ## The knobs -/

/-- `canLimit` of the power knob. -/
def powerCanLimit (target : Nat) : Bool := PowerControlKnob.canLimit c.power r.power target

/-- `canLimit` of the knob for P-states. -/
def pstateCanLimit (target : Nat) : Bool :=
  PerformanceControlKnob.canLimit c.performance r.performance .performanceState target

/-- `canLimit` of the core knob. -/
def coreCanLimit (target : Nat) : Bool :=
  CoreControlKnob.canLimit c.core r.core c.performance r.performance target

/-- `canLimit` of the knob for T-states. -/
def tstateCanLimit (target : Nat) : Bool :=
  PerformanceControlKnob.canLimit c.performance r.performance .throttleState target

/-- `canUnlimit` of the power knob. -/
def powerCanUnlimit (target : Nat) : Bool := PowerControlKnob.canUnlimit c.power r.power target

/-- `canUnlimit` of the knob for P-states. -/
def pstateCanUnlimit (target : Nat) : Bool :=
  PerformanceControlKnob.canUnlimit c.performance r.performance .performanceState target

/-- `canUnlimit` of the core knob. -/
def coreCanUnlimit (target : Nat) : Bool := CoreControlKnob.canUnlimit c.core r.core target

/-- `canUnlimit` of the knob for T-states. -/
def tstateCanUnlimit (target : Nat) : Bool :=
  PerformanceControlKnob.canUnlimit c.performance r.performance .throttleState target

/-- `limit` of the power knob; `none` is the exception. -/
def limitPower (target : Nat) : Option PassiveRequests :=
  (PowerControlKnob.limit c.power r.power target).map fun power => { r with power := power }

/-- `limit` of a performance knob. -/
def limitPerformance (controlType : PerformanceControlType) (target : Nat) : PassiveRequests :=
  { r with performance := PerformanceControlKnob.limit c.performance r.performance controlType target }

/-- `limit` of the core knob; `none` is the exception. -/
def limitCore (target : Nat) : Option PassiveRequests :=
  (CoreControlKnob.limit c.core r.core c.performance r.performance target).map
    fun core => { r with core := core }

/-- `unlimit` of the power knob; `none` is the exception. -/
def unlimitPower (target : Nat) : Option PassiveRequests :=
  (PowerControlKnob.unlimit c.power r.power target).map fun power => { r with power := power }

/-- `unlimit` of a performance knob. -/
def unlimitPerformance (controlType : PerformanceControlType) (target : Nat) : PassiveRequests :=
  { r with
    performance := PerformanceControlKnob.unlimit c.performance r.performance controlType target }

/-- `unlimit` of the core knob; `none` is the exception. -/
def unlimitCore (target : Nat) : Option PassiveRequests :=
  (CoreControlKnob.unlimit c.core r.core target).map fun core => { r with core := core }

/-! ## Limiting -/

/-- `requestLimitPowerAndShouldContinue`. -/
def requestLimitPowerAndShouldContinue (target : Nat) : PassiveRequests × Bool :=
  if r.powerCanLimit c target then
    match r.limitPower c target with
    | some limited => (limited, false)
    | none => (r, true)
  else (r, true)

/-- `requestLimitPstatesWithCoresAndShouldContinue`. -/
def requestLimitPstatesWithCoresAndShouldContinue (target : Nat) : PassiveRequests × Bool :=
  if r.pstateCanLimit c target then
    let limited := r.limitPerformance c .performanceState target
    if limited.coreCanLimit c target then
      ((limited.limitCore c target).getD limited, false)
    else (limited, false)
  else (r, true)

/-- `requestLimitCoresAndShouldContinue`. -/
def requestLimitCoresAndShouldContinue (target : Nat) : PassiveRequests × Bool :=
  if r.coreCanLimit c target then
    match r.limitCore c target with
    | some limited => (limited, false)
    | none => (r, true)
  else (r, true)

/-- `requestLimitTstatesAndContinue`. -/
def requestLimitTstatesAndContinue (target : Nat) : PassiveRequests × Bool :=
  if r.tstateCanLimit c target then (r.limitPerformance c .throttleState target, false)
  else (r, true)

/-- `requestLimit`. -/
def requestLimit (target : Nat) : PassiveRequests :=
  let power := r.requestLimitPowerAndShouldContinue c target
  if power.2 then
    let pstates := power.1.requestLimitPstatesWithCoresAndShouldContinue c target
    if pstates.2 then
      let cores := pstates.1.requestLimitCoresAndShouldContinue c target
      if cores.2 then (cores.1.requestLimitTstatesAndContinue c target).1 else cores.1
    else pstates.1
  else power.1

/-- `canLimit`. -/
def canLimit (target : Nat) : Bool :=
  r.powerCanLimit c target || r.pstateCanLimit c target || r.coreCanLimit c target ||
    r.tstateCanLimit c target

/-! ## Unlimiting -/

/-- `requestUnlimitTstatesAndContinue`. -/
def requestUnlimitTstatesAndContinue (target : Nat) : PassiveRequests × Bool :=
  if r.tstateCanUnlimit c target then (r.unlimitPerformance c .throttleState target, false)
  else (r, true)

/-- `requestUnlimitCoresWithPstatesAndShouldContinue`. -/
def requestUnlimitCoresWithPstatesAndShouldContinue (target : Nat) : PassiveRequests × Bool :=
  if r.coreCanUnlimit c target then
    match r.unlimitCore c target with
    | some unlimited =>
      if unlimited.pstateCanUnlimit c target then
        (unlimited.unlimitPerformance c .performanceState target, false)
      else (unlimited, false)
    | none => (r, true)
  else (r, true)

/-- `requestUnlimitPstatesAndShouldContinue`. -/
def requestUnlimitPstatesAndShouldContinue (target : Nat) : PassiveRequests × Bool :=
  if r.pstateCanUnlimit c target then
    (r.unlimitPerformance c .performanceState target, false)
  else (r, true)

/-- `requestUnlimitPowerAndShouldContinue`. -/
def requestUnlimitPowerAndShouldContinue (target : Nat) : PassiveRequests × Bool :=
  if r.powerCanUnlimit c target then
    match r.unlimitPower c target with
    | some unlimited => (unlimited, false)
    | none => (r, true)
  else (r, true)

/-- `requestUnlimit`. -/
def requestUnlimit (target : Nat) : PassiveRequests :=
  let tstates := r.requestUnlimitTstatesAndContinue c target
  if tstates.2 then
    let cores := tstates.1.requestUnlimitCoresWithPstatesAndShouldContinue c target
    if cores.2 then
      let pstates := cores.1.requestUnlimitPstatesAndShouldContinue c target
      if pstates.2 then (pstates.1.requestUnlimitPowerAndShouldContinue c target).1 else pstates.1
    else cores.1
  else tstates.1

/-- `canUnlimit`. -/
def canUnlimit (target : Nat) : Bool :=
  r.tstateCanUnlimit c target || r.coreCanUnlimit c target || r.pstateCanUnlimit c target ||
    r.powerCanUnlimit c target

/-! ## Adjusting and clearing -/

/-- `adjustPowerRequests`. -/
def adjustPowerRequests : PassiveRequests :=
  { r with power := PowerControlKnob.adjustRequestsToCapabilities c.power r.power }

/-- `adjustPerformanceRequests`. -/
def adjustPerformanceRequests : PassiveRequests :=
  { r with
    performance := r.performance.mapValues fun request =>
      min (max request c.performance.currentUpperLimitIndex) c.performance.currentLowerLimitIndex }

/-- `adjustCoreRequests`. -/
def adjustCoreRequests : PassiveRequests :=
  { r with core := CoreControlKnob.adjustRequestsToCapabilities c.core r.core }

/-- `clearAllRequestsForTarget`. -/
def clearAllRequestsForTarget (target : Nat) : PassiveRequests where
  power := r.power.erase target
  performance := r.performance.erase target
  core := r.core.erase target

end PassiveRequests

/-! ## Committing -/

/-- What is set on the domain: its power limit, the performance index that was issued last, the
number of active cores that was set last, and whether it was initialized. -/
structure PassiveDomain where
  powerLimit : Power
  performanceIndex : Nat
  activeCores : Nat
  coresInitialized : Bool

/-- Which of the calls of a `commitLimits` come back without an exception. -/
structure CommitAnswers where
  getPowerLimit : Bool
  setPowerLimit : Bool
  setPstate : Bool
  initializeCores : Bool
  setCores : Bool
  setTstate : Bool

namespace PassiveDomain

/-- `commitSetting` of the power knob: the domain then, and whether there was no exception. -/
def commitPower (d : PassiveDomain) (c : PowerControl) (requests : KeyMap Nat Power)
    (answers : CommitAnswers) : PassiveDomain × Bool :=
  if c.supportsPowerControls then
    let lowestPowerLimit := PowerControlKnob.snapToCapabilitiesBounds c
      (PowerControlKnob.findLowestPowerLimitRequest c requests)
    if answers.getPowerLimit then
      if d.powerLimit ≠ lowestPowerLimit then
        if answers.setPowerLimit then ({ d with powerLimit := lowestPowerLimit }, true)
        else (d, false)
      else (d, true)
    else (d, false)
  else (d, true)

/-- `commitSetting` of a performance knob. -/
def commitPerformance (d : PassiveDomain) (c : PerformanceControl) (requests : KeyMap Nat Nat)
    (setControl : Bool) : PassiveDomain × Bool :=
  if c.supportsPerformanceControls then
    let nextIndex := PerformanceControlKnob.snapToCapabilitiesBounds c
      (PerformanceControlKnob.findHighestPerformanceIndexRequest c requests)
    if d.performanceIndex ≠ nextIndex then
      if setControl then ({ d with performanceIndex := nextIndex }, true) else (d, false)
    else (d, true)
  else (d, true)

/-- `initializeControlsIfNeeded` of the core facade, which `getStatus` calls. -/
def initializeCoresIfNeeded (d : PassiveDomain) (c : CoreControl) (setCores : Bool) :
    PassiveDomain × Bool :=
  if d.coresInitialized = false then
    if setCores then ({ d with activeCores := c.maxActiveCores, coresInitialized := true }, true)
    else (d, false)
  else if d.activeCores > c.maxActiveCores then
    if setCores then ({ d with activeCores := c.maxActiveCores }, true) else (d, false)
  else if d.activeCores < c.minActiveCores then
    if setCores then ({ d with activeCores := c.minActiveCores }, true) else (d, false)
  else (d, true)

/-- `commitSetting` of the core knob.  The status is asked for before anything else is done, and
asking again does nothing more. -/
def commitCores (d : PassiveDomain) (c : CoreControl) (requests : KeyMap Nat Nat)
    (answers : CommitAnswers) : PassiveDomain × Bool :=
  if c.supportsCoreControls = true ∧ c.isLpoEnabled = true then
    let status := d.initializeCoresIfNeeded c answers.initializeCores
    if status.2 then
      let nextActiveCores := CoreControlKnob.snapToCapabilitiesBounds c
        (CoreControlKnob.findLowestActiveCoresRequest requests status.1.activeCores)
      if status.1.activeCores ≠ nextActiveCores then
        if answers.setCores then ({ status.1 with activeCores := nextActiveCores }, true)
        else (status.1, false)
      else (status.1, true)
    else (status.1, false)
  else (d, true)

/-- `commitLimits`: the domain then, and whether there was no exception. -/
def commitLimits (d : PassiveDomain) (c : PassiveCapabilities) (r : PassiveRequests)
    (answers : CommitAnswers) : PassiveDomain × Bool :=
  let power := d.commitPower c.power r.power answers
  if power.2 then
    let pstate := power.1.commitPerformance c.performance r.performance answers.setPstate
    if pstate.2 then
      let core := pstate.1.commitCores c.core r.core answers
      if core.2 then core.1.commitPerformance c.performance r.performance answers.setTstate
      else core
    else pstate
  else power

end PassiveDomain

end Passive

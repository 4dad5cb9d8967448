import Mathlib.Order.Lattice
import Dptf.Mgr.RequestTable

/-!
# The knobs of the passive policy

`PowerControlKnob.cpp`, `PerformanceControlKnob.cpp` and `CoreControlKnob.cpp`.  A knob keeps a
request for each target; a target without one has the least limited value.
-/

open Lib
open Mgr (Power Percentage)

namespace Passive

/-! ## Power -/

/-- `Power(milliwatts)`; `none` is the exception. -/
def power (milliwatts : Nat) : Option Power :=
  if h : milliwatts ≤ 10000000 then some ⟨milliwatts, h⟩ else none

/-- `operator+`; `none` is the exception. -/
def addPower (a b : Power) : Option Power := power (a.1 + b.1)

/-- `operator-`; `none` is the exception. -/
def subPower (a b : Power) : Option Power := if b.1 > a.1 then none else power (a.1 - b.1)

/-- What `PowerControlFacade` answers for PL1.  An invalid step size is `none`, and so is an average
power that is invalid or not read. -/
structure PowerControl where
  supportsPowerControls : Bool
  minPowerLimit : Power
  maxPowerLimit : Power
  powerStepSize : Option Power
  averagePower : Option Power
  ordered : minPowerLimit ≤ maxPowerLimit

namespace PowerControlKnob

variable (c : PowerControl) (requests : KeyMap Nat Power)

/-- `getTargetRequest`. -/
def getTargetRequest (target : Nat) : Power :=
  match requests.find target with
  | none => c.maxPowerLimit
  | some targetRequest => targetRequest

/-- `canLimit`. -/
def canLimit (target : Nat) : Bool :=
  c.supportsPowerControls && getTargetRequest c requests target > c.minPowerLimit

/-- `canUnlimit`. -/
def canUnlimit (target : Nat) : Bool :=
  c.supportsPowerControls && getTargetRequest c requests target < c.maxPowerLimit

/-- `calculateNextLowerPowerLimit`; `none` is the exception. -/
def calculateNextLowerPowerLimit (currentPower minimumPowerLimit : Power) (stepSize : Option Power)
    (currentPowerLimit : Power) : Option Power :=
  if currentPower > minimumPowerLimit then
    stepSize.bind fun stepSize =>
      if stepSize > currentPower then some minimumPowerLimit
      else
        (subPower currentPowerLimit stepSize).bind fun fromLimit =>
          (subPower currentPower stepSize).bind fun fromPower =>
            some (max minimumPowerLimit (min fromLimit fromPower))
  else some minimumPowerLimit

/-- The number of an invalid power is 0. -/
def milliwatts (p : Option Power) : Nat := p.elim 0 Subtype.val

/-- The next limit that `limit` requests; `none` is the exception. -/
def nextLimit (target : Nat) : Option Power :=
  let targetRequest := getTargetRequest c requests target
  if targetRequest ≥ c.maxPowerLimit then
    c.averagePower.bind fun currentPower =>
      calculateNextLowerPowerLimit currentPower c.minPowerLimit c.powerStepSize targetRequest
  else
    power (max ((targetRequest.1 : Int) - milliwatts c.powerStepSize) c.minPowerLimit.1).toNat

/-- `limit`; `none` is the exception. -/
def limit (target : Nat) : Option (KeyMap Nat Power) :=
  if canLimit c requests target then
    (nextLimit c requests target).map fun nextPowerLimit => requests.assign target nextPowerLimit
  else some requests

/-- The next limit that `unlimit` requests; `none` is the exception. -/
def nextUnlimit (target : Nat) : Option Power :=
  (c.powerStepSize.bind fun stepSize => addPower (getTargetRequest c requests target) stepSize).map
    fun nextPowerAfterStep => min nextPowerAfterStep c.maxPowerLimit

/-- `unlimit`; `none` is the exception. -/
def unlimit (target : Nat) : Option (KeyMap Nat Power) :=
  if canUnlimit c requests target then
    (nextUnlimit c requests target).map fun nextPowerLimit => requests.assign target nextPowerLimit
  else some requests

/-- `snapToCapabilitiesBounds`. -/
def snapToCapabilitiesBounds (powerLimit : Power) : Power :=
  let capped := if powerLimit > c.maxPowerLimit then c.maxPowerLimit else powerLimit
  if capped < c.minPowerLimit then c.minPowerLimit else capped

/-- `adjustRequestsToCapabilities`. -/
def adjustRequestsToCapabilities : KeyMap Nat Power :=
  requests.mapValues (snapToCapabilitiesBounds c)

/-- The loop of `findLowestPowerLimitRequest`. -/
def keepLowest (lowestPower : Option Power) (request : Power) : Option Power :=
  match lowestPower with
  | none => some request
  | some lowestPower => if request < lowestPower then some request else some lowestPower

/-- `findLowestPowerLimitRequest`. -/
def findLowestPowerLimitRequest : Power :=
  (requests.values.foldl keepLowest none).getD c.maxPowerLimit

end PowerControlKnob

/-! ## Performance -/

/-- `PerformanceControlType::Type`. -/
inductive PerformanceControlType
  | unknown
  | performanceState
  | throttleState
deriving DecidableEq

/-- What `PerformanceControlFacade` answers, the utilization of the domain, if it is read, and the
threshold for T-states. -/
structure PerformanceControl where
  supportsPerformanceControls : Bool
  controls : List PerformanceControlType
  currentUpperLimitIndex : Nat
  currentLowerLimitIndex : Nat
  utilization : Option Percentage
  tstateUtilizationThreshold : Percentage
  ordered : currentUpperLimitIndex ≤ currentLowerLimitIndex

namespace PerformanceControlKnob

variable (c : PerformanceControl) (requests : KeyMap Nat Nat)

/-- `getTargetRequest`. -/
def getTargetRequest (target : Nat) : Nat :=
  match requests.find target with
  | some targetRequest => targetRequest
  | none => c.currentUpperLimitIndex

/-- 100 percent. -/
def fullUtilization : Percentage := (1 : Rat)

/-- `checkUtilizationIsLessThanThreshold`. -/
def checkUtilizationIsLessThanThreshold : Bool :=
  if c.utilization.getD fullUtilization < c.tstateUtilizationThreshold then false else true

/-- `canLimit` of the knob for the control type. -/
def canLimit (controlType : PerformanceControlType) (target : Nat) : Bool :=
  if c.supportsPerformanceControls then
    let currentIndex := max (getTargetRequest c requests target) c.currentUpperLimitIndex
    let nextIndex := currentIndex + 1
    if currentIndex ≥ c.currentLowerLimitIndex then false
    else
      match c.controls[currentIndex]?, c.controls[nextIndex]? with
      | some .performanceState, some .performanceState => controlType = .performanceState
      | some .performanceState, some .throttleState =>
        if controlType = .performanceState then false else checkUtilizationIsLessThanThreshold c
      | some .throttleState, some .throttleState =>
        if controlType = .throttleState then
          if nextIndex > currentIndex then checkUtilizationIsLessThanThreshold c else true
        else false
      | some .throttleState, some .performanceState => controlType = .throttleState
      | _, _ => false
  else false

/-- `limit`. -/
def limit (controlType : PerformanceControlType) (target : Nat) : KeyMap Nat Nat :=
  if canLimit c requests controlType target then
    let currentIndex := max (getTargetRequest c requests target) c.currentUpperLimitIndex
    requests.assign target (min (currentIndex + 1) c.currentLowerLimitIndex)
  else requests

/-- `canUnlimit` of the knob for the control type. -/
def canUnlimit (controlType : PerformanceControlType) (target : Nat) : Bool :=
  if c.supportsPerformanceControls then
    let currentIndex := min (getTargetRequest c requests target) c.currentLowerLimitIndex
    if currentIndex ≤ c.currentUpperLimitIndex then false
    else
      match c.controls[currentIndex - 1]? with
      | some nextControlType => nextControlType = controlType
      | none => false
  else false

/-- `unlimit`. -/
def unlimit (controlType : PerformanceControlType) (target : Nat) : KeyMap Nat Nat :=
  if canUnlimit c requests controlType target then
    let currentIndex := min (getTargetRequest c requests target) c.currentLowerLimitIndex
    requests.assign target (max (currentIndex - 1) c.currentUpperLimitIndex)
  else requests

/-- `snapToCapabilitiesBounds`. -/
def snapToCapabilitiesBounds (controlIndex : Nat) : Nat :=
  let raised :=
    if controlIndex > c.currentLowerLimitIndex then c.currentLowerLimitIndex else controlIndex
  if raised < c.currentUpperLimitIndex then c.currentUpperLimitIndex else raised

/-- `adjustRequestsToCapabilities`. -/
def adjustRequestsToCapabilities : KeyMap Nat Nat := requests.mapValues (snapToCapabilitiesBounds c)

/-- `findHighestPerformanceIndexRequest`. -/
def findHighestPerformanceIndexRequest : Nat :=
  if requests.isEmpty then c.currentUpperLimitIndex
  else
    requests.values.foldl
      (fun highestIndex request => if request > highestIndex then request else highestIndex) 0

end PerformanceControlKnob

/-! ## Cores -/

/-- What `CoreControlFacade` answers; an invalid step size is `none`.  Numbers of cores fit in an
`int`. -/
structure CoreControl where
  implementsCoreControlInterface : Bool
  isLpoEnabled : Bool
  startPState : Nat
  stepSize : Option Percentage
  totalLogicalProcessors : Nat
  minActiveCores : Nat
  maxActiveCores : Nat
  ordered : minActiveCores ≤ maxActiveCores
  countable : maxActiveCores < 2 ^ 31

/-- `supportsCoreControls` of the facade. -/
def CoreControl.supportsCoreControls (c : CoreControl) : Bool :=
  c.implementsCoreControlInterface && c.isLpoEnabled

namespace CoreControlKnob

variable (c : CoreControl) (requests : KeyMap Nat Nat)

/-- `getTargetRequest`. -/
def getTargetRequest (target : Nat) : Nat :=
  match requests.find target with
  | none => c.maxActiveCores
  | some request => request

/-- `calculateStepAmount`; a negative percentage is no step.  The conversions of the amount to
`int` are exact below `2 ^ 31`. -/
def calculateStepAmount (stepSize : Percentage) (totalAvailableCores : Nat) : Nat :=
  (Rat.ceil (roundDouble (Rat.mul stepSize totalAvailableCores))).toNat

/-- The step amount in `limit` and `unlimit`; `none` is the exception. -/
def stepAmount : Option Nat :=
  c.stepSize.map fun stepSize => calculateStepAmount stepSize c.totalLogicalProcessors

/-- `canLimit`, with the performance control and its requests. -/
def canLimit (performance : PerformanceControl) (performanceRequests : KeyMap Nat Nat)
    (target : Nat) : Bool :=
  if c.supportsCoreControls = false ∨ c.isLpoEnabled = false then false
  else
    let currentPerformanceIndex :=
      if performance.supportsPerformanceControls then
        PerformanceControlKnob.getTargetRequest performance performanceRequests target
      else c.startPState
    currentPerformanceIndex ≥ c.startPState && getTargetRequest c requests target > c.minActiveCores

/-- `limit`; `none` is the exception. -/
def limit (performance : PerformanceControl) (performanceRequests : KeyMap Nat Nat)
    (target : Nat) : Option (KeyMap Nat Nat) :=
  if canLimit c requests performance performanceRequests target then
    (stepAmount c).map fun (stepAmount : Nat) =>
      requests.assign target
        (max ((getTargetRequest c requests target : Int) - stepAmount) c.minActiveCores).toNat
  else some requests

/-- `canUnlimit`. -/
def canUnlimit (target : Nat) : Bool :=
  if c.supportsCoreControls = false ∨ c.isLpoEnabled = false then false
  else getTargetRequest c requests target < c.maxActiveCores

/-- `unlimit`; `none` is the exception. -/
def unlimit (target : Nat) : Option (KeyMap Nat Nat) :=
  if canUnlimit c requests target then
    (stepAmount c).map fun stepAmount =>
      requests.assign target (min (getTargetRequest c requests target + stepAmount) c.maxActiveCores)
  else some requests

/-- `snapToCapabilitiesBounds`. -/
def snapToCapabilitiesBounds (numActiveCores : Nat) : Nat :=
  let raised := if numActiveCores < c.minActiveCores then c.minActiveCores else numActiveCores
  if raised > c.maxActiveCores then c.maxActiveCores else raised

/-- `adjustRequestsToCapabilities`. -/
def adjustRequestsToCapabilities : KeyMap Nat Nat := requests.mapValues (snapToCapabilitiesBounds c)

/-- `findLowestActiveCoresRequest`, with the number of active cores that the facade has set last. -/
def findLowestActiveCoresRequest (numActiveLogicalProcessors : Nat) : Nat :=
  if requests.isEmpty then numActiveLogicalProcessors
  else
    requests.values.foldl
      (fun lowestActiveCores request =>
        if request < lowestActiveCores then request else lowestActiveCores) (2 ^ 32 - 1)

end CoreControlKnob

end Passive

import Mathlib.Logic.Function.Basic
import Dptf.Mgr.PowerCapsArbitrator

/-!
# The power control of a domain

`DomainPowerControlBase.cpp`, `DomainPowerControl_001.cpp` and `PowerControlState.cpp`.  A power
control captures the power settings of the platform when it is built, and restores them when it is
destroyed; in between policies set them.  The control remembers which limits are enabled.
-/

open Lib

namespace Participant

open Mgr (Power TimeSpan Percentage PowerControlType PowerControlDynamicCaps
  PowerControlDynamicCapsSet)

/-! ## The platform -/

/-- The settings for each control type, and whether the platform has an answer when it is asked if
PL4 is enabled. -/
structure Platform where
  enabled : PowerControlType → Bool
  powerLimit : PowerControlType → Power
  timeWindow : PowerControlType → TimeSpan
  dutyCycle : PowerControlType → Percentage
  answersForPL4 : Bool

namespace Platform

/-- `SET_RAPL_POWER_LIMIT_ENABLE`, which there is not for PL4. -/
def setEnable (platform : Platform) (controlType : PowerControlType) (enable : Bool) : Platform :=
  if controlType = .pl4 then platform
  else { platform with enabled := Function.update platform.enabled controlType enable }

/-- Whether a limit is enabled, as far as the platform tells: PL4 is taken to be if its limit can
be read. -/
def isOn (platform : Platform) (controlType : PowerControlType) : Bool :=
  if controlType = .pl4 ∧ ¬ platform.answersForPL4 then true
  else platform.enabled controlType

/-- `SET_RAPL_POWER_LIMIT`. -/
def setPowerLimit (platform : Platform) (controlType : PowerControlType) (powerLimit : Power) :
    Platform :=
  { platform with powerLimit := Function.update platform.powerLimit controlType powerLimit }

/-- `SET_RAPL_POWER_LIMIT_TIME_WINDOW`. -/
def setTimeWindow (platform : Platform) (controlType : PowerControlType) (timeWindow : TimeSpan) :
    Platform :=
  { platform with timeWindow := Function.update platform.timeWindow controlType timeWindow }

/-- `SET_RAPL_POWER_LIMIT_DUTY_CYCLE`. -/
def setDutyCycle (platform : Platform) (controlType : PowerControlType) (dutyCycle : Percentage) :
    Platform :=
  { platform with dutyCycle := Function.update platform.dutyCycle controlType dutyCycle }

end Platform

/-! ## The control -/

/-- `PowerControlState`: the cached values that were captured. -/
structure PowerControlState where
  enabled : PowerControlType → Option Bool
  limit : PowerControlType → Option Power
  pl1TimeWindow : Option TimeSpan
  pl3TimeWindow : Option TimeSpan
  pl3DutyCycle : Option Percentage

/-- `DomainPowerControl_001`, in front of the platform. -/
structure DomainPowerControl where
  platform : Platform
  enabled : PowerControlType → Bool
  initialState : PowerControlState

namespace DomainPowerControl

/-- `updateEnabled`. -/
def updateEnabled (c : DomainPowerControl) (controlType : PowerControlType) : DomainPowerControl :=
  { c with enabled := Function.update c.enabled controlType (c.platform.isOn controlType) }

/-- `setEnabled`. -/
def setEnabled (c : DomainPowerControl) (controlType : PowerControlType) (enable : Bool) :
    DomainPowerControl :=
  { c with platform := c.platform.setEnable controlType enable }

/-- `isEnabled`. -/
def isEnabled (c : DomainPowerControl) (controlType : PowerControlType) : Bool :=
  c.enabled controlType

/-- `setAndUpdateEnabled`. -/
def setAndUpdateEnabled (c : DomainPowerControl) (controlType : PowerControlType) :
    DomainPowerControl :=
  if ¬ c.isEnabled controlType then (c.setEnabled controlType true).updateEnabled controlType
  else c

/-- `setAndUpdateEnabled` and `throwIfLimitNotEnabled`, with which each setter ends; whether there
is no exception. -/
def enableOrThrow (c : DomainPowerControl) (controlType : PowerControlType) :
    DomainPowerControl × Bool :=
  let c := c.setAndUpdateEnabled controlType
  (c, c.isEnabled controlType)

/-! ### The capabilities -/

/-- A valid value, and capabilities that are in order around it. -/
def isInside {V : Type} [LinearOrder V] (lowest highest value : Option V) : Bool :=
  match lowest, highest, value with
  | some lowest, some highest, some value =>
    decide (lowest ≤ highest) && !decide (highest < value) && !decide (value < lowest)
  | _, _, _ => false

/-- `throwIfPowerLimitIsOutsideCapabilityRange` does not throw.  Without a capability set, for
`getPowerControlDynamicCapsSet` may fail, it does. -/
def admitsPowerLimit (capabilities : Option PowerControlDynamicCapsSet)
    (controlType : PowerControlType) (powerLimit : Option Power) : Bool :=
  capabilities.any fun set => (set.find controlType).all fun capability =>
    isInside capability.minPowerLimit capability.maxPowerLimit powerLimit

/-- `throwIfTimeWindowIsOutsideCapabilityRange` does not throw. -/
def admitsTimeWindow (capabilities : Option PowerControlDynamicCapsSet)
    (controlType : PowerControlType) (timeWindow : Option TimeSpan) : Bool :=
  capabilities.any fun set => (set.find controlType).all fun capability =>
    isInside capability.minTimeWindow capability.maxTimeWindow timeWindow

/-- `areDutyCycleCapsValid`. -/
def areDutyCycleCapsValid (capability : PowerControlDynamicCaps) : Bool :=
  match capability.minDutyCycle, capability.maxDutyCycle with
  | some minDutyCycle, some maxDutyCycle => decide (minDutyCycle ≤ maxDutyCycle)
  | _, _ => false

/-- `Percentage(1.0)`. -/
def wholeCycle : Percentage := (1 : ℚ)

/-- `throwIfDutyCycleIsOutsideCapabilityRange` does not throw.  The duty cycle is not compared with
the capability's. -/
def admitsDutyCycle (capabilities : Option PowerControlDynamicCapsSet)
    (controlType : PowerControlType) (dutyCycle : Option Percentage) : Bool :=
  capabilities.any fun set => (set.find controlType).all areDutyCycleCapsValid &&
    dutyCycle.any fun dutyCycle => !decide (wholeCycle < dutyCycle)

/-! ### The setters -/

/-- The number in an invalid power. -/
def invalidPower : Power := ⟨0, Power.valid_zero⟩

/-- `setPowerLimitIgnoringCaps`, and whether there is no exception.  An invalid power is written
as 0. -/
def setPowerLimitIgnoringCaps (c : DomainPowerControl) (controlType : PowerControlType)
    (powerLimit : Option Power) : DomainPowerControl × Bool :=
  let platform := c.platform.setPowerLimit controlType (powerLimit.getD invalidPower)
  enableOrThrow { c with platform := platform } controlType

/-- `setPowerLimit`. -/
def setPowerLimit (c : DomainPowerControl) (capabilities : Option PowerControlDynamicCapsSet)
    (controlType : PowerControlType) (powerLimit : Option Power) : DomainPowerControl × Bool :=
  if ¬ admitsPowerLimit capabilities controlType powerLimit then (c, false)
  else c.setPowerLimitIgnoringCaps controlType powerLimit

/-- `throwIfTypeInvalidForTimeWindow` does not throw. -/
def hasTimeWindow (controlType : PowerControlType) : Bool :=
  match controlType with
  | .pl1 | .pl3 => true
  | .pl2 | .pl4 => false

/-- `setPowerLimitTimeWindowIgnoringCaps`.  An invalid time window cannot be written. -/
def setPowerLimitTimeWindowIgnoringCaps (c : DomainPowerControl) (controlType : PowerControlType)
    (timeWindow : Option TimeSpan) : DomainPowerControl × Bool :=
  if ¬ hasTimeWindow controlType then (c, false)
  else
    match timeWindow with
    | none => (c, false)
    | some timeWindow =>
      let platform := c.platform.setTimeWindow controlType timeWindow
      enableOrThrow { c with platform := platform } controlType

/-- `setPowerLimitTimeWindow`, without the event at its end. -/
def setPowerLimitTimeWindow (c : DomainPowerControl)
    (capabilities : Option PowerControlDynamicCapsSet) (controlType : PowerControlType)
    (timeWindow : Option TimeSpan) : DomainPowerControl × Bool :=
  if ¬ hasTimeWindow controlType then (c, false)
  else if ¬ admitsTimeWindow capabilities controlType timeWindow then (c, false)
  else c.setPowerLimitTimeWindowIgnoringCaps controlType timeWindow

/-- `throwIfTypeInvalidForDutyCycle` does not throw. -/
def hasDutyCycle (controlType : PowerControlType) : Bool :=
  match controlType with
  | .pl3 => true
  | .pl1 | .pl2 | .pl4 => false

/-- `setPowerLimitDutyCycle`. -/
def setPowerLimitDutyCycle (c : DomainPowerControl)
    (capabilities : Option PowerControlDynamicCapsSet) (controlType : PowerControlType)
    (dutyCycle : Option Percentage) : DomainPowerControl × Bool :=
  if ¬ hasDutyCycle controlType then (c, false)
  else if ¬ admitsDutyCycle capabilities controlType dutyCycle then (c, false)
  else
    match dutyCycle with
    | none => (c, false)
    | some dutyCycle =>
      let platform := c.platform.setDutyCycle controlType dutyCycle
      enableOrThrow { c with platform := platform } controlType

/-! ### Capture -/

/-- `getPowerLimit`; `none` is an exception. -/
def getPowerLimit (c : DomainPowerControl) (controlType : PowerControlType) : Option Power :=
  if c.isEnabled controlType then some (c.platform.powerLimit controlType) else none

/-- `getPowerLimitTimeWindow`. -/
def getPowerLimitTimeWindow (c : DomainPowerControl) (controlType : PowerControlType) :
    Option TimeSpan :=
  if c.isEnabled controlType && hasTimeWindow controlType then
    some (c.platform.timeWindow controlType)
  else none

/-- `getPowerLimitDutyCycle`. -/
def getPowerLimitDutyCycle (c : DomainPowerControl) (controlType : PowerControlType) :
    Option Percentage :=
  if c.isEnabled controlType && hasDutyCycle controlType then
    some (c.platform.dutyCycle controlType)
  else none

/-- What `captureEnables` does for one control type. -/
def captureEnable (c : DomainPowerControl) (controlType : PowerControlType) : DomainPowerControl :=
  let c := c.updateEnabled controlType
  { c with
    initialState := { c.initialState with
      enabled := Function.update c.initialState.enabled controlType
        (some (c.isEnabled controlType)) } }

/-- `captureEnables`. -/
def captureEnables (c : DomainPowerControl) : DomainPowerControl :=
  [PowerControlType.pl1, .pl2, .pl3, .pl4].foldl captureEnable c

/-- `PowerControlState::capture`. -/
def capture (c : DomainPowerControl) : DomainPowerControl :=
  let c := c.captureEnables
  { c with
    initialState := { c.initialState with
      limit := c.getPowerLimit
      pl1TimeWindow := c.getPowerLimitTimeWindow .pl1
      pl3TimeWindow := c.getPowerLimitTimeWindow .pl3
      pl3DutyCycle := c.getPowerLimitDutyCycle .pl3 } }

/-- The constructor, which captures. -/
def create (platform : Platform) : DomainPowerControl :=
  capture ⟨platform, fun _ => false, ⟨fun _ => none, fun _ => none, none, none, none⟩⟩

/-! ### Restoration -/

/-- `restoreLimit`. -/
def restoreLimit (c : DomainPowerControl) (controlType : PowerControlType) : DomainPowerControl :=
  match c.initialState.limit controlType with
  | some limit => (c.setPowerLimitIgnoringCaps controlType (some limit)).1
  | none => c

/-- `restoreTimeWindow`. -/
def restoreTimeWindow (c : DomainPowerControl) (controlType : PowerControlType)
    (timeWindow : Option TimeSpan) : DomainPowerControl :=
  match timeWindow with
  | some timeWindow => (c.setPowerLimitTimeWindowIgnoringCaps controlType (some timeWindow)).1
  | none => c

/-- `restoreDutyCycle`. -/
def restoreDutyCycle (c : DomainPowerControl) (capabilities : Option PowerControlDynamicCapsSet)
    (controlType : PowerControlType) (dutyCycle : Option Percentage) : DomainPowerControl :=
  match dutyCycle with
  | some dutyCycle => (c.setPowerLimitDutyCycle capabilities controlType (some dutyCycle)).1
  | none => c

/-- What `restoreEnables` does for one control type. -/
def restoreEnable (c : DomainPowerControl) (controlType : PowerControlType) : DomainPowerControl :=
  match c.initialState.enabled controlType with
  | some enabled => c.setEnabled controlType enabled
  | none => c

/-- `restoreEnables`. -/
def restoreEnables (c : DomainPowerControl) : DomainPowerControl :=
  [PowerControlType.pl1, .pl2, .pl3].foldl restoreEnable c

/-- `PowerControlState::restore`. -/
def restore (c : DomainPowerControl) (capabilities : Option PowerControlDynamicCapsSet) :
    DomainPowerControl :=
  let c := [PowerControlType.pl1, .pl2, .pl3, .pl4].foldl restoreLimit c
  let c := c.restoreTimeWindow .pl1 c.initialState.pl1TimeWindow
  let c := c.restoreTimeWindow .pl3 c.initialState.pl3TimeWindow
  let c := c.restoreDutyCycle capabilities .pl3 c.initialState.pl3DutyCycle
  c.restoreEnables

end DomainPowerControl

end Participant

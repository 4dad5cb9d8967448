import Mathlib.Order.Lattice
import Dptf.Lib.Tightest
import Dptf.Mgr.RequestTable

/-!
# Temperature thresholds

`Temperature.cpp` as far as the thresholds need it, `ArbitratorTemperatureThresholds.cpp`, and the
request handlers of `DomainTemperatureBase.cpp` with what `DomainTemperature_000.cpp`, `_001.cpp`
and `_002.cpp` give them.
-/

open Lib

namespace Mgr

/-! ## Temperatures -/

/-- A valid `Temperature` in tenths of a Kelvin, from `minValidTemperature` to
`maxValidTemperature`, or `Constants::MaxUInt32`. -/
def Temperature : Type :=
  { tenthKelvin : Nat // (1372 ≤ tenthKelvin ∧ tenthKelvin ≤ 4732) ∨ tenthKelvin = 2 ^ 32 - 1 }

namespace Temperature

instance : LinearOrder Temperature := inferInstanceAs (LinearOrder
  { tenthKelvin : Nat // (1372 ≤ tenthKelvin ∧ tenthKelvin ≤ 4732) ∨ tenthKelvin = 2 ^ 32 - 1 })

/-- `Constants::MaxUInt32`, which `toString` shows as invalid. -/
def unspecified : Temperature := ⟨2 ^ 32 - 1, Or.inr rfl⟩

/-- `Temperature(minValidTemperature)`. -/
def minValidTemperature : Temperature := ⟨1372, by decide⟩

/-- `fromCelsius(0)`. -/
def zeroCelsius : Temperature := ⟨2732, by decide⟩

/-- `fromCelsius(ESIF_SDK_MIN_AUX_TRIP)`. -/
def minAux : Temperature := ⟨1372, by decide⟩

/-- `fromCelsius(ESIF_SDK_MAX_AUX_TRIP)`. -/
def maxAux : Temperature := ⟨4722, by decide⟩

/-- `Temperature(temperatureInTenthKelvin)`; `none` is the exception. -/
def ofTenthKelvin (tenthKelvin : Nat) : Option Temperature :=
  if h : (1372 ≤ tenthKelvin ∧ tenthKelvin ≤ 4732) ∨ tenthKelvin = 2 ^ 32 - 1 then
    some ⟨tenthKelvin, h⟩
  else none

/-- `operator-` of two valid temperatures, in 32 bits; `none` is the exception. -/
def sub (a b : Temperature) : Option Temperature :=
  let thisTemperature := if a.1 = 2 ^ 32 - 1 then 0 else a.1
  let rhsTemperature := if b.1 = 2 ^ 32 - 1 then 0 else b.1
  if thisTemperature = 0 ∨ rhsTemperature = 0 then
    ofTenthKelvin ((thisTemperature + 2 ^ 32 - rhsTemperature) % 2 ^ 32)
  else ofTenthKelvin ((2732 + thisTemperature + 2 ^ 32 - rhsTemperature) % 2 ^ 32)

/-- `snapWithinAllowableTripPointRange`. -/
def snapWithinAllowableTripPointRange (aux : Temperature) : Temperature :=
  if aux ≠ unspecified then
    let raised := if aux < minAux then minAux else aux
    if raised > maxAux then maxAux else raised
  else aux

end Temperature

/-- `TemperatureThresholds`. -/
structure TemperatureThresholds where
  aux0 : Option Temperature
  aux1 : Option Temperature
  hysteresis : Option Temperature

/-- `TemperatureThresholds::createInvalid`. -/
def TemperatureThresholds.invalid : TemperatureThresholds := ⟨none, none, none⟩

/-! ## The arbitrator -/

/-- `ArbitratorTemperatureThresholds`. -/
structure ArbitratorTemperatureThresholds where
  temperatureThresholdsPolicyRequests : KeyMap PolicyIndex TemperatureThresholds
  arbitratedValue : TemperatureThresholds
  arbitratedValueChangedSinceLastSet : Bool

namespace ArbitratorTemperatureThresholds

/-- `ArbitratorTemperatureThresholds()`. -/
def empty : ArbitratorTemperatureThresholds := ⟨KeyMap.empty, .invalid, false⟩

/-- A turn of the loop of `findNewTemperatureThresholds`, for aux0. -/
def higherAux0 (newAux0 currentAux0 : Option Temperature) : Option Temperature :=
  match currentAux0, newAux0 with
  | none, newAux0 => newAux0
  | some current, none => some current
  | some current, some new => if current > new then some current else some new

/-- A turn of the loop of `findNewTemperatureThresholds`, for aux1. -/
def lowerAux1 (newAux1 currentAux1 : Option Temperature) : Option Temperature :=
  match currentAux1, newAux1 with
  | none, newAux1 => newAux1
  | some current, none => some current
  | some current, some new => if current < new then some current else some new

/-- The end of `findNewTemperatureThresholds`, for one of the two. -/
def snapOr (default : Temperature) : Option Temperature → Temperature
  | some new => new.snapWithinAllowableTripPointRange
  | none => default

/-- `findNewTemperatureThresholds`. -/
def findNewTemperatureThresholds (requests : KeyMap PolicyIndex TemperatureThresholds) :
    TemperatureThresholds where
  aux0 := some (snapOr Temperature.minAux
    ((requests.values.map TemperatureThresholds.aux0).foldl higherAux0 none))
  aux1 := some (snapOr Temperature.maxAux
    ((requests.values.map TemperatureThresholds.aux1).foldl lowerAux1 none))
  hysteresis := none

/-- Whether the first condition of `throwIfTemperatureThresholdsInvalid` holds or throws. -/
def rejectsAux0 (aux0 : Option Temperature) (currentTemperature hysteresis : Option Temperature) :
    Bool :=
  match aux0 with
  | none => false
  | some aux0 =>
    match (hysteresis.bind aux0.sub).bind fun t => t.sub ⟨2742, by decide⟩, currentTemperature with
    | some t, some currentTemperature => t > currentTemperature
    | _, _ => true

/-- Whether the second condition of `throwIfTemperatureThresholdsInvalid` holds or throws. -/
def rejectsAux1 (aux1 : Option Temperature) (currentTemperature : Option Temperature) : Bool :=
  match aux1, currentTemperature with
  | none, _ => false
  | some aux1, some currentTemperature => aux1 < currentTemperature
  | some _, none => true

/-- `throwIfTemperatureThresholdsInvalid`: whether there is an exception. -/
def throwsIfTemperatureThresholdsInvalid (temperatureThresholds : TemperatureThresholds)
    (currentTemperature hysteresis : Option Temperature) : Bool :=
  rejectsAux0 temperatureThresholds.aux0 currentTemperature hysteresis ||
    rejectsAux1 temperatureThresholds.aux1 currentTemperature

/-- `arbitrateTemperatureThresholdsRequest`; `none` is the exception. -/
def arbitrateTemperatureThresholdsRequest (a : ArbitratorTemperatureThresholds)
    (policyIndex : PolicyIndex) (temperatureThresholds : TemperatureThresholds)
    (currentTemperature hysteresis : Option Temperature) : Option TemperatureThresholds :=
  if throwsIfTemperatureThresholdsInvalid temperatureThresholds currentTemperature hysteresis then
    none
  else
    some (findNewTemperatureThresholds
      (a.temperatureThresholdsPolicyRequests.assign policyIndex temperatureThresholds))

/-- `updateTemperatureThresholdsRequestAndArbitrate`. -/
def updateTemperatureThresholdsRequestAndArbitrate (a : ArbitratorTemperatureThresholds)
    (policyIndex : PolicyIndex) (temperatureThresholds : TemperatureThresholds) :
    ArbitratorTemperatureThresholds :=
  let requests := a.temperatureThresholdsPolicyRequests.assign policyIndex temperatureThresholds
  let newArbitratedValue := findNewTemperatureThresholds requests
  if newArbitratedValue.aux0 ≠ a.arbitratedValue.aux0 ∨
      newArbitratedValue.aux1 ≠ a.arbitratedValue.aux1 then
    ⟨requests, newArbitratedValue, true⟩
  else ⟨requests, a.arbitratedValue, false⟩

/-- `commitTemperatureThresholdsRequest`; `none` is the exception. -/
def commitTemperatureThresholdsRequest (a : ArbitratorTemperatureThresholds)
    (policyIndex : PolicyIndex) (temperatureThresholds : TemperatureThresholds)
    (currentTemperature hysteresis : Option Temperature) : Option ArbitratorTemperatureThresholds :=
  if throwsIfTemperatureThresholdsInvalid temperatureThresholds currentTemperature hysteresis then
    none
  else some (a.updateTemperatureThresholdsRequestAndArbitrate policyIndex temperatureThresholds)

/-- `removeTemperatureThresholdsRequest`; `none` is the exception. -/
def removeTemperatureThresholdsRequest (a : ArbitratorTemperatureThresholds)
    (policyIndex : PolicyIndex) (currentTemperature : Option Temperature) :
    Option ArbitratorTemperatureThresholds :=
  match a.temperatureThresholdsPolicyRequests.find policyIndex with
  | some _ =>
    a.commitTemperatureThresholdsRequest policyIndex .invalid currentTemperature none
  | none => some { a with arbitratedValueChangedSinceLastSet := false }

end ArbitratorTemperatureThresholds

/-! ## The control -/

/-- What the participant answers while a request is handled: `none` is a read that fails, and
`false` a write. -/
structure TemperaturePrimitives where
  temperature : Option Temperature
  aux0 : Option Temperature
  aux1 : Option Temperature
  hysteresis : Option Temperature
  setAux0 : Bool
  setAux1 : Bool

/-- The versions of the control. -/
inductive TemperatureVersion
  | v000
  | v001
  | v002

/-- `DomainTemperatureBase` with a version, and the results of its cache that requests use. -/
structure DomainTemperature where
  version : TemperatureVersion
  areTemperatureThresholdsSupported : Bool
  arbitrator : ArbitratorTemperatureThresholds
  cachedStatus : Option Temperature
  cachedThresholds : Option TemperatureThresholds

namespace DomainTemperature

/-- A new control. -/
def make (version : TemperatureVersion) (areTemperatureThresholdsSupported : Bool) :
    DomainTemperature :=
  ⟨version, areTemperatureThresholdsSupported, .empty, none, none⟩

/-- `getTemperatureStatus`; `none` is the exception.  A read that fails gives the lowest
temperature. -/
def getTemperatureStatus (d : DomainTemperature) (primitives : TemperaturePrimitives) :
    Option Temperature :=
  match d.version with
  | .v000 => none
  | .v001 => some (primitives.temperature.getD Temperature.minValidTemperature)
  | .v002 => some (primitives.temperature.getD Temperature.minValidTemperature)

/-- `getAuxTemperatureThreshold`. -/
def getAuxTemperatureThreshold (aux : Option Temperature) : Temperature :=
  match aux with
  | some aux => aux.snapWithinAllowableTripPointRange
  | none => Temperature.zeroCelsius

/-- `getTemperatureThresholds`; `none` is the exception. -/
def getTemperatureThresholds (d : DomainTemperature) (primitives : TemperaturePrimitives) :
    Option TemperatureThresholds :=
  match d.version with
  | .v000 => none
  | _ =>
    if d.areTemperatureThresholdsSupported then
      some ⟨some (getAuxTemperatureThreshold primitives.aux0),
        some (getAuxTemperatureThreshold primitives.aux1),
        some (primitives.hysteresis.getD Temperature.zeroCelsius)⟩
    else some .invalid

/-- `operator<`; `none` is the exception. -/
def lessThan : Option Temperature → Option Temperature → Option Bool
  | some a, some b => some (a < b)
  | _, _ => none

/-- Whether `setTemperatureThresholds` writes aux0 before aux1; `none` is the exception. -/
def writesAux0First (thresholds lastSet : TemperatureThresholds) : Option Bool :=
  if lastSet.aux0 = none ∧ lastSet.aux1 = none then some true
  else
    (lessThan thresholds.aux0 lastSet.aux0).bind fun below =>
      if below then some true else lessThan thresholds.aux1 lastSet.aux1

/-- `setTemperatureThresholds`: whether there is no exception.  Both are written, in either
order. -/
def setTemperatureThresholds (d : DomainTemperature) (primitives : TemperaturePrimitives)
    (thresholds lastSet : TemperatureThresholds) : Bool :=
  match d.version with
  | .v000 => false
  | _ =>
    d.areTemperatureThresholdsSupported && (writesAux0First thresholds lastSet).isSome &&
      primitives.setAux0 && primitives.setAux1

/-- `handleGetTemperatureStatus`, as `getCurrentTemperatureStatusForPolicy` uses it. -/
def handleGetTemperatureStatus (d : DomainTemperature) (primitives : TemperaturePrimitives) :
    DomainTemperature × Option Temperature :=
  match d.cachedStatus with
  | some status => (d, some status)
  | none =>
    let status := d.getTemperatureStatus primitives
    ({ d with cachedStatus := status }, status)

/-- `handleGetTemperatureThresholds`, as `getCurrentTemperatureThresholdsForPolicy` uses it. -/
def handleGetTemperatureThresholds (d : DomainTemperature) (primitives : TemperaturePrimitives) :
    DomainTemperature × Option TemperatureThresholds :=
  match d.cachedThresholds with
  | some thresholds => (d, some thresholds)
  | none =>
    let thresholds := d.getTemperatureThresholds primitives
    ({ d with cachedThresholds := thresholds }, thresholds)

/-- `handleClearCachedResults`. -/
def handleClearCachedResults (d : DomainTemperature) : DomainTemperature :=
  { d with cachedStatus := none, cachedThresholds := none }

/-- `handleSetTemperatureThresholds`: the control then, and whether it reports success. -/
def handleSetTemperatureThresholds (d : DomainTemperature) (policyIndex : PolicyIndex)
    (temperatureThresholds : TemperatureThresholds) (primitives : TemperaturePrimitives) :
    DomainTemperature × Bool :=
  let (d, status) := d.handleGetTemperatureStatus primitives
  match status with
  | none => (d, false)
  | some currentTemperature =>
    let (d, thresholds) := d.handleGetTemperatureThresholds primitives
    match thresholds with
    | none => (d, false)
    | some currentThresholds =>
      match d.arbitrator.arbitrateTemperatureThresholdsRequest policyIndex temperatureThresholds
        (some currentTemperature) currentThresholds.hysteresis with
      | none => (d, false)
      | some newArbitrated =>
        if d.setTemperatureThresholds primitives newArbitrated d.arbitrator.arbitratedValue then
          match d.arbitrator.commitTemperatureThresholdsRequest policyIndex temperatureThresholds
            (some currentTemperature) currentThresholds.hysteresis with
          | none => (d, false)
          | some arbitrator => ({ d with arbitrator := arbitrator, cachedThresholds := none }, true)
        else (d, false)

/-- `handleRemovePolicyRequests`: the control then, and whether it reports success. -/
def handleRemovePolicyRequests (d : DomainTemperature) (policyIndex : PolicyIndex)
    (primitives : TemperaturePrimitives) : DomainTemperature × Bool :=
  match d.getTemperatureStatus primitives with
  | none => (d, false)
  | some currentTemperature =>
    match d.arbitrator.removeTemperatureThresholdsRequest policyIndex (some currentTemperature) with
    | none => (d, false)
    | some arbitrator =>
      if arbitrator.arbitratedValueChangedSinceLastSet then
        ({ d with arbitrator := arbitrator },
          d.setTemperatureThresholds primitives arbitrator.arbitratedValue
            d.arbitrator.arbitratedValue)
      else ({ d with arbitrator := arbitrator }, true)

end DomainTemperature

end Mgr

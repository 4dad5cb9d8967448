import Mathlib.Data.Finset.Sort
import Dptf.Mgr.TemperatureThresholds
import Dptf.Passive.CallbackScheduler

/-!
# What to limit and unlimit

`TargetLimitAction.cpp` and `TargetUnlimitAction.cpp` with their `TargetActionBase.cpp`, as far as
they choose: first the sources of a target that the thermal relationship table ranks highest or
lowest, then domains of each of them.
-/

open Lib
open Mgr (Temperature Percentage)

namespace Passive

/-! ## The domains -/

/-- A domain, and what it answers throughout a choice: `none` is an exception, and an invalid value
is `none` inside of it. -/
structure SourceDomain where
  isMultiFunction : Bool
  canLimit : Nat → Bool
  canUnlimit : Nat → Bool
  supportsTemperatureControls : Bool
  currentTemperature : Option (Option Temperature)
  implementsUtilizationInterface : Bool
  utilizationStatus : Option (Option Percentage)
  domainPriority : Option UInt32

/-- `Constants::Invalid`, which is no index of a participant or a domain. -/
def noIndex : Nat := 0xFFFFFFFF

/-- `ParticipantProxy`, with its domains. -/
structure ParticipantProxy where
  domains : KeyMap Nat SourceDomain
  valid : domains.find noIndex = none

/-- `ParticipantTracker`. -/
structure ParticipantTracker where
  trackedParticipants : KeyMap Nat ParticipantProxy
  valid : trackedParticipants.find noIndex = none

/-- A row of the table with its influence. -/
structure InfluenceEntry extends ThermalRelationshipTableEntry where
  thermalInfluence : UInt32

/-- Some domains of a participant, with their indexes. -/
abbrev IndexedDomains := List (Nat × SourceDomain)

namespace SourceDomain

/-- `getCurrentTemperature`. -/
def getCurrentTemperature (d : SourceDomain) : Option (Option Temperature) :=
  if d.supportsTemperatureControls then d.currentTemperature else none

/-- The current utilization as far as it is known. -/
def getUtilization (d : SourceDomain) : Option Percentage :=
  if d.implementsUtilizationInterface then d.utilizationStatus.getD none else none

end SourceDomain

/-! ## The sources -/

namespace TargetAction

/-- The domains that can be limited, or unlimited. -/
def getDomainsWithControlKnobs (canTurn : SourceDomain → Bool) (participant : ParticipantProxy) :
    IndexedDomains :=
  participant.domains.entries.filter fun domain => canTurn domain.2

/-- `getDomainsWithControlKnobsToLimit`. -/
def getDomainsWithControlKnobsToLimit (participant : ParticipantProxy) (target : Nat) :
    IndexedDomains :=
  getDomainsWithControlKnobs (fun domain => domain.canLimit target) participant

/-- `getDomainsWithControlKnobsToUnlimit`. -/
def getDomainsWithControlKnobsToUnlimit (participant : ParticipantProxy) (target : Nat) :
    IndexedDomains :=
  getDomainsWithControlKnobs (fun domain => domain.canUnlimit target) participant

/-- `getEntriesForTarget`. -/
def getEntriesForTarget (trt : List InfluenceEntry) (target : Nat) : List InfluenceEntry :=
  trt.filter fun entry => entry.targetDeviceIndex = target

variable (tracker : ParticipantTracker)

/-- The entries whose source has domains that can be limited, or unlimited. -/
def getEntriesWithControls (canTurn : SourceDomain → Bool) (entries : List InfluenceEntry) :
    List InfluenceEntry :=
  entries.filter fun entry => entry.sourceDeviceIndex ≠ noIndex &&
    (tracker.trackedParticipants.find entry.sourceDeviceIndex).any fun participant =>
      decide ((getDomainsWithControlKnobs canTurn participant).length > 0)

/-- `getEntriesWithControlsToLimit`. -/
def getEntriesWithControlsToLimit (target : Nat) : List InfluenceEntry → List InfluenceEntry :=
  getEntriesWithControls tracker fun domain => domain.canLimit target

/-- `getEntriesWithControlsToUnlimit`. -/
def getEntriesWithControlsToUnlimit (target : Nat) : List InfluenceEntry → List InfluenceEntry :=
  getEntriesWithControls tracker fun domain => domain.canUnlimit target

/-- `compareTrtTableEntriesOnInfluence`. -/
def compareTrtTableEntriesOnInfluence (left right : InfluenceEntry) : Bool :=
  left.thermalInfluence > right.thermalInfluence

/-- The entries by their influences, the greatest first. -/
def sortEntries (entries : List InfluenceEntry) : List InfluenceEntry :=
  entries.mergeSort fun left right => !compareTrtTableEntriesOnInfluence right left

/-- The sources of the entries that are tied with one of them. -/
def tiedSources (entries : List InfluenceEntry) (entry : Option InfluenceEntry) : List Nat :=
  (entries.filter fun e => entry.any fun entry => e.thermalInfluence = entry.thermalInfluence).map
    fun e => e.sourceDeviceIndex

/-- `chooseSourcesToLimitForTarget`. -/
def chooseSourcesToLimitForTarget (trt : List InfluenceEntry) (target : Nat) : List Nat :=
  let availableSourcesForTarget :=
    getEntriesWithControlsToLimit tracker target (getEntriesForTarget trt target)
  let sorted := sortEntries availableSourcesForTarget
  tiedSources sorted sorted.head?

/-- `chooseSourcesToUnlimitForTarget`. -/
def chooseSourcesToUnlimitForTarget (trt : List InfluenceEntry) (target : Nat) : List Nat :=
  let availableSourcesForTarget :=
    getEntriesWithControlsToUnlimit tracker target (getEntriesForTarget trt target)
  let sorted := sortEntries availableSourcesForTarget
  tiedSources sorted sorted.getLast?

/-! ## The domains of a source -/

/-- `getPackageDomains`. -/
def getPackageDomains (domains : IndexedDomains) : IndexedDomains :=
  domains.filter fun domain => domain.2.isMultiFunction

/-- `filterDomainList`. -/
def filterDomainList (domainList filterList : IndexedDomains) : IndexedDomains :=
  domainList.filter fun domain => !(filterList.any fun filter => domain.1 = filter.1)

/-- `getDomainsThatDoNotReportTemperature`. -/
def getDomainsThatDoNotReportTemperature (domains : IndexedDomains) : IndexedDomains :=
  domains.filter fun domain => !domain.2.supportsTemperatureControls

/-- `set.insert` of the indexes of some domains. -/
def indexes (domains : IndexedDomains) : Finset Nat := (domains.map Prod.fst).toFinset

/-- `insert` of an index that may be invalid. -/
def insertIndex (index : Nat) (set : Finset Nat) : Finset Nat :=
  if index ≠ noIndex then insert index set else set

/-- The elements of a set in their order. -/
def toVector (set : Finset Nat) : List Nat := set.sort (· ≤ ·)

/-! ### Limiting -/

/-- One turn of the loop in `getDomainWithHighestTemperature`. -/
def warmer (highest : Temperature × Nat) (domain : Nat × SourceDomain) : Temperature × Nat :=
  match domain.2.getCurrentTemperature with
  | some (some temperature) =>
    if temperature > highest.1 then (temperature, domain.1) else highest
  | _ => highest

/-- `getDomainWithHighestTemperature`. -/
def getDomainWithHighestTemperature (domains : IndexedDomains) : Nat :=
  (domains.foldl warmer (Temperature.minAux, noIndex)).2

/-- A domain with its priority and its utilization. -/
abbrev Preference := Nat × UInt32 × Option Percentage

/-- `compareDomainsOnPriorityAndUtilization`. -/
def compareDomainsOnPriorityAndUtilization (left right : Preference) : Bool :=
  if left.2.1 < right.2.1 then true
  else if left.2.1 = right.2.1 then
    match left.2.2, right.2.2 with
    | some l, some r => decide (l > r)
    | _, _ => false
  else false

/-- `getDomainsSortedByPriorityThenUtilization`. -/
def getDomainsSortedByPriorityThenUtilization (domains : IndexedDomains) :
    Option (List (Nat × Option Percentage)) := do
  let domainPreference ← domains.mapM fun domain => do
    let domainPriority ← domain.2.domainPriority
    pure ((domain.1, domainPriority, domain.2.getUtilization) : Preference)
  let sorted := domainPreference.mergeSort fun left right =>
    !compareDomainsOnPriorityAndUtilization right left
  pure (sorted.map fun preference => (preference.1, preference.2.2))

/-- One turn of the loop over the sorted domains: the set, and whether one with a utilization is
chosen. -/
def chooseNext (chosen : Finset Nat × Bool) (domain : Nat × Option Percentage) :
    Finset Nat × Bool :=
  if domain.2 = none then (insert domain.1 chosen.1, chosen.2)
  else if chosen.2 = false then (insert domain.1 chosen.1, true)
  else chosen

/-- `chooseDomainsToLimitForSource` where the source is the target. -/
def domainsToLimitOfTarget (domainsWithControlKnobsToTurn : IndexedDomains) : Finset Nat :=
  let packageDomains := getPackageDomains domainsWithControlKnobsToTurn
  let domainsToLimit :=
    indexes (getDomainsThatDoNotReportTemperature domainsWithControlKnobsToTurn) ∪
      indexes packageDomains
  if packageDomains.length = 0 then
    insertIndex (getDomainWithHighestTemperature domainsWithControlKnobsToTurn) domainsToLimit
  else domainsToLimit

/-- `chooseDomainsToLimitForSource` where it is not. -/
def domainsToLimitOfOther (domainsWithControlKnobsToTurn : IndexedDomains) :
    Option (Finset Nat) :=
  let packageDomains := getPackageDomains domainsWithControlKnobsToTurn
  if packageDomains.length = 0 then
    (getDomainsSortedByPriorityThenUtilization domainsWithControlKnobsToTurn).map fun sorted =>
      (sorted.foldl chooseNext (indexes packageDomains, false)).1
  else some (indexes packageDomains)

/-- `chooseDomainsToLimitForSource`. -/
def chooseDomainsToLimitForSource (target source : Nat) : Option (List Nat) := do
  let participant ← tracker.trackedParticipants.find source
  let domainsWithControlKnobsToTurn := getDomainsWithControlKnobsToLimit participant target
  if domainsWithControlKnobsToTurn.length > 0 then
    if source = target then pure (toVector (domainsToLimitOfTarget domainsWithControlKnobsToTurn))
    else (domainsToLimitOfOther domainsWithControlKnobsToTurn).map toVector
  else pure []

/-! ### Unlimiting -/

/-- One turn of the loop in `getDomainWithLowestTemperature`. -/
def cooler (lowest : Option Temperature × Nat) (domain : Nat × SourceDomain) :
    Option Temperature × Nat :=
  match domain.2.getCurrentTemperature with
  | none => lowest
  | some domainTemperature =>
    match lowest.1, domainTemperature with
    | none, _ => (domainTemperature, domain.1)
    | some temperature, some reading =>
      if reading < temperature then (some reading, domain.1) else lowest
    | some _, none => lowest

/-- `getDomainWithLowestTemperature`. -/
def getDomainWithLowestTemperature (domains : IndexedDomains) : Nat :=
  (domains.foldl cooler (none, noIndex)).2

/-- The first loop of `getDomainsWithLowestPriority`. -/
def lowestPriority (domains : IndexedDomains) : UInt32 :=
  domains.foldl (fun lowest domain =>
    match domain.2.domainPriority with
    | some priority => if priority < lowest then priority else lowest
    | none => lowest) 0xFFFFFFFF

/-- `getDomainsWithLowestPriority`, whose second loop does not catch the exception of a
priority. -/
def getDomainsWithLowestPriority (domains : IndexedDomains) : Option IndexedDomains := do
  let lowestPriority := lowestPriority domains
  let priorities ← domains.mapM fun domain => do
    let priority ← domain.2.domainPriority
    pure (domain, priority)
  pure ((priorities.filter fun p => p.2 = lowestPriority).map Prod.fst)

/-- The set, or the package domains if it is empty. -/
def orPackageDomains (set : Finset Nat) (packageDomains : IndexedDomains) : Finset Nat :=
  if set.card = 0 then set ∪ indexes packageDomains else set

/-- `chooseDomainsToUnlimitForSource` where the source is the target. -/
def domainsToUnlimitOfTarget (domainsWithControlKnobsToTurn : IndexedDomains) : Finset Nat :=
  let packageDomains := getPackageDomains domainsWithControlKnobsToTurn
  let filteredDomainList := filterDomainList domainsWithControlKnobsToTurn packageDomains
  let domainsToUnlimit := insertIndex (getDomainWithLowestTemperature filteredDomainList)
    (indexes (getDomainsThatDoNotReportTemperature filteredDomainList))
  orPackageDomains domainsToUnlimit packageDomains

/-- `chooseDomainsToUnlimitForSource` where it is not. -/
def domainsToUnlimitOfOther (domainsWithControlKnobsToTurn : IndexedDomains) :
    Option (Finset Nat) :=
  let packageDomains := getPackageDomains domainsWithControlKnobsToTurn
  let filteredDomainList := filterDomainList domainsWithControlKnobsToTurn packageDomains
  (getDomainsWithLowestPriority filteredDomainList).map fun domainsOfLowestPriority =>
    orPackageDomains (indexes domainsOfLowestPriority) packageDomains

/-- `chooseDomainsToUnlimitForSource`. -/
def chooseDomainsToUnlimitForSource (target source : Nat) : Option (List Nat) := do
  let participant ← tracker.trackedParticipants.find source
  let domainsWithControlKnobsToTurn := getDomainsWithControlKnobsToUnlimit participant target
  if domainsWithControlKnobsToTurn.length > 0 then
    if source = target then pure (toVector (domainsToUnlimitOfTarget domainsWithControlKnobsToTurn))
    else (domainsToUnlimitOfOther domainsWithControlKnobsToTurn).map toVector
  else pure []

/-! ## The requests -/

/-- What `execute` requests of its sources, and the scheduler with those it marks busy; an exception
ends it.  The callbacks and commits after each source leave the request schedule alone. -/
def requestSources (choose : Nat → Option (List Nat)) (target time : Nat) :
    List Nat → CallbackScheduler → CallbackScheduler × List (Nat × Nat)
  | [], scheduler => (scheduler, [])
  | source :: sources, scheduler =>
    if scheduler.isFreeForRequests target source time then
      match choose source with
      | none => (scheduler, [])
      | some domains =>
        let requests := domains.map fun domain => (source, domain)
        match scheduler.markBusyForRequests target source time with
        | none => (scheduler, requests)
        | some scheduler =>
          let rest := requestSources choose target time sources scheduler
          (rest.1, requests ++ rest.2)
    else requestSources choose target time sources scheduler

end TargetAction

end Passive

import Dptf.Participant.FanArbitrators

/-!
# The cooling control of a fan

`ActiveCoolingControl.cpp`.  Each requestor may have a request for the speed of a fan, and the
highest one is submitted.  The control remembers the speed it has last asked for and does not
submit the same one again; it remembers it before it is submitted, and a submission may fail.

* `runsHighest_iff` — **in which runs the fan does so after every operation**;
  `runsHighest_fails` is a run in which it does not.
-/

open Lib

namespace Active

open Mgr (Percentage RequestValue)
open Participant

/-- `UIntN`, the index of a target. -/
abbrev RequestorIndex := Nat

/-! ## The control -/

/-- `ActiveCoolingControl` of a fan with fine-grained control.  The last field is not one of the
code: it is the last speed of which the submission succeeded. -/
structure ActiveCoolingControl where
  fanSpeedRequestTable : KeyMap RequestorIndex Percentage
  lastFanSpeedRequest : Option Percentage
  submitted : Option Percentage

/-- `ActiveControlDynamicCapsCachedProperty::refreshData`: the answer to the request for the
capabilities, if there is one; full capabilities if it cannot be used. -/
def dynamicCapabilities (answer : Option (UInt64 × UInt64)) :
    Except String ActiveControlDynamicCaps :=
  match answer with
  | none => .error "Failed to get dynamic capabilities."
  | some (minspeed, maxspeed) =>
    match ActiveControlDynamicCaps.createFromFcdc minspeed maxspeed with
    | .ok caps => .ok caps
    | .error _ => .ok ⟨some (fromWholeNumber 0), some (fromWholeNumber 100)⟩

/-- `Percentage::operator<`. -/
def lessPercentage : Option Percentage → Option Percentage → Except String Bool
  | some a, some b => .ok (decide (a < b))
  | _, _ => .error "Percentage is not valid."

/-- `snapToCapabilitiesBounds`. -/
def snapToCapabilitiesBounds (fanSpeed : Option Percentage)
    (capabilities : Except String ActiveControlDynamicCaps) : Except String (Option Percentage) :=
  match fanSpeed with
  | none => .ok none
  | some speed => do
    let caps ← capabilities
    if ← lessPercentage (some speed) caps.minFanSpeed then pure caps.minFanSpeed
    else if ← lessPercentage caps.maxFanSpeed (some speed) then pure caps.maxFanSpeed
    else pure (some speed)

/-- `updateFanSpeedRequestTable`, and `clearFanSpeedRequestForTarget` where the speed is
invalid. -/
def updateFanSpeedRequestTable (table : KeyMap RequestorIndex Percentage)
    (requestorIndex : RequestorIndex) (fanSpeed : Option Percentage) :
    KeyMap RequestorIndex Percentage :=
  match fanSpeed with
  | some speed => table.assign requestorIndex speed
  | none => table.erase requestorIndex

/-- `chooseHighestFanSpeedRequest`. -/
def chooseHighestFanSpeedRequest (table : KeyMap RequestorIndex Percentage) : Percentage :=
  table.values.foldl (fun highestFanSpeed request =>
    if request > highestFanSpeed then request else highestFanSpeed) (fromWholeNumber 0)

namespace ActiveCoolingControl

variable (c : ActiveCoolingControl)

/-- `setFanSpeed`, which throws unless the submission succeeds. -/
def setFanSpeed (fanSpeed : Percentage) (succeeds : Bool) :
    ActiveCoolingControl × Except String Unit :=
  if succeeds then ({ c with submitted := some fanSpeed }, .ok ())
  else (c, .error "Failed to set fan speed.")

/-- `setHighestFanSpeedPercentage`. -/
def setHighestFanSpeedPercentage (succeeds : Bool) : ActiveCoolingControl × Except String Unit :=
  let highestFanSpeed := chooseHighestFanSpeedRequest c.fanSpeedRequestTable
  if samePercentage (some highestFanSpeed) c.lastFanSpeedRequest then (c, .ok ())
  else
    let last := if c.fanSpeedRequestTable.isEmpty then none else some highestFanSpeed
    setFanSpeed { c with lastFanSpeedRequest := last } highestFanSpeed succeeds

/-- `requestFanSpeedPercentage`. -/
def requestFanSpeedPercentage (requestorIndex : RequestorIndex) (fanSpeed : Option Percentage)
    (answer : Option (UInt64 × UInt64)) (succeeds : Bool) :
    ActiveCoolingControl × Except String Unit :=
  match snapToCapabilitiesBounds fanSpeed (dynamicCapabilities answer) with
  | .error message => (c, .error message)
  | .ok snapped =>
    let table := updateFanSpeedRequestTable c.fanSpeedRequestTable requestorIndex snapped
    setHighestFanSpeedPercentage { c with fanSpeedRequestTable := table } succeeds

/-- `clearFanSpeedRequestForTarget`, followed by `setHighestFanSpeedPercentage`. -/
def clearFanSpeedRequestForTarget (requestorIndex : RequestorIndex) (succeeds : Bool) :
    ActiveCoolingControl × Except String Unit :=
  let table := c.fanSpeedRequestTable.erase requestorIndex
  setHighestFanSpeedPercentage { c with fanSpeedRequestTable := table } succeeds

/-- `forceFanOff`. -/
def forceFanOff (succeeds : Bool) : ActiveCoolingControl × Except String Unit :=
  match setFanSpeed c (fromWholeNumber 0) succeeds with
  | (c', .ok _) => ({ c' with lastFanSpeedRequest := none }, .ok ())
  | failed => failed

end ActiveCoolingControl

/-- An operation, the answer to a request for the capabilities if it makes one, and whether a
submission succeeds if it makes one. -/
inductive CoolingOp
  | requestFanSpeedPercentage (requestorIndex : RequestorIndex) (fanSpeed : Option Percentage)
      (answer : Option (UInt64 × UInt64)) (succeeds : Bool)
  | clearFanSpeedRequestForTarget (requestorIndex : RequestorIndex) (succeeds : Bool)
  | forceFanOff (succeeds : Bool)

/-- What an operation does, and whether it throws. -/
def ActiveCoolingControl.perform (c : ActiveCoolingControl) :
    CoolingOp → ActiveCoolingControl × Except String Unit
  | .requestFanSpeedPercentage requestorIndex fanSpeed answer succeeds =>
    c.requestFanSpeedPercentage requestorIndex fanSpeed answer succeeds
  | .clearFanSpeedRequestForTarget requestorIndex succeeds =>
    c.clearFanSpeedRequestForTarget requestorIndex succeeds
  | .forceFanOff succeeds => c.forceFanOff succeeds

/-! ## The requests that are made -/

/-- The requests by requestor. -/
abbrev LiveRequests := RequestorIndex → Option Percentage

/-- What an operation asks for: the speed within the capabilities of its time, or no speed. -/
def LiveRequests.apply (live : LiveRequests) : CoolingOp → LiveRequests
  | .requestFanSpeedPercentage requestorIndex fanSpeed answer _ =>
    match snapToCapabilitiesBounds fanSpeed (dynamicCapabilities answer) with
    | .error _ => live
    | .ok snapped => fun p => if p = requestorIndex then snapped else live p
  | .clearFanSpeedRequestForTarget requestorIndex _ =>
    fun p => if p = requestorIndex then none else live p
  | .forceFanOff _ => live

/-- Whether an operation ends in `setHighestFanSpeedPercentage`. -/
def CoolingOp.setsHighest : CoolingOp → Bool
  | .forceFanOff _ => false
  | _ => true

/-- Speeds are equal by `Percentage::operator==`. -/
def SameSpeed (a b : Percentage) : Prop := samePercentage (some a) (some b) = true

theorem SameSpeed.equivalence : Equivalence SameSpeed where
  refl a := samePercentage_self (some a)
  symm {a b} h := (samePercentage_symm (some b) (some a)).trans h
  trans := samePercentage_trans

/-- The fan runs at a speed, with `eq` for the speeds that count as equal. -/
def RunsAt (eq : Percentage → Percentage → Prop) (submitted : Option Percentage)
    (speed : Percentage) : Prop := ∃ running, submitted = some running ∧ eq running speed

@[simp] theorem runsAt_some {eq : Percentage → Percentage → Prop} {running speed : Percentage} :
    RunsAt eq (some running) speed ↔ eq running speed := by
  simp [RunsAt]

/-- The fan runs at the highest of the requests, or at zero if there is none. -/
def RunsHighest (eq : Percentage → Percentage → Prop) (live : LiveRequests)
    (c : ActiveCoolingControl) : Prop :=
  ∃ highest, IsTightest (· ≥ ·) (Requested live) highest ∧
    RunsAt eq c.submitted (highest.getD (fromWholeNumber 0))

/-! ## Snapping -/

theorem fromWholeNumber_nonneg (wholeNumber : Nat) :
    fromWholeNumber 0 ≤ fromWholeNumber wholeNumber := by
  show divDouble 0 100 ≤ divDouble wholeNumber 100
  rw [divDouble_zero]
  exact divDouble_nonneg _ _

theorem fcdcSpeed_nonneg {value : UInt64} {speed : Percentage} (h : fcdcSpeed value = some speed) :
    fromWholeNumber 0 ≤ speed := by
  unfold fcdcSpeed at h
  split at h
  · rw [← Option.some.inj h]
    exact fromWholeNumber_nonneg _
  · cases h

/-- Capabilities that are read are not below zero. -/
theorem nonneg_of_dynamicCapabilities {answer : Option (UInt64 × UInt64)}
    {caps : ActiveControlDynamicCaps} (h : dynamicCapabilities answer = .ok caps) :
    (∀ speed, caps.minFanSpeed = some speed → fromWholeNumber 0 ≤ speed) ∧
      ∀ speed, caps.maxFanSpeed = some speed → fromWholeNumber 0 ≤ speed := by
  cases answer with
  | none => cases h
  | some answer =>
    obtain ⟨minspeed, maxspeed⟩ := answer
    simp only [dynamicCapabilities] at h
    cases hcreate : ActiveControlDynamicCaps.createFromFcdc minspeed maxspeed with
    | error message =>
      rw [hcreate] at h
      obtain rfl := Except.ok.inj h
      constructor <;> rintro speed ⟨⟩ <;> exact fromWholeNumber_nonneg _
    | ok caps' =>
      rw [hcreate] at h
      obtain rfl := Except.ok.inj h
      obtain rfl := create_ok hcreate
      exact ⟨fun speed => fcdcSpeed_nonneg, fun speed => fcdcSpeed_nonneg⟩

/-- **A speed is snapped** to the minimum, to the maximum, or not at all. -/
theorem snapToCapabilitiesBounds_some {speed : Percentage}
    {capabilities : Except String ActiveControlDynamicCaps} {snapped : Option Percentage}
    (h : snapToCapabilitiesBounds (some speed) capabilities = .ok snapped) :
    ∃ caps, capabilities = .ok caps ∧
      (snapped = caps.minFanSpeed ∧ snapped.isSome ∨ snapped = caps.maxFanSpeed ∧ snapped.isSome ∨
        snapped = some speed ∧ ∃ low high, caps.minFanSpeed = some low ∧
          caps.maxFanSpeed = some high ∧ low ≤ speed ∧ speed ≤ high) := by
  cases capabilities with
  | error message => cases h
  | ok caps =>
    refine ⟨caps, rfl, ?_⟩
    obtain ⟨minFanSpeed, maxFanSpeed⟩ := caps
    cases minFanSpeed with
    | none => cases h
    | some low =>
      change (if decide (speed < low) = true then pure (some low) else do
        if ← lessPercentage maxFanSpeed (some speed) then pure maxFanSpeed
        else pure (some speed)) = Except.ok snapped at h
      by_cases hlow : speed < low
      · rw [if_pos (decide_eq_true hlow)] at h
        exact .inl ⟨(Except.ok.inj h).symm, Except.ok.inj h ▸ rfl⟩
      · rw [if_neg (by simpa using hlow)] at h
        cases maxFanSpeed with
        | none => cases h
        | some high =>
          change (if decide (high < speed) = true then pure (some high) else pure (some speed)) =
            Except.ok snapped at h
          by_cases hhigh : high < speed
          · rw [if_pos (decide_eq_true hhigh)] at h
            exact .inr (.inl ⟨(Except.ok.inj h).symm, Except.ok.inj h ▸ rfl⟩)
          · rw [if_neg (by simpa using hhigh)] at h
            exact .inr (.inr ⟨(Except.ok.inj h).symm, low, high, rfl, rfl, not_lt.mp hlow,
              not_lt.mp hhigh⟩)

/-- A speed that is snapped is not below zero. -/
theorem snapToCapabilitiesBounds_nonneg {fanSpeed : Option Percentage}
    {answer : Option (UInt64 × UInt64)} {speed : Percentage}
    (h : snapToCapabilitiesBounds fanSpeed (dynamicCapabilities answer) = .ok (some speed)) :
    fromWholeNumber 0 ≤ speed := by
  cases fanSpeed with
  | none => cases Except.ok.inj h
  | some asked =>
    obtain ⟨caps, hcaps, ⟨hmin, -⟩ | ⟨hmax, -⟩ | ⟨hsame, low, high, hlow, -, hle, -⟩⟩ :=
      snapToCapabilitiesBounds_some h
    · exact (nonneg_of_dynamicCapabilities hcaps).1 speed hmin.symm
    · exact (nonneg_of_dynamicCapabilities hcaps).2 speed hmax.symm
    · rw [Option.some.inj hsame]
      exact ((nonneg_of_dynamicCapabilities hcaps).1 low hlow).trans hle

/-! ## The highest request -/

/-- **The highest request is chosen**, or zero if there is none. -/
theorem chooseHighestFanSpeedRequest_spec {table : KeyMap RequestorIndex Percentage}
    (h : table.AllValues fun speed => fromWholeNumber 0 ≤ speed) :
    ∃ highest, IsTightest (· ≥ ·) (Requested table.find) highest ∧
      chooseHighestFanSpeedRequest table = highest.getD (fromWholeNumber 0) := by
  have htight := isTightest_foldl_values picks_max table some
  have hfind : (fun requestor => (table.find requestor).bind some) = table.find := by
    funext requestor
    cases table.find requestor <;> rfl
  rw [hfind] at htight
  refine ⟨_, htight, ?_⟩
  have hmax : chooseHighestFanSpeedRequest table = table.values.foldl max (fromWholeNumber 0) := by
    unfold chooseHighestFanSpeedRequest
    congr 1
    funext highest request
    rw [max_def_lt]
  rw [hmax, foldl_eq_elim]
  generalize (table.values.map some).foldl (Option.merge max) none = highest at *
  cases highest with
  | none => rfl
  | some highest =>
    obtain ⟨⟨requestor, hfind⟩, -⟩ := htight
    exact max_eq_right (h requestor highest hfind)

/-! ## What an operation does -/

/-- The table an operation leaves before it sets the highest speed. -/
def CoolingOp.table (table : KeyMap RequestorIndex Percentage) :
    CoolingOp → Except String (KeyMap RequestorIndex Percentage)
  | .requestFanSpeedPercentage requestorIndex fanSpeed answer _ =>
    (snapToCapabilitiesBounds fanSpeed (dynamicCapabilities answer)).map
      (updateFanSpeedRequestTable table requestorIndex)
  | .clearFanSpeedRequestForTarget requestorIndex _ => .ok (table.erase requestorIndex)
  | .forceFanOff _ => .ok table

/-- Whether the submission an operation makes succeeds. -/
def CoolingOp.succeeds : CoolingOp → Bool
  | .requestFanSpeedPercentage _ _ _ succeeds => succeeds
  | .clearFanSpeedRequestForTarget _ succeeds => succeeds
  | .forceFanOff succeeds => succeeds

section Perform

variable {c : ActiveCoolingControl} {live : LiveRequests} {op : CoolingOp}

/-- An operation that sets the highest speed does so with its table, or throws before it. -/
theorem perform_eq (hsets : op.setsHighest = true) :
    c.perform op = match op.table c.fanSpeedRequestTable with
      | .error message => (c, .error message)
      | .ok table => ActiveCoolingControl.setHighestFanSpeedPercentage
          { c with fanSpeedRequestTable := table } op.succeeds := by
  cases op with
  | requestFanSpeedPercentage requestorIndex fanSpeed answer succeeds =>
    simp only [ActiveCoolingControl.perform, ActiveCoolingControl.requestFanSpeedPercentage,
      CoolingOp.table, CoolingOp.succeeds]
    cases snapToCapabilitiesBounds fanSpeed (dynamicCapabilities answer) <;> rfl
  | clearFanSpeedRequestForTarget requestorIndex succeeds => rfl
  | forceFanOff => cases hsets

/-- What `setHighestFanSpeedPercentage` does: nothing if it remembers the speed, and otherwise it
submits it. -/
theorem setHighestFanSpeedPercentage_cases (c : ActiveCoolingControl) (succeeds : Bool) :
    let highest := chooseHighestFanSpeedRequest c.fanSpeedRequestTable
    (samePercentage (some highest) c.lastFanSpeedRequest = true ∧
      c.setHighestFanSpeedPercentage succeeds = (c, .ok ())) ∨
    ¬samePercentage (some highest) c.lastFanSpeedRequest = true ∧
      ∃ last, last = (if c.fanSpeedRequestTable.isEmpty then none else some highest) ∧
        c.setHighestFanSpeedPercentage succeeds = if succeeds then
            (⟨c.fanSpeedRequestTable, last, some highest⟩, .ok ())
          else
            (⟨c.fanSpeedRequestTable, last, c.submitted⟩, .error "Failed to set fan speed.") := by
  unfold ActiveCoolingControl.setHighestFanSpeedPercentage
  by_cases hsame : samePercentage (some (chooseHighestFanSpeedRequest c.fanSpeedRequestTable))
      c.lastFanSpeedRequest = true
  · exact .inl ⟨hsame, if_pos hsame⟩
  · exact .inr ⟨hsame, _, rfl, if_neg hsame⟩

/-- The table after an operation is what is asked for. -/
theorem fanSpeedRequestTable_perform (c : ActiveCoolingControl) (op : CoolingOp) :
    (c.perform op).1.fanSpeedRequestTable = match op.table c.fanSpeedRequestTable with
      | .error _ => c.fanSpeedRequestTable
      | .ok table => table := by
  by_cases hsets : op.setsHighest = true
  · rw [perform_eq hsets]
    cases op.table c.fanSpeedRequestTable with
    | error message => rfl
    | ok table =>
      rcases setHighestFanSpeedPercentage_cases { c with fanSpeedRequestTable := table }
        op.succeeds with ⟨-, heq⟩ | ⟨-, last, -, heq⟩
      · simp only [heq]
      · simp only [heq]
        split <;> rfl
  · cases op with
    | forceFanOff succeeds => cases succeeds <;> rfl
    | _ => exact absurd rfl hsets

/-- The control and the requests made of it. -/
structure Mirrors (c : ActiveCoolingControl) (live : LiveRequests) : Prop where
  table : ∀ requestor, c.fanSpeedRequestTable.find requestor = live requestor
  nonneg : c.fanSpeedRequestTable.AllValues fun speed => fromWholeNumber 0 ≤ speed

/-- What is asked for is what the table holds then. -/
theorem mirrors_table (h : Mirrors c live) {table : KeyMap RequestorIndex Percentage}
    (htable : op.table c.fanSpeedRequestTable = .ok table) :
    (∀ requestor, table.find requestor = live.apply op requestor) ∧
      table.AllValues fun speed => fromWholeNumber 0 ≤ speed := by
  cases op with
  | requestFanSpeedPercentage requestorIndex fanSpeed answer succeeds =>
    simp only [CoolingOp.table, LiveRequests.apply] at htable ⊢
    cases hsnap : snapToCapabilitiesBounds fanSpeed (dynamicCapabilities answer) with
    | error message =>
      rw [hsnap] at htable
      cases htable
    | ok snapped =>
      rw [hsnap] at htable
      obtain rfl := Except.ok.inj htable
      cases snapped with
      | none =>
        refine ⟨fun requestor => ?_, h.nonneg.erase requestorIndex⟩
        simp only [updateFanSpeedRequestTable, KeyMap.find_erase, h.table]
      | some speed =>
        refine ⟨fun requestor => ?_,
          h.nonneg.assign requestorIndex (snapToCapabilitiesBounds_nonneg hsnap)⟩
        simp only [updateFanSpeedRequestTable, KeyMap.find_assign, h.table]
  | clearFanSpeedRequestForTarget requestorIndex succeeds =>
    obtain rfl := Except.ok.inj htable
    refine ⟨fun requestor => ?_, h.nonneg.erase requestorIndex⟩
    simp only [LiveRequests.apply, KeyMap.find_erase, h.table]
  | forceFanOff succeeds =>
    obtain rfl := Except.ok.inj htable
    exact ⟨h.table, h.nonneg⟩

/-- An operation that throws before it sets anything asks for nothing. -/
theorem apply_of_table_error {message : String}
    (htable : op.table c.fanSpeedRequestTable = .error message) : live.apply op = live := by
  cases op with
  | requestFanSpeedPercentage requestorIndex fanSpeed answer succeeds =>
    simp only [CoolingOp.table, LiveRequests.apply] at htable ⊢
    cases hsnap : snapToCapabilitiesBounds fanSpeed (dynamicCapabilities answer) with
    | error message' => rfl
    | ok snapped =>
      rw [hsnap] at htable
      cases htable
  | clearFanSpeedRequestForTarget => cases htable
  | forceFanOff => cases htable

/-- **The table holds the requests**, whatever fails. -/
theorem mirrors_perform (h : Mirrors c live) (op : CoolingOp) :
    Mirrors (c.perform op).1 (live.apply op) := by
  have htable := fanSpeedRequestTable_perform c op
  cases hop : op.table c.fanSpeedRequestTable with
  | error message =>
    simp only [hop] at htable
    rw [apply_of_table_error hop]
    exact ⟨htable ▸ h.table, htable ▸ h.nonneg⟩
  | ok table =>
    simp only [hop] at htable
    obtain ⟨hfind, hnonneg⟩ := mirrors_table h hop
    exact ⟨htable ▸ hfind, htable ▸ hnonneg⟩

end Perform

/-! ## The calls -/

/-- What the calls say by themselves: the requests that are live, the highest speed that was asked
for last, and the one that was asked for when a call last succeeded. -/
structure CallHistory where
  requests : KeyMap RequestorIndex Percentage
  asked : Option Percentage
  runs : Option Percentage

namespace CallHistory

/-- A call.  Where no request is live the speed is zero, and it is not the one asked for last
unless it was before; nothing is after the fan was turned off. -/
def next (h : CallHistory) (op : CoolingOp) : CallHistory :=
  match op.table h.requests with
  | .error _ => h
  | .ok requests =>
    if op.setsHighest then
      let highest := chooseHighestFanSpeedRequest requests
      { requests
        asked := if requests.isEmpty then h.asked.filter (RequestValue.same highest)
          else some highest
        runs := if op.succeeds then some highest else h.runs }
    else if op.succeeds then { h with asked := none, runs := some (fromWholeNumber 0) }
    else h

/-- A call asks again for the speed asked for last, and no call that succeeded has asked for that
speed since another one did for another. -/
def AsksAgain (eq : Percentage → Percentage → Prop) (h : CallHistory) (op : CoolingOp) : Prop :=
  op.setsHighest = true ∧ ∃ requests, op.table h.requests = .ok requests ∧
    samePercentage (some (chooseHighestFanSpeedRequest requests)) h.asked = true ∧
    ¬RunsAt eq h.runs (chooseHighestFanSpeedRequest requests)

/-- A history of calls. -/
def step (h : CallHistory) (op : CoolingOp) : Option CallHistory := some (h.next op)

end CallHistory

/-- Before the first call; what the fan was set to before is left open. -/
def noCalls (submitted : Option Percentage) : CallHistory := ⟨KeyMap.empty, none, submitted⟩

/-! ## Every run -/

/-- A control and the requests made of it, under the same operations. -/
def coolingStep (s : ActiveCoolingControl × LiveRequests) (op : CoolingOp) :
    Option (ActiveCoolingControl × LiveRequests) :=
  some ((s.1.perform op).1, s.2.apply op)

/-- After an operation that sets the highest speed and returns, the fan runs at it. -/
def LeavesHighest (eq : Percentage → Percentage → Prop) (s : ActiveCoolingControl × LiveRequests)
    (op : CoolingOp) : Prop :=
  op.setsHighest = true → (s.1.perform op).2 = .ok () →
    RunsHighest eq (s.2.apply op) (s.1.perform op).1

/-- The control has come through the calls.  A call that submits nothing is one that succeeds, so
the speeds need only agree as far as `eq` can tell. -/
structure Follows (eq : Percentage → Percentage → Prop) (h : CallHistory)
    (s : ActiveCoolingControl × LiveRequests) : Prop where
  mirrors : Mirrors s.1 s.2
  requests : h.requests = s.1.fanSpeedRequestTable
  asked : samePercentage h.asked s.1.lastFanSpeedRequest = true
  runs : ∀ speed, RunsAt eq h.runs speed ↔ RunsAt eq s.1.submitted speed

section Runs

variable {eq : Percentage → Percentage → Prop} {h : CallHistory}
  {s : ActiveCoolingControl × LiveRequests} {op : CoolingOp}
  {table : KeyMap RequestorIndex Percentage}

/-- The highest request is the highest one of the table. -/
theorem Follows.runsAt_highest_iff (hf : Follows eq h s)
    (htable : op.table s.1.fanSpeedRequestTable = .ok table) (c : ActiveCoolingControl) :
    RunsHighest eq (s.2.apply op) c ↔ RunsAt eq c.submitted (chooseHighestFanSpeedRequest table) := by
  obtain ⟨hfind, hnonneg⟩ := mirrors_table hf.mirrors htable
  obtain ⟨highest, htight, hhighest⟩ := chooseHighestFanSpeedRequest_spec hnonneg
  have hlive : table.find = s.2.apply op := funext hfind
  rw [hlive] at htight
  rw [hhighest]
  constructor
  · rintro ⟨highest', htight', hruns⟩
    exact htight'.unique (fun _ _ hab hba => le_antisymm hba hab) htight ▸ hruns
  · exact fun hruns => ⟨highest, htight, hruns⟩

theorem Follows.same_asked_iff (hf : Follows eq h s) (speed : Percentage) :
    samePercentage (some speed) s.1.lastFanSpeedRequest = true ↔
      samePercentage (some speed) h.asked = true := by
  have hasked := hf.asked
  rw [samePercentage_symm] at hasked
  exact ⟨fun hsame => samePercentage_trans hsame hasked,
    fun hsame => samePercentage_trans hsame hf.asked⟩

/-- **The step**, exactly: a call leaves the fan at the highest request just if it does not ask
again for a speed that was not set. -/
theorem Follows.leavesHighest_iff (heq : Equivalence eq) (hf : Follows eq h s) (op : CoolingOp) :
    LeavesHighest eq s op ↔ ¬h.AsksAgain eq op := by
  rw [CallHistory.AsksAgain, LeavesHighest, not_and]
  refine imp_congr_right fun hsets => ?_
  simp only [perform_eq hsets, hf.requests]
  cases hop : op.table s.1.fanSpeedRequestTable with
  | error message => simp
  | ok table =>
    simp only [Except.ok.injEq, hf.runsAt_highest_iff hop, exists_eq_left', not_and, not_not,
      ← hf.same_asked_iff, hf.runs]
    rcases setHighestFanSpeedPercentage_cases { s.1 with fanSpeedRequestTable := table }
      op.succeeds with ⟨hsame, hset⟩ | ⟨hsame, last, -, hset⟩
    · rw [hset]
      exact ⟨fun hruns _ => hruns rfl, fun hruns _ => hruns hsame⟩
    · refine iff_of_true ?_ fun hsame' => absurd hsame' hsame
      rw [hset]
      cases op.succeeds with
      | false => exact fun hthrows => by cases hthrows
      | true => exact fun _ => ⟨_, rfl, heq.refl _⟩

/-- What a call asks for is what the control remembers. -/
theorem Follows.asked_next (hf : Follows eq h s) (hsets : op.setsHighest = true)
    (htable : op.table s.1.fanSpeedRequestTable = .ok table) :
    samePercentage (h.next op).asked (s.1.perform op).1.lastFanSpeedRequest = true := by
  have hsame_iff := hf.same_asked_iff (chooseHighestFanSpeedRequest table)
  have hfilter : ∀ highest : Percentage, h.asked.filter (RequestValue.same highest) =
      if samePercentage (some highest) h.asked = true then h.asked else none := by
    intro highest
    cases h.asked with
    | none => rfl
    | some asked => rfl
  simp only [perform_eq hsets, CallHistory.next, hf.requests, htable, hsets, if_true, hfilter]
  rcases setHighestFanSpeedPercentage_cases { s.1 with fanSpeedRequestTable := table }
    op.succeeds with ⟨hsame, hset⟩ | ⟨hsame, last, rfl, hset⟩
  · rw [hset, if_pos (hsame_iff.1 hsame)]
    split
    · exact hf.asked
    · exact hsame
  · rw [hset, if_neg (fun hasked => hsame (hsame_iff.2 hasked))]
    cases op.succeeds <;> exact samePercentage_self _

/-- A call that leaves the fan at the highest request is followed. -/
theorem Follows.next (heq : Equivalence eq) (hf : Follows eq h s)
    (hleaves : LeavesHighest eq s op) :
    Follows eq (h.next op) ((s.1.perform op).1, s.2.apply op) := by
  have hmirrors := mirrors_perform hf.mirrors op
  have hfan := fanSpeedRequestTable_perform s.1 op
  by_cases hsets : op.setsHighest = true
  · cases hop : op.table s.1.fanSpeedRequestTable with
    | error message =>
      have hnext : h.next op = h := by rw [CallHistory.next, hf.requests, hop]
      have hperform : (s.1.perform op).1 = s.1 := by rw [perform_eq hsets, hop]
      rw [hnext, hperform]
      exact ⟨hperform ▸ hmirrors, hf.requests, hf.asked, hf.runs⟩
    | ok table =>
      rw [hop] at hfan
      refine ⟨hmirrors, ?_, hf.asked_next hsets hop, fun speed => ?_⟩
      · rw [hfan, CallHistory.next, hf.requests, hop]
        simp only [hsets, if_true]
      · have hruns := fun hok => (hf.runsAt_highest_iff hop _).1 (hleaves hsets hok)
        simp only [CallHistory.next, hf.requests, hop, hsets, if_true]
        simp only [perform_eq hsets, hop] at hruns ⊢
        rcases setHighestFanSpeedPercentage_cases { s.1 with fanSpeedRequestTable := table }
          op.succeeds with ⟨-, hset⟩ | ⟨-, last, -, hset⟩
        · rw [hset] at hruns ⊢
          obtain ⟨running, hrunning, hhighest⟩ := hruns rfl
          split
          · -- The fan runs at the speed already.
            have hsubmitted : s.1.submitted = some running := hrunning
            rw [hsubmitted, runsAt_some, runsAt_some]
            exact ⟨heq.trans hhighest, heq.trans (heq.symm hhighest)⟩
          · exact hf.runs speed
        · rw [hset]
          cases op.succeeds with
          | true => exact Iff.rfl
          | false => exact hf.runs speed
  · cases op with
    | forceFanOff succeeds =>
      cases succeeds with
      | true => exact ⟨hmirrors, hf.requests, rfl, fun speed => Iff.rfl⟩
      | false => exact ⟨hmirrors, hf.requests, hf.asked, hf.runs⟩
    | _ => exact absurd rfl hsets

end Runs

/-- A control that is new; what the fan was set to before is left open. -/
def newControl (submitted : Option Percentage) : ActiveCoolingControl :=
  ⟨KeyMap.empty, none, submitted⟩

/-- No requests. -/
def noRequests : LiveRequests := fun _ => none

theorem follows_newControl (eq : Percentage → Percentage → Prop) (submitted : Option Percentage) :
    Follows eq (noCalls submitted) (newControl submitted, noRequests) :=
  ⟨⟨fun _ => rfl, KeyMap.allValues_empty⟩, rfl, rfl, fun _ => Iff.rfl⟩

theorem everyStep_leavesHighest_iff {eq : Percentage → Percentage → Prop} (heq : Equivalence eq)
    (submitted : Option Percentage) (ops : List CoolingOp) :
    EveryStep coolingStep (LeavesHighest eq) (newControl submitted, noRequests) ops ↔
      EveryStep CallHistory.step (fun h op => ¬h.AsksAgain eq op) (noCalls submitted) ops :=
  everyStep_iff_history (fun _ _ op hf => hf.leavesHighest_iff heq op)
    (fun _ _ _ hf hleaves => hf.next heq hleaves) (follows_newControl eq submitted) ops

/-- **In which runs the fan runs at the highest request** after every operation that sets it and
returns, whether speeds are equal by `==` or are the same number: those in which no call asks
again for a speed that no successful call has asked for. -/
theorem runsHighest_iff (submitted : Option Percentage) (ops : List CoolingOp) :
    (EveryStep coolingStep (LeavesHighest SameSpeed) (newControl submitted, noRequests) ops ↔
      EveryStep CallHistory.step (fun h op => ¬h.AsksAgain SameSpeed op) (noCalls submitted) ops) ∧
    (EveryStep coolingStep (LeavesHighest Eq) (newControl submitted, noRequests) ops ↔
      EveryStep CallHistory.step (fun h op => ¬h.AsksAgain Eq op) (noCalls submitted) ops) :=
  ⟨everyStep_leavesHighest_iff SameSpeed.equivalence submitted ops,
    everyStep_leavesHighest_iff eq_equivalence submitted ops⟩

/-- A call that succeeds sets what it asks for. -/
theorem CallHistory.runs_next {h : CallHistory} {op : CoolingOp}
    (hok : op.setsHighest = true → op.succeeds = true)
    (hruns : ∀ asked, h.asked = some asked → RunsAt SameSpeed h.runs asked) :
    ∀ asked, (h.next op).asked = some asked → RunsAt SameSpeed (h.next op).runs asked := by
  rw [CallHistory.next]
  cases op.table h.requests with
  | error message => exact hruns
  | ok requests =>
    by_cases hsets : op.setsHighest = true
    · simp only [hsets, if_true, hok hsets]
      intro asked hasked
      refine ⟨_, rfl, ?_⟩
      split at hasked
      · exact (Option.filter_eq_some_iff.1 hasked).2
      · exact Option.some.inj hasked ▸ SameSpeed.equivalence.refl _
    · simp only [hsets, Bool.false_eq_true, if_false]
      split
      · exact fun asked hasked => by cases hasked
      · exact hruns

/-- So it does, as far as `==` can tell, in every run in which only turning the fan off may fail. -/
theorem runsHighest_of_succeeds (submitted : Option Percentage) {ops : List CoolingOp}
    (hok : ∀ op ∈ ops, op.setsHighest = true → op.succeeds = true) :
    EveryStep coolingStep (LeavesHighest SameSpeed) (newControl submitted, noRequests) ops := by
  rw [(runsHighest_iff submitted ops).1]
  have hevery : EveryStep CallHistory.step
      (fun _ op => op.setsHighest = true → op.succeeds = true) (noCalls submitted) ops :=
    everyStep_of_mem (fun op hop _ => hok op hop) _
  refine @everyStep_of_invariant _ _ CallHistory.step _ _ (fun h => ∀ asked, h.asked = some asked →
    RunsAt SameSpeed h.runs asked) ?_ ?_ _ _ hevery fun asked hasked => by cases hasked
  · rintro h op h' hsucceeds hstep hruns
    rw [← Option.some.inj hstep]
    exact CallHistory.runs_next hsucceeds hruns
  · rintro h op hruns ⟨-, requests, -, hsame, hnot⟩
    cases hasked : h.asked with
    | none =>
      rw [hasked] at hsame
      cases hsame
    | some asked =>
      obtain ⟨running, hrunning, hequal⟩ := hruns asked hasked
      rw [hasked] at hsame
      exact hnot ⟨running, hrunning,
        SameSpeed.equivalence.trans hequal (SameSpeed.equivalence.symm hsame)⟩

theorem runsHighest_of_succeeds_twice :
    EveryStep coolingStep (LeavesHighest SameSpeed) (newControl none, noRequests)
      [.requestFanSpeedPercentage 1 (some (fromWholeNumber 50)) (some (0, 100)) true,
        .forceFanOff false, .requestFanSpeedPercentage 2 (some (fromWholeNumber 30)) (some (0, 100))
          true] :=
  runsHighest_of_succeeds none (by simp [CoolingOp.setsHighest, CoolingOp.succeeds])

/-- A request of 50% whose submission fails is not submitted when it is repeated: nothing is, and
the request returns. -/
theorem runsHighest_fails :
    ¬EveryStep coolingStep (LeavesHighest SameSpeed) (newControl none, noRequests)
      [.requestFanSpeedPercentage 1 (some (fromWholeNumber 50)) (some (0, 100)) false,
        .requestFanSpeedPercentage 1 (some (fromWholeNumber 50)) (some (0, 100)) true] := by
  rintro ⟨-, h⟩
  obtain ⟨hrepeated, -⟩ := h _ rfl
  obtain ⟨highest, -, speed, hspeed, -⟩ := hrepeated rfl (by decide +kernel)
  have hsome : _ = true := congrArg Option.isSome hspeed
  exact absurd hsome (by decide +kernel)

end Active

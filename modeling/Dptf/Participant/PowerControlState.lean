import Dptf.Participant.PowerControl

/-!
# The power settings are given back

What the setters, captures and restorations of a power control leave of the settings, and of what
the control remembers.

* `Holds.inStep_restore_iff`, `Holds.restored_iff` — **which restorations are proper**;
  `everyStep_proper_iff` — **a run**, of setters, captures and restorations in any order.
-/

open Lib

namespace Participant

open Mgr (Power TimeSpan Percentage PowerControlType PowerControlDynamicCaps
  PowerControlDynamicCapsSet)

namespace DomainPowerControl

/-! ## What an operation changes -/

section Operations

variable (c : DomainPowerControl) (controlType : PowerControlType)

@[simp] theorem powerLimit_setAndUpdateEnabled :
    (c.setAndUpdateEnabled controlType).platform.powerLimit = c.platform.powerLimit := by
  simp only [setAndUpdateEnabled, updateEnabled, setEnabled, Platform.setEnable]
  split_ifs <;> rfl

@[simp] theorem timeWindow_setAndUpdateEnabled :
    (c.setAndUpdateEnabled controlType).platform.timeWindow = c.platform.timeWindow := by
  simp only [setAndUpdateEnabled, updateEnabled, setEnabled, Platform.setEnable]
  split_ifs <;> rfl

@[simp] theorem dutyCycle_setAndUpdateEnabled :
    (c.setAndUpdateEnabled controlType).platform.dutyCycle = c.platform.dutyCycle := by
  simp only [setAndUpdateEnabled, updateEnabled, setEnabled, Platform.setEnable]
  split_ifs <;> rfl

@[simp] theorem initialState_setAndUpdateEnabled :
    (c.setAndUpdateEnabled controlType).initialState = c.initialState := by
  simp only [setAndUpdateEnabled, updateEnabled, setEnabled]
  split_ifs <;> rfl

/-- Afterwards the limit is remembered to be enabled; only PL4 may not be. -/
theorem enabled_setAndUpdateEnabled {t : PowerControlType} (ht : t ≠ .pl4) :
    (c.setAndUpdateEnabled controlType).enabled t =
      if t = controlType then true else c.enabled t := by
  by_cases hset : c.isEnabled controlType = true
  · have hsame : c.setAndUpdateEnabled controlType = c := if_neg (not_not.2 hset)
    rw [hsame]
    split
    · rename_i heq
      rw [heq]
      exact hset
    · rfl
  · have hupdate : c.setAndUpdateEnabled controlType =
        (c.setEnabled controlType true).updateEnabled controlType := if_pos hset
    rw [hupdate]
    by_cases heq : t = controlType
    · subst heq
      simp [updateEnabled, setEnabled, Platform.setEnable, Platform.isOn, ht]
    · rw [if_neg heq]
      exact Function.update_of_ne heq _ _

/-- What is remembered of PL1 to PL3 is what the platform has. -/
def InStep : Prop := ∀ t, t ≠ .pl4 → c.isEnabled t = c.platform.enabled t

end Operations

/-! ## The setters -/

/-- The value that a setter is called with. -/
inductive PowerSetting
  | powerLimit (powerLimit : Option Power)
  | timeWindow (timeWindow : Option TimeSpan)
  | dutyCycle (dutyCycle : Option Percentage)

/-- The setter for a value. -/
def set (c : DomainPowerControl) (capabilities : Option PowerControlDynamicCapsSet)
    (controlType : PowerControlType) : PowerSetting → DomainPowerControl × Bool
  | .powerLimit powerLimit => c.setPowerLimit capabilities controlType powerLimit
  | .timeWindow timeWindow => c.setPowerLimitTimeWindow capabilities controlType timeWindow
  | .dutyCycle dutyCycle => c.setPowerLimitDutyCycle capabilities controlType dutyCycle

/-- A setter is rejected before it has written anything, or writes, and then enables the limit. -/
theorem set_cases (c : DomainPowerControl) (capabilities : Option PowerControlDynamicCapsSet)
    (controlType : PowerControlType) (setting : PowerSetting) :
    c.set capabilities controlType setting = (c, false) ∨
      ∃ platform : Platform, platform.enabled = c.platform.enabled ∧
        c.set capabilities controlType setting =
          enableOrThrow { c with platform := platform } controlType := by
  cases setting with
  | powerLimit powerLimit =>
    simp only [set, setPowerLimit]
    split
    · exact Or.inl rfl
    · exact Or.inr ⟨c.platform.setPowerLimit controlType (powerLimit.getD invalidPower), rfl, rfl⟩
  | timeWindow timeWindow =>
    simp only [set, setPowerLimitTimeWindow, setPowerLimitTimeWindowIgnoringCaps]
    split
    · exact Or.inl rfl
    · split
      · exact Or.inl rfl
      · cases timeWindow with
        | none => exact Or.inl rfl
        | some timeWindow =>
          exact Or.inr ⟨c.platform.setTimeWindow controlType timeWindow, rfl, rfl⟩
  | dutyCycle dutyCycle =>
    simp only [set, setPowerLimitDutyCycle]
    split
    · exact Or.inl rfl
    · split
      · exact Or.inl rfl
      · cases dutyCycle with
        | none => exact Or.inl rfl
        | some dutyCycle =>
          exact Or.inr ⟨c.platform.setDutyCycle controlType dutyCycle, rfl, rfl⟩

section Setters

variable {c : DomainPowerControl}

theorem InStep.setAndUpdateEnabled (h : c.InStep) (controlType : PowerControlType) :
    (c.setAndUpdateEnabled controlType).InStep := by
  unfold DomainPowerControl.setAndUpdateEnabled
  split
  · intro t ht
    by_cases heq : t = controlType
    · subst heq
      simp [isEnabled, updateEnabled, setEnabled, Platform.setEnable, Platform.isOn, ht]
    · have hflag := h t ht
      simp only [isEnabled, updateEnabled, setEnabled, Platform.setEnable] at hflag ⊢
      rw [Function.update_of_ne heq, hflag]
      split
      · rfl
      · exact (Function.update_of_ne heq _ _).symm
  · exact h

theorem InStep.set (h : c.InStep) (capabilities : Option PowerControlDynamicCapsSet)
    (controlType : PowerControlType) (setting : PowerSetting) :
    (c.set capabilities controlType setting).1.InStep := by
  obtain hreject | ⟨platform, hplatform, hset⟩ := set_cases c capabilities controlType setting
  · rw [hreject]
    exact h
  · rw [hset]
    have hwritten : InStep { c with platform := platform } := by
      intro t ht
      exact (h t ht).trans (congrFun hplatform t).symm
    exact hwritten.setAndUpdateEnabled controlType

/-- **A set that is not rejected enables the limit.** -/
theorem InStep.enabled_of_set (h : c.InStep) {capabilities : Option PowerControlDynamicCapsSet}
    {controlType : PowerControlType} {setting : PowerSetting} (htype : controlType ≠ .pl4)
    (hset : (c.set capabilities controlType setting).2 = true) :
    (c.set capabilities controlType setting).1.platform.enabled controlType = true := by
  rw [← h.set capabilities controlType setting controlType htype]
  obtain hreject | ⟨platform, -, hwrite⟩ := set_cases c capabilities controlType setting
  · rw [hreject] at hset
    cases hset
  · rw [hwrite] at hset ⊢
    exact hset

theorem initialState_set (capabilities : Option PowerControlDynamicCapsSet)
    (controlType : PowerControlType) (setting : PowerSetting) :
    (c.set capabilities controlType setting).1.initialState = c.initialState := by
  obtain hreject | ⟨platform, -, hset⟩ := set_cases c capabilities controlType setting
  · rw [hreject]
  · rw [hset]
    exact initialState_setAndUpdateEnabled _ controlType

end Setters

/-! ## A capture -/

/-- The values of the limits that are enabled. -/
def settingsOf (platform : Platform) : PowerControlState where
  enabled t := some (platform.isOn t)
  limit t := if platform.isOn t then some (platform.powerLimit t) else none
  pl1TimeWindow := if platform.isOn .pl1 then some (platform.timeWindow .pl1) else none
  pl3TimeWindow := if platform.isOn .pl3 then some (platform.timeWindow .pl3) else none
  pl3DutyCycle := if platform.isOn .pl3 then some (platform.dutyCycle .pl3) else none

section Capture

variable (c : DomainPowerControl)

@[simp] theorem platform_captureEnables : c.captureEnables.platform = c.platform := rfl

@[simp] theorem enabled_captureEnables : c.captureEnables.enabled = c.platform.isOn := by
  funext t
  cases t <;> simp [captureEnables, captureEnable, updateEnabled]

@[simp] theorem capturedEnabled_captureEnables :
    c.captureEnables.initialState.enabled = fun t => some (c.platform.isOn t) := by
  funext t
  cases t <;>
    simp [captureEnables, captureEnable, updateEnabled, isEnabled]

@[simp] theorem platform_capture : c.capture.platform = c.platform := rfl

/-- **What is captured** are the values of the limits that are enabled. -/
theorem initialState_capture : c.capture.initialState = settingsOf c.platform := by
  have hlimit : c.captureEnables.getPowerLimit =
      fun t => if c.platform.isOn t then some (c.platform.powerLimit t) else none := by
    funext t
    simp [getPowerLimit, isEnabled]
  simp [capture, settingsOf, hlimit, getPowerLimitTimeWindow, getPowerLimitDutyCycle, isEnabled,
    hasTimeWindow, hasDutyCycle]

theorem inStep_capture : c.capture.InStep := by
  intro t ht
  show c.captureEnables.enabled t = c.platform.enabled t
  rw [enabled_captureEnables, Platform.isOn, if_neg (fun h => ht h.1)]

end Capture

/-! ## A restoration -/

section Restoration

variable (c : DomainPowerControl) (controlType : PowerControlType)
variable {t : PowerControlType}

/-! ### One value -/

@[simp] theorem powerLimit_restoreLimit : (c.restoreLimit controlType).platform.powerLimit =
      Function.update c.platform.powerLimit controlType
        ((c.initialState.limit controlType).getD (c.platform.powerLimit controlType)) := by
  unfold restoreLimit
  split
  · rename_i limit hlimit
    simp [setPowerLimitIgnoringCaps, enableOrThrow, Platform.setPowerLimit, hlimit]
  · rename_i hlimit
    simp [hlimit]

@[simp] theorem timeWindow_restoreLimit :
    (c.restoreLimit controlType).platform.timeWindow = c.platform.timeWindow := by
  unfold restoreLimit
  split <;> simp [setPowerLimitIgnoringCaps, enableOrThrow, Platform.setPowerLimit]

@[simp] theorem dutyCycle_restoreLimit :
    (c.restoreLimit controlType).platform.dutyCycle = c.platform.dutyCycle := by
  unfold restoreLimit
  split <;> simp [setPowerLimitIgnoringCaps, enableOrThrow, Platform.setPowerLimit]

@[simp] theorem initialState_restoreLimit :
    (c.restoreLimit controlType).initialState = c.initialState := by
  unfold restoreLimit
  split <;> simp [setPowerLimitIgnoringCaps, enableOrThrow]

theorem enabled_restoreLimit (ht : t ≠ .pl4) : (c.restoreLimit controlType).enabled t =
      if t = controlType ∧ (c.initialState.limit controlType).isSome then true
      else c.enabled t := by
  unfold restoreLimit
  split
  · rename_i limit hlimit
    simp [setPowerLimitIgnoringCaps, enableOrThrow, enabled_setAndUpdateEnabled _ _ ht, hlimit]
  · rename_i hlimit
    simp [hlimit]

variable (timeWindow : Option TimeSpan) (capabilities : Option PowerControlDynamicCapsSet)
  (dutyCycle : Option Percentage)

@[simp] theorem powerLimit_restoreTimeWindow :
    (c.restoreTimeWindow controlType timeWindow).platform.powerLimit = c.platform.powerLimit := by
  cases timeWindow with
  | none => rfl
  | some timeWindow =>
    simp only [restoreTimeWindow, setPowerLimitTimeWindowIgnoringCaps]
    split <;> simp [enableOrThrow, Platform.setTimeWindow]

@[simp] theorem timeWindow_restoreTimeWindow (htype : hasTimeWindow controlType = true) :
    (c.restoreTimeWindow controlType timeWindow).platform.timeWindow =
      Function.update c.platform.timeWindow controlType
        (timeWindow.getD (c.platform.timeWindow controlType)) := by
  cases timeWindow with
  | none => simp [restoreTimeWindow]
  | some timeWindow =>
    simp [restoreTimeWindow, setPowerLimitTimeWindowIgnoringCaps, htype, enableOrThrow,
      Platform.setTimeWindow]

@[simp] theorem dutyCycle_restoreTimeWindow :
    (c.restoreTimeWindow controlType timeWindow).platform.dutyCycle = c.platform.dutyCycle := by
  cases timeWindow with
  | none => rfl
  | some timeWindow =>
    simp only [restoreTimeWindow, setPowerLimitTimeWindowIgnoringCaps]
    split <;> simp [enableOrThrow, Platform.setTimeWindow]

@[simp] theorem initialState_restoreTimeWindow :
    (c.restoreTimeWindow controlType timeWindow).initialState = c.initialState := by
  cases timeWindow with
  | none => rfl
  | some timeWindow =>
    simp only [restoreTimeWindow, setPowerLimitTimeWindowIgnoringCaps]
    split <;> simp [enableOrThrow]

theorem enabled_restoreTimeWindow (htype : hasTimeWindow controlType = true) (ht : t ≠ .pl4) :
    (c.restoreTimeWindow controlType timeWindow).enabled t =
      if t = controlType ∧ timeWindow.isSome then true else c.enabled t := by
  cases timeWindow with
  | none => simp [restoreTimeWindow]
  | some timeWindow =>
    simp [restoreTimeWindow, setPowerLimitTimeWindowIgnoringCaps, htype, enableOrThrow,
      enabled_setAndUpdateEnabled _ _ ht]

@[simp] theorem powerLimit_restoreDutyCycle :
    (c.restoreDutyCycle capabilities controlType dutyCycle).platform.powerLimit =
      c.platform.powerLimit := by
  cases dutyCycle with
  | none => rfl
  | some dutyCycle =>
    simp only [restoreDutyCycle, setPowerLimitDutyCycle]
    split_ifs <;> simp [enableOrThrow, Platform.setDutyCycle]

@[simp] theorem timeWindow_restoreDutyCycle :
    (c.restoreDutyCycle capabilities controlType dutyCycle).platform.timeWindow =
      c.platform.timeWindow := by
  cases dutyCycle with
  | none => rfl
  | some dutyCycle =>
    simp only [restoreDutyCycle, setPowerLimitDutyCycle]
    split_ifs <;> simp [enableOrThrow, Platform.setDutyCycle]

/-- The duty cycle is restored if the capability set of the moment admits it. -/
theorem dutyCycle_restoreDutyCycle {dutyCycle : Percentage} :
    (c.restoreDutyCycle capabilities .pl3 (some dutyCycle)).platform.dutyCycle .pl3 =
      if admitsDutyCycle capabilities .pl3 (some dutyCycle) then dutyCycle
      else c.platform.dutyCycle .pl3 := by
  simp only [restoreDutyCycle, setPowerLimitDutyCycle]
  split_ifs <;> simp_all [enableOrThrow, Platform.setDutyCycle, hasDutyCycle]

@[simp] theorem initialState_restoreDutyCycle :
    (c.restoreDutyCycle capabilities controlType dutyCycle).initialState = c.initialState := by
  cases dutyCycle with
  | none => rfl
  | some dutyCycle =>
    simp only [restoreDutyCycle, setPowerLimitDutyCycle]
    split_ifs <;> simp [enableOrThrow]

theorem enabled_restoreDutyCycle (ht : t ≠ .pl4) :
    (c.restoreDutyCycle capabilities .pl3 dutyCycle).enabled t =
      if t = .pl3 ∧ dutyCycle.isSome ∧ admitsDutyCycle capabilities .pl3 dutyCycle then true
      else c.enabled t := by
  cases dutyCycle with
  | none => simp [restoreDutyCycle]
  | some dutyCycle =>
    simp only [restoreDutyCycle, setPowerLimitDutyCycle]
    split_ifs <;> simp_all [enableOrThrow, hasDutyCycle, enabled_setAndUpdateEnabled]

/-! ### The enable bits -/

@[simp] theorem enabled_restoreEnable : (c.restoreEnable controlType).enabled = c.enabled := by
  unfold restoreEnable
  split <;> rfl

@[simp] theorem initialState_restoreEnable :
    (c.restoreEnable controlType).initialState = c.initialState := by
  unfold restoreEnable
  split <;> rfl

/-- Only an enable bit is written. -/
theorem platform_restoreEnable :
    ∃ enabled, (c.restoreEnable controlType).platform = { c.platform with enabled := enabled } := by
  unfold restoreEnable setEnabled Platform.setEnable
  split
  · simp only
    split
    · exact ⟨c.platform.enabled, rfl⟩
    · exact ⟨_, rfl⟩
  · exact ⟨c.platform.enabled, rfl⟩

theorem platformEnabled_restoreEnable (htype : controlType ≠ .pl4) :
    (c.restoreEnable controlType).platform.enabled t =
      if t = controlType then (c.initialState.enabled t).getD (c.platform.enabled t)
      else c.platform.enabled t := by
  unfold restoreEnable setEnabled Platform.setEnable
  split
  · rename_i enabled henabled
    rw [if_neg htype]
    by_cases heq : t = controlType
    · subst heq
      simp [henabled]
    · simp [heq]
  · rename_i henabled
    split
    · rename_i heq
      rw [heq, henabled, Option.getD_none]
    · rfl

@[simp] theorem enabled_restoreEnables : c.restoreEnables.enabled = c.enabled := by
  simp [restoreEnables]

theorem platform_restoreEnables :
    ∃ enabled, c.restoreEnables.platform = { c.platform with enabled := enabled } := by
  obtain ⟨enabled₁, h₁⟩ := platform_restoreEnable c .pl1
  obtain ⟨enabled₂, h₂⟩ := platform_restoreEnable (c.restoreEnable .pl1) .pl2
  obtain ⟨enabled₃, h₃⟩ := platform_restoreEnable ((c.restoreEnable .pl1).restoreEnable .pl2) .pl3
  refine ⟨enabled₃, h₃.trans ?_⟩
  rw [h₂, h₁]

@[simp] theorem powerLimit_restoreEnables :
    c.restoreEnables.platform.powerLimit = c.platform.powerLimit := by
  obtain ⟨enabled, hplatform⟩ := platform_restoreEnables c
  rw [hplatform]

@[simp] theorem timeWindow_restoreEnables :
    c.restoreEnables.platform.timeWindow = c.platform.timeWindow := by
  obtain ⟨enabled, hplatform⟩ := platform_restoreEnables c
  rw [hplatform]

@[simp] theorem dutyCycle_restoreEnables :
    c.restoreEnables.platform.dutyCycle = c.platform.dutyCycle := by
  obtain ⟨enabled, hplatform⟩ := platform_restoreEnables c
  rw [hplatform]

@[simp] theorem initialState_restoreEnables : c.restoreEnables.initialState = c.initialState := by
  simp [restoreEnables]

theorem platformEnabled_restoreEnables (ht : t ≠ .pl4) :
    c.restoreEnables.platform.enabled t =
      (c.initialState.enabled t).getD (c.platform.enabled t) := by
  cases t with
  | pl4 => exact absurd rfl ht
  | pl1 | pl2 | pl3 => simp [restoreEnables, platformEnabled_restoreEnable]

end Restoration

/-! ### What comes back -/

section Restored

variable {c : DomainPowerControl} {captured : Platform}
  {capabilities : Option PowerControlDynamicCapsSet}
variable {t : PowerControlType}

theorem initialState_restore : (c.restore capabilities).initialState = c.initialState := by
  simp [restore]

/-- **The enable bits** come back. -/
theorem platformEnabled_restore (h : c.initialState = settingsOf captured) (ht : t ≠ .pl4) :
    (c.restore capabilities).platform.enabled t = captured.enabled t := by
  simp only [restore]
  rw [platformEnabled_restoreEnables _ ht]
  simp [h, settingsOf, Platform.isOn, ht]

/-- **The power limits** that were enabled come back, -/
theorem powerLimit_restore (h : c.initialState = settingsOf captured) (t : PowerControlType) :
    (c.restore capabilities).platform.powerLimit t =
      if captured.isOn t then captured.powerLimit t else c.platform.powerLimit t := by
  cases t <;> simp [restore, h, settingsOf] <;> split <;> rfl

/-- the time windows -/
theorem timeWindow_restore (h : c.initialState = settingsOf captured) (ht : hasTimeWindow t = true)
    : (c.restore capabilities).platform.timeWindow t =
      if captured.isOn t then captured.timeWindow t else c.platform.timeWindow t := by
  have hpl1 : hasTimeWindow .pl1 = true := rfl
  have hpl3 : hasTimeWindow .pl3 = true := rfl
  cases t with
  | pl2 | pl4 => cases ht
  | pl1 | pl3 =>
    simp [restore, h, settingsOf, hpl1, hpl3]
    split <;> rfl

/-- and the duty cycle, if the capability set of the moment admits it. -/
theorem dutyCycle_restore (h : c.initialState = settingsOf captured) :
    (c.restore capabilities).platform.dutyCycle .pl3 =
      if captured.enabled .pl3 ∧ admitsDutyCycle capabilities .pl3 (some (captured.dutyCycle .pl3))
      then captured.dutyCycle .pl3 else c.platform.dutyCycle .pl3 := by
  have hon : captured.isOn .pl3 = captured.enabled .pl3 := rfl
  cases henabled : captured.enabled .pl3 with
  | false => simp [restore, h, settingsOf, hon, henabled, restoreDutyCycle]
  | true => simp [restore, h, settingsOf, hon, henabled, dutyCycle_restoreDutyCycle]

/-- Afterwards a limit is remembered to be enabled if it was at the capture, or was before. -/
theorem enabled_restore (h : c.initialState = settingsOf captured) (ht : t ≠ .pl4) :
    (c.restore capabilities).enabled t = (captured.enabled t || c.enabled t) := by
  have hpl1 : hasTimeWindow .pl1 = true := rfl
  have hpl3 : hasTimeWindow .pl3 = true := rfl
  have hon : captured.isOn t = captured.enabled t := if_neg fun hpl4 => ht hpl4.1
  simp only [restore, enabled_restoreEnables, enabled_restoreDutyCycle _ _ _ ht,
    enabled_restoreTimeWindow _ _ _ hpl3 ht, enabled_restoreTimeWindow _ _ _ hpl1 ht,
    List.foldl_cons, List.foldl_nil, enabled_restoreLimit _ _ ht]
  cases henabled : captured.enabled t with
  | false | true =>
    rw [henabled] at hon
    cases t <;> simp_all [settingsOf]

end Restored

end DomainPowerControl

open DomainPowerControl

/-! ## A run -/

/-- The control, and the platform as it was when the control last captured it. -/
structure PowerRun where
  control : DomainPowerControl
  captured : Platform

/-- A call, with what `getPowerControlDynamicCapsSet` comes to in it. -/
inductive PowerCall
  | capture
  | restore (capabilities : Option PowerControlDynamicCapsSet)
  | set (capabilities : Option PowerControlDynamicCapsSet) (controlType : PowerControlType)
      (setting : PowerSetting)

namespace PowerRun

/-- A control is built. -/
def create (platform : Platform) : PowerRun := ⟨DomainPowerControl.create platform, platform⟩

/-- A call. -/
def next (r : PowerRun) : PowerCall → PowerRun
  | .capture => ⟨r.control.capture, r.control.platform⟩
  | .restore capabilities => { r with control := r.control.restore capabilities }
  | .set capabilities controlType setting =>
    { r with control := (r.control.set capabilities controlType setting).1 }

/-- The settings were given back. -/
structure Restored (captured platform : Platform) : Prop where
  enabled : ∀ t, t ≠ .pl4 → platform.enabled t = captured.enabled t
  powerLimit : ∀ t, captured.isOn t = true → platform.powerLimit t = captured.powerLimit t
  timeWindow : ∀ t, hasTimeWindow t = true → captured.isOn t = true →
    platform.timeWindow t = captured.timeWindow t
  dutyCycle : captured.isOn .pl3 = true → platform.dutyCycle .pl3 = captured.dutyCycle .pl3

/-- What a call brings about: a restoration gives back the settings, a set that is not rejected
enables the limit, and what is remembered is in step with the platform. -/
def Proper (r : PowerRun) (call : PowerCall) : Prop :=
  (r.next call).control.InStep ∧
    match call with
    | .capture => True
    | .restore _ => Restored r.captured (r.next call).control.platform
    | .set capabilities controlType setting =>
      (r.control.set capabilities controlType setting).2 = true → controlType ≠ .pl4 →
        (r.next call).control.platform.enabled controlType = true

/-- No limit is enabled that was not at the capture, and the captured duty cycle of an enabled PL3
is admitted, or still there. -/
def Restorable (r : PowerRun) (call : PowerCall) : Prop :=
  match call with
  | .restore capabilities =>
    (∀ t, t ≠ .pl4 → r.captured.enabled t = false → r.control.platform.enabled t = false) ∧
      (r.captured.enabled .pl3 = true →
        admitsDutyCycle capabilities .pl3 (some (r.captured.dutyCycle .pl3)) = true ∨
          r.control.platform.dutyCycle .pl3 = r.captured.dutyCycle .pl3)
  | _ => True

/-- The control has captured the platform, and is in step with it. -/
structure Holds (r : PowerRun) : Prop where
  initialState : r.control.initialState = settingsOf r.captured
  inStep : r.control.InStep

theorem holds_create (platform : Platform) : Holds (create platform) :=
  ⟨initialState_capture _, inStep_capture _⟩

section Steps

variable {r : PowerRun}

/-- What is remembered stays in step just if no limit is turned off that was turned on since the
capture: the flags are not read again after the enable bits are restored. -/
theorem Holds.inStep_restore_iff (h : r.Holds) (capabilities : Option PowerControlDynamicCapsSet) :
    (r.control.restore capabilities).InStep ↔
      ∀ t, t ≠ .pl4 → r.captured.enabled t = false → r.control.platform.enabled t = false := by
  refine forall₂_congr fun t ht => ?_
  rw [isEnabled, enabled_restore h.initialState ht, platformEnabled_restore h.initialState ht,
    ← h.inStep t ht, isEnabled]
  cases r.captured.enabled t <;> simp

/-- The settings are given back just if the duty cycle is. -/
theorem Holds.restored_iff (h : r.Holds) (capabilities : Option PowerControlDynamicCapsSet) :
    Restored r.captured (r.control.restore capabilities).platform ↔
      (r.captured.enabled .pl3 = true →
        admitsDutyCycle capabilities .pl3 (some (r.captured.dutyCycle .pl3)) = true ∨
          r.control.platform.dutyCycle .pl3 = r.captured.dutyCycle .pl3) := by
  have hdutyCycle : (r.control.restore capabilities).platform.dutyCycle .pl3 = _ :=
    dutyCycle_restore h.initialState
  constructor
  · intro hrestored hon
    have hback := hrestored.dutyCycle hon
    rw [hdutyCycle] at hback
    by_cases hadmits : admitsDutyCycle capabilities .pl3 (some (r.captured.dutyCycle .pl3)) = true
    · exact Or.inl hadmits
    · rw [if_neg fun hboth => hadmits hboth.2] at hback
      exact Or.inr hback
  · intro hcycle
    constructor
    · exact fun t ht => platformEnabled_restore h.initialState ht
    · intro t hon
      rw [powerLimit_restore h.initialState, if_pos hon]
    · intro t ht hon
      rw [timeWindow_restore h.initialState ht, if_pos hon]
    · intro hon
      rw [hdutyCycle]
      split
      · rfl
      · rename_i hnot
        exact (hcycle hon).resolve_left fun hadmits => hnot ⟨hon, hadmits⟩

/-- One call keeps what a run relies on. -/
theorem Holds.next (h : r.Holds) {call : PowerCall} (hcall : r.Restorable call) :
    (r.next call).Holds := by
  cases call with
  | capture => exact ⟨initialState_capture _, inStep_capture _⟩
  | restore capabilities =>
    exact ⟨initialState_restore.trans h.initialState, (h.inStep_restore_iff capabilities).2 hcall.1⟩
  | set capabilities controlType setting =>
    exact ⟨(initialState_set capabilities controlType setting).trans h.initialState,
      h.inStep.set capabilities controlType setting⟩

/-- **A call is proper just if** it is no restoration that loses something. -/
theorem Holds.proper_iff (h : r.Holds) (call : PowerCall) : r.Proper call ↔ r.Restorable call := by
  cases call with
  | capture => exact iff_of_true ⟨inStep_capture _, trivial⟩ trivial
  | restore capabilities =>
    exact and_congr (h.inStep_restore_iff capabilities) (h.restored_iff capabilities)
  | set capabilities controlType setting =>
    exact iff_of_true ⟨h.inStep.set capabilities controlType setting,
      fun hset htype => h.inStep.enabled_of_set htype hset⟩ trivial

end Steps

/-- **A run** gives back the settings at each restoration, and keeps what is remembered in step
with the platform, just if no restoration comes when a limit is enabled that was not at the
capture, or when the captured duty cycle is neither admitted nor still there. -/
theorem everyStep_proper_iff (platform : Platform) (calls : List PowerCall) :
    ((create platform).control.InStep ∧
      EveryStep (fun r call => some (next r call)) Proper (create platform) calls) ↔
      EveryStep (fun r call => some (next r call)) Restorable (create platform) calls := by
  rw [and_iff_right (holds_create platform).inStep]
  refine @everyStep_congr_of_ok _ _ _ _ _ Holds ?_ (fun r call h => h.proper_iff call) _
    (holds_create platform) calls
  intro r call r' hcall hnext h
  obtain rfl := Option.some.inj hnext
  exact h.next hcall

/-! ### A limit that was disabled at the capture -/

/-- 15 W. -/
def fifteenWatts : Power := ⟨15000, Power.valid_fifteen⟩

/-- PL1 is enabled, the others are not. -/
def onlyPL1 : Platform where
  enabled t := decide (t = .pl1)
  powerLimit _ := fifteenWatts
  timeWindow _ := (28000000 : Int)
  dutyCycle _ := (0 : ℚ)
  answersForPL4 := true

/-- Any valid power up to 15 W may be set. -/
def upToFifteenWatts : PowerControlDynamicCaps where
  minPowerLimit := some invalidPower
  maxPowerLimit := some fifteenWatts
  powerStepSize := none
  minTimeWindow := none
  maxTimeWindow := none
  minDutyCycle := some (0 : ℚ)
  maxDutyCycle := some (0 : ℚ)

/-- For PL1 and PL2. -/
def smallCaps : PowerControlDynamicCapsSet :=
  (KeyMap.empty.assign .pl1 upToFifteenWatts).assign .pl2 upToFifteenWatts

/-- PL3 is enabled too, with a duty cycle of 100 %. -/
def fullCycle : Platform :=
  { onlyPL1 with
    enabled := fun t => decide (t = .pl1 ∨ t = .pl3)
    dutyCycle := fun _ => wholeCycle }

/-- PL3's duty cycle, between two bounds. -/
def pl3Caps (minDutyCycle maxDutyCycle : Percentage) : PowerControlDynamicCapsSet :=
  KeyMap.empty.assign .pl3
    { upToFifteenWatts with minDutyCycle := some minDutyCycle, maxDutyCycle := some maxDutyCycle }

/-- PL2 is set, and with that enabled; after the restoration it is remembered to be.  The duty
cycle of PL3 is set and, with bounds that have come to be out of order, not given back. -/
theorem restore_not_proper :
    (¬ ∀ (platform : Platform) (calls : List PowerCall),
      (create platform).control.InStep ∧
        EveryStep (fun r call => some (next r call)) Proper (create platform) calls) ∧
    ¬ Restored fullCycle
      (((create fullCycle).next
        (.set (some (pl3Caps (0 : ℚ) (1 : ℚ))) .pl3 (.dutyCycle (some (0 : ℚ))))).next
          (.restore (some (pl3Caps (1 : ℚ) (0 : ℚ))))).control.platform := by
  constructor
  · intro h
    have hrun := (h onlyPL1 [.set (some smallCaps) .pl2 (.powerLimit (some fifteenWatts)),
      .restore (some smallCaps)]).2
    have hrestore := (hrun.2 _ rfl).1.1 .pl2 (by decide)
    revert hrestore
    decide
  · intro h
    have hcycle := h.dutyCycle (by decide)
    revert hcycle
    decide

end PowerRun

end Participant

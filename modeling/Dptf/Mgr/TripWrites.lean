import Dptf.Mgr.TemperatureThresholds

/-!
# The trips in the hardware

`DomainTemperatureBase::setTemperatureThresholds` writes two trips one after the other, in an order
it chooses from the pair of the last call that succeeded.  Each write may fail, and the second one
is made all the same.

* `inOrder_iff` — **which calls leave the trips in order**; `everyStep_inOrder_iff` — a run.
-/

open Lib

namespace Mgr

/-! ## The writes -/

/-- The trips the hardware holds. -/
structure TripHardware where
  aux0 : Temperature
  aux1 : Temperature
deriving DecidableEq

namespace TripHardware

/-- `setAux0`, and whether it succeeds.  An invalid temperature is not written. -/
def setAux0 (hardware : TripHardware) (aux0 : Option Temperature) (succeeds : Bool) :
    TripHardware × Bool :=
  match aux0, succeeds with
  | some aux0, true => ({ hardware with aux0 := aux0 }, true)
  | _, _ => (hardware, false)

/-- `setAux1`. -/
def setAux1 (hardware : TripHardware) (aux1 : Option Temperature) (succeeds : Bool) :
    TripHardware × Bool :=
  match aux1, succeeds with
  | some aux1, true => ({ hardware with aux1 := aux1 }, true)
  | _, _ => (hardware, false)

/-- The trips are not inverted. -/
def InOrder (hardware : TripHardware) : Prop := hardware.aux0 ≤ hardware.aux1

instance (hardware : TripHardware) : Decidable hardware.InOrder :=
  inferInstanceAs (Decidable (hardware.aux0 ≤ hardware.aux1))

/-- `setTemperatureThresholds`: the hardware after each write, and whether there is no
exception. -/
def writeThresholds (areTemperatureThresholdsSupported : Bool) (hardware : TripHardware)
    (temperatureThresholds lastSetTemperatureThresholds : TemperatureThresholds)
    (succeedsAux0 succeedsAux1 : Bool) : List TripHardware × Bool :=
  if ¬ areTemperatureThresholdsSupported then ([], false)
  else
    match DomainTemperature.writesAux0First temperatureThresholds
      lastSetTemperatureThresholds with
    | none => ([], false)
    | some true =>
      let (hardware, isAux0Successful) := hardware.setAux0 temperatureThresholds.aux0 succeedsAux0
      let (hardware', isAux1Successful) := hardware.setAux1 temperatureThresholds.aux1 succeedsAux1
      ([hardware, hardware'], isAux0Successful && isAux1Successful)
    | some false =>
      let (hardware, isAux1Successful) := hardware.setAux1 temperatureThresholds.aux1 succeedsAux1
      let (hardware', isAux0Successful) := hardware.setAux0 temperatureThresholds.aux0 succeedsAux0
      ([hardware, hardware'], isAux0Successful && isAux1Successful)

end TripHardware

open TripHardware

/-- The call succeeds just if the control's does. -/
theorem snd_writeThresholds (d : DomainTemperature) (hversion : d.version ≠ .v000)
    (primitives : TemperaturePrimitives) (hardware : TripHardware)
    {thresholds : TemperatureThresholds} (h0 : thresholds.aux0.isSome)
    (h1 : thresholds.aux1.isSome) (lastSet : TemperatureThresholds) :
    (writeThresholds d.areTemperatureThresholdsSupported hardware thresholds lastSet
      primitives.setAux0 primitives.setAux1).2 =
        d.setTemperatureThresholds primitives thresholds lastSet := by
  obtain ⟨aux0, haux0⟩ := Option.isSome_iff_exists.1 h0
  obtain ⟨aux1, haux1⟩ := Option.isSome_iff_exists.1 h1
  have hcontrol : d.setTemperatureThresholds primitives thresholds lastSet =
      (d.areTemperatureThresholdsSupported &&
        (DomainTemperature.writesAux0First thresholds lastSet).isSome &&
          primitives.setAux0 && primitives.setAux1) := by
    unfold DomainTemperature.setTemperatureThresholds
    split
    · exact absurd ‹_› hversion
    · rfl
  rw [hcontrol, writeThresholds]
  cases d.areTemperatureThresholdsSupported with
  | false => rfl
  | true =>
    cases DomainTemperature.writesAux0First thresholds lastSet with
    | none => rfl
    | some first =>
      cases first <;> cases primitives.setAux0 <;> cases primitives.setAux1 <;>
        simp [setAux0, setAux1, haux0, haux1]

/-! ## A run of calls -/

/-- A call with a pair that is in order, and which of its writes succeed. -/
structure TripRequest where
  aux0 : Temperature
  aux1 : Temperature
  le : aux0 ≤ aux1
  succeedsAux0 : Bool
  succeedsAux1 : Bool

/-- The pair that is asked for. -/
def TripRequest.thresholds (c : TripRequest) : TemperatureThresholds :=
  ⟨some c.aux0, some c.aux1, none⟩

/-- The hardware, and the pair of the last call without an exception. -/
structure TripState where
  hardware : TripHardware
  lastSet : TemperatureThresholds

namespace TripState

variable {s : TripState} {c : TripRequest}

/-- The hardware after each write of a call. -/
def writes (supported : Bool) (s : TripState) (c : TripRequest) : List TripHardware :=
  (s.hardware.writeThresholds supported c.thresholds s.lastSet c.succeedsAux0 c.succeedsAux1).1

/-- A call. -/
def next (supported : Bool) (s : TripState) (c : TripRequest) : TripState where
  hardware := (s.writes supported c).getLastD s.hardware
  lastSet :=
    if (s.hardware.writeThresholds supported c.thresholds s.lastSet c.succeedsAux0
      c.succeedsAux1).2 then c.thresholds
    else s.lastSet

/-- The pair of the last call is valid, or there was none. -/
def LastValid (s : TripState) : Prop :=
  (s.lastSet.aux0 = none ∧ s.lastSet.aux1 = none) ∨
    ∃ aux0 aux1, s.lastSet.aux0 = some aux0 ∧ s.lastSet.aux1 = some aux1

/-- Aux0 is written before aux1. -/
def Aux0First (s : TripState) (c : TripRequest) : Prop :=
  DomainTemperature.writesAux0First c.thresholds s.lastSet = some true

/-- **No write crosses the other trip**: neither the only one of its call that succeeds, nor the
first of two. -/
structure NoCrossing (s : TripState) (c : TripRequest) : Prop where
  aux0 : c.succeedsAux0 = true → c.succeedsAux1 = false ∨ s.Aux0First c →
    c.aux0 ≤ s.hardware.aux1
  aux1 : c.succeedsAux1 = true → c.succeedsAux0 = false ∨ ¬s.Aux0First c →
    s.hardware.aux0 ≤ c.aux1

/-- The order of the writes is chosen, and not an exception. -/
theorem LastValid.aux0First_or (h : s.LastValid) (c : TripRequest) :
    s.Aux0First c ∨ DomainTemperature.writesAux0First c.thresholds s.lastSet = some false := by
  unfold Aux0First DomainTemperature.writesAux0First
  rcases h with ⟨h0, h1⟩ | ⟨aux0, aux1, h0, h1⟩
  · rw [if_pos ⟨h0, h1⟩]
    exact Or.inl rfl
  · rw [if_neg (by simp [h0]), h0, h1]
    simp only [TripRequest.thresholds, DomainTemperature.lessThan, Option.bind_some]
    split
    · exact Or.inl rfl
    · cases decide (c.aux1 < aux1) <;> simp

/-- What a trip holds after its write. -/
def written (succeeds : Bool) (aux hardwareAux : Temperature) : Temperature :=
  if succeeds then aux else hardwareAux

theorem writes_aux0First (hfirst : s.Aux0First c) :
    s.writes true c = [⟨written c.succeedsAux0 c.aux0 s.hardware.aux0, s.hardware.aux1⟩,
        ⟨written c.succeedsAux0 c.aux0 s.hardware.aux0,
          written c.succeedsAux1 c.aux1 s.hardware.aux1⟩] := by
  have hfirst : DomainTemperature.writesAux0First c.thresholds s.lastSet = some true := hfirst
  rw [writes, writeThresholds, hfirst]
  cases c.succeedsAux0 <;> cases c.succeedsAux1 <;> rfl

theorem writes_aux1First
    (hfirst : DomainTemperature.writesAux0First c.thresholds s.lastSet = some false) :
    s.writes true c = [⟨s.hardware.aux0, written c.succeedsAux1 c.aux1 s.hardware.aux1⟩,
        ⟨written c.succeedsAux0 c.aux0 s.hardware.aux0,
          written c.succeedsAux1 c.aux1 s.hardware.aux1⟩] := by
  rw [writes, writeThresholds, hfirst]
  cases c.succeedsAux0 <;> cases c.succeedsAux1 <;> rfl

theorem noCrossing_iff (s : TripState) (c : TripRequest) :
    s.NoCrossing c ↔ (c.succeedsAux0 = true → c.succeedsAux1 = false ∨ s.Aux0First c →
        c.aux0 ≤ s.hardware.aux1) ∧
      (c.succeedsAux1 = true → c.succeedsAux0 = false ∨ ¬s.Aux0First c →
        s.hardware.aux0 ≤ c.aux1) :=
  ⟨fun h => ⟨h.aux0, h.aux1⟩, fun h => ⟨h.1, h.2⟩⟩

/-- **A call leaves the trips in order** just if no write crosses the other trip. -/
theorem inOrder_iff (hlast : s.LastValid) (horder : s.hardware.InOrder) (c : TripRequest) :
    (∀ hardware ∈ s.writes true c, hardware.InOrder) ↔ s.NoCrossing c := by
  have hpair := c.le
  have hhardware : s.hardware.aux0 ≤ s.hardware.aux1 := horder
  rw [noCrossing_iff]
  rcases hlast.aux0First_or c with hfirst | hsecond
  · rw [writes_aux0First hfirst]
    cases h0 : c.succeedsAux0 <;> cases h1 : c.succeedsAux1 <;>
      simp [written, InOrder, hfirst, hpair, hhardware]
  · have hnot : ¬s.Aux0First c := by
      intro hfirst
      rw [Aux0First, hsecond] at hfirst
      cases hfirst
    rw [writes_aux1First hsecond]
    cases h0 : c.succeedsAux0 <;> cases h1 : c.succeedsAux1 <;>
      simp [written, InOrder, hnot, hpair, hhardware]

theorem writes_unsupported (s : TripState) (c : TripRequest) : s.writes false c = [] := rfl

/-- The last pair stays valid. -/
theorem LastValid.next (h : s.LastValid) (supported : Bool) (c : TripRequest) :
    (s.next supported c).LastValid := by
  unfold LastValid TripState.next
  dsimp only
  split
  · exact Or.inr ⟨c.aux0, c.aux1, rfl, rfl⟩
  · exact h

/-- What the hardware holds after a call, it held after a write, or before. -/
theorem hardware_next (supported : Bool) (s : TripState) (c : TripRequest) :
    (s.next supported c).hardware = s.hardware ∨
      (s.next supported c).hardware ∈ s.writes supported c := by
  unfold TripState.next
  dsimp only
  cases hwrites : s.writes supported c with
  | nil => exact Or.inl rfl
  | cons hardware rest =>
    right
    rw [List.getLastD_cons, ← List.getLast_eq_getLastD (List.cons_ne_nil _ _)]
    exact List.getLast_mem _

/-- **The trips are in order after every write** of a run just if no write of it crosses the other
trip. -/
theorem everyStep_inOrder_iff (supported : Bool) {s : TripState} (hlast : s.LastValid)
    (horder : s.hardware.InOrder) (calls : List TripRequest) :
    EveryStep (fun s c => some (next supported s c))
        (fun s c => ∀ hardware ∈ s.writes supported c, hardware.InOrder) s calls ↔
      EveryStep (fun s c => some (next supported s c))
        (fun s c => supported = true → s.NoCrossing c) s calls := by
  have hiff : ∀ (s : TripState) (c : TripRequest), s.LastValid ∧ s.hardware.InOrder →
      ((∀ hardware ∈ s.writes supported c, hardware.InOrder) ↔
        (supported = true → s.NoCrossing c)) := by
    rintro s c ⟨hlast, horder⟩
    cases supported with
    | false => simp [writes_unsupported]
    | true => simpa using inOrder_iff hlast horder c
  refine everyStep_congr_of_ok ?_ hiff ⟨hlast, horder⟩ calls
  rintro s c s' hcall hst ⟨hlast, horder⟩
  obtain rfl := Option.some.inj hst
  refine ⟨hlast.next supported c, ?_⟩
  rcases hardware_next supported s c with hsame | hmem
  · rw [hsame]
    exact horder
  · exact (hiff s c ⟨hlast, horder⟩).2 hcall _ hmem

/-! ## Runs without failures -/

/-- The hardware holds the pair of the last call. -/
def InSync (s : TripState) : Prop :=
  s.lastSet.aux0 = some s.hardware.aux0 ∧ s.lastSet.aux1 = some s.hardware.aux1

theorem InSync.aux0First_iff (h : s.InSync) (c : TripRequest) :
    s.Aux0First c ↔ c.aux0 < s.hardware.aux0 ∨ c.aux1 < s.hardware.aux1 := by
  unfold Aux0First DomainTemperature.writesAux0First
  rw [h.1, h.2, if_neg (by simp)]
  simp only [TripRequest.thresholds, DomainTemperature.lessThan, Option.bind_some]
  by_cases hlow : c.aux0 < s.hardware.aux0 <;> simp [hlow]

/-- **The order that is chosen is right** where the hardware holds what was last set. -/
theorem InSync.noCrossing (h : s.InSync) (horder : s.hardware.InOrder) (h0 : c.succeedsAux0 = true)
    (h1 : c.succeedsAux1 = true) : s.NoCrossing c := by
  have hhardware : s.hardware.aux0 ≤ s.hardware.aux1 := horder
  constructor
  · rintro - (hfails | hfirst)
    · rw [h1] at hfails
      cases hfails
    · rcases (h.aux0First_iff c).1 hfirst with hlow | hlow
      · exact hlow.le.trans hhardware
      · exact c.le.trans hlow.le
  · rintro - (hfails | hnot)
    · rw [h0] at hfails
      cases hfails
    · rw [h.aux0First_iff, not_or, not_lt, not_lt] at hnot
      exact hhardware.trans hnot.2

/-- Both writes are made. -/
theorem InSync.writeThresholds_of_succeed (h : s.InSync) (h0 : c.succeedsAux0 = true)
    (h1 : c.succeedsAux1 = true) :
    ∃ first, s.hardware.writeThresholds true c.thresholds s.lastSet c.succeedsAux0 c.succeedsAux1 =
      ([first, ⟨c.aux0, c.aux1⟩], true) := by
  have hlast : s.LastValid := Or.inr ⟨_, _, h.1, h.2⟩
  rw [h0, h1, writeThresholds]
  rcases hlast.aux0First_or c with hfirst | hsecond
  · rw [show DomainTemperature.writesAux0First c.thresholds s.lastSet = some true from hfirst]
    exact ⟨_, rfl⟩
  · rw [hsecond]
    exact ⟨_, rfl⟩

/-- A call without failures brings the hardware to the pair that is asked for. -/
theorem InSync.next (h : s.InSync) (h0 : c.succeedsAux0 = true) (h1 : c.succeedsAux1 = true) :
    (s.next true c).InSync := by
  obtain ⟨first, hwrites⟩ := h.writeThresholds_of_succeed h0 h1
  simp only [InSync, TripState.next, writes, hwrites]
  exact ⟨rfl, rfl⟩

/-- **Without failures the trips are in order after every write.** -/
theorem everyStep_inOrder_of_succeed (h : s.InSync) (horder : s.hardware.InOrder)
    {calls : List TripRequest}
    (hcalls : ∀ c ∈ calls, c.succeedsAux0 = true ∧ c.succeedsAux1 = true) :
    EveryStep (fun s c => some (next true s c))
      (fun s c => ∀ hardware ∈ s.writes true c, hardware.InOrder) s calls := by
  have hok : EveryStep (fun s c => some (next true s c))
      (fun _ c => c.succeedsAux0 = true ∧ c.succeedsAux1 = true) s calls :=
    everyStep_of_mem (fun c hc _ => hcalls c hc) s
  have horders : ∀ (s : TripState) (c : TripRequest),
      c.succeedsAux0 = true ∧ c.succeedsAux1 = true → s.InSync ∧ s.hardware.InOrder →
        ∀ hardware ∈ s.writes true c, hardware.InOrder := by
    rintro s c ⟨h0, h1⟩ ⟨hsync, horder⟩
    exact (inOrder_iff (Or.inr ⟨_, _, hsync.1, hsync.2⟩) horder c).2 (hsync.noCrossing horder h0 h1)
  have hstep : ∀ (s : TripState) (c : TripRequest) (s' : TripState),
      c.succeedsAux0 = true ∧ c.succeedsAux1 = true → some (next true s c) = some s' →
        s.InSync ∧ s.hardware.InOrder → s'.InSync ∧ s'.hardware.InOrder := by
    rintro s c s' hc hst hs
    cases hst
    refine ⟨hs.1.next hc.1 hc.2, ?_⟩
    rcases hardware_next true s c with hsame | hmem
    · rw [hsame]
      exact hs.2
    · exact horders s c hc hs _ hmem
  exact hok.imp_of_invariant hstep horders ⟨h, horder⟩

/-! ## Two pairs -/

/-- 30 °C. -/
def thirtyDegrees : Temperature := ⟨3032, by decide⟩

/-- 40 °C. -/
def fortyDegrees : Temperature := ⟨3132, by decide⟩

/-- 50 °C and 60 °C, in the hardware and set last. -/
def fiftyToSixty : TripState where
  hardware := ⟨⟨3232, by decide⟩, ⟨3332, by decide⟩⟩
  lastSet := ⟨some ⟨3232, by decide⟩, some ⟨3332, by decide⟩, none⟩

/-- 30 °C and 40 °C. -/
def thirtyToForty (succeedsAux0 succeedsAux1 : Bool) : TripRequest :=
  ⟨thirtyDegrees, fortyDegrees, by decide, succeedsAux0, succeedsAux1⟩

/-- Both writes succeed. -/
theorem inOrder_thirtyToForty :
    EveryStep (fun s c => some (next true s c))
      (fun s c => ∀ hardware ∈ s.writes true c, hardware.InOrder) fiftyToSixty
      [thirtyToForty true true] := by
  refine (everyStep_inOrder_iff true (Or.inr ⟨_, _, rfl, rfl⟩) (by decide) _).2 ⟨fun _ => ?_, ?_⟩
  · exact InSync.noCrossing ⟨rfl, rfl⟩ (by decide) rfl rfl
  · exact fun _ _ => trivial

/-- The pair is set twice. -/
theorem inOrder_of_succeed_twice :
    EveryStep (fun s c => some (next true s c))
      (fun s c => ∀ hardware ∈ s.writes true c, hardware.InOrder) fiftyToSixty
      [thirtyToForty true true, thirtyToForty true true] :=
  everyStep_inOrder_of_succeed ⟨rfl, rfl⟩ (by decide) (by simp [thirtyToForty])

/-- **The first write fails**, and the second one inverts the trips: 50 °C and 40 °C. -/
theorem thirtyToForty_inverts :
    fiftyToSixty.InSync ∧ fiftyToSixty.hardware.InOrder ∧
      ¬EveryStep (fun s c => some (next true s c))
        (fun s c => ∀ hardware ∈ s.writes true c, hardware.InOrder) fiftyToSixty
        [thirtyToForty false true] := by
  refine ⟨⟨rfl, rfl⟩, by decide, ?_⟩
  rintro ⟨h, -⟩
  have hinverted : ¬∀ hardware ∈ fiftyToSixty.writes true (thirtyToForty false true),
      hardware.InOrder := by decide
  exact hinverted h

end TripState

end Mgr

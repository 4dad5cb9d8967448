import Dptf.Lib.Machine
import Dptf.Uf.EventMgr

/-!
# The interrupts of the SOC events

The workload and the power floor events are there while somebody has registered
for them: a counter for each decides when its interrupt is enabled and disabled.

* `everyStep_following_iff` — the counters follow them in exactly the runs where no
  registration misses its participant.
-/

open Lib

namespace Uf

/-- The two counters. -/
inductive SocEvent
  /-- `socWorkloadtypeChangedRefCount`. -/
  | workload
  /-- `socPowerFloorRefCount`. -/
  | powerFloor
deriving DecidableEq, Repr

/-- An interrupt-control primitive, with its result. -/
structure IntrControl where
  id : UInt32
  participantId : EsifHandle
  state : UInt32
  rc : EsifError
deriving DecidableEq, Repr

/-- The event a registration signals, with the present state. -/
structure SocSignal where
  participantId : EsifHandle
  eventType : UInt32
  state : UInt32
deriving DecidableEq, Repr

/-- What `eventRegistrationLock` guards, with what has been sent and signalled. -/
structure SocEvents where
  refCount : SocEvent → UInt32
  sent : List IntrControl
  signalled : List SocSignal

/-- What a registration is for. -/
structure SocEntry where
  id : Nat
  participantId : EsifHandle
  eventType : UInt32
deriving DecidableEq, Repr

/-- What a call meets: whether the participant is available, the result of the
interrupt-control primitive, and what the others read. -/
structure Outcome where
  found : Bool
  rc : EsifError
  state : UInt32 → UInt32

namespace SocEvents

variable {c c' : SocEvent} {s s' : Counting}

def esifEventSocWorkloadtypeChanged : UInt32 := 183
def esifEventSocPowerFloorChanged : UInt32 := 184
def setSocPowerFloorIntEnable : UInt32 := 971
def setSocPredictionChangeIntEnable : UInt32 := 972
def getSocPowerFloorState : UInt32 := 917
def getPcieThrottlingOption : UInt32 := 918
def getHwSocWorkload : UInt32 := 919

/-- `ESIF_INTR_STATE_DISABLE`. -/
def esifIntrStateDisable : UInt32 := 0
/-- `ESIF_INTR_STATE_ENABLE`. -/
def esifIntrStateEnable : UInt32 := 1

/-- The primitive that controls the interrupt. -/
def intEnable : SocEvent → UInt32
  | .workload => setSocPredictionChangeIntEnable
  | .powerFloor => setSocPowerFloorIntEnable

/-- Set a counter. -/
def setRefCount (s : SocEvents) (c : SocEvent) (n : UInt32) : SocEvents :=
  { s with refCount := Function.update s.refCount c n }

/-- `EsifUp_ExecutePrimitive` of an interrupt-control primitive. -/
def execute (s : SocEvents) (c : SocEvent) (e : SocEntry) (state : UInt32) (rc : EsifError) :
    SocEvents :=
  { s with sent := s.sent ++ [⟨intEnable c, e.participantId, state, rc⟩] }

/-- `EsifEventMgr_SignalEvent`. -/
def signal (s : SocEvents) (e : SocEntry) (state : UInt32) : SocEvents :=
  { s with signalled := s.signalled ++ [⟨e.participantId, e.eventType, state⟩] }

/-! ## The code -/

/-- The first registration enables the interrupt. -/
def enableFirst (s : SocEvents) (c : SocEvent) (e : SocEntry) (out : Outcome) :
    EsifError × SocEvents :=
  if s.refCount c = 1 then
    let s := s.execute c e esifIntrStateEnable out.rc
    if out.rc ≠ esifOk then (out.rc, s.setRefCount c (s.refCount c - 1)) else (esifOk, s)
  else (esifOk, s)

/-- What the registrations do. -/
def registerEvent (s : SocEvents) (c : SocEvent) (statePrimitive : UInt32) (e : SocEntry)
    (out : Outcome) : EsifError × SocEvents :=
  let s := s.setRefCount c (s.refCount c + 1)
  if out.found = false then (esifENotFound, s)
  else
    let (rc, s) := s.enableFirst c e out
    if rc = esifOk then (rc, s.signal e (out.state statePrimitive)) else (rc, s)

/-- What the unregistrations do. -/
def unregisterEvent (s : SocEvents) (c : SocEvent) (e : SocEntry) (out : Outcome) :
    EsifError × SocEvents :=
  let s := if s.refCount c ≠ 0 then s.setRefCount c (s.refCount c - 1) else s
  if s.refCount c = 0 then
    if out.found then (out.rc, s.execute c e esifIntrStateDisable out.rc) else (esifENotFound, s)
  else (esifOk, s)

/-- `esif_register_event_soc_workload`. -/
def esifRegisterEventSocWorkload (s : SocEvents) (e : SocEntry) (out : Outcome) :
    EsifError × SocEvents :=
  s.registerEvent .workload getHwSocWorkload e out

/-- `esif_register_event_soc_power_floor`. -/
def esifRegisterEventSocPowerFloor (s : SocEvents) (e : SocEntry) (out : Outcome) :
    EsifError × SocEvents :=
  s.registerEvent .powerFloor
    (if e.eventType = esifEventSocPowerFloorChanged then getSocPowerFloorState
      else getPcieThrottlingOption) e out

/-- `esif_unregister_event_soc_workload`. -/
def esifUnregisterEventSocWorkload (s : SocEvents) (e : SocEntry) (out : Outcome) :
    EsifError × SocEvents :=
  s.unregisterEvent .workload e out

/-- `esif_unregister_event_soc_power_floor`. -/
def esifUnregisterEventSocPowerFloor (s : SocEvents) (e : SocEntry) (out : Outcome) :
    EsifError × SocEvents :=
  s.unregisterEvent .powerFloor e out

/-! ## Runs -/

/-- A call of a registration, or of an unregistration. -/
inductive Action
  | register (c : SocEvent) (e : SocEntry) (out : Outcome)
  | unregister (c : SocEvent) (e : SocEntry) (out : Outcome)

/-- The counters, and the entries whose registration returned `ESIF_OK`. -/
structure Counting where
  events : SocEvents
  registered : SocEvent → List Nat

/-- Nobody has registered. -/
def start : Counting := ⟨⟨fun _ => 0, [], []⟩, fun _ => []⟩

/-- The registration that is called. -/
def register (s : SocEvents) : SocEvent → SocEntry → Outcome → EsifError × SocEvents
  | .workload => s.esifRegisterEventSocWorkload
  | .powerFloor => s.esifRegisterEventSocPowerFloor

/-- The unregistration that is called. -/
def unregister (s : SocEvents) : SocEvent → SocEntry → Outcome → EsifError × SocEvents
  | .workload => s.esifUnregisterEventSocWorkload
  | .powerFloor => s.esifUnregisterEventSocPowerFloor

/-- A step.  The lock makes each call one. -/
def step (s : Counting) : Action → Option Counting
  | .register c e out =>
    let result := s.events.register c e out
    some ⟨result.2,
      if result.1 = esifOk then Function.update s.registered c (s.registered c ++ [e.id])
      else s.registered⟩
  | .unregister c e out =>
    some ⟨(s.events.unregister c e out).2,
      Function.update s.registered c ((s.registered c).erase e.id)⟩

/-- What the last interrupt-control primitive that succeeded has set. -/
def lastSet (s : SocEvents) (c : SocEvent) : Option UInt32 :=
  ((s.sent.filter fun p => p.id = intEnable c ∧ p.rc = esifOk).getLast?).map IntrControl.state

/-- A counter follows the registrations, and the interrupt is enabled while it is positive. -/
structure Following (s : Counting) (c : SocEvent) : Prop where
  count : (s.events.refCount c).toNat = (s.registered c).length
  enabled : 0 < s.events.refCount c → s.events.lastSet c = some esifIntrStateEnable

/-- A registration finds its participant and the counter does not wrap; while the counter is
positive, only what was registered is unregistered. -/
def NoLeak (s : Counting) : Action → Prop
  | .register c _ out => out.found = true ∧ (s.events.refCount c).toNat + 1 < UInt32.size
  | .unregister c e _ => 0 < s.events.refCount c → e.id ∈ s.registered c

/-! ## What a call does to its counter -/

theorem intEnable_ne (h : c' ≠ c) : intEnable c ≠ intEnable c' := by
  cases c <;> cases c' <;> first | exact absurd rfl h | decide

@[simp] theorem setRefCount_self (s : SocEvents) (c : SocEvent) (n : UInt32) :
    (s.setRefCount c n).refCount c = n := Function.update_self _ _ _

theorem setRefCount_of_ne (s : SocEvents) (h : c' ≠ c) (n : UInt32) :
    (s.setRefCount c n).refCount c' = s.refCount c' := Function.update_of_ne h _ _

@[simp] theorem lastSet_setRefCount (s : SocEvents) (c c' : SocEvent) (n : UInt32) :
    (s.setRefCount c n).lastSet c' = s.lastSet c' := rfl

@[simp] theorem lastSet_signal (s : SocEvents) (e : SocEntry) (state : UInt32) (c : SocEvent) :
    (s.signal e state).lastSet c = s.lastSet c := rfl

theorem lastSet_execute_self (s : SocEvents) (c : SocEvent) (e : SocEntry) (state : UInt32) :
    (s.execute c e state esifOk).lastSet c = some state := by
  simp [lastSet, execute]

theorem lastSet_execute_of_ne (s : SocEvents) (h : c' ≠ c) (e : SocEntry) (state : UInt32)
    (rc : EsifError) : (s.execute c e state rc).lastSet c' = s.lastSet c' := by
  simp [lastSet, execute, intEnable_ne h]

/-- A call leaves the other counter alone. -/
def Frame (c : SocEvent) (s s' : SocEvents) : Prop :=
  ∀ c', c' ≠ c → s'.refCount c' = s.refCount c' ∧ s'.lastSet c' = s.lastSet c'

theorem registerEvent_frame (s : SocEvents) (c : SocEvent) (statePrimitive : UInt32)
    (e : SocEntry) (out : Outcome) : Frame c s (s.registerEvent c statePrimitive e out).2 := by
  intro c' hc'
  have hset : ∀ n, (s.setRefCount c n).refCount c' = s.refCount c' :=
    fun n => s.setRefCount_of_ne hc' n
  have henable : ∀ t : SocEvents, (t.enableFirst c e out).2.refCount c' = t.refCount c' ∧
      (t.enableFirst c e out).2.lastSet c' = t.lastSet c' := by
    intro t
    unfold enableFirst
    split
    · simp only
      split
      · exact ⟨setRefCount_of_ne _ hc' _, t.lastSet_execute_of_ne hc' e _ _⟩
      · exact ⟨rfl, t.lastSet_execute_of_ne hc' e _ _⟩
    · exact ⟨rfl, rfl⟩
  unfold registerEvent
  simp only
  split
  · exact ⟨hset _, rfl⟩
  · obtain ⟨hcount, hlast⟩ := henable (s.setRefCount c (s.refCount c + 1))
    rw [hset, lastSet_setRefCount] at *
    split <;> exact ⟨hcount, hlast⟩

theorem unregisterEvent_frame (s : SocEvents) (c : SocEvent) (e : SocEntry) (out : Outcome) :
    Frame c s (s.unregisterEvent c e out).2 := by
  intro c' hc'
  generalize ht : (if s.refCount c ≠ 0 then s.setRefCount c (s.refCount c - 1) else s) = t
  have hdec : t.refCount c' = s.refCount c' ∧ t.lastSet c' = s.lastSet c' := by
    rw [← ht]
    split
    · exact ⟨setRefCount_of_ne _ hc' _, rfl⟩
    · exact ⟨rfl, rfl⟩
  unfold unregisterEvent
  simp only [ht]
  split
  · split
    · exact ⟨hdec.1, (t.lastSet_execute_of_ne hc' e _ _).trans hdec.2⟩
    · exact hdec
  · exact hdec

/-- **A registration that finds its participant.**  Either it fails at a counter of 0 and leaves
it there, or it succeeds and the counter is one more, the interrupt enabled if it is the first. -/
theorem registerEvent_spec (s : SocEvents) (c : SocEvent) (statePrimitive : UInt32) (e : SocEntry)
    {out : Outcome} (hfound : out.found = true) (hmax : (s.refCount c).toNat + 1 < UInt32.size) :
    let result := s.registerEvent c statePrimitive e out
    result.1 ≠ esifOk ∧ s.refCount c = 0 ∧ result.2.refCount c = 0 ∨
      result.1 = esifOk ∧ (result.2.refCount c).toNat = (s.refCount c).toNat + 1 ∧
        result.2.lastSet c =
          if s.refCount c = 0 then some esifIntrStateEnable else s.lastSet c := by
  have hnext : (s.refCount c + 1).toNat = (s.refCount c).toNat + 1 := by
    rw [UInt32.toNat_add, Nat.mod_eq_of_lt (by simpa using hmax)]
    rfl
  have hone : s.refCount c + 1 = 1 ↔ s.refCount c = 0 := by
    rw [← UInt32.toNat_inj, ← UInt32.toNat_inj, hnext]
    simp
  simp only [registerEvent, hfound, Bool.true_eq_false, if_false]
  unfold enableFirst
  rw [setRefCount_self]
  by_cases hzero : s.refCount c = 0
  · rw [if_pos (hone.mpr hzero)]
    by_cases hrc : out.rc = esifOk
    · right
      simp only [hrc, ne_eq, not_true_eq_false, if_false, if_true, lastSet_signal,
        lastSet_execute_self, hzero]
      exact ⟨trivial, by simp [signal, execute, setRefCount], trivial⟩
    · left
      simp only [ne_eq, hrc, not_false_eq_true, if_true, if_false]
      exact ⟨trivial, hzero, by simp [setRefCount, execute, hzero]⟩
  · rw [if_neg fun h => hzero (hone.mp h)]
    right
    simp only [if_true, lastSet_signal, lastSet_setRefCount, if_neg hzero]
    exact ⟨trivial, by rw [← hnext]; simp [signal, setRefCount], trivial⟩

/-- One that wraps the counter. -/
theorem registerEvent_wrap (s : SocEvents) (c : SocEvent) (statePrimitive : UInt32) (e : SocEntry)
    {out : Outcome} (hfound : out.found = true) (hmax : (s.refCount c).toNat + 1 = UInt32.size) :
    let result := s.registerEvent c statePrimitive e out
    result.1 = esifOk ∧ result.2.refCount c = 0 := by
  have hzero : s.refCount c + 1 = 0 := by
    rw [← UInt32.toNat_inj, UInt32.toNat_add]
    have hsize : UInt32.size = 2 ^ 32 := rfl
    rw [hsize] at hmax
    simp [hmax]
  simp only [registerEvent, hfound, Bool.true_eq_false, if_false]
  unfold enableFirst
  rw [setRefCount_self, hzero, if_neg (by decide : (0 : UInt32) ≠ 1)]
  exact ⟨rfl, setRefCount_self s c 0⟩

/-- One whose participant is missing has counted itself. -/
theorem registerEvent_missing (s : SocEvents) (c : SocEvent) (statePrimitive : UInt32)
    (e : SocEntry) {out : Outcome} (hfound : out.found = false) :
    s.registerEvent c statePrimitive e out =
      (esifENotFound, s.setRefCount c (s.refCount c + 1)) := by
  simp [registerEvent, hfound]

/-- **An unregistration** takes one off a positive counter, and sends nothing while the counter
stays positive. -/
theorem unregisterEvent_spec (s : SocEvents) (c : SocEvent) (e : SocEntry) (out : Outcome) :
    ((s.unregisterEvent c e out).2.refCount c).toNat = (s.refCount c).toNat - 1 ∧
      (0 < (s.unregisterEvent c e out).2.refCount c →
        (s.unregisterEvent c e out).2.lastSet c = s.lastSet c) := by
  generalize ht : (if s.refCount c ≠ 0 then s.setRefCount c (s.refCount c - 1) else s) = t
  have hdec : (t.refCount c).toNat = (s.refCount c).toNat - 1 ∧ t.lastSet c = s.lastSet c := by
    rw [← ht]
    split
    · rename_i hpos
      have hle : (1 : UInt32) ≤ s.refCount c := by
        rw [UInt32.le_iff_toNat_le]
        have : (s.refCount c).toNat ≠ 0 := fun h => hpos (UInt32.toNat_inj.mp (by simpa using h))
        simp
        omega
      rw [setRefCount_self, UInt32.toNat_sub_of_le _ _ hle]
      exact ⟨rfl, rfl⟩
    · rename_i hzero
      rw [not_not] at hzero
      simp [hzero]
  unfold unregisterEvent
  simp only [ht]
  split
  · rename_i hzero
    have hnot : ¬(0 : UInt32) < t.refCount c := by simp [hzero]
    split
    · exact ⟨hdec.1, fun hpos => absurd hpos hnot⟩
    · exact ⟨hdec.1, fun hpos => absurd hpos hnot⟩
  · exact ⟨hdec.1, fun _ => hdec.2⟩

/-! ## What the steps do -/

/-- The primitive a registration reads the state with. -/
theorem register_eq (s : SocEvents) (c : SocEvent) (e : SocEntry) (out : Outcome) :
    ∃ statePrimitive, s.register c e out = s.registerEvent c statePrimitive e out := by
  cases c <;> exact ⟨_, rfl⟩

theorem unregister_eq (s : SocEvents) (c : SocEvent) (e : SocEntry) (out : Outcome) :
    s.unregister c e out = s.unregisterEvent c e out := by
  cases c <;> rfl

theorem Following.of_frame {events : SocEvents} (h : Following s c') (hne : c' ≠ c)
    (hframe : Frame c s.events events) (ids : List Nat) :
    Following ⟨events, Function.update s.registered c ids⟩ c' := by
  obtain ⟨hcount, hlast⟩ := hframe c' hne
  refine ⟨?_, fun hpos => ?_⟩
  · simp only [hcount, Function.update_of_ne hne]
    exact h.count
  · simp only [hlast]
    exact h.enabled (hcount ▸ hpos)

/-- Every step keeps the counters following, if nothing leaks. -/
theorem step_following {a : Action} (hok : NoLeak s a) (hstep : step s a = some s')
    (h : ∀ c, Following s c) : ∀ c, Following s' c := by
  cases a with
  | register c e out =>
    cases hstep
    obtain ⟨prim, hprim⟩ := s.events.register_eq c e out
    rw [hprim]
    have hframe := s.events.registerEvent_frame c prim e out
    obtain ⟨hrc, hzero, hcount⟩ | ⟨hrc, hcount, hlast⟩ :=
      s.events.registerEvent_spec c prim e hok.1 hok.2
    · rw [if_neg hrc]
      intro c'
      by_cases hc : c' = c
      · subst hc
        refine ⟨?_, fun hpos => ?_⟩
        · rw [hcount, ← (h c').count, hzero]
        · rw [hcount] at hpos
          exact absurd hpos (by decide)
      · have hother := (h c').of_frame hc hframe (s.registered c)
        rwa [Function.update_eq_self] at hother
    · rw [if_pos hrc]
      intro c'
      by_cases hc : c' = c
      · subst hc
        refine ⟨?_, fun _ => ?_⟩
        · simp only [Function.update_self, List.length_append, hcount, (h c').count]
          rfl
        · rw [hlast]
          split
          · rfl
          · rename_i hne
            exact (h c').enabled (UInt32.pos_iff_ne_zero.mpr hne)
      · exact (h c').of_frame hc hframe _
  | unregister c e out =>
    cases hstep
    rw [unregister_eq]
    have hframe := s.events.unregisterEvent_frame c e out
    obtain ⟨hcount, hlast⟩ := s.events.unregisterEvent_spec c e out
    intro c'
    by_cases hc : c' = c
    · subst hc
      refine ⟨?_, fun hpos => ?_⟩
      · simp only [Function.update_self, hcount, (h c').count]
        by_cases hpos : 0 < s.events.refCount c'
        · exact (List.length_erase_of_mem (hok hpos)).symm
        · have hnil : s.registered c' = [] := by
            have hzero : s.events.refCount c' = 0 := by
              simpa [UInt32.pos_iff_ne_zero] using hpos
            rw [← List.length_eq_zero_iff, ← (h c').count, hzero]
            rfl
          rw [hnil]
          rfl
      · have hbefore : 0 < s.events.refCount c' := by
          rw [UInt32.lt_iff_toNat_lt] at hpos ⊢
          rw [hcount] at hpos
          simp at hpos ⊢
          omega
        exact (hlast hpos).trans ((h c').enabled hbefore)
    · exact (h c').of_frame hc hframe _

/-- A step that leaks is seen in its counter. -/
theorem not_following_of_leak {a : Action} (hleak : ¬NoLeak s a) (hstep : step s a = some s')
    (h : ∀ c, Following s c) : ¬∀ c, Following s' c := by
  intro hafter
  cases a with
  | register c e out =>
    cases hstep
    obtain ⟨prim, hprim⟩ := s.events.register_eq c e out
    have hcount := (hafter c).count
    rw [hprim] at hcount
    have hbefore := (h c).count
    by_cases hfound : out.found = true
    · have hmax : (s.events.refCount c).toNat + 1 = UInt32.size := by
        have hlt := (s.events.refCount c).toNat_lt_size
        have hge : ¬(s.events.refCount c).toNat + 1 < UInt32.size := fun hlt => hleak ⟨hfound, hlt⟩
        omega
      obtain ⟨hrc, hzero⟩ := s.events.registerEvent_wrap c prim e hfound hmax
      simp only [hzero, hrc, if_true, Function.update_self, List.length_append] at hcount
      simp at hcount
    · have hfound : out.found = false := by simpa using hfound
      simp only [registerEvent_missing _ _ _ _ hfound,
        if_neg (by decide : esifENotFound ≠ esifOk), setRefCount_self] at hcount
      rw [← hbefore, UInt32.toNat_add] at hcount
      have := (s.events.refCount c).toNat_lt
      simp at hcount
      omega
  | unregister c e out =>
    cases hstep
    simp only [NoLeak, Classical.not_imp] at hleak
    obtain ⟨hpos, hmem⟩ := hleak
    have hcount := (hafter c).count
    rw [unregister_eq] at hcount
    simp only [(s.events.unregisterEvent_spec c e out).1, Function.update_self,
      List.erase_of_not_mem hmem, ← (h c).count] at hcount
    rw [UInt32.lt_iff_toNat_lt] at hpos
    simp at hpos
    omega

theorem following_start (c : SocEvent) : Following start c :=
  ⟨rfl, fun hpos => absurd hpos (UInt32.lt_irrefl 0)⟩

/-- **The counters follow the registrations** in exactly the runs where nothing leaks. -/
theorem everyStep_following_iff (as : List Action) :
    EveryStep step (fun s a => ∀ s', step s a = some s' → ∀ c, Following s' c) start as ↔
      EveryStep step NoLeak start as := by
  refine everyStep_congr_of_ok
    (fun s a s' hok hstep (h : ∀ c, Following s c) => step_following hok hstep h)
    (fun s a h => ?_) following_start as
  constructor
  · intro hafter
    by_contra hleak
    cases hstep : step s a with
    | none => cases a <;> simp [step] at hstep
    | some s' => exact not_following_of_leak hleak hstep h (hafter s' hstep)
  · intro hok s' hstep
    exact step_following hok hstep h

/-- A registration that misses its participant, and one that then finds it. -/
def missedOnce : List Action :=
  let e : SocEntry := ⟨0, esifHandlePrimaryParticipant, esifEventSocWorkloadtypeChanged⟩
  [.register .workload e ⟨false, esifOk, fun _ => 0⟩,
    .register .workload e ⟨true, esifOk, fun _ => 0⟩]

/-- The second one is told that all is well, and its interrupt is never enabled. -/
theorem missedOnce_not_following :
    ¬EveryStep step (fun s a => ∀ s', step s a = some s' → ∀ c, Following s' c)
      start missedOnce := by
  rintro ⟨-, hrest⟩
  have hfollowing := (hrest _ rfl).1 _ rfl .workload
  exact absurd (hfollowing.enabled (by decide)) (by decide)

end SocEvents

end Uf

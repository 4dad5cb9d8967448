import Dptf.Ipc.TrxMgr

/-!
# Replies and waiters

What a step of a session does to one transaction is said once (`ObjStep`,
`step_stepped`); the rest is read off it.

* `replies_reach_own_iff` — **a reply completes the transaction whose id it
  carries**, exactly as long as no reply carries the wild card itself.
* `none_forgotten_of_kept` — **no waiter is forgotten** unless a response takes
  its transaction out of the pool and cannot be copied.
-/

open Lib

namespace Irpc

/-! ## What a step does to a transaction -/

/-- A step on one transaction, with the number of slots that hold it before and after; `lost`
says when it may leave the pool without a signal. -/
inductive ObjStep (lost : Prop) : Nat → TrxObj → Nat → TrxObj → Prop
  | same (n : Nat) (o : TrxObj) : ObjStep lost n o n o
  | leave (n : Nat) {o : TrxObj} (rc : EsifError) (hphase : ∀ rc, o.phase ≠ .left rc) :
    ObjStep lost n o n (o.leave rc)
  | enter (n : Nat) {o : TrxObj} (hphase : o.phase = .created) : ObjStep lost n o (n + 1) o.enter
  | wait (n : Nat) {o : TrxObj} (hphase : o.phase = .added) : ObjStep lost n o n o.wait
  | complete (n : Nat) (o : TrxObj) (response : IBinary) :
    ObjStep lost (n + 1) o n (o.putRef.complete response)
  | lose (n : Nat) (o : TrxObj) (hlost : lost) : ObjStep lost (n + 1) o n o.putRef
  | expire {n : Nat} (o : TrxObj) (hn : 0 < n) : ObjStep lost n o 0 o.expire
  | reset (n : Nat) (o : TrxObj) (now : EsifRealtime) : ObjStep lost n o n (o.reset now)

/-- A response that cannot be copied loses the transaction it takes out of the pool. -/
def Loses (s : IpcSession) : Act → Nat → Prop
  | .receive r, ref => r.cloned = false ∧
      s.outstanding.find? (s.isMatch esifInvalidHandle r.trxId) = some ref
  | _, _ => False

/-- A new transaction. -/
def TrxObj.IsNew (trxId : UInt64) (o : TrxObj) : Prop :=
  o.trx.trxId = trxId ∧ o.refCount = 1 ∧ o.phase = .created ∧ o.posts = 0 ∧ o.pooled = 0

namespace IpcSession

/-- How many slots hold a transaction. -/
def slots (s : IpcSession) (ref : Nat) : Nat := s.outstanding.count ref

theorem objs_modify_self (s : IpcSession) {ref : Nat} {o : TrxObj} (h : s.objs[ref]? = some o)
    (f : TrxObj → TrxObj) : (s.modify ref f).objs[ref]? = some (f o) := by
  simp [modify, h]

theorem objs_modify_of_ne (s : IpcSession) {ref ref' : Nat} (h : ref' ≠ ref)
    (f : TrxObj → TrxObj) : (s.modify ref f).objs[ref']? = s.objs[ref']? := by
  simp [modify, h.symm]

@[simp] theorem length_modify (s : IpcSession) (ref : Nat) (f : TrxObj → TrxObj) :
    (s.modify ref f).objs.length = s.objs.length := by
  simp [modify]

end IpcSession

/-- What a step leaves of a session: of each transaction a step, or a new one. -/
structure Stepped (lost : Nat → Prop) (s s' : IpcSession) : Prop where
  objs : ∀ (ref : Nat) (o' : TrxObj), s'.objs[ref]? = some o' →
    (∃ o, s.objs[ref]? = some o ∧ ObjStep (lost ref) (s.slots ref) o (s'.slots ref) o') ∨
      ref = s.objs.length ∧ s'.slots ref = s.slots ref ∧
        o'.IsNew (nextTrxId s.trxIdGenerator).1
  length_le : s.objs.length ≤ s'.objs.length
  outstanding : ∀ ref ∈ s'.outstanding, ref ∈ s.outstanding ∨ ref < s.objs.length
  generator : s'.trxIdGenerator = s.trxIdGenerator ∨
    s'.trxIdGenerator = (nextTrxId s.trxIdGenerator).2

variable {lost : Nat → Prop}

theorem Stepped.refl (s : IpcSession) : Stepped lost s s where
  objs _ o' ho' := Or.inl ⟨o', ho', .same _ _⟩
  length_le := le_rfl
  outstanding _ href := Or.inl href
  generator := Or.inl rfl

theorem stepped_modify {s : IpcSession} {ref : Nat} {o : TrxObj} (h : s.objs[ref]? = some o)
    {f : TrxObj → TrxObj} (hstep : ObjStep (lost ref) (s.slots ref) o (s.slots ref) (f o)) :
    Stepped lost s (s.modify ref f) where
  objs := by
    intro ref' o' ho'
    left
    by_cases href : ref' = ref
    · subst href
      rw [s.objs_modify_self h] at ho'
      obtain rfl := Option.some.inj ho'
      exact ⟨o, h, hstep⟩
    · rw [s.objs_modify_of_ne href] at ho'
      exact ⟨o', ho', .same _ _⟩
  length_le := (s.length_modify ref f).ge
  outstanding ref' href' := Or.inl href'
  generator := Or.inl rfl

theorem addSlot_perm {trxPool trxPool' : List (Option Nat)} {ref : Nat} {grown : Bool}
    (h : addSlot trxPool ref grown = some trxPool') :
    trxPool'.reduceOption.Perm (ref :: trxPool.reduceOption) := by
  unfold addSlot at h
  split at h
  case h_1 slots hslots =>
    cases h
    exact insertFirst_perm hslots
  case h_2 =>
    split at h
    case isTrue =>
      cases h
      rw [List.reduceOption_append, List.reduceOption_cons_of_some]
      simp [trxPoolGrowBy]
    case isFalse => cases h

theorem stepped_addTransaction {s : IpcSession} {ref : Nat} {o : TrxObj}
    (h : s.objs[ref]? = some o) (hphase : o.phase = .created) (grown : Bool) :
    Stepped lost s (addTransaction s ref grown) := by
  unfold addTransaction
  split
  case h_1 trxPool hpool =>
    have hperm := addSlot_perm hpool
    have hobj : (s.setPool trxPool).objs[ref]? = some o := h
    constructor
    · intro ref' o' ho'
      left
      have hslots : ((s.setPool trxPool).modify ref TrxObj.enter).slots ref' =
          (ref :: s.outstanding).count ref' := hperm.count_eq ref'
      rw [hslots]
      by_cases href : ref' = ref
      · subst href
        rw [IpcSession.objs_modify_self _ hobj] at ho'
        obtain rfl := Option.some.inj ho'
        rw [List.count_cons_self]
        exact ⟨o, h, .enter _ hphase⟩
      · rw [IpcSession.objs_modify_of_ne _ href] at ho'
        rw [List.count_cons_of_ne (Ne.symm href)]
        exact ⟨o', ho', .same _ _⟩
    · exact (IpcSession.length_modify _ ref TrxObj.enter).ge
    · intro ref' href'
      rcases List.mem_cons.mp (hperm.mem_iff.mp href') with rfl | hold
      · exact Or.inr (List.getElem?_eq_some_iff.mp h).1
      · exact Or.inl hold
    · exact Or.inl rfl
  case h_2 => exact stepped_modify h (.leave _ _ (by simp [hphase]))

/-- Taking a transaction out of the pool. -/
theorem getTransaction_spec {s s' : IpcSession} {ipfHandle : EsifHandle} {trxId : UInt64}
    {ref : Nat} (h : getTransaction s ipfHandle trxId = some (ref, s')) :
    s.isMatch ipfHandle trxId ref = true ∧
      s.outstanding.find? (s.isMatch ipfHandle trxId) = some ref ∧
      s.outstanding.Perm (ref :: s'.outstanding) ∧
      s'.objs = s.objs.modify ref TrxObj.putRef ∧ s'.trxIdGenerator = s.trxIdGenerator := by
  obtain ⟨⟨ref', trxPool⟩, htake, heq⟩ := Option.map_eq_some_iff.mp h
  cases heq
  obtain ⟨hmatch, hperm⟩ := takeFirst_perm htake
  exact ⟨hmatch, takeFirst_find? htake, hperm, rfl, rfl⟩

theorem IpcSession.isMatch_obj {s : IpcSession} {ipfHandle : EsifHandle} {trxId : UInt64} {ref : Nat}
    (h : s.isMatch ipfHandle trxId ref = true) : ∃ o, s.objs[ref]? = some o ∧
      (o.trx.trxId = trxId ∨ trxId = trxMatchAny) := by
  unfold isMatch at h
  cases hobj : s.objs[ref]? with
  | none => simp [hobj] at h
  | some o =>
    simp only [hobj, Bool.and_eq_true, Bool.or_eq_true, beq_iff_eq] at h
    exact ⟨o, rfl, h.2⟩

theorem stepped_receiveResponse (s : IpcSession) (r : Reply) :
    Stepped (Loses s (.receive r)) s (receiveResponse s r) := by
  unfold receiveResponse
  split
  case h_1 => exact .refl s
  case h_2 ref s' hget =>
    obtain ⟨hmatch, hfirst, hperm, hobjs, hgenerator⟩ := getTransaction_spec hget
    obtain ⟨o, hobj, -⟩ := IpcSession.isMatch_obj hmatch
    have hobj' : s'.objs[ref]? = some o.putRef := by
      rw [hobjs]
      simp [hobj]
    have hslots : ∀ ref', s.slots ref' = (ref :: s'.outstanding).count ref' :=
      fun ref' => hperm.count_eq ref'
    have hother : ∀ {ref' : Nat}, ref' ≠ ref → s'.objs[ref']? = s.objs[ref']? := by
      intro ref' href
      rw [hobjs]
      simp [href.symm]
    constructor
    · intro ref' o' ho'
      left
      by_cases href : ref' = ref
      · subst href
        refine ⟨o, hobj, ?_⟩
        rw [hslots, List.count_cons_self]
        by_cases hcloned : r.cloned
        · rw [if_pos hcloned, s'.objs_modify_self hobj'] at ho'
          rw [if_pos hcloned, ← Option.some.inj ho']
          exact .complete _ o _
        · rw [if_neg hcloned, hobj'] at ho'
          rw [if_neg hcloned, ← Option.some.inj ho']
          exact .lose _ o ⟨by simpa using hcloned, hfirst⟩
      · have hsame : s.objs[ref']? = some o' := by
          split at ho'
          · rwa [s'.objs_modify_of_ne href, hother href] at ho'
          · rwa [hother href] at ho'
        refine ⟨o', hsame, ?_⟩
        rw [hslots, List.count_cons_of_ne (Ne.symm href)]
        split <;> exact .same _ _
    · split <;> simp [hobjs]
    · have hmem : ∀ ref' ∈ s'.outstanding, ref' ∈ s.outstanding :=
        fun ref' href' => hperm.mem_iff.mpr (List.mem_cons_of_mem ref href')
      split <;> exact fun ref' href' => Or.inl (hmem ref' href')
    · split <;> exact Or.inl hgenerator

theorem stepped_expireTimeout (s : IpcSession) (seconds : Nat) (now : EsifRealtime)
    (resolution : UInt64) : Stepped lost s (expireTimeout s seconds now resolution) := by
  unfold expireTimeout
  split
  case isFalse => exact .refl s
  case isTrue =>
    constructor
    · intro ref o' ho'
      left
      simp only [List.getElem?_mapIdx, Option.map_eq_some_iff, List.mem_filter] at ho'
      obtain ⟨o, hobj, rfl⟩ := ho'
      refine ⟨o, hobj, ?_⟩
      let isExpired := s.isExpired seconds now resolution
      have hslots : (clearWhere isExpired s.trxPool).reduceOption.count ref =
          (s.outstanding.filter fun x => !isExpired x).count ref := by
        rw [reduceOption_clearWhere]
        rfl
      show ObjStep _ (s.outstanding.count ref) o
        ((clearWhere isExpired s.trxPool).reduceOption.count ref) _
      rw [hslots]
      by_cases hexpired : isExpired ref = true
      · have hgone : ref ∉ s.outstanding.filter fun x => !isExpired x := by
          simp [hexpired]
        rw [List.count_eq_zero_of_not_mem hgone]
        by_cases hmem : ref ∈ s.outstanding
        · rw [if_pos ⟨hmem, hexpired⟩]
          exact .expire o (List.count_pos_iff.mpr hmem)
        · rw [if_neg fun h => hmem h.1, List.count_eq_zero_of_not_mem hmem]
          exact .same 0 o
      · have hkept : (!isExpired ref) = true := by simp [hexpired]
        rw [if_neg fun h => hexpired h.2, List.count_filter (p := fun x => !isExpired x) hkept]
        exact .same _ o
    · simp
    · intro ref href
      simp only [IpcSession.outstanding, reduceOption_clearWhere, List.mem_filter] at href
      exact Or.inl href.1
    · exact Or.inl rfl

theorem stepped_resetTimeouts (s : IpcSession) (now : EsifRealtime) :
    Stepped lost s (resetTimeouts s now) where
  objs := by
    intro ref o' ho'
    left
    simp only [resetTimeouts, List.getElem?_mapIdx, Option.map_eq_some_iff] at ho'
    obtain ⟨o, hobj, rfl⟩ := ho'
    refine ⟨o, hobj, ?_⟩
    show ObjStep _ (s.slots ref) o (s.slots ref) _
    split
    · exact .reset _ o now
    · exact .same _ o
  length_le := by simp [resetTimeouts]
  outstanding ref href := Or.inl href
  generator := Or.inl rfl

theorem stepped_create (s : IpcSession) (ipfHandle : EsifHandle) (timestamp : EsifRealtime)
    (request : IBinary) : Stepped lost s (create s ipfHandle timestamp request) where
  objs := by
    intro ref o' ho'
    have hslots : (create s ipfHandle timestamp request).slots ref = s.slots ref := rfl
    simp only [create] at ho'
    rcases Nat.lt_trichotomy ref s.objs.length with hlt | heq | hgt
    · rw [List.getElem?_append_left hlt] at ho'
      exact Or.inl ⟨o', ho', hslots ▸ .same _ _⟩
    · subst heq
      rw [List.getElem?_concat_length] at ho'
      rw [← Option.some.inj ho']
      exact Or.inr ⟨rfl, hslots, rfl, rfl, rfl, rfl, rfl⟩
    · rw [List.getElem?_eq_none (by simp; omega)] at ho'
      cases ho'
  length_le := by simp [create]
  outstanding ref href := Or.inl href
  generator := Or.inr rfl

/-- **What a step does**. -/
theorem step_stepped {s s' : IpcSession} {a : Act} (h : step s a = some s') :
    Stepped (Loses s a) s s' := by
  cases a with
  | create ipfHandle timestamp request =>
    cases h
    exact stepped_create s ipfHandle timestamp request
  | createElsewhere =>
    cases h
    exact { Stepped.refl s with generator := Or.inr rfl }
  | fail ref rc =>
    obtain ⟨o, hobj, ho⟩ := Option.bind_eq_some_iff.mp h
    split at ho
    case isTrue hphase =>
      cases ho
      exact stepped_modify hobj (.leave _ rc (by simp [hphase]))
    case isFalse => cases ho
  | add ref grown =>
    obtain ⟨o, hobj, ho⟩ := Option.bind_eq_some_iff.mp h
    split at ho
    case isTrue hphase =>
      cases ho
      exact stepped_addTransaction hobj hphase grown
    case isFalse => cases ho
  | sent ref rc =>
    obtain ⟨o, hobj, ho⟩ := Option.bind_eq_some_iff.mp h
    split at ho
    case isTrue hphase =>
      cases ho
      refine stepped_modify hobj ?_
      split
      · exact .wait _ hphase
      · exact .leave _ rc (by simp [hphase])
    case isFalse => cases ho
  | wake ref =>
    obtain ⟨o, hobj, ho⟩ := Option.bind_eq_some_iff.mp h
    split at ho
    case isTrue hphase =>
      cases ho
      exact stepped_modify hobj (.leave _ _ (by simp [hphase.1]))
    case isFalse => cases ho
  | receive reply =>
    cases h
    exact stepped_receiveResponse s reply
  | expire seconds now resolution =>
    cases h
    exact stepped_expireTimeout s seconds now resolution
  | reset now =>
    cases h
    exact stepped_resetTimeouts s now

/-! ## What every run keeps -/

/-- How many references the pool has taken of a transaction whose thread stands there. -/
def Phase.PooledOk : Phase → Nat → Prop
  | .created, pooled => pooled = 0
  | .added, pooled => pooled = 1
  | .waiting, pooled => pooled = 1
  | .left _, pooled => pooled ≤ 1

/-- The references a thread holds. -/
def Phase.refs : Phase → Nat
  | .left _ => 0
  | _ => 1

/-- A transaction that `n` slots hold. -/
structure TrxObj.Ok (n : Nat) (o : TrxObj) : Prop where
  /-- Every post used up a reference of the pool. -/
  posts_le : o.posts + n ≤ o.pooled
  pooled : o.phase.PooledOk o.pooled
  counted : o.refCount = o.phase.refs + n
  trxId_ne : o.trx.trxId ≠ trxMatchAny

/-- What holds of every reachable session. -/
structure IpcSession.Ok (s : IpcSession) : Prop where
  outstanding_lt : ∀ ref ∈ s.outstanding, ref < s.objs.length
  generator : trxIdMin ≤ s.trxIdGenerator ∧ s.trxIdGenerator < trxIdMax
  objs : ∀ (ref : Nat) (o : TrxObj), s.objs[ref]? = some o → o.Ok (s.slots ref)

theorem Phase.PooledOk.le {phase : Phase} {pooled : Nat} (h : phase.PooledOk pooled) :
    pooled ≤ 1 := by
  cases phase <;> simp only [PooledOk] at h <;> omega

theorem ObjStep.ok {lost : Prop} {n n' : Nat} {o o' : TrxObj} (h : ObjStep lost n o n' o')
    (hok : o.Ok n) : o'.Ok n' := by
  obtain ⟨hposts, hpooled, hcounted, hid⟩ := hok
  have hle := hpooled.le
  cases h with
  | same => exact ⟨hposts, hpooled, hcounted, hid⟩
  | leave n rc hphase =>
    have hrefs : o.phase.refs = 1 := by
      cases hp : o.phase with
      | left rc => exact absurd hp (hphase rc)
      | _ => rfl
    refine ⟨hposts, hle, ?_, hid⟩
    show o.refCount - 1 = ((0 : Nat) : Int) + n
    rw [hcounted, hrefs]
    omega
  | enter n hphase =>
    rw [hphase] at hpooled hcounted
    simp only [Phase.PooledOk] at hpooled
    refine ⟨?_, ?_, ?_, hid⟩
    · simp only [TrxObj.enter, TrxObj.getRef]
      omega
    · simp [TrxObj.enter, Phase.PooledOk, hpooled]
    · simp only [TrxObj.enter, TrxObj.getRef, hcounted, Phase.refs]
      omega
  | wait n hphase =>
    rw [hphase] at hpooled hcounted
    exact ⟨hposts, hpooled, hcounted, hid⟩
  | complete n o response =>
    refine ⟨?_, hpooled, ?_, hid⟩
    · simp only [TrxObj.complete, TrxObj.signal, TrxObj.putRef]
      omega
    · simp only [TrxObj.complete, TrxObj.signal, TrxObj.putRef, hcounted]
      omega
  | lose n o hlost =>
    refine ⟨?_, hpooled, ?_, hid⟩
    · simp only [TrxObj.putRef]
      omega
    · simp only [TrxObj.putRef, hcounted]
      omega
  | expire o hn =>
    refine ⟨?_, hpooled, ?_, hid⟩
    · simp only [TrxObj.expire, TrxObj.signal, TrxObj.putRef]
      omega
    · simp only [TrxObj.expire, TrxObj.signal, TrxObj.putRef, hcounted]
      omega
  | reset n o now => exact ⟨hposts, hpooled, hcounted, hid⟩

theorem TrxObj.IsNew.ok {trxId : UInt64} {o : TrxObj} (h : o.IsNew trxId)
    (hid : trxId ≠ trxMatchAny) : o.Ok 0 := by
  obtain ⟨htrxId, hcount, hphase, hposts, hpooled⟩ := h
  refine ⟨by omega, ?_, ?_, htrxId ▸ hid⟩
  · rw [hphase]
    exact hpooled
  · rw [hcount, hphase]
    rfl

/-- The generator stays between its bounds, below the wild card. -/
theorem nextTrxId_spec {generator : UInt64} (hmin : trxIdMin ≤ generator)
    (hmax : generator < trxIdMax) : (nextTrxId generator).1 ≠ trxMatchAny ∧
      trxIdMin ≤ (nextTrxId generator).2 ∧ (nextTrxId generator).2 < trxIdMax := by
  have hmin' : trxIdMin.toNat ≤ generator.toNat := UInt64.le_iff_toNat_le.mp hmin
  have hmax' : generator.toNat < trxIdMax.toNat := UInt64.lt_iff_toNat_lt.mp hmax
  have hbounds : trxIdMin.toNat = 0x8000000000000000 ∧ trxIdMax.toNat = 0xFFFFFFFFFFFF0000 ∧
      trxMatchAny.toNat = 0xFFFFFFFFFFFFFFFF := by decide
  have hnext : (generator + 1).toNat = generator.toNat + 1 := by
    rw [UInt64.toNat_add, UInt64.toNat_one]
    omega
  refine ⟨?_, ?_⟩
  · intro heq
    have := congrArg UInt64.toNat (show generator + 1 = trxMatchAny from heq)
    omega
  · simp only [nextTrxId]
    split
    case isTrue => decide
    case isFalse hne =>
      have hne' : (generator + 1).toNat ≠ trxIdMax.toNat := fun h => hne (UInt64.toNat_inj.mp h)
      rw [UInt64.le_iff_toNat_le, UInt64.lt_iff_toNat_lt]
      omega

/-- **Every step keeps a session in order.** -/
theorem step_ok {s s' : IpcSession} {a : Act} (h : step s a = some s') (hok : s.Ok) : s'.Ok := by
  have hstepped := step_stepped h
  have hnext := nextTrxId_spec hok.generator.1 hok.generator.2
  constructor
  · intro ref href
    rcases hstepped.outstanding ref href with hold | hlt
    · exact lt_of_lt_of_le (hok.outstanding_lt ref hold) hstepped.length_le
    · exact lt_of_lt_of_le hlt hstepped.length_le
  · rcases hstepped.generator with heq | heq <;> rw [heq]
    · exact hok.generator
    · exact hnext.2
  · intro ref o' ho'
    rcases hstepped.objs ref o' ho' with ⟨o, hobj, hstep⟩ | ⟨rfl, hslots, hnew⟩
    · exact hstep.ok (hok.objs ref o hobj)
    · have hfree : s.slots s.objs.length = 0 :=
        List.count_eq_zero_of_not_mem fun hmem => lt_irrefl _ (hok.outstanding_lt _ hmem)
      rw [hslots, hfree]
      exact hnew.ok hnext.1

theorem init_ok : IpcSession.init.Ok where
  outstanding_lt ref href := by
    simp [IpcSession.outstanding, IpcSession.init] at href
  generator := by decide
  objs ref o ho := by
    simp [IpcSession.init] at ho

/-! ## Replies -/

/-- A response completes a transaction: its thread is signalled. -/
def Completes (s : IpcSession) (r : Reply) (ref : Nat) : Prop :=
  ∃ o o', s.objs[ref]? = some o ∧ (receiveResponse s r).objs[ref]? = some o' ∧ o.posts < o'.posts

/-- A response completes no transaction but an outstanding one that has its id. -/
def ReachesOwn (s : IpcSession) : Act → Prop
  | .receive r => ∀ ref, Completes s r ref →
      ref ∈ s.outstanding ∧ ∃ o, s.objs[ref]? = some o ∧ o.trx.trxId = r.trxId
  | _ => True

/-- No response that can be copied carries the wild card while transactions are outstanding. -/
def NoWildCard (s : IpcSession) : Act → Prop
  | .receive r => r.trxId = trxMatchAny → r.cloned = true → s.outstanding = []
  | _ => True

/-- What a response completes is what it takes out of the pool. -/
theorem completes_iff {s : IpcSession} {r : Reply} {ref : Nat} : Completes s r ref ↔
    r.cloned = true ∧ ∃ s', getTransaction s esifInvalidHandle r.trxId = some (ref, s') := by
  unfold Completes receiveResponse
  cases hget : getTransaction s esifInvalidHandle r.trxId with
  | none => simp +contextual
  | some taken =>
    obtain ⟨ref', s'⟩ := taken
    obtain ⟨hmatch, -, -, hobjs, -⟩ := getTransaction_spec hget
    obtain ⟨o, hobj, -⟩ := IpcSession.isMatch_obj hmatch
    by_cases hcloned : r.cloned
    · by_cases href : ref = ref'
      · subst href
        simp [hcloned, hobj, hobjs, IpcSession.modify, TrxObj.complete, TrxObj.signal,
          TrxObj.putRef]
      · have href' := Ne.symm href
        simp +contextual [hcloned, hobjs, IpcSession.modify, href']
    · by_cases href : ref = ref'
      · subst href
        simp [hcloned, hobj, hobjs, TrxObj.putRef]
      · have href' := Ne.symm href
        simp +contextual [hcloned, hobjs, href']

/-- The wild cards take whatever is in the pool. -/
theorem getTransaction_any {s : IpcSession} (hok : s.Ok) (hne : s.outstanding ≠ []) :
    ∃ ref s', getTransaction s esifInvalidHandle trxMatchAny = some (ref, s') := by
  obtain ⟨ref, rest, hpool⟩ := List.exists_cons_of_ne_nil hne
  have hmem : ref ∈ s.outstanding := by
    rw [hpool]
    exact List.mem_cons_self
  have hmatch : s.isMatch esifInvalidHandle trxMatchAny ref = true := by
    have hlt := hok.outstanding_lt ref hmem
    simp [IpcSession.isMatch, List.getElem?_eq_getElem hlt]
  cases htake : takeFirst (s.isMatch esifInvalidHandle trxMatchAny) s.trxPool with
  | none =>
    have hno := takeFirst_eq_none_iff.mp htake ref hmem
    rw [hmatch] at hno
    cases hno
  | some taken => exact ⟨taken.1, _, by rw [getTransaction, htake]; rfl⟩

theorem reachesOwn_iff {s : IpcSession} (hok : s.Ok) (a : Act) :
    ReachesOwn s a ↔ NoWildCard s a := by
  cases a with
  | receive r =>
    constructor
    · intro hreaches hany hcloned
      by_contra hne
      obtain ⟨ref, s', hget⟩ := getTransaction_any hok hne
      rw [← hany] at hget
      obtain ⟨-, o, hobj, hid⟩ := hreaches ref (completes_iff.mpr ⟨hcloned, s', hget⟩)
      exact (hok.objs ref o hobj).trxId_ne (hid.trans hany)
    · intro hno ref hcompletes
      obtain ⟨hcloned, s', hget⟩ := completes_iff.mp hcompletes
      obtain ⟨hmatch, -, hperm, -⟩ := getTransaction_spec hget
      have hmem : ref ∈ s.outstanding := hperm.mem_iff.mpr List.mem_cons_self
      obtain ⟨o, hobj, hid⟩ := IpcSession.isMatch_obj hmatch
      refine ⟨hmem, o, hobj, hid.resolve_right ?_⟩
      intro hany
      rw [hno hany hcloned] at hmem
      cases hmem
  | _ => exact Iff.rfl

/-- **Replies reach only their own transaction**, in exactly the runs in which no response that
can be copied carries the wild card while transactions are outstanding. -/
theorem replies_reach_own_iff (as : List Act) :
    EveryStep step ReachesOwn IpcSession.init as ↔ EveryStep step NoWildCard IpcSession.init as :=
  have hstep : ∀ s a s', step s a = some s' → IpcSession.Ok s → IpcSession.Ok s' :=
    fun _ _ _ => step_ok
  everyStep_congr hstep (fun _ a hok => reachesOwn_iff hok a) init_ok as

/-- A thread that has sent its request and waits. -/
def oneWaiter : List Act :=
  [.create 7 ⟨0, 0⟩ .create, .add 0 false, .sent 0 esifOk]

/-- **The wild card reaches a transaction that has another id.** -/
theorem reply_reaches_any : ∃ s o, run step IpcSession.init oneWaiter = some s ∧
    Completes s ⟨trxMatchAny, [1], true⟩ 0 ∧ s.objs[0]? = some o ∧ o.trx.trxId = trxIdMin + 1 := by
  refine ⟨_, _, rfl, ?_, rfl, rfl⟩
  exact ⟨_, _, rfl, rfl, by decide⟩

/-! ## Waiters -/

/-- A transaction whose thread waits is in the pool until it is signalled, and it is signalled
at most once, for the reference the pool took. -/
def NoneForgotten (s : IpcSession) : Prop :=
  ∀ (ref : Nat) (o : TrxObj), s.objs[ref]? = some o →
    (o.phase = .waiting → o.posts = 0 → ref ∈ s.outstanding) ∧
      o.posts ≤ o.pooled ∧ o.pooled ≤ 1

/-- No transaction is lost whose thread is still there. -/
def KeepsWaiters (s : IpcSession) (a : Act) : Prop :=
  ∀ (ref : Nat) (o : TrxObj), Loses s a ref → s.objs[ref]? = some o → ∃ rc, o.phase = .left rc

/-- While its thread is there, a transaction has been signalled or is in the pool. -/
def TrxObj.Kept (n : Nat) (o : TrxObj) : Prop := (∃ rc, o.phase = .left rc) ∨ o.posts + n = o.pooled

theorem ObjStep.kept {lost : Prop} {n n' : Nat} {o o' : TrxObj} (h : ObjStep lost n o n' o')
    (hlost : lost → ∃ rc, o.phase = .left rc) (hok : o.Ok n) (hkept : o.Kept n) : o'.Kept n' := by
  have hle := hok.pooled.le
  have hposts := hok.posts_le
  cases h with
  | same => exact hkept
  | leave n rc hphase => exact Or.inl ⟨rc, rfl⟩
  | enter n hphase =>
    refine hkept.imp (fun ⟨rc, hleft⟩ => nomatch hphase.symm.trans hleft) fun heq => ?_
    show o.posts + (n + 1) = o.pooled + 1
    omega
  | wait n hphase =>
    exact hkept.imp (fun ⟨rc, hleft⟩ => nomatch hphase.symm.trans hleft) id
  | complete n o response =>
    refine hkept.imp id fun heq => ?_
    show o.posts + 1 + _ = o.pooled
    omega
  | lose n o hlose => exact Or.inl (hlost hlose)
  | expire o hn =>
    refine hkept.imp id fun heq => ?_
    show o.posts + 1 + 0 = o.pooled
    omega
  | reset n o now => exact hkept

/-- A session in order in which every transaction is kept. -/
structure IpcSession.AllKept (s : IpcSession) : Prop extends s.Ok where
  kept : ∀ (ref : Nat) (o : TrxObj), s.objs[ref]? = some o → o.Kept (s.slots ref)

theorem step_allKept {s s' : IpcSession} {a : Act} (hkeeps : KeepsWaiters s a)
    (h : step s a = some s') (hs : s.AllKept) : s'.AllKept where
  toOk := step_ok h hs.toOk
  kept ref o' ho' := by
    rcases (step_stepped h).objs ref o' ho' with ⟨o, hobj, hstep⟩ | ⟨rfl, hslots, hnew⟩
    · exact hstep.kept (fun hlose => hkeeps ref o hlose hobj) (hs.objs ref o hobj)
        (hs.kept ref o hobj)
    · have hfree : s.slots s.objs.length = 0 :=
        List.count_eq_zero_of_not_mem fun hmem => lt_irrefl _ (hs.outstanding_lt _ hmem)
      obtain ⟨-, -, -, hposts, hpooled⟩ := hnew
      rw [hslots, hfree]
      exact Or.inr (by rw [hposts, hpooled])

theorem IpcSession.AllKept.noneForgotten {s : IpcSession} (h : s.AllKept) : NoneForgotten s := by
  intro ref o hobj
  have hok := h.objs ref o hobj
  refine ⟨?_, by have := hok.posts_le; omega, hok.pooled.le⟩
  intro hwaiting hposts
  have hpooled : o.pooled = 1 := by
    have := hok.pooled
    rwa [hwaiting] at this
  rcases h.kept ref o hobj with ⟨rc, hleft⟩ | heq
  · rw [hwaiting] at hleft
    cases hleft
  · apply List.count_pos_iff.mp
    show 0 < s.slots ref
    omega

/-- **No waiter is forgotten** in a run that loses no transaction whose thread is still there. -/
theorem none_forgotten_of_kept (as : List Act) {s : IpcSession}
    (hkeeps : EveryStep step KeepsWaiters IpcSession.init as)
    (hrun : run step IpcSession.init as = some s) : NoneForgotten s := by
  have hinit : IpcSession.init.AllKept :=
    { init_ok with kept := fun ref o ho => by simp [IpcSession.init] at ho }
  exact (run_invariant_of_everyStep (fun _ _ _ => step_allKept) hkeeps hrun hinit).noneForgotten

/-- The waiter gets its response, and a second thread's transaction expires. -/
def answeredAndExpired : List Act :=
  oneWaiter ++ [.create 7 ⟨5, 0⟩ .create, .add 1 false, .receive ⟨trxIdMin + 1, [1], true⟩,
    .sent 1 esifOk, .expire trxExpireAll ⟨6, 0⟩ 1]

theorem none_forgotten_of_kept_answered :
    ∃ s, run step IpcSession.init answeredAndExpired = some s ∧ NoneForgotten s := by
  refine ⟨_, rfl, none_forgotten_of_kept answeredAndExpired ?_ rfl⟩
  apply everyStep_of_mem
  intro a ha s ref o hloses
  cases a with
  | receive r =>
    obtain rfl : r = ⟨trxIdMin + 1, [1], true⟩ := by
      simpa [answeredAndExpired, oneWaiter] using ha
    exact absurd hloses.1 (by decide)
  | _ => exact hloses.elim

/-- **A response without a payload leaves its thread waiting**: the transaction is out of the
pool and was not signalled. -/
theorem response_forgets_waiter : ∃ s,
    run step IpcSession.init (oneWaiter ++ [.receive ⟨trxIdMin + 1, [], true⟩]) = some s ∧
      ¬ NoneForgotten s := by
  refine ⟨_, rfl, ?_⟩
  intro hnone
  have hmem := (hnone 0 _ rfl).1 rfl rfl
  revert hmem
  decide

end Irpc

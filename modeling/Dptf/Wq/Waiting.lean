import Mathlib.Data.List.Nodup
import Mathlib.Logic.Relation
import Dptf.Wq.Manager

/-!
# Every waiting caller is released once

A caller who waits for an item is signalled when the item was executed, when it was removed, and
when the queue was emptied, through the item in the queue or the one inside it.

* `released_run` — **it holds after every run**.
-/

open Lib
open Mgr (UIntN)

namespace Wq

/-- The semaphores that items are to signal. -/
def awaited (items : List ImmediateWorkItem) : List Nat := items.filterMap fun x => x.item.completion

/-- Where the items are, and what happened to their callers. -/
structure Custody where
  queue : List ImmediateWorkItem
  semaphore : Nat
  thread : ThreadPhase
  callers : Nat
  accepted : List Nat
  threw : List Nat
  signals : List Nat
  returned : List Nat
  executed : List ImmediateWorkItem
  removed : List ImmediateWorkItem

/-- The items and the callers of the manager. -/
def Manager.custody (s : Manager) : Custody where
  queue := s.immediate.queue
  semaphore := s.workItemQueueSemaphore
  thread := s.thread
  callers := s.callers
  accepted := s.accepted
  threw := s.threw
  signals := s.signals
  returned := s.returned
  executed := s.executed
  removed := s.removed

/-- All that a step can do to the items and the callers. -/
inductive Custody.Effect (c : Custody) : Custody → Prop
  | same : Effect c c
  | post : Effect c { c with semaphore := c.semaphore + 1 }
  | insert {x : ImmediateWorkItem} {queue : List ImmediateWorkItem}
      (hx : x.item.completion = none) (hq : queue.Perm (x :: c.queue)) :
      Effect c { c with queue := queue, semaphore := c.semaphore + 1 }
  | accept {x : ImmediateWorkItem} {queue : List ImmediateWorkItem}
      (hx : x.item.completion = some c.callers) (hq : queue.Perm (x :: c.queue)) :
      Effect c { c with
        queue := queue
        semaphore := c.semaphore + 1
        callers := c.callers + 1
        accepted := c.accepted ++ [c.callers] }
  | refuse :
      Effect c { c with
        callers := c.callers + 1
        threw := c.threw ++ [c.callers] }
  | remove {queue items : List ImmediateWorkItem} (hq : (items ++ queue).Perm c.queue) :
      Effect c { c with
        queue := queue
        removed := c.removed ++ items
        signals := c.signals ++ awaited items }
  | sleep (hthread : c.thread = .dequeuing) (hq : c.queue = []) :
      Effect c { c with thread := .waiting }
  | wake {semaphore : Nat} (hthread : c.thread = .waiting) (hn : c.semaphore = semaphore + 1) :
      Effect c { c with thread := .dequeuing, semaphore := semaphore }
  | dequeue {x : ImmediateWorkItem} {queue : List ImmediateWorkItem}
      (hthread : c.thread = .dequeuing) (hq : c.queue = x :: queue) :
      Effect c { c with queue := queue, thread := .executing x }
  | endExecution {x : ImmediateWorkItem} (hthread : c.thread = .executing x) :
      Effect c { c with thread := .executed x, executed := c.executed ++ [x] }
  | signal {x : ImmediateWorkItem} (hthread : c.thread = .executed x) :
      Effect c { c with thread := .dequeuing, signals := c.signals ++ awaited [x] }
  | endWait {caller : Nat} (hcaller : caller ∈ c.signals) :
      Effect c { c with returned := c.returned ++ [caller] }

/-! ## What the steps do -/

/-- An item signals the same caller when it is removed as when it was executed: nobody waits for a
deferred item. -/
theorem WrappedItem.signal_eq (w : WrappedItem) : w.signal = w.completion := by
  cases w with
  | direct workItem => rfl
  | deferred item => exact item.unawaited.symm

theorem awaited_singleton (x : ImmediateWorkItem) : awaited [x] = x.item.completion.toList := by
  rw [awaited]
  cases h : x.item.completion <;> simp [h]

theorem awaited_append (xs ys : List ImmediateWorkItem) :
    awaited (xs ++ ys) = awaited xs ++ awaited ys := List.filterMap_append

namespace Manager

variable {s : Manager}

theorem effect_removeImmediate {removal : ImmediateWorkItemQueue × List ImmediateWorkItem}
    (h : (removal.2 ++ removal.1.queue).Perm s.immediate.queue) :
    s.custody.Effect (s.removeImmediate removal).custody := by
  have hsignals : removal.2.filterMap (fun x => x.item.signal) = awaited removal.2 := by
    simp only [awaited, WrappedItem.signal_eq]
  have heffect := Custody.Effect.remove (c := s.custody) h
  rw [← hsignals] at heffect
  exact heffect

theorem effect_enqueueImmediate {x : ImmediateWorkItem} (hx : x.item.completion = none) :
    s.custody.Effect (s.enqueueImmediate x).custody := by
  rcases s.immediate.enqueue_cases x with ⟨-, heq⟩ | ⟨-, hthrew, hqueue⟩
  · have hsame : (s.enqueueImmediate x).custody = s.custody := by
      simp only [custody, enqueueImmediate, heq, if_true]
    rw [hsame]
    exact .same
  · have hinsert := Custody.Effect.insert (c := s.custody) hx
      (hqueue ▸ insertLast_perm x s.immediate.queue)
    rwa [enqueueImmediate, hthrew]

theorem effect_enqueueAndWait (w : NewWorkItem) (p : UIntN) :
    s.custody.Effect (s.enqueueAndWait w p).custody := by
  rw [enqueueAndWait]
  split
  · rename_i haccepted
    rcases s.immediate.enqueue_cases
      ⟨.direct (w.workItem.signalAtCompletion s.callers), p⟩ with ⟨-, heq⟩ | ⟨-, hthrew, hqueue⟩
    · rw [heq] at haccepted
      cases haccepted.2
    · have haccept := Custody.Effect.accept (c := s.custody)
        (x := ⟨.direct (w.workItem.signalAtCompletion s.callers), p⟩) rfl
        (hqueue ▸ insertLast_perm _ s.immediate.queue)
      rwa [enqueueImmediate, hthrew]
  · exact .refuse

variable {s' : Manager}

theorem effect_enqueueAndReturn {w : NewWorkItem} {p : UIntN}
    (hstep : s.step (.enqueueAndReturn w p) = some s') : s.custody.Effect s'.custody := by
  rw [step] at hstep
  split at hstep
  · cases hstep
    rw [enqueueAndReturn]
    split
    · exact effect_enqueueImmediate w.unawaited
    · exact .same
  · cases hstep

/-- What waits for the timer is not accounted for. -/
theorem effect_enqueueDeferred {x : DeferredWorkItem}
    (hstep : s.step (.enqueueDeferred x) = some s') : s.custody.Effect s'.custody := by
  rw [step] at hstep
  split at hstep
  · split at hstep
    · split at hstep
      · cases hstep
        exact .same
      · cases hstep
    · cases hstep
      exact .same
  · cases hstep

theorem effect_removeIfMatches {c : WorkItemMatchCriteria}
    (hstep : s.step (.removeIfMatches c) = some s') : s.custody.Effect s'.custody := by
  rw [step] at hstep
  split at hstep
  · cases hstep
    refine @effect_removeImmediate s (s.immediate.removeIfMatches c) ?_
    have hsplit :=
      List.filter_append_perm (fun x : ImmediateWorkItem => x.isMatch c) s.immediate.queue
    simpa [ImmediateWorkItemQueue.removeIfMatches] using hsplit
  · cases hstep

theorem effect_emptyImmediate (hstep : s.step .emptyImmediate = some s') :
    s.custody.Effect s'.custody := by
  rw [step] at hstep
  split at hstep
  · cases hstep
    refine @effect_removeImmediate s s.immediate.makeEmpty ?_
    rw [ImmediateWorkItemQueue.makeEmpty, List.append_nil]
  · cases hstep

theorem effect_dequeue (hstep : s.step .dequeue = some s') : s.custody.Effect s'.custody := by
  obtain ⟨hthread, ⟨x, queue, hqueue, rfl⟩ | ⟨hqueue, rfl⟩⟩ := step_dequeue hstep
  · exact .dequeue hthread hqueue
  · exact .sleep hthread hqueue

/-- **What a step does** to the items and the callers. -/
theorem effect_of_step {op : ManagerOp} (hstep : s.step op = some s') :
    s.custody.Effect s'.custody := by
  cases op with
  | wait elapsed =>
    cases hstep
    exact .same
  | enqueueAndReturn w p => exact effect_enqueueAndReturn hstep
  | enqueueAndWait w p =>
    rw [step] at hstep
    split at hstep
    · cases hstep
      exact effect_enqueueAndWait w p
    · cases hstep
  | executeDirectly w =>
    rw [step] at hstep
    split at hstep
    · cases hstep
      rw [w.unawaited, Option.toList_none, List.append_nil]
      exact .same
    · cases hstep
  | enqueueDeferred x => exact effect_enqueueDeferred hstep
  | removeIfMatches c => exact effect_removeIfMatches hstep
  | removeDeferred =>
    rw [step] at hstep
    split at hstep
    · split at hstep
      · cases hstep
        exact .same
      · cases hstep
    · cases hstep
  | disable | emptyDeferred =>
    rw [step] at hstep
    split at hstep
    · cases hstep
      exact .same
    · cases hstep
  | emptyImmediate => exact effect_emptyImmediate hstep
  | expire | take | lock | unlock =>
    obtain ⟨q, -, rfl⟩ := Option.map_eq_some_iff.1 hstep
    exact .same
  | move =>
    obtain ⟨⟨q, item⟩, -, rfl⟩ := Option.map_eq_some_iff.1 hstep
    exact effect_enqueueImmediate item.unawaited
  | finish =>
    obtain ⟨q, -, rfl⟩ := Option.map_eq_some_iff.1 hstep
    exact .post
  | dequeue => exact effect_dequeue hstep
  | endExecution =>
    rw [step] at hstep
    split at hstep
    · rename_i hthread
      cases hstep
      exact .endExecution hthread
    · cases hstep
  | signal =>
    rw [step] at hstep
    split at hstep
    · rename_i hthread
      cases hstep
      rw [← awaited_singleton]
      exact .signal hthread
    · cases hstep
  | wake =>
    rw [step] at hstep
    split at hstep
    · rename_i hthread hsemaphore
      cases hstep
      exact .wake hthread hsemaphore
    · cases hstep
  | endWait i =>
    obtain ⟨hcaller, rfl⟩ := Option.ite_some_none_eq_some.1 hstep
    exact .endWait hcaller.2.1

end Manager

/-! ## The semaphores -/

/-- Each accepted caller is waited for in one place, or was signalled; it was signalled for an item
that was executed or removed; and the thread does not sleep while items are queued. -/
structure Custody.Kept (c : Custody) : Prop where
  held : ∀ i, (awaited c.queue).count i + (awaited c.thread.inHand.toList).count i +
    c.signals.count i = c.accepted.count i
  numbered : ∀ i, c.accepted.count i + c.threw.count i = if i < c.callers then 1 else 0
  settled : ∀ i, (awaited c.executed).count i + (awaited c.removed).count i =
    c.signals.count i + (awaited c.thread.ended.toList).count i
  returned : ∀ i ∈ c.returned, i ∈ c.signals
  awake : c.thread = .waiting → c.queue.length ≤ c.semaphore

theorem count_awaited_perm {xs ys : List ImmediateWorkItem} (h : xs.Perm ys) (i : Nat) :
    (awaited xs).count i = (awaited ys).count i := (h.filterMap _).count_eq i

theorem count_awaited_append (xs ys : List ImmediateWorkItem) (i : Nat) :
    (awaited (xs ++ ys)).count i = (awaited xs).count i + (awaited ys).count i := by
  rw [awaited_append, List.count_append]

theorem count_awaited_cons (x : ImmediateWorkItem) (xs : List ImmediateWorkItem) (i : Nat) :
    (awaited (x :: xs)).count i = (awaited [x]).count i + (awaited xs).count i :=
  count_awaited_append [x] xs i

/-- A new caller has a new number. -/
theorem count_callers (n i : Nat) :
    (if i < n + 1 then 1 else 0) = (if i < n then 1 else 0) + [n].count i := by
  rw [List.count_singleton]
  by_cases h : i = n
  · simp [h]
  · have hne : n ≠ i := fun hn => h hn.symm
    simp only [beq_iff_eq, hne, if_false, Nat.add_zero]
    split <;> split <;> omega

namespace Custody.Kept

variable {c : Custody}

/-- An item that comes into the queue, with a caller or without. -/
theorem insert (h : c.Kept) {x : ImmediateWorkItem} {queue : List ImmediateWorkItem}
    (hq : queue.Perm (x :: c.queue)) (i : Nat) :
    (awaited queue).count i + (awaited c.thread.inHand.toList).count i + c.signals.count i =
      c.accepted.count i + x.item.completion.toList.count i := by
  have hawaited := count_awaited_perm hq i
  rw [count_awaited_cons, awaited_singleton] at hawaited
  have hheld := h.held i
  omega

theorem awake_insert (h : c.Kept) {x : ImmediateWorkItem} {queue : List ImmediateWorkItem}
    (hq : queue.Perm (x :: c.queue)) (hthread : c.thread = .waiting) :
    queue.length ≤ c.semaphore + 1 := by
  rw [hq.length_eq, List.length_cons]
  exact Nat.succ_le_succ (h.awake hthread)

/-- **Each step** keeps the semaphores. -/
theorem step (h : c.Kept) {c' : Custody} (heffect : c.Effect c') : c'.Kept := by
  cases heffect with
  | same => exact h
  | post => exact { h with awake := fun hthread => Nat.le_succ_of_le (h.awake hthread) }
  | insert hx hq =>
    refine { h with held := fun i => ?_, awake := h.awake_insert hq }
    have hinsert := h.insert hq i
    rwa [hx, Option.toList_none, List.count_nil, Nat.add_zero] at hinsert
  | accept hx hq =>
    refine ⟨fun i => ?_, fun i => ?_, h.settled, h.returned, h.awake_insert hq⟩
    · have hinsert := h.insert hq i
      rw [hx, Option.toList_some] at hinsert
      dsimp only
      rwa [List.count_append]
    · have hnumbered := h.numbered i
      dsimp only
      rw [List.count_append, count_callers]
      omega
  | refuse =>
    refine { h with numbered := fun i => ?_ }
    have hnumbered := h.numbered i
    dsimp only
    rw [List.count_append, count_callers]
    omega
  | remove hq =>
    refine ⟨fun i => ?_, h.numbered, fun i => ?_, fun i hi => ?_, fun hthread => ?_⟩
    · have hawaited := count_awaited_perm hq i
      rw [count_awaited_append] at hawaited
      have hheld := h.held i
      dsimp only
      rw [List.count_append]
      omega
    · have hsettled := h.settled i
      dsimp only
      rw [count_awaited_append, List.count_append]
      omega
    · exact List.mem_append_left _ (h.returned i hi)
    · have hlength := hq.length_eq
      rw [List.length_append] at hlength
      have hawake := h.awake hthread
      dsimp only
      omega
  | sleep hthread hq =>
    refine ⟨fun i => ?_, h.numbered, fun i => ?_, h.returned, fun _ => ?_⟩
    · have hheld := h.held i
      rw [hthread] at hheld
      exact hheld
    · have hsettled := h.settled i
      rw [hthread] at hsettled
      exact hsettled
    · dsimp only
      rw [hq]
      exact Nat.zero_le _
  | wake hthread hn =>
    refine ⟨fun i => ?_, h.numbered, fun i => ?_, h.returned, nofun⟩
    · have hheld := h.held i
      rw [hthread] at hheld
      exact hheld
    · have hsettled := h.settled i
      rw [hthread] at hsettled
      exact hsettled
  | dequeue hthread hq =>
    refine ⟨fun i => ?_, h.numbered, fun i => ?_, h.returned, nofun⟩
    · have hheld := h.held i
      rw [hq, hthread, count_awaited_cons] at hheld
      simp only [ThreadPhase.inHand, Option.toList_some]
      simp only [ThreadPhase.inHand, Option.toList_none, awaited, List.filterMap_nil,
        List.count_nil] at hheld ⊢
      omega
    · have hsettled := h.settled i
      rw [hthread] at hsettled
      exact hsettled
  | endExecution hthread =>
    refine ⟨fun i => ?_, h.numbered, fun i => ?_, h.returned, nofun⟩
    · have hheld := h.held i
      rw [hthread] at hheld
      exact hheld
    · have hsettled := h.settled i
      rw [hthread] at hsettled
      dsimp only
      rw [count_awaited_append]
      simp only [ThreadPhase.ended, Option.toList_none, Option.toList_some, awaited,
        List.filterMap_nil, List.count_nil] at hsettled ⊢
      omega
  | signal hthread =>
    refine ⟨fun i => ?_, h.numbered, fun i => ?_, fun i hi => ?_, nofun⟩
    · have hheld := h.held i
      rw [hthread] at hheld
      dsimp only
      rw [List.count_append]
      simp only [ThreadPhase.inHand, Option.toList_none, Option.toList_some, awaited,
        List.filterMap_nil, List.count_nil] at hheld ⊢
      omega
    · have hsettled := h.settled i
      rw [hthread] at hsettled
      dsimp only
      rw [List.count_append]
      simp only [ThreadPhase.ended, Option.toList_none, Option.toList_some, awaited,
        List.filterMap_nil, List.count_nil] at hsettled ⊢
      omega
    · exact List.mem_append_left _ (h.returned i hi)
  | endWait hcaller =>
    refine { h with returned := fun i hi => ?_ }
    rcases List.mem_append.1 hi with hi | hi
    · exact h.returned i hi
    · obtain rfl := List.mem_singleton.1 hi
      exact hcaller

end Custody.Kept

theorem kept_start (now : Int) : (Manager.start now).custody.Kept where
  held _ := rfl
  numbered i := (if_neg (Nat.not_lt_zero i)).symm
  settled _ := rfl
  returned i hi := by cases hi
  awake := nofun

theorem Manager.kept_step {s s' : Manager} {op : ManagerOp} (hstep : s.step op = some s')
    (h : s.custody.Kept) : s'.custody.Kept := h.step (effect_of_step hstep)

/-! ## The callers -/

namespace Manager

/-- The items that are queued, and the one the thread has in its hand. -/
def pending (s : Manager) : List ImmediateWorkItem := s.immediate.queue ++ s.thread.inHand.toList

/-- Whether the item of a caller is rejected: the enqueueing is disabled, or it is a duplicate. -/
def Rejects (s : Manager) (newWorkItem : NewWorkItem) (priority : UIntN) : Prop :=
  ¬ s.canEnqueueImmediateWorkItem newWorkItem.workItem ∨
    ImmediateWorkItemQueue.throwsIfDuplicate s.immediate.queue
      ⟨.direct (newWorkItem.workItem.signalAtCompletion s.callers), priority⟩ = true

/-- A step of the work item thread. -/
def ThreadStep (s s' : Manager) : Prop :=
  s.step .dequeue = some s' ∨ s.step .endExecution = some s' ∨ s.step .signal = some s' ∨
    s.step .wake = some s'

/-- The work item thread alone comes to signal all who wait. -/
def Drains (s : Manager) : Prop :=
  ∃ s', Relation.ReflTransGen ThreadStep s s' ∧ s'.accepted = s.accepted ∧
    ∀ i ∈ s.accepted, i ∈ s'.signals

end Manager

/-- Every waiting caller is released once. -/
structure Released (s : Manager) : Prop where
  /-- No semaphore is signalled twice. -/
  once : s.signals.Nodup
  /-- A semaphore is signalled for an item that was executed or removed, and for no other. -/
  after : ∀ i ∈ s.signals,
    i ∈ s.accepted ∧ i ∈ awaited (s.executed ++ s.removed) ∧ i ∉ awaited s.pending
  /-- A caller who was not signalled waits for an item that will be executed. -/
  waiting : ∀ i ∈ s.accepted, i ∈ s.signals ∨ i ∈ awaited s.pending
  /-- A caller comes back when it was signalled. -/
  returned : ∀ i ∈ s.returned, i ∈ s.signals
  /-- A caller who gets an exception does not wait, and nothing refers to its semaphore. -/
  threw : ∀ i ∈ s.threw, i ∉ s.accepted ∧ i ∉ s.signals ∧ i ∉ awaited s.pending
  /-- The next caller gets an exception just if its item is rejected. -/
  rejected : ∀ w p, s.callers ∈ (s.enqueueAndWait w p).threw ↔ s.Rejects w p
  /-- It waits just if the item is not. -/
  accepted : ∀ w p, s.callers ∈ (s.enqueueAndWait w p).accepted ↔ ¬ s.Rejects w p

namespace Manager

variable {s : Manager}

theorem count_pending (s : Manager) (i : Nat) : (awaited s.pending).count i =
    (awaited s.immediate.queue).count i + (awaited s.thread.inHand.toList).count i := by
  rw [pending, count_awaited_append]

/-- Callers have different numbers, and they either wait or get an exception. -/
theorem count_accepted_le (h : s.custody.Kept) (i : Nat) :
    s.accepted.count i + s.threw.count i ≤ 1 := by
  have hnumbered := h.numbered i
  rw [custody] at hnumbered
  dsimp only at hnumbered
  rw [hnumbered]
  split <;> omega

theorem count_held (h : s.custody.Kept) (i : Nat) :
    (awaited s.pending).count i + s.signals.count i = s.accepted.count i := by
  rw [count_pending]
  exact h.held i

theorem count_callers (h : s.custody.Kept) :
    s.accepted.count s.callers = 0 ∧ s.threw.count s.callers = 0 := by
  have hnumbered := h.numbered s.callers
  rw [custody] at hnumbered
  dsimp only at hnumbered
  rw [if_neg (lt_irrefl _)] at hnumbered
  omega

/-- The next caller gets an exception or waits, as its item is rejected or not. -/
theorem enqueueAndWait_cases (s : Manager) (w : NewWorkItem) (p : UIntN) :
    (s.Rejects w p ∧ (s.enqueueAndWait w p).threw = s.threw ++ [s.callers] ∧
      (s.enqueueAndWait w p).accepted = s.accepted) ∨
    (¬ s.Rejects w p ∧ (s.enqueueAndWait w p).threw = s.threw ∧
      (s.enqueueAndWait w p).accepted = s.accepted ++ [s.callers]) := by
  rw [Rejects, enqueueAndWait]
  rcases s.immediate.enqueue_cases
    ⟨.direct (w.workItem.signalAtCompletion s.callers), p⟩ with ⟨hdup, heq⟩ | ⟨hdup, hthrew, -⟩
  · refine Or.inl ⟨Or.inr hdup, ?_⟩
    rw [if_neg (fun haccepted => by rw [heq] at haccepted; cases haccepted.2)]
    exact ⟨rfl, rfl⟩
  · by_cases hcan : s.canEnqueueImmediateWorkItem w.workItem
    · refine Or.inr ⟨?_, ?_⟩
      · rintro (hnot | hdup')
        · exact hnot hcan
        · rw [hdup] at hdup'
          cases hdup'
      · rw [if_pos ⟨hcan, hthrew⟩]
        exact ⟨rfl, rfl⟩
    · refine Or.inl ⟨Or.inl hcan, ?_⟩
      rw [if_neg (fun haccepted => hcan haccepted.1)]
      exact ⟨rfl, rfl⟩

theorem released_of_kept (h : s.custody.Kept) : Released s where
  once := by
    rw [List.nodup_iff_count_le_one]
    intro i
    have hheld := count_held h i
    have hle := count_accepted_le h i
    omega
  after i hi := by
    have hsignal := List.count_pos_iff.2 hi
    have hheld := count_held h i
    have hle := count_accepted_le h i
    have hsettled := h.settled i
    refine ⟨List.count_pos_iff.1 (by omega), ?_, ?_⟩
    · rw [← List.count_pos_iff, count_awaited_append]
      rw [custody] at hsettled
      dsimp only at hsettled
      omega
    · rw [← List.count_pos_iff]
      omega
  waiting i hi := by
    have haccepted := List.count_pos_iff.2 hi
    have hheld := count_held h i
    rw [← List.count_pos_iff, ← List.count_pos_iff]
    omega
  returned := h.returned
  threw i hi := by
    have hthrew := List.count_pos_iff.2 hi
    have hheld := count_held h i
    have hle := count_accepted_le h i
    rw [← List.count_pos_iff, ← List.count_pos_iff, ← List.count_pos_iff]
    omega
  rejected w p := by
    have hnew := List.count_eq_zero.1 (count_callers h).2
    rcases s.enqueueAndWait_cases w p with ⟨hrejects, hthrew, -⟩ | ⟨hrejects, hthrew, -⟩
    · rw [hthrew]
      exact ⟨fun _ => hrejects, fun _ => List.mem_append_right _ (List.mem_singleton_self _)⟩
    · rw [hthrew]
      exact ⟨fun hmem => absurd hmem hnew, fun h => absurd h hrejects⟩
  accepted w p := by
    have hnew := List.count_eq_zero.1 (count_callers h).1
    rcases s.enqueueAndWait_cases w p with ⟨hrejects, -, haccepted⟩ | ⟨hrejects, -, haccepted⟩
    · rw [haccepted]
      exact ⟨fun hmem => absurd hmem hnew, fun h => absurd hrejects h⟩
    · rw [haccepted]
      exact ⟨fun _ => hrejects, fun _ => List.mem_append_right _ (List.mem_singleton_self _)⟩

/-! ## The thread -/

/-- How much the thread has to do before it has nothing in its hand and nothing is queued. -/
def work (s : Manager) : Nat :=
  4 * s.immediate.queue.length +
    match s.thread with
    | .dequeuing => 0
    | .executing _ => 2
    | .executed _ => 1
    | .waiting => 1

/-- While a caller waits, the thread has a step to take, and less to do after it. -/
theorem progress (h : s.custody.Kept) {i : Nat} (hi : i ∈ s.accepted) (hwaits : i ∉ s.signals) :
    ∃ s', s.ThreadStep s' ∧ s'.accepted = s.accepted ∧ s'.work < s.work := by
  have hqueued : s.thread.inHand = none → ∃ x queue, s.immediate.queue = x :: queue := by
    intro hthread
    have hheld := h.held i
    have haccepted := List.count_pos_iff.2 hi
    have hsignals := List.count_eq_zero.2 hwaits
    rw [custody] at hheld
    dsimp only at hheld
    rw [hthread] at hheld
    cases hq : s.immediate.queue with
    | nil =>
      rw [hq] at hheld
      simp only [Option.toList_none, awaited, List.filterMap_nil, List.count_nil] at hheld
      omega
    | cons x queue => exact ⟨x, queue, rfl⟩
  cases hthread : s.thread with
  | dequeuing =>
    obtain ⟨x, queue, hq⟩ := hqueued (by rw [hthread]; rfl)
    have hstep : s.step .dequeue = some { s with
        immediate := { s.immediate with queue := queue }
        thread := .executing x
        late := if s.shutDown then s.late ++ [x] else s.late } := by
      rw [step, hthread, ImmediateWorkItemQueue.dequeue, hq]
    refine ⟨_, .inl hstep, rfl, ?_⟩
    simp only [work, hq, hthread, List.length_cons]
    omega
  | executing x =>
    have hstep : s.step .endExecution = some { s with
        thread := .executed x
        executed := s.executed ++ [x] } := by
      rw [step, hthread]
    refine ⟨_, .inr (.inl hstep), rfl, ?_⟩
    simp only [work, hthread]
    omega
  | executed x =>
    have hstep : s.step .signal = some { s with
        thread := .dequeuing
        signals := s.signals ++ x.item.completion.toList } := by
      rw [step, hthread]
    refine ⟨_, .inr (.inr (.inl hstep)), rfl, ?_⟩
    simp only [work, hthread]
    omega
  | waiting =>
    obtain ⟨x, queue, hq⟩ := hqueued (by rw [hthread]; rfl)
    have hawake : s.immediate.queue.length ≤ s.workItemQueueSemaphore := h.awake hthread
    rw [hq, List.length_cons] at hawake
    obtain ⟨n, hn⟩ := Nat.exists_eq_add_one_of_ne_zero (Nat.ne_zero_of_lt hawake)
    have hstep : s.step .wake = some { s with
        thread := .dequeuing
        workItemQueueSemaphore := n } := by
      rw [step, hthread, hn]
    refine ⟨_, .inr (.inr (.inr hstep)), rfl, ?_⟩
    simp only [work, hthread]
    omega

/-- **The work item thread alone comes to signal all who wait.** -/
theorem drains (h : s.custody.Kept) : s.Drains := by
  induction hwork : s.work using Nat.strong_induction_on generalizing s with
  | _ n ih =>
    by_cases hall : ∀ i ∈ s.accepted, i ∈ s.signals
    · exact ⟨s, .refl, rfl, hall⟩
    · obtain ⟨i, hi, hwaits⟩ : ∃ i ∈ s.accepted, i ∉ s.signals := by simpa using hall
      obtain ⟨s', hthread, haccepted, hless⟩ := progress h hi hwaits
      have hkept : s'.custody.Kept := by
        rcases hthread with hstep | hstep | hstep | hstep
        all_goals exact kept_step hstep h
      obtain ⟨s'', hsteps, heq, hsignals⟩ := ih s'.work (hwork ▸ hless) hkept rfl
      exact ⟨s'', .head hthread hsteps, heq.trans haccepted, haccepted ▸ hsignals⟩

end Manager

/-- **Every waiting caller is released once**, in every run of the callers, the timer, the shutdown
and the work item thread. -/
theorem released_run {now : Int} {ops : List ManagerOp} {s : Manager}
    (hrun : run Manager.step (Manager.start now) ops = some s) : Released s ∧ s.Drains := by
  have hkept : s.custody.Kept :=
    @run_invariant _ _ Manager.step (fun s => s.custody.Kept)
      (fun _ _ _ hstep h => Manager.kept_step hstep h) _ _ _ hrun (kept_start now)
  exact ⟨Manager.released_of_kept hkept, Manager.drains hkept⟩

/-- The suspension of the system, which a caller waits for. -/
def suspend (uniqueId : UInt64) : NewWorkItem where
  workItem :=
    { frameworkEventType := .dptfSuspend
      uniqueId := uniqueId
      subject := .none
      completionSemaphore := none
      crossed := nofun }
  unawaited := rfl

/-- Two callers, of whom one is released by the thread and the other one by the shutdown, and a
third one who comes too late. -/
def threeCallers : List ManagerOp :=
  [.enqueueAndWait (suspend 1) 1, .dequeue, .enqueueAndWait (suspend 2) 1, .disable,
    .endExecution, .emptyImmediate, .emptyDeferred, .enqueueAndWait (suspend 3) 1, .signal]

theorem released_run_threeCallers :
    ∃ s, run Manager.step (Manager.start 0) threeCallers = some s ∧ s.signals = [1, 0] ∧
      s.threw = [2] ∧ Released s ∧ s.Drains := by
  obtain ⟨s, hrun, hsignals, hthrew⟩ : ∃ s, run Manager.step (Manager.start 0) threeCallers =
      some s ∧ s.signals = [1, 0] ∧ s.threw = [2] := ⟨_, rfl, rfl, rfl⟩
  exact ⟨s, hrun, hsignals, hthrew, released_run hrun⟩

end Wq

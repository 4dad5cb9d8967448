import Dptf.Wq.DeferredQueue

/-!
# Deferred items are delivered in time order

Threads enqueue and remove deferred items while the callback of the timer runs, and time goes by
between any two steps.

* `EnqueuesBehind`, `inTimeOrder_run` — **it holds** if nothing is put before the item that the
  callback has taken and does not yet hold the lock to move.
-/

open Lib

namespace Wq

/-- A step. -/
inductive DeferredOp
  | wait (elapsed : Nat)
  | enqueue (newWorkItem : DeferredWorkItem)
  | removeIfMatches (matchCriteria : WorkItemMatchCriteria)
  | expire
  | take
  | lock
  | move
  | unlock
  | finish

/-- A `dequeue` of the callback: the time, the queue it saw, and the item it took. -/
structure Look where
  now : Int
  queue : List DeferredWorkItem
  taken : Option DeferredWorkItem

/-- An item that the callback moves to the immediate queue, and what is then queued. -/
structure Move where
  item : DeferredWorkItem
  queue : List DeferredWorkItem

/-- The queue and the time, with the items that were enqueued, those that were removed, what the
callback looked at and what it moved to the immediate queue, each in this order. -/
structure Deliveries where
  deferred : DeferredWorkItemQueue
  now : Int
  accepted : List DeferredWorkItem
  removed : List DeferredWorkItem
  looks : List Look
  moves : List Move

namespace Deliveries

/-- The queue at the beginning. -/
def empty (now : Int) : Deliveries := ⟨DeferredWorkItemQueue.empty, now, [], [], [], []⟩

/-- The items the callback took. -/
def taken (s : Deliveries) : List DeferredWorkItem := s.looks.filterMap Look.taken

/-- The items the callback moved. -/
def moved (s : Deliveries) : List DeferredWorkItem := s.moves.map Move.item

/-- What a step does; moving an item to the immediate queue succeeds. -/
def step (s : Deliveries) : DeferredOp → Option Deliveries
  | .wait elapsed => some { s with now := s.now + elapsed }
  | .enqueue newWorkItem =>
    if s.deferred.MutexFree then
      some { s with
        deferred := s.deferred.enqueue newWorkItem
        accepted := s.accepted ++ [newWorkItem] }
    else none
  | .removeIfMatches matchCriteria =>
    if s.deferred.MutexFree then
      some { s with
        deferred := (s.deferred.removeIfMatches matchCriteria).1
        removed := s.removed ++ (s.deferred.removeIfMatches matchCriteria).2 }
    else none
  | .expire => (s.deferred.expire s.now).map fun q => { s with deferred := q }
  | .take => (s.deferred.callbackTake s.now).map fun q =>
    { s with
      deferred := q
      looks := s.looks ++ [⟨s.now, s.deferred.queue, q.callback.readyWorkItem⟩] }
  | .lock => s.deferred.callbackLock.map fun q => { s with deferred := q }
  | .move => (s.deferred.callbackMove s.now).map fun (q, readyWorkItem) =>
    { s with
      deferred := q
      looks := s.looks ++ [⟨s.now, s.deferred.queue, q.callback.readyWorkItem⟩]
      moves := s.moves ++ [⟨readyWorkItem, s.deferred.queue⟩] }
  | .unlock => s.deferred.callbackUnlock.map fun q => { s with deferred := q }
  | .finish => s.deferred.callbackFinish.map fun q => { s with deferred := q }

end Deliveries

/-- The callback takes an item just if the time of one has come, and it takes the first one; no
item that was queued has an earlier time. -/
def Look.Exact (look : Look) : Prop :=
  match look.taken with
  | none => ∀ x ∈ look.queue, look.now < x.deferredProcessingTime
  | some x => look.queue.head? = some x ∧ x.deferredProcessingTime ≤ look.now ∧
      ∀ y ∈ look.queue, x.deferredProcessingTime ≤ y.deferredProcessingTime

/-- The item is not moved before one that has an earlier time and is queued. -/
def Move.InOrder (move : Move) : Prop :=
  ∀ x ∈ move.queue, move.item.deferredProcessingTime ≤ x.deferredProcessingTime

/-- Items are taken in time order. -/
structure TimeOrder (s : Deliveries) : Prop where
  /-- Earlier times come first. -/
  sorted : s.deferred.queue.Pairwise fun a b => a.deferredProcessingTime ≤ b.deferredProcessingTime
  /-- Items of one time are served in the order they came. -/
  served : ∀ t, ((s.taken ++ s.deferred.queue).filter fun x => x.deferredProcessingTime = t).Sublist
    (s.accepted.filter fun x => x.deferredProcessingTime = t)
  /-- Every item is in one place. -/
  accounted : (s.taken ++ s.removed ++ s.deferred.queue).Perm s.accepted
  /-- The timer is armed for the first item, unless it has just expired. -/
  armed : s.deferred.callback ≠ .started → s.deferred.Armed
  /-- What the callback saw decides what it takes. -/
  exact : ∀ look ∈ s.looks, look.Exact
  /-- What it takes it moves, in this order, before it takes another item. -/
  moves : s.taken = s.moved ++ s.deferred.callback.readyWorkItem.toList
  /-- It ends when it takes nothing. -/
  ends : ∀ look ∈ s.looks.getLast?, look.taken = s.deferred.callback.readyWorkItem

/-- Items are delivered in time order. -/
structure InTimeOrder (s : Deliveries) : Prop extends TimeOrder s where
  inOrder : ∀ move ∈ s.moves, move.InOrder

/-! ## Each step -/

namespace TimeOrder

variable {s : Deliveries}

theorem timeLe_sorted (h : TimeOrder s) : s.deferred.queue.Pairwise fun a b => timeLe a b :=
  h.sorted.imp fun hab => decide_eq_true hab

theorem wait (h : TimeOrder s) (elapsed : Nat) :
    TimeOrder { s with now := s.now + elapsed } := { h with }

theorem enqueue (h : TimeOrder s) (x : DeferredWorkItem) :
    TimeOrder { s with
      deferred := s.deferred.enqueue x
      accepted := s.accepted ++ [x] } where
  sorted := by
    show (s.deferred.enqueue x).queue.Pairwise _
    rw [DeferredWorkItemQueue.enqueue_queue]
    exact (pairwise_insertLast timeLe_trans timeLe_total h.timeLe_sorted).imp
      fun {a b} hab => of_decide_eq_true hab
  served t := by
    show ((s.taken ++ (s.deferred.enqueue x).queue).filter _).Sublist ((s.accepted ++ [x]).filter _)
    rw [DeferredWorkItemQueue.enqueue_queue, List.filter_append,
      filter_key_insertLast timeLe_trans tied_timeLe h.timeLe_sorted, ← List.append_assoc,
      ← List.filter_append,
      List.filter_append (p := fun x => decide (x.deferredProcessingTime = t)) s.accepted]
    exact (h.served t).append (List.Sublist.refl _)
  accounted := by
    show (s.taken ++ s.removed ++ (s.deferred.enqueue x).queue).Perm (s.accepted ++ [x])
    rw [DeferredWorkItemQueue.enqueue_queue]
    refine ((insertLast_perm x s.deferred.queue).append_left _).trans ?_
    refine List.perm_middle.trans ?_
    exact (h.accounted.cons x).trans (List.perm_append_singleton x s.accepted).symm
  armed _ := DeferredWorkItemQueue.setTimer_armed _
  exact := h.exact
  moves := by
    rw [DeferredWorkItemQueue.enqueue_callback]
    exact h.moves
  ends := by
    rw [DeferredWorkItemQueue.enqueue_callback]
    exact h.ends

theorem removeIfMatches (h : TimeOrder s) (c : WorkItemMatchCriteria) :
    TimeOrder { s with
      deferred := (s.deferred.removeIfMatches c).1
      removed := s.removed ++ (s.deferred.removeIfMatches c).2 } where
  sorted := by
    show (s.deferred.removeIfMatches c).1.queue.Pairwise _
    rw [DeferredWorkItemQueue.removeIfMatches, DeferredWorkItemQueue.setTimer_queue]
    exact h.sorted.sublist List.filter_sublist
  served t := by
    show ((s.taken ++ (s.deferred.removeIfMatches c).1.queue).filter _).Sublist _
    rw [DeferredWorkItemQueue.removeIfMatches, DeferredWorkItemQueue.setTimer_queue]
    refine List.Sublist.trans ?_ (h.served t)
    exact ((List.Sublist.refl s.taken).append List.filter_sublist).filter _
  accounted := by
    refine List.Perm.trans ?_ h.accounted
    show (s.taken ++ (s.removed ++ (s.deferred.removeIfMatches c).2) ++
      (s.deferred.removeIfMatches c).1.queue).Perm _
    rw [DeferredWorkItemQueue.removeIfMatches, DeferredWorkItemQueue.setTimer_queue]
    simp only [List.append_assoc]
    refine List.Perm.append_left _ (List.Perm.append_left _ ?_)
    have hsplit :=
      List.filter_append_perm (fun x : DeferredWorkItem => x.workItem.isMatch c) s.deferred.queue
    simpa using hsplit
  armed _ := DeferredWorkItemQueue.setTimer_armed _
  exact := h.exact
  moves := by
    rw [DeferredWorkItemQueue.removeIfMatches, DeferredWorkItemQueue.setTimer_callback]
    exact h.moves
  ends := by
    rw [DeferredWorkItemQueue.removeIfMatches, DeferredWorkItemQueue.setTimer_callback]
    exact h.ends

/-- The callback goes on without looking at the queue. -/
theorem goOn (h : TimeOrder s) {phase : CallbackPhase} {timer : Option Int}
    (hphase : phase.readyWorkItem = s.deferred.callback.readyWorkItem)
    (harmed : phase ≠ .started → timer = s.deferred.timer ∧ s.deferred.callback ≠ .started) :
    TimeOrder { s with deferred := { s.deferred with timer := timer, callback := phase } } where
  sorted := h.sorted
  served := h.served
  accounted := h.accounted
  armed hne x hx := (harmed hne).1.trans (h.armed (harmed hne).2 x hx)
  exact := h.exact
  moves := by
    show s.taken = s.moved ++ phase.readyWorkItem.toList
    rw [hphase]
    exact h.moves
  ends := by
    show ∀ look ∈ s.looks.getLast?, look.taken = phase.readyWorkItem
    rw [hphase]
    exact h.ends

/-- The first item of the queue has the earliest time. -/
theorem head_le (h : TimeOrder s) {x : DeferredWorkItem} (hx : s.deferred.queue.head? = some x)
    {y : DeferredWorkItem} (hy : y ∈ s.deferred.queue) :
    x.deferredProcessingTime ≤ y.deferredProcessingTime := by
  have hsorted := h.sorted
  cases hq : s.deferred.queue with
  | nil => simp [hq] at hx
  | cons z queue =>
    rw [hq] at hx hy hsorted
    obtain rfl : z = x := by simpa using hx
    rcases List.mem_cons.1 hy with rfl | hy
    · exact le_refl _
    · exact (List.pairwise_cons.1 hsorted).1 y hy

theorem exact_dequeue (h : TimeOrder s) :
    Look.Exact ⟨s.now, s.deferred.queue, (s.deferred.dequeue s.now).2⟩ := by
  rcases s.deferred.dequeue_cases s.now with
    ⟨x, queue, hq, hready, htaken, -⟩ | ⟨hlate, htaken, -⟩
  · rw [htaken]
    have hhead : s.deferred.queue.head? = some x := by rw [hq, List.head?_cons]
    exact ⟨hhead, hready, fun y hy => h.head_le hhead hy⟩
  · rw [htaken]
    intro y hy
    obtain ⟨x, hx⟩ : ∃ x, s.deferred.queue.head? = some x := by
      cases hq : s.deferred.queue with
      | nil => simp [hq] at hy
      | cons x queue => exact ⟨x, rfl⟩
    exact lt_of_lt_of_le (hlate x hx) (h.head_le hx hy)

/-- The callback looks at the queue, after it has moved what it had. -/
theorem look (h : TimeOrder s) {phase : CallbackPhase}
    (hnext : phase.readyWorkItem = (s.deferred.dequeue s.now).2) :
    TimeOrder { s with
      deferred := { (s.deferred.dequeue s.now).1 with callback := phase }
      looks := s.looks ++ [⟨s.now, s.deferred.queue, phase.readyWorkItem⟩]
      moves := s.moves ++
        s.deferred.callback.readyWorkItem.toList.map (Move.mk · s.deferred.queue) } := by
  have htaken : (s.looks ++ [Look.mk s.now s.deferred.queue phase.readyWorkItem]).filterMap
      Look.taken = s.taken ++ phase.readyWorkItem.toList := by
    rw [List.filterMap_append, Deliveries.taken]
    cases phase.readyWorkItem <;> rfl
  -- The first item goes from the queue to the items that were taken, or nothing changes.
  have hsplit : s.taken ++ s.deferred.queue =
      s.taken ++ phase.readyWorkItem.toList ++ (s.deferred.dequeue s.now).1.queue := by
    rw [hnext]
    rcases s.deferred.dequeue_cases s.now with
      ⟨x, queue, hq, -, hsome, hrest⟩ | ⟨-, hnone, hrest⟩
    · rw [hsome, hrest, hq, Option.toList_some, List.append_assoc, List.singleton_append]
    · rw [hnone, hrest, Option.toList_none, List.append_nil]
  have hqueue : (s.deferred.dequeue s.now).1.queue.Sublist s.deferred.queue := by
    rcases s.deferred.dequeue_cases s.now with ⟨x, queue, hq, -, -, hrest⟩ | ⟨-, -, hrest⟩
    · rw [hrest, hq]
      exact List.sublist_cons_self x queue
    · rw [hrest]
  exact {
    sorted := h.sorted.sublist hqueue
    served := fun t => by
      show ((List.filterMap Look.taken _ ++ (s.deferred.dequeue s.now).1.queue).filter _).Sublist _
      rw [htaken, ← hsplit]
      exact h.served t
    accounted := by
      refine List.Perm.trans ?_ h.accounted
      show (List.filterMap Look.taken _ ++ s.removed ++ (s.deferred.dequeue s.now).1.queue).Perm _
      rw [htaken]
      have hswap : ∀ a b c : List DeferredWorkItem, (a ++ b ++ c).Perm (b ++ (a ++ c)) := by
        intro a b c
        rw [← List.append_assoc]
        exact List.perm_append_comm.append_right c
      refine (hswap _ _ _).trans (List.Perm.trans ?_ (hswap _ _ _).symm)
      rw [← hsplit]
    armed := fun _ => s.deferred.dequeue_armed s.now
    exact := fun look hlook => by
      rcases List.mem_append.1 hlook with hlook | hlook
      · exact h.exact look hlook
      · obtain rfl := List.mem_singleton.1 hlook
        rw [hnext]
        exact h.exact_dequeue
    moves := by
      show List.filterMap Look.taken _ = List.map Move.item _ ++ _
      rw [htaken, h.moves, List.map_append, List.map_map, Deliveries.moved]
      exact congrArg (_ ++ · ++ _) (List.map_id _).symm
    ends := by
      intro look hlook
      rw [List.getLast?_append, List.getLast?_singleton, Option.some_or] at hlook
      cases hlook
      rfl }

/-- **Each step** keeps the time order. -/
theorem step (h : TimeOrder s) {op : DeferredOp} {s' : Deliveries} (hstep : s.step op = some s') :
    TimeOrder s' := by
  cases op with
  | wait elapsed =>
    cases hstep
    exact h.wait elapsed
  | enqueue x =>
    obtain ⟨-, rfl⟩ := Option.ite_some_none_eq_some.1 hstep
    exact h.enqueue x
  | removeIfMatches c =>
    obtain ⟨-, rfl⟩ := Option.ite_some_none_eq_some.1 hstep
    exact h.removeIfMatches c
  | expire | lock | unlock | finish =>
    obtain ⟨q, hq, rfl⟩ := Option.map_eq_some_iff.1 hstep
    obtain ⟨timer, phase, rfl, hphase, harmed⟩ :=
      @DeferredWorkItemQueue.goesOn s.deferred q s.now (by simp [hq])
    exact h.goOn hphase harmed
  | take =>
    obtain ⟨q, hq, rfl⟩ := Option.map_eq_some_iff.1 hstep
    obtain ⟨hstarted, rfl⟩ := DeferredWorkItemQueue.callbackTake_eq_some hq
    have hlook := @TimeOrder.look s h (.holding (s.deferred.dequeue s.now).2) rfl
    rw [hstarted] at hlook
    simpa only [CallbackPhase.readyWorkItem, Option.toList_none, List.map_nil, List.append_nil] using
      hlook
  | move =>
    obtain ⟨⟨q, item⟩, hq, rfl⟩ := Option.map_eq_some_iff.1 hstep
    obtain ⟨hmoving, rfl⟩ := DeferredWorkItemQueue.callbackMove_eq_some hq
    have hlook := @TimeOrder.look s h (.moving (s.deferred.dequeue s.now).2) rfl
    rw [hmoving] at hlook
    exact hlook

end TimeOrder

theorem timeOrder_empty (now : Int) : TimeOrder (Deliveries.empty now) where
  sorted := List.Pairwise.nil
  served _ := List.Sublist.refl _
  accounted := List.Perm.refl _
  armed _ x hx := by cases hx
  exact look hlook := by cases hlook
  moves := rfl
  ends look hlook := by cases hlook

/-- **Deferred items are taken in time order** in every run, whatever the threads do while the
callback runs. -/
theorem timeOrder_run {now : Int} {ops : List DeferredOp} {s : Deliveries}
    (hrun : run Deliveries.step (Deliveries.empty now) ops = some s) : TimeOrder s :=
  run_invariant (fun _ _ _ hstep h => h.step hstep) hrun (timeOrder_empty now)

/-! ## The item between two locks -/

/-- What is enqueued has no earlier time than the item that the callback has taken and not yet
moved. -/
def Deliveries.EnqueuesBehind (s : Deliveries) : DeferredOp → Prop
  | .enqueue newWorkItem => ∀ x, s.deferred.callback.readyWorkItem = some x →
      x.deferredProcessingTime ≤ newWorkItem.deferredProcessingTime
  | _ => True

theorem Deliveries.enqueuesBehind_of_none {s : Deliveries}
    (h : s.deferred.callback.readyWorkItem = none) (op : DeferredOp) : s.EnqueuesBehind op := by
  cases op with
  | enqueue newWorkItem =>
    intro x hx
    rw [h] at hx
    cases hx
  | _ => trivial

/-- The callback has no item that is later than one that is queued. -/
def Deliveries.HoldsFirst (s : Deliveries) : Prop :=
  ∀ x, s.deferred.callback.readyWorkItem = some x →
    ∀ y ∈ s.deferred.queue, x.deferredProcessingTime ≤ y.deferredProcessingTime

/-- What a look takes is not later than what it leaves. -/
theorem TimeOrder.dequeue_le {s : Deliveries} (h : TimeOrder s) {x : DeferredWorkItem}
    (hx : (s.deferred.dequeue s.now).2 = some x) {y : DeferredWorkItem}
    (hy : y ∈ (s.deferred.dequeue s.now).1.queue) :
    x.deferredProcessingTime ≤ y.deferredProcessingTime := by
  rcases s.deferred.dequeue_cases s.now with ⟨z, queue, hq, -, hsome, hrest⟩ | ⟨-, hnone, -⟩
  · obtain rfl : z = x := Option.some.inj (hsome.symm.trans hx)
    rw [hrest] at hy
    exact h.head_le (by rw [hq, List.head?_cons]) (by rw [hq]; exact List.mem_cons_of_mem _ hy)
  · rw [hnone] at hx
    cases hx

/-- What a step makes of the item, the queue and the moves: it leaves the item and puts nothing
into the queue, it puts in an item, or the callback moves the item and takes another one. -/
theorem Deliveries.step_cases {s s' : Deliveries} {op : DeferredOp} (hstep : s.step op = some s') :
    (s'.deferred.callback.readyWorkItem = s.deferred.callback.readyWorkItem ∧
      s'.deferred.queue.Sublist s.deferred.queue ∧ s'.moves = s.moves) ∨
    (∃ x, op = .enqueue x ∧
      s'.deferred.callback.readyWorkItem = s.deferred.callback.readyWorkItem ∧
      s'.deferred.queue.Perm (x :: s.deferred.queue) ∧ s'.moves = s.moves) ∨
    (s'.deferred.callback.readyWorkItem = (s.deferred.dequeue s.now).2 ∧
      s'.deferred.queue = (s.deferred.dequeue s.now).1.queue ∧
      s'.moves = s.moves ++
        s.deferred.callback.readyWorkItem.toList.map (Move.mk · s.deferred.queue)) := by
  cases op with
  | wait elapsed =>
    cases hstep
    exact Or.inl ⟨rfl, List.Sublist.refl _, rfl⟩
  | enqueue x =>
    obtain ⟨-, rfl⟩ := Option.ite_some_none_eq_some.1 hstep
    refine Or.inr (Or.inl ⟨x, rfl, ?_, ?_, rfl⟩)
    · exact congrArg _ (DeferredWorkItemQueue.enqueue_callback ..)
    · show (s.deferred.enqueue x).queue.Perm _
      rw [DeferredWorkItemQueue.enqueue_queue]
      exact insertLast_perm x s.deferred.queue
  | removeIfMatches c =>
    obtain ⟨-, rfl⟩ := Option.ite_some_none_eq_some.1 hstep
    rw [DeferredWorkItemQueue.removeIfMatches, DeferredWorkItemQueue.setTimer_queue,
      DeferredWorkItemQueue.setTimer_callback]
    exact Or.inl ⟨rfl, List.filter_sublist, rfl⟩
  | expire | lock | unlock | finish =>
    obtain ⟨q, hq, rfl⟩ := Option.map_eq_some_iff.1 hstep
    obtain ⟨timer, phase, rfl, hphase, -⟩ :=
      @DeferredWorkItemQueue.goesOn s.deferred q s.now (by simp [hq])
    exact Or.inl ⟨hphase, List.Sublist.refl _, rfl⟩
  | take =>
    obtain ⟨q, hq, rfl⟩ := Option.map_eq_some_iff.1 hstep
    obtain ⟨hstarted, rfl⟩ := DeferredWorkItemQueue.callbackTake_eq_some hq
    refine Or.inr (Or.inr ⟨rfl, rfl, ?_⟩)
    rw [hstarted]
    exact (List.append_nil _).symm
  | move =>
    obtain ⟨⟨q, item⟩, hq, rfl⟩ := Option.map_eq_some_iff.1 hstep
    obtain ⟨hmoving, rfl⟩ := DeferredWorkItemQueue.callbackMove_eq_some hq
    refine Or.inr (Or.inr ⟨rfl, rfl, ?_⟩)
    rw [hmoving]
    rfl

/-- **Each step** that enqueues behind the item keeps it first, and moves it in order. -/
theorem InTimeOrder.step {s s' : Deliveries} {op : DeferredOp} (h : InTimeOrder s)
    (hfirst : s.HoldsFirst) (hbehind : s.EnqueuesBehind op) (hstep : s.step op = some s') :
    InTimeOrder s' ∧ s'.HoldsFirst := by
  have horder := h.toTimeOrder.step hstep
  rcases Deliveries.step_cases hstep with
    ⟨hready, hqueue, hmoves⟩ | ⟨x, rfl, hready, hqueue, hmoves⟩ | ⟨hready, hqueue, hmoves⟩
  · refine ⟨⟨horder, hmoves ▸ h.inOrder⟩, fun y hy z hz => ?_⟩
    exact hfirst y (hready ▸ hy) z (hqueue.subset hz)
  · refine ⟨⟨horder, hmoves ▸ h.inOrder⟩, fun y hy z hz => ?_⟩
    rw [hready] at hy
    rcases List.mem_cons.1 (hqueue.mem_iff.1 hz) with rfl | hz
    · exact hbehind y hy
    · exact hfirst y hy z hz
  · refine ⟨⟨horder, fun move hmove => ?_⟩, fun y hy z hz => ?_⟩
    · rw [hmoves] at hmove
      rcases List.mem_append.1 hmove with hmove | hmove
      · exact h.inOrder move hmove
      · obtain ⟨x, hx, rfl⟩ := List.mem_map.1 hmove
        exact hfirst x (Option.mem_toList.1 hx)
    · rw [hready] at hy
      rw [hqueue] at hz
      exact h.toTimeOrder.dequeue_le hy hz

/-- **Deferred items are delivered in time order** in every run in which nothing is put before an
item that the callback has taken. -/
theorem inTimeOrder_run {now : Int} {ops : List DeferredOp} {s : Deliveries}
    (hbehind : EveryStep Deliveries.step Deliveries.EnqueuesBehind (Deliveries.empty now) ops)
    (hrun : run Deliveries.step (Deliveries.empty now) ops = some s) : InTimeOrder s := by
  have hstart : InTimeOrder (Deliveries.empty now) ∧ (Deliveries.empty now).HoldsFirst :=
    ⟨⟨timeOrder_empty now, by simp [Deliveries.empty]⟩, fun x hx => by cases hx⟩
  have hstep : ∀ (s : Deliveries) (op : DeferredOp) (s' : Deliveries), s.EnqueuesBehind op →
      s.step op = some s' → InTimeOrder s ∧ s.HoldsFirst → InTimeOrder s' ∧ s'.HoldsFirst :=
    fun _ _ _ hbehind hstep h => h.1.step h.2 hbehind hstep
  exact (run_invariant_of_everyStep hstep hbehind hrun hstart).1

/-- An earlier item comes after the timer has expired for a later one. -/
def overtaken : List DeferredOp :=
  [.enqueue (policyInitiatedCallback 0 1 5), .wait 5, .expire,
    .enqueue (policyInitiatedCallback 0 2 3), .take, .lock, .move, .move, .unlock, .finish]

/-- Both are moved, the earlier one first. -/
theorem inTimeOrder_run_overtaken :
    ∃ s, run Deliveries.step (Deliveries.empty 0) overtaken = some s ∧
      s.moved = [policyInitiatedCallback 0 2 3, policyInitiatedCallback 0 1 5] ∧
      InTimeOrder s := by
  obtain ⟨s, hrun, hmoved⟩ : ∃ s, run Deliveries.step (Deliveries.empty 0) overtaken = some s ∧
      s.moved = [policyInitiatedCallback 0 2 3, policyInitiatedCallback 0 1 5] := ⟨_, rfl, rfl⟩
  refine ⟨s, hrun, hmoved, inTimeOrder_run ?_ hrun⟩
  have hnone (s : Deliveries) := s.enqueuesBehind_of_none
  refine ⟨hnone _ rfl _, fun s₁ h₁ => ⟨trivial, fun s₂ h₂ => ⟨trivial, fun s₃ h₃ => ?_⟩⟩⟩
  obtain rfl := Option.some.inj h₁
  obtain rfl := Option.some.inj h₂
  obtain rfl := Option.some.inj h₃
  -- the callback has begun, and nothing is enqueued from here on
  refine ⟨hnone _ rfl _, fun s₄ _ => ?_⟩
  simp [EveryStep, Deliveries.EnqueuesBehind]

/-- An earlier item comes after the callback has taken a later one, and before it locks. -/
def overtakes : List DeferredOp :=
  [.enqueue (policyInitiatedCallback 0 1 5), .wait 5, .expire, .take,
    .enqueue (policyInitiatedCallback 0 2 3), .lock, .move, .move, .unlock, .finish]

/-- Items are not always delivered in time order. -/
theorem not_inTimeOrder_run : ¬ ∀ (now : Int) (ops : List DeferredOp) (s : Deliveries),
    run Deliveries.step (Deliveries.empty now) ops = some s → InTimeOrder s := by
  intro h
  have hmove := (h 0 overtakes _ rfl).inOrder ⟨policyInitiatedCallback 0 1 5,
    [policyInitiatedCallback 0 2 3]⟩ (List.mem_cons_self ..)
  exact absurd (hmove _ (List.mem_singleton.2 rfl)) (by decide)

end Wq

import Dptf.Arb.Entry
import Dptf.Lib.Machine

/-!
# Enabling and disabling arbitration

Arbitration has an enable flag at three levels: the manager's, each context's and each
entry's.  A request reads them one after the other on its way down and is then
inserted; disabling a level clears its flag and purges the requests below it, entry by
entry, under the locks of the manager and of the context.

The contexts and entries are fixed here; a context is named by its position, an entry
by its position in its context.

* `disabledEmpty_of_noDefect` — **without such insertions nothing is left below a
  disabled level** once no call is in progress.
* `request_survives_disable` — a request that has read the flags is inserted after
  the purge.
-/

open Lib

namespace Arb.Enable

/-! ## The manager and its contexts -/

/-- An `EsifArbCtx`, as enabling and executing see it. -/
structure ArbCtx where
  arbitrationEnabled : Bool
  entries : List EsifArbEntry
  /-- `ctxLock` is held between two sections. -/
  locked : Bool

/-- `g_arbMgr` and the contexts of the participants. -/
structure ArbMgr where
  arbitrationEnabled : Bool
  ctxs : List ArbCtx
  /-- `mgrLock` is held between two sections. -/
  locked : Bool

/-- An operation on a context. -/
def ArbMgr.updateCtx (self : ArbMgr) (c : Nat) (f : ArbCtx → ArbCtx) : ArbMgr :=
  { self with ctxs := self.ctxs.modify c f }

/-- An operation on an entry of a context. -/
def ArbCtx.updateEntry (self : ArbCtx) (k : Nat) (f : EsifArbEntry → EsifArbEntry) : ArbCtx :=
  { self with entries := self.entries.modify k f }

/-- The first entry of a context for the primitive. -/
def ArbCtx.lookup (self : ArbCtx) (primitiveId : EsifPrimitiveType) (domain : UInt16)
    (inst : UInt8) : Option Nat :=
  self.entries.findIdx? fun entry => entry.isMatchingEntry primitiveId domain inst

/-! ## Threads -/

/-- A call of the manager.  The participant of `setArbitrationState` may be none, for all. -/
inductive Call where
  | executePrimitive (ctx : Nat) (primitiveId : EsifPrimitiveType) (domain : UInt16)
      (inst : UInt8) (app : EsifHandle) (addr : Nat) (request : Option EsifData)
  | setArbitrationState (ctx : Option Nat) (primitiveId : EsifPrimitiveType) (domain : UInt16)
      (inst : UInt8) (isEnabled : Bool)

/-- What a purge is part of. -/
inductive Scope where
  | mgr
  | ctx
  deriving DecidableEq

/-- Where a thread stands. -/
inductive Thread where
  /-- Its call has begun. -/
  | start (call : Call)
  /-- `EsifArbMgr_ExecutePrimitive` has found the manager enabled. -/
  | lookup (ctx : Nat) (primitiveId : EsifPrimitiveType) (domain : UInt16) (inst : UInt8)
      (app : EsifHandle) (addr : Nat) (request : Option EsifData)
  /-- `EsifArbCtx_ExecutePrimitive` has found the context enabled, and the entry. -/
  | executing (ctx entry : Nat) (app : EsifHandle) (addr : Nat) (request : Option EsifData)
  /-- The manager is disabled, the contexts before this one are purged; holds `mgrLock`. -/
  | purgeMgr (ctx : Nat)
  /-- The entries before this one are purged; holds `mgrLock` and the `ctxLock`. -/
  | purgeCtx (scope : Scope) (ctx entry : Nat)
  /-- `EsifArbCtx_SetArbitrationState` begins; holds `mgrLock`. -/
  | setCtx (ctx : Nat) (primitiveId : EsifPrimitiveType) (domain : UInt16) (inst : UInt8)
      (isEnabled : Bool)
  /-- It has found the entry; holds `mgrLock` and the `ctxLock`. -/
  | setEntry (ctx entry : Nat) (isEnabled : Bool)
  /-- It has succeeded; holds `mgrLock`. -/
  | finish (isEnabled : Bool)
  | done

/-- The next section of a thread, what it leaves, and where the thread is then. -/
def threadStep (s : ArbMgr) : Thread → Option (ArbMgr × Thread)
  | .start (.executePrimitive c primitiveId domain inst app addr request) =>
    if s.arbitrationEnabled then some (s, .lookup c primitiveId domain inst app addr request)
    else some (s, .done)
  | .lookup c primitiveId domain inst app addr request =>
    match s.ctxs[c]? with
    | none => some (s, .done)
    | some ctx =>
      if ctx.locked then none
      else if ctx.arbitrationEnabled then
        match ctx.lookup primitiveId domain inst with
        | some k => some (s, .executing c k app addr request)
        | none => some (s, .done)
      else some (s, .done)
  | .executing c k app addr request =>
    some (s.updateCtx c fun ctx => ctx.updateEntry k fun entry =>
      (entry.executePrimitive addr app request).2.1, .done)
  | .start (.setArbitrationState none _ _ _ isEnabled) =>
    if s.locked then none
    else if isEnabled then some ({ s with arbitrationEnabled := true }, .done)
    else some ({ s with arbitrationEnabled := false, locked := true }, .purgeMgr 0)
  | .start (.setArbitrationState (some c) primitiveId domain inst isEnabled) =>
    if s.locked then none
    else if c < s.ctxs.length then
      some ({ s with locked := true }, .setCtx c primitiveId domain inst isEnabled)
    else some (s, .done)
  | .purgeMgr c =>
    match s.ctxs[c]? with
    | none => some ({ s with locked := false }, .done)
    | some ctx =>
      if ctx.locked then none
      else some (s.updateCtx c fun ctx => { ctx with locked := true }, .purgeCtx .mgr c 0)
  | .purgeCtx scope c k =>
    if (s.ctxs[c]?.bind fun ctx => ctx.entries[k]?).isSome then
      some (s.updateCtx c fun ctx => ctx.updateEntry k EsifArbEntry.purgeRequests,
        .purgeCtx scope c (k + 1))
    else
      some (s.updateCtx c fun ctx => { ctx with locked := false },
        if scope = .mgr then .purgeMgr (c + 1) else .finish false)
  | .setCtx c primitiveId domain inst isEnabled =>
    match s.ctxs[c]? with
    | none => some ({ s with locked := false }, .done)
    | some ctx =>
      if ctx.locked then none
      else if primitiveId = 0 then
        if isEnabled then
          some (s.updateCtx c fun ctx => { ctx with arbitrationEnabled := true }, .finish true)
        else
          some (s.updateCtx c fun ctx => { ctx with arbitrationEnabled := false, locked := true },
            .purgeCtx .ctx c 0)
      else
        match ctx.lookup primitiveId domain inst with
        | some k =>
          some (s.updateCtx c fun ctx => { ctx with locked := true }, .setEntry c k isEnabled)
        | none => some (s, .finish false)
  | .setEntry c k isEnabled =>
    some (s.updateCtx c fun ctx =>
        { ctx.updateEntry k fun entry => (entry.setArbitrationState isEnabled).2 with
          arbitrationEnabled := isEnabled || ctx.arbitrationEnabled
          locked := false },
      .finish isEnabled)
  | .finish isEnabled =>
    some ({ s with
        arbitrationEnabled := isEnabled || s.arbitrationEnabled
        locked := false },
      .done)
  | .done => none

/-- The manager and the threads in it. -/
structure MgrState where
  mgr : ArbMgr
  threads : List Thread

/-- A new call, or the next section of a thread. -/
inductive Action where
  | call (call : Call)
  | step (i : Nat)

/-- One step. -/
def enableStep (s : MgrState) : Action → Option MgrState
  | .call call => some { s with threads := s.threads ++ [.start call] }
  | .step i =>
    s.threads[i]?.bind fun t =>
      (threadStep s.mgr t).map fun (mgr, t') => { mgr := mgr, threads := s.threads.set i t' }

/-- The manager as it starts, with a context for each participant: its handle and the
entries of its table. -/
def MgrState.init (participants : List (EsifHandle × List EsifArbEntryParams)) : MgrState where
  mgr :=
    { arbitrationEnabled := true
      ctxs := participants.map fun (participantId, table) =>
        { arbitrationEnabled := true
          entries := table.map fun params => EsifArbEntry.create params participantId
          locked := false }
      locked := false }
  threads := []

/-! ## What a disabled level has below it -/

/-- The purge of a disabled manager that this thread makes has not come to the entry. -/
def Thread.PurgesMgr (c k : Nat) : Thread → Prop
  | .purgeMgr c₀ => c₀ ≤ c
  | .purgeCtx .mgr c₀ k₀ => c₀ < c ∨ c₀ = c ∧ k₀ ≤ k
  | _ => False

/-- The purge of a disabled context that this thread makes has not come to the entry. -/
def Thread.PurgesCtx (c k : Nat) : Thread → Prop
  | .purgeCtx .ctx c₀ k₀ => c₀ = c ∧ k₀ ≤ k
  | _ => False

instance (c k : Nat) : ∀ t : Thread, Decidable (t.PurgesMgr c k)
  | .purgeMgr c₀ => inferInstanceAs (Decidable (c₀ ≤ c))
  | .purgeCtx .mgr c₀ k₀ => inferInstanceAs (Decidable (c₀ < c ∨ c₀ = c ∧ k₀ ≤ k))
  | .start _ | .lookup .. | .executing .. | .purgeCtx .ctx _ _ | .setCtx .. | .setEntry ..
  | .finish _ | .done => isFalse id

instance (c k : Nat) : ∀ t : Thread, Decidable (t.PurgesCtx c k)
  | .purgeCtx .ctx c₀ k₀ => inferInstanceAs (Decidable (c₀ = c ∧ k₀ ≤ k))
  | .start _ | .lookup .. | .executing .. | .purgeMgr _ | .purgeCtx .mgr _ _ | .setCtx ..
  | .setEntry .. | .finish _ | .done => isFalse id

/-- The levels above the entry are enabled, or a purge will come to it. -/
structure LevelsOpen (s : MgrState) (c k : Nat) (ctx : ArbCtx) : Prop where
  ctx : ctx.arbitrationEnabled = true ∨ ∃ t ∈ s.threads, t.PurgesCtx c k
  mgr : s.mgr.arbitrationEnabled = true ∨ ∃ t ∈ s.threads, t.PurgesMgr c k

instance (s : MgrState) (c k : Nat) (ctx : ArbCtx) : Decidable (LevelsOpen s c k ctx) :=
  decidable_of_iff
    ((ctx.arbitrationEnabled = true ∨ ∃ t ∈ s.threads, t.PurgesCtx c k) ∧
      (s.mgr.arbitrationEnabled = true ∨ ∃ t ∈ s.threads, t.PurgesMgr c k))
    ⟨fun h => ⟨h.1, h.2⟩, fun h => ⟨h.ctx, h.mgr⟩⟩

/-- The entry that a thread inserts a request into in its next section, if it is enabled. -/
def Thread.inserts : Thread → Option (Nat × Nat)
  | .executing c k _ _ (some _) => some (c, k)
  | _ => none

/-- The condition on a step: a request is inserted only while the levels above are enabled
or a purge will come to its entry. -/
def NoDefect (s : MgrState) : Action → Prop
  | .call _ => True
  | .step i =>
    ∀ t ∈ s.threads[i]?, ∀ slot ∈ t.inserts, ∀ ctx ∈ s.mgr.ctxs[slot.1]?,
      ∀ entry ∈ ctx.entries[slot.2]?, entry.arbitrationEnabled = true →
        LevelsOpen s slot.1 slot.2 ctx

instance (s : MgrState) : ∀ a, Decidable (NoDefect s a)
  | .call _ => isTrue trivial
  | .step i => inferInstanceAs (Decidable (∀ t ∈ s.threads[i]?, ∀ slot ∈ t.inserts,
      ∀ ctx ∈ s.mgr.ctxs[slot.1]?, ∀ entry ∈ ctx.entries[slot.2]?,
        entry.arbitrationEnabled = true → LevelsOpen s slot.1 slot.2 ctx))

/-- **Nothing is left below a disabled level** once no call is in progress. -/
structure DisabledEmpty (s : MgrState) : Prop where
  mgr : s.mgr.arbitrationEnabled = false →
    ∀ ctx ∈ s.mgr.ctxs, ∀ entry ∈ ctx.entries, entry.arbRequests = []
  ctx : ∀ ctx ∈ s.mgr.ctxs, ctx.arbitrationEnabled = false →
    ∀ entry ∈ ctx.entries, entry.arbRequests = []
  entry : ∀ ctx ∈ s.mgr.ctxs, ∀ entry ∈ ctx.entries, entry.arbitrationEnabled = false →
    entry.arbRequests = []

/-! ## What a section does -/

/-- What a section does to one entry, when it leaves requests in it: they were there or the
thread inserts one, and what is above the entry stays enabled or is still to be purged. -/
structure Passes (m m' : ArbMgr) (t t' : Thread) (c k : Nat) (ctx ctx' : ArbCtx)
    (entry entry' : EsifArbEntry) : Prop where
  requests : entry.arbRequests ≠ [] ∨ t.inserts = some (c, k) ∧ entry.arbitrationEnabled = true
  entry : entry.arbitrationEnabled = true → entry'.arbitrationEnabled = true
  ctx : ctx.arbitrationEnabled = true ∨ t.PurgesCtx c k →
    ctx'.arbitrationEnabled = true ∨ t'.PurgesCtx c k
  mgr : m.arbitrationEnabled = true ∨ t.PurgesMgr c k →
    m'.arbitrationEnabled = true ∨ t'.PurgesMgr c k

/-- A section does so to each entry. -/
def SectionPasses (m m' : ArbMgr) (t t' : Thread) : Prop :=
  ∀ (c k : Nat) (ctx' : ArbCtx) (entry' : EsifArbEntry), m'.ctxs[c]? = some ctx' →
    ctx'.entries[k]? = some entry' → entry'.arbRequests ≠ [] →
      ∃ ctx entry, m.ctxs[c]? = some ctx ∧ ctx.entries[k]? = some entry ∧
        Passes m m' t t' c k ctx ctx' entry entry'

section Passes

variable {m m' : ArbMgr} {t t' : Thread} {c₀ : Nat}

/-- A section that leaves the contexts alone. -/
theorem passes_of_ctxs_eq (hctxs : m'.ctxs = m.ctxs)
    (hctx : ∀ c k, t.PurgesCtx c k → t'.PurgesCtx c k)
    (hmgr : ∀ c k, c < m'.ctxs.length → m.arbitrationEnabled = true ∨ t.PurgesMgr c k →
      m'.arbitrationEnabled = true ∨ t'.PurgesMgr c k) : SectionPasses m m' t t' :=
  fun c k ctx' entry' hctx' hentry' hrequests => ⟨ctx', entry', hctxs ▸ hctx', hentry',
    .inl hrequests, id, Or.imp_right (hctx c k), hmgr c k (List.getElem?_eq_some_iff.mp hctx').1⟩

/-- A section that works on one entry of one context, or on its flags. -/
theorem passes_of_modify {k₀ : Nat} {f : ArbCtx → ArbCtx} {g : EsifArbEntry → EsifArbEntry}
    (hctxs : m'.ctxs = m.ctxs.modify c₀ f) (hf : ∀ ctx, (f ctx).entries = ctx.entries.modify k₀ g)
    (hpasses : ∀ c k ctx entry, m.ctxs[c]? = some ctx → ctx.entries[k]? = some entry →
      (if c₀ = c ∧ k₀ = k then g entry else entry).arbRequests ≠ [] →
        Passes m m' t t' c k ctx (if c₀ = c then f ctx else ctx) entry
          (if c₀ = c ∧ k₀ = k then g entry else entry)) :
    SectionPasses m m' t t' := by
  intro c k ctx' entry' hctx' hentry' hrequests
  rw [hctxs, List.getElem?_modify] at hctx'
  obtain ⟨ctx, hat, rfl⟩ := Option.map_eq_some_iff.mp hctx'
  have hentry : ∃ entry, ctx.entries[k]? = some entry ∧
      entry' = if c₀ = c ∧ k₀ = k then g entry else entry := by
    by_cases hc : c₀ = c
    · rw [if_pos hc, hf, List.getElem?_modify] at hentry'
      obtain ⟨entry, hentry, rfl⟩ := Option.map_eq_some_iff.mp hentry'
      exact ⟨entry, hentry, by simp [hc]⟩
    · rw [if_neg hc] at hentry'
      exact ⟨entry', hentry', by simp [hc]⟩
  obtain ⟨entry, hentry, rfl⟩ := hentry
  exact ⟨ctx, entry, hat, hentry, hpasses c k ctx entry hat hentry hrequests⟩

/-- A section that changes flags of one context. -/
theorem passes_of_flags {f : ArbCtx → ArbCtx} (hctxs : m'.ctxs = m.ctxs.modify c₀ f)
    (hf : ∀ ctx, (f ctx).entries = ctx.entries)
    (hctx : ∀ c k (ctx : ArbCtx), m.ctxs[c]? = some ctx → k < ctx.entries.length →
      ctx.arbitrationEnabled = true ∨ t.PurgesCtx c k →
        (if c₀ = c then f ctx else ctx).arbitrationEnabled = true ∨ t'.PurgesCtx c k)
    (hmgr : ∀ c k (ctx : ArbCtx), m.ctxs[c]? = some ctx → k < ctx.entries.length →
      m.arbitrationEnabled = true ∨ t.PurgesMgr c k →
        m'.arbitrationEnabled = true ∨ t'.PurgesMgr c k) : SectionPasses m m' t t' := by
  have hid : ∀ ctx, (f ctx).entries = ctx.entries.modify 0 id := by
    intro ctx
    rw [hf, List.modify_id]
  refine passes_of_modify hctxs hid ?_
  intro c k ctx entry hat hentry hne
  have hlt : k < ctx.entries.length := (List.getElem?_eq_some_iff.mp hentry).1
  have hkeep : (if c₀ = c ∧ 0 = k then id entry else entry) = entry := by split <;> rfl
  rw [hkeep] at hne ⊢
  exact ⟨.inl hne, id, hctx c k ctx hat hlt, hmgr c k ctx hat hlt⟩

theorem arbRequests_executePrimitive {entry : EsifArbEntry} {addr : Nat} {app : EsifHandle}
    {request : Option EsifData}
    (h : (entry.executePrimitive addr app request).2.1.arbRequests ≠ []) :
    entry.arbRequests ≠ [] ∨ request.isSome = true ∧ entry.arbitrationEnabled = true := by
  unfold EsifArbEntry.executePrimitive at h
  split at h
  · rename_i henabled
    cases request with
    | none => exact .inl h
    | some request => exact .inr ⟨rfl, henabled⟩
  · exact .inl h

theorem arbitrationEnabled_executePrimitive (entry : EsifArbEntry) (addr : Nat)
    (app : EsifHandle) (request : Option EsifData) :
    (entry.executePrimitive addr app request).2.1.arbitrationEnabled =
      entry.arbitrationEnabled := by
  unfold EsifArbEntry.executePrimitive
  split
  · cases request <;> rfl
  · rfl

/-! ### The sections of a call -/

variable {app : EsifHandle} {addr k₀ : Nat} {request : Option EsifData}
  {primitiveId : EsifPrimitiveType} {domain : UInt16} {inst : UInt8} {isEnabled : Bool}

theorem passes_start {call : Call} (h : threadStep m (.start call) = some (m', t')) :
    SectionPasses m m' (.start call) t' := by
  cases call with
  | executePrimitive c₀ primitiveId domain inst app addr request =>
    simp only [threadStep] at h
    split at h <;> obtain ⟨rfl, rfl⟩ := Prod.mk.inj (Option.some.inj h) <;>
      exact passes_of_ctxs_eq rfl (fun _ _ => id) fun _ _ _ => Or.imp_right nofun
  | setArbitrationState c₀ primitiveId domain inst isEnabled =>
    cases c₀ with
    | none =>
      simp only [threadStep] at h
      split at h
      · cases h
      · split at h
        · cases h
          exact passes_of_ctxs_eq rfl nofun fun _ _ _ _ => .inl rfl
        · cases h
          exact passes_of_ctxs_eq rfl nofun fun c _ _ _ => .inr (Nat.zero_le c)
    | some c₀ =>
      simp only [threadStep] at h
      split at h
      · cases h
      · split at h <;> obtain ⟨rfl, rfl⟩ := Prod.mk.inj (Option.some.inj h) <;>
          exact passes_of_ctxs_eq rfl nofun fun _ _ _ => Or.imp_right nofun

theorem passes_lookup
    (h : threadStep m (.lookup c₀ primitiveId domain inst app addr request) = some (m', t')) :
    SectionPasses m m' (.lookup c₀ primitiveId domain inst app addr request) t' := by
  have hsame : m' = m ∧ (t' = .done ∨ ∃ k₀, t' = .executing c₀ k₀ app addr request) := by
    simp only [threadStep] at h
    split at h
    · cases h
      exact ⟨rfl, .inl rfl⟩
    · split at h
      · cases h
      · split at h
        · split at h
          · cases h
            exact ⟨rfl, .inr ⟨_, rfl⟩⟩
          · cases h
            exact ⟨rfl, .inl rfl⟩
        · cases h
          exact ⟨rfl, .inl rfl⟩
  obtain ⟨rfl, rfl | ⟨k₀, rfl⟩⟩ := hsame <;>
    exact passes_of_ctxs_eq rfl nofun fun _ _ _ => Or.imp_right nofun

/-- A request is inserted. -/
theorem passes_executing (h : threadStep m (.executing c₀ k₀ app addr request) = some (m', t')) :
    SectionPasses m m' (.executing c₀ k₀ app addr request) t' := by
  cases h
  refine passes_of_modify rfl (fun _ => rfl) ?_
  intro c k ctx entry _ _ hne
  refine ⟨?_, ?_, ?_, Or.imp_right nofun⟩
  · split at hne
    · rename_i hat
      refine (arbRequests_executePrimitive hne).imp_right fun ⟨hsome, henabled⟩ => ⟨?_, henabled⟩
      obtain ⟨rfl, rfl⟩ := hat
      obtain ⟨request, rfl⟩ := Option.isSome_iff_exists.mp hsome
      rfl
    · exact .inl hne
  · intro henabled
    split
    · rw [arbitrationEnabled_executePrimitive, henabled]
    · exact henabled
  · rintro (henabled | hpurges)
    · refine .inl ?_
      split <;> exact henabled
    · cases hpurges

theorem passes_purgeMgr (h : threadStep m (.purgeMgr c₀) = some (m', t')) :
    SectionPasses m m' (.purgeMgr c₀) t' := by
  simp only [threadStep] at h
  split at h
  · rename_i hnone
    cases h
    refine passes_of_ctxs_eq rfl nofun fun c _ hlt => Or.imp_right fun (hle : c₀ ≤ c) => ?_
    -- the purge has come to the end, so there is no such context
    have hlt : c < m.ctxs.length := hlt
    have hge := List.getElem?_eq_none_iff.mp hnone
    omega
  · split at h
    · cases h
    · cases h
      refine passes_of_flags rfl (fun _ => rfl) ?_ ?_
      · rintro c k ctx - - (henabled | hpurges)
        · refine .inl ?_
          split <;> exact henabled
        · cases hpurges
      · intro c k ctx _ _
        refine Or.imp_right fun (hle : c₀ ≤ c) => ?_
        exact (Nat.lt_or_eq_of_le hle).imp_right fun heq => ⟨heq, Nat.zero_le k⟩

/-- The requests of an entry are purged, or the purge of its context has come to its end. -/
theorem passes_purgeCtx {scope : Scope}
    (h : threadStep m (.purgeCtx scope c₀ k₀) = some (m', t')) :
    SectionPasses m m' (.purgeCtx scope c₀ k₀) t' := by
  simp only [threadStep] at h
  split at h
  · cases h
    refine passes_of_modify rfl (fun _ => rfl) ?_
    intro c k ctx entry _ _ hne
    have hother : ¬ (c₀ = c ∧ k₀ = k) := by
      intro hat
      rw [if_pos hat] at hne
      exact hne rfl
    rw [if_neg hother] at hne ⊢
    refine ⟨.inl hne, id, ?_, Or.imp_right fun hpurges => ?_⟩
    · rintro (henabled | hpurges)
      · refine .inl ?_
        split <;> exact henabled
      · cases scope with
        | mgr => cases hpurges
        | ctx =>
          obtain ⟨rfl, hle⟩ := hpurges
          exact .inr ⟨rfl, by omega⟩
    · cases scope with
      | ctx => cases hpurges
      | mgr =>
        rcases hpurges with hlt | ⟨rfl, hle⟩
        · exact .inl hlt
        · exact .inr ⟨rfl, by omega⟩
  · rename_i hend
    cases h
    have hpassed : ∀ (c k : Nat) (ctx : ArbCtx), m.ctxs[c]? = some ctx → k < ctx.entries.length →
        ¬ (c₀ = c ∧ k₀ ≤ k) := by
      rintro c k ctx hctx hlt ⟨rfl, hle⟩
      refine hend ?_
      rw [hctx]
      simpa using Nat.lt_of_le_of_lt hle hlt
    refine passes_of_flags rfl (fun _ => rfl) ?_ ?_
    · rintro c k ctx hctx hlt (henabled | hpurges)
      · refine .inl ?_
        split <;> exact henabled
      · cases scope with
        | mgr => cases hpurges
        | ctx => exact absurd hpurges (hpassed c k ctx hctx hlt)
    · intro c k ctx hctx hlt
      refine Or.imp_right fun hpurges => ?_
      cases scope with
      | ctx => cases hpurges
      | mgr => exact hpurges.resolve_right (hpassed c k ctx hctx hlt)

/-- Where the flag of a context changes, it is set, or a purge of the context begins. -/
theorem passes_setCtx
    (h : threadStep m (.setCtx c₀ primitiveId domain inst isEnabled) = some (m', t')) :
    SectionPasses m m' (.setCtx c₀ primitiveId domain inst isEnabled) t' := by
  simp only [threadStep] at h
  split at h
  · cases h
    exact passes_of_ctxs_eq rfl nofun fun _ _ _ => Or.imp_right nofun
  · split at h
    · cases h
    · split at h
      · split at h
        · cases h
          refine passes_of_flags rfl (fun _ => rfl) ?_ fun _ _ _ _ _ => Or.imp_right nofun
          rintro c k ctx - - (henabled | hpurges)
          · refine .inl ?_
            split
            · rfl
            · exact henabled
          · cases hpurges
        · cases h
          refine passes_of_flags rfl (fun _ => rfl) ?_ fun _ _ _ _ _ => Or.imp_right nofun
          rintro c k ctx - - (henabled | hpurges)
          · by_cases hc : c₀ = c
            · exact .inr ⟨hc, Nat.zero_le k⟩
            · rw [if_neg hc]
              exact .inl henabled
          · cases hpurges
      · split at h
        · cases h
          refine passes_of_flags rfl (fun _ => rfl) ?_ fun _ _ _ _ _ => Or.imp_right nofun
          rintro c k ctx - - (henabled | hpurges)
          · refine .inl ?_
            split <;> exact henabled
          · cases hpurges
        · cases h
          exact passes_of_ctxs_eq rfl nofun fun _ _ _ => Or.imp_right nofun

/-- An entry that is disabled keeps no requests. -/
theorem passes_setEntry (h : threadStep m (.setEntry c₀ k₀ isEnabled) = some (m', t')) :
    SectionPasses m m' (.setEntry c₀ k₀ isEnabled) t' := by
  cases h
  refine passes_of_modify rfl (fun _ => rfl) ?_
  intro c k ctx entry _ _ hne
  refine ⟨?_, ?_, ?_, Or.imp_right nofun⟩
  · split at hne
    · cases isEnabled with
      | true => exact .inl hne
      | false => exact absurd rfl hne
    · exact .inl hne
  · intro henabled
    split at hne
    · cases isEnabled with
      | true => simp_all [EsifArbEntry.setArbitrationState]
      | false => exact absurd rfl hne
    · rename_i hother
      rw [if_neg hother, henabled]
  · rintro (henabled | hpurges)
    · refine .inl ?_
      split
      · exact Bool.or_eq_true_iff.mpr (.inr henabled)
      · exact henabled
    · cases hpurges

/-- **What a section does to the entries.** -/
theorem threadStep_passes (h : threadStep m t = some (m', t')) : SectionPasses m m' t t' := by
  cases t with
  | start call => exact passes_start h
  | lookup c₀ primitiveId domain inst app addr request => exact passes_lookup h
  | executing c₀ k₀ app addr request => exact passes_executing h
  | purgeMgr c₀ => exact passes_purgeMgr h
  | purgeCtx scope c₀ k₀ => exact passes_purgeCtx h
  | setCtx c₀ primitiveId domain inst isEnabled => exact passes_setCtx h
  | setEntry c₀ k₀ isEnabled => exact passes_setEntry h
  | finish isEnabled =>
    cases h
    refine passes_of_ctxs_eq rfl nofun fun _ _ _ => ?_
    rintro (henabled | hpurges)
    · exact .inl (Bool.or_eq_true_iff.mpr (.inr henabled))
    · cases hpurges
  | done => cases h

end Passes

/-! ## Runs -/

/-- An entry with requests is enabled, and the levels above it are open. -/
def RequestsKept (s : MgrState) : Prop :=
  ∀ (c k : Nat) (ctx : ArbCtx) (entry : EsifArbEntry), s.mgr.ctxs[c]? = some ctx →
    ctx.entries[k]? = some entry → entry.arbRequests ≠ [] →
      entry.arbitrationEnabled = true ∧ LevelsOpen s c k ctx

/-- What one thread or a flag keeps, the threads and the flag keep. -/
theorem exists_mem_set {threads : List Thread} {i : Nat} {t t' : Thread} {b b' : Prop}
    {purges : Thread → Prop} (ht : threads[i]? = some t) (hstep : b ∨ purges t → b' ∨ purges t')
    (h : b ∨ ∃ u ∈ threads, purges u) : b' ∨ ∃ u ∈ threads.set i t', purges u := by
  have hlt : i < threads.length := (List.getElem?_eq_some_iff.mp ht).1
  have hnew : t' ∈ threads.set i t' := List.mem_set hlt t'
  have hown : b ∨ purges t → b' ∨ ∃ u ∈ threads.set i t', purges u := fun hb =>
    (hstep hb).imp_right fun hpurges => ⟨t', hnew, hpurges⟩
  rcases h with hb | ⟨u, hu, hpurges⟩
  · exact hown (.inl hb)
  · obtain ⟨j, hj⟩ := List.mem_iff_getElem?.mp hu
    by_cases hij : i = j
    · subst hij
      obtain rfl : t = u := Option.some.inj (ht.symm.trans hj)
      exact hown (.inr hpurges)
    · exact .inr ⟨u, List.mem_iff_getElem?.mpr ⟨j, by rw [List.getElem?_set_ne hij, hj]⟩, hpurges⟩

theorem enableStep_requestsKept (s : MgrState) (a : Action) (s' : MgrState) (hok : NoDefect s a)
    (hstep : enableStep s a = some s') (h : RequestsKept s) : RequestsKept s' := by
  cases a with
  | call call =>
    cases hstep
    intro c k ctx entry hctx hentry hne
    obtain ⟨henabled, hopen⟩ := h c k ctx entry hctx hentry hne
    refine ⟨henabled, hopen.ctx.imp_right ?_, hopen.mgr.imp_right ?_⟩
    · exact fun ⟨t, ht, hpurges⟩ => ⟨t, List.mem_append_left _ ht, hpurges⟩
    · exact fun ⟨t, ht, hpurges⟩ => ⟨t, List.mem_append_left _ ht, hpurges⟩
  | step i =>
    simp only [enableStep] at hstep
    obtain ⟨t, ht, hstep⟩ := Option.bind_eq_some_iff.mp hstep
    obtain ⟨⟨mgr, t'⟩, hthread, rfl⟩ := Option.map_eq_some_iff.mp hstep
    intro c k ctx' entry' hctx' hentry' hne
    obtain ⟨ctx, entry, hctx, hentry, hpasses⟩ :=
      threadStep_passes hthread c k ctx' entry' hctx' hentry' hne
    have hkept : entry.arbitrationEnabled = true ∧ LevelsOpen s c k ctx := by
      rcases hpasses.requests with hne | ⟨hinserts, henabled⟩
      · exact h c k ctx entry hctx hentry hne
      · exact ⟨henabled, hok t ht (c, k) hinserts ctx hctx entry hentry henabled⟩
    exact ⟨hpasses.entry hkept.1, exists_mem_set ht hpasses.ctx hkept.2.ctx,
      exists_mem_set ht hpasses.mgr hkept.2.mgr⟩

theorem requestsKept_init (participants : List (EsifHandle × List EsifArbEntryParams)) :
    RequestsKept (MgrState.init participants) := by
  intro c k ctx entry hctx hentry hne
  simp only [MgrState.init, List.getElem?_map] at hctx
  obtain ⟨⟨participantId, table⟩, -, rfl⟩ := Option.map_eq_some_iff.mp hctx
  rw [List.getElem?_map] at hentry
  obtain ⟨params, -, rfl⟩ := Option.map_eq_some_iff.mp hentry
  exact absurd rfl hne

/-- **Disabled arbitration keeps no requests.**  In every run in which no request is inserted
below a disabled level that no purge will reach: when no call is in progress, nothing is
left below a disabled level. -/
theorem disabledEmpty_of_noDefect {participants : List (EsifHandle × List EsifArbEntryParams)}
    {s : MgrState} {actions : List Action}
    (hok : EveryStep enableStep NoDefect (MgrState.init participants) actions)
    (hrun : run enableStep (MgrState.init participants) actions = some s)
    (hdone : ∀ t ∈ s.threads, t = .done) : DisabledEmpty s := by
  have hkept : RequestsKept s :=
    run_invariant_of_everyStep enableStep_requestsKept hok hrun (requestsKept_init participants)
  have hlevels : ∀ ctx ∈ s.mgr.ctxs, ∀ entry ∈ ctx.entries, entry.arbRequests ≠ [] →
      entry.arbitrationEnabled = true ∧ ctx.arbitrationEnabled = true ∧
        s.mgr.arbitrationEnabled = true := by
    intro ctx hctx entry hentry hne
    obtain ⟨c, hctx⟩ := List.mem_iff_getElem?.mp hctx
    obtain ⟨k, hentry⟩ := List.mem_iff_getElem?.mp hentry
    obtain ⟨henabled, hopen⟩ := hkept c k ctx entry hctx hentry hne
    -- a thread that is done purges nothing
    refine ⟨henabled, hopen.ctx.resolve_right ?_, hopen.mgr.resolve_right ?_⟩
    · rintro ⟨t, ht, hpurges⟩
      obtain rfl := hdone t ht
      cases hpurges
    · rintro ⟨t, ht, hpurges⟩
      obtain rfl := hdone t ht
      cases hpurges
  refine ⟨fun hmgr ctx hctx entry hentry => ?_, fun ctx hctx hdisabled entry hentry => ?_,
    fun ctx hctx entry hentry hdisabled => ?_⟩
  · by_contra hne
    have := (hlevels ctx hctx entry hentry hne).2.2
    rw [hmgr] at this
    cases this
  · by_contra hne
    have := (hlevels ctx hctx entry hentry hne).2.1
    rw [hdisabled] at this
    cases this
  · by_contra hne
    have := (hlevels ctx hctx entry hentry hne).1
    rw [hdisabled] at this
    cases this

/-- A fan's request has read the flags when arbitration is disabled for all participants; it
is inserted after `purged` of the five sections of the disabling call. -/
def requestWhileDisabling (purged : Nat) : List Action :=
  [.call (.executePrimitive 0 setFanLevel esifPrimitiveDomainD0 255 7 0 (some (uint32Data 50))),
    .step 0, .step 0, .call (.setArbitrationState none 0 0 0 false)] ++
    (List.replicate purged 1 ++ 0 :: List.replicate (5 - purged) 1).map Action.step

/-- No call is in progress. -/
def Thread.isDone : Thread → Bool
  | .done => true
  | _ => false

theorem Thread.eq_done_of_isDone {t : Thread} (h : t.isDone = true) : t = .done := by
  cases t with
  | done => rfl
  | _ => cases h

theorem disabledEmpty_of_noDefect_requestWhileDisabling :
    ∃ s, run enableStep (MgrState.init [(1, fanArbTable)]) (requestWhileDisabling 1) = some s ∧
      s.mgr.arbitrationEnabled = false ∧ DisabledEmpty s := by
  have hok : EveryStep enableStep NoDefect (MgrState.init [(1, fanArbTable)])
      (requestWhileDisabling 1) := by
    decide +kernel
  have hend : (run enableStep (MgrState.init [(1, fanArbTable)]) (requestWhileDisabling 1)).any
      (fun s => !s.mgr.arbitrationEnabled && s.threads.all Thread.isDone) = true := by
    decide +kernel
  obtain ⟨s, hrun, hend⟩ := (Option.any_eq_true _ _).mp hend
  obtain ⟨hdisabled, hdone⟩ := Bool.and_eq_true_iff.mp hend
  refine ⟨s, hrun, by simpa using hdisabled, disabledEmpty_of_noDefect hok hrun fun t ht => ?_⟩
  exact Thread.eq_done_of_isDone (List.all_eq_true.mp hdone t ht)

/-- The request is inserted after the purge and stays in the disabled fan's list. -/
theorem request_survives_disable :
    ∃ s, run enableStep (MgrState.init [(1, fanArbTable)]) (requestWhileDisabling 5) = some s ∧
      (∀ t ∈ s.threads, t = .done) ∧ ¬ DisabledEmpty s := by
  have hend : (run enableStep (MgrState.init [(1, fanArbTable)]) (requestWhileDisabling 5)).any
      (fun s => !s.mgr.arbitrationEnabled && s.threads.all Thread.isDone &&
        s.mgr.ctxs.any fun ctx => ctx.entries.any fun entry => !entry.arbRequests.isEmpty) =
          true := by
    decide +kernel
  obtain ⟨s, hrun, hend⟩ := (Option.any_eq_true _ _).mp hend
  obtain ⟨hend, hleft⟩ := Bool.and_eq_true_iff.mp hend
  obtain ⟨hdisabled, hdone⟩ := Bool.and_eq_true_iff.mp hend
  refine ⟨s, hrun, fun t ht => Thread.eq_done_of_isDone (List.all_eq_true.mp hdone t ht), ?_⟩
  obtain ⟨ctx, hctx, hleft⟩ := List.any_eq_true.mp hleft
  obtain ⟨entry, hentry, hleft⟩ := List.any_eq_true.mp hleft
  intro h
  have hempty := h.mgr (by simpa using hdisabled) ctx hctx entry hentry
  rw [hempty] at hleft
  cases hleft

end Arb.Enable

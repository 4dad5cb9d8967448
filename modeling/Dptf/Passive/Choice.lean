import Dptf.Passive.DomainChoice

/-!
# What the passive policy chooses for a target

The sources that the passive policy chooses for a target: those of the greatest or the least
influence, of the tracked ones that have a domain to limit or unlimit.  With the domains of each
source they say what is limited and unlimited, and whether a source may be busy without a request.

* `mem_chooseSourcesToLimitForTarget`, `mem_chooseSourcesToUnlimitForTarget` — **they are chosen**,
  and no others.
* `choosesWell_iff` — **when all is chosen well**.
-/

open Lib
open Mgr (Temperature)

namespace Passive

open TargetAction

/-! ## The sources -/

section Sources

variable (tracker : ParticipantTracker) (trt : List InfluenceEntry) (target : Nat)
variable {entries : List InfluenceEntry}

/-- A row of the target whose source is tracked and has a domain that can be turned. -/
def Candidate (canTurn : SourceDomain → Bool) (entry : InfluenceEntry) : Prop :=
  entry ∈ trt ∧ entry.targetDeviceIndex = target ∧
    ∃ participant, tracker.trackedParticipants.find entry.sourceDeviceIndex = some participant ∧
      ∃ index domain, participant.domains.find index = some domain ∧ canTurn domain = true

/-- The source of a candidate that no other candidate comes before. -/
def ExtremeSource (canTurn : SourceDomain → Bool) (before : UInt32 → UInt32 → Prop)
    (source : Nat) : Prop :=
  ∃ entry, Candidate tracker trt target canTurn entry ∧ entry.sourceDeviceIndex = source ∧
    ∀ other, Candidate tracker trt target canTurn other →
      before other.thermalInfluence entry.thermalInfluence

/-- A tracked source of the target with a domain that can be limited, and the greatest influence of
those. -/
def SourceToLimit : Nat → Prop :=
  ExtremeSource tracker trt target (fun domain => domain.canLimit target) (· ≤ ·)

/-- A tracked source of the target with a domain that can be unlimited, and the least influence of
those. -/
def SourceToUnlimit : Nat → Prop :=
  ExtremeSource tracker trt target (fun domain => domain.canUnlimit target) (· ≥ ·)

variable {tracker trt target}

theorem mem_getEntriesWithControls {canTurn : SourceDomain → Bool} {entry : InfluenceEntry} :
    entry ∈ getEntriesWithControls tracker canTurn (getEntriesForTarget trt target) ↔
      Candidate tracker trt target canTurn entry := by
  simp only [getEntriesWithControls, getEntriesForTarget, List.mem_filter, Candidate,
    decide_eq_true_eq, Bool.and_eq_true, ne_eq, and_assoc]
  refine and_congr_right fun _ => and_congr_right fun _ => ?_
  cases hfind : tracker.trackedParticipants.find entry.sourceDeviceIndex with
  | none => simp
  | some participant =>
    have hindex : entry.sourceDeviceIndex ≠ noIndex := by
      intro heq
      rw [heq, tracker.valid] at hfind
      cases hfind
    simp only [Option.any_some, decide_eq_true_eq, getDomainsWithControlKnobs_pos_iff]
    simp [hindex]

/-! ### The ends of the sorted list -/

theorem perm_sortEntries (entries : List InfluenceEntry) : (sortEntries entries).Perm entries :=
  List.mergeSort_perm _ _

/-- The influences descend. -/
theorem pairwise_sortEntries (entries : List InfluenceEntry) :
    (sortEntries entries).Pairwise fun a b => b.thermalInfluence ≤ a.thermalInfluence := by
  have hsorted := @List.pairwise_mergeSort _
    (fun left right => !compareTrtTableEntriesOnInfluence right left)
    (fun a b c hab hbc => by
      simp only [compareTrtTableEntriesOnInfluence, gt_iff_lt, Bool.not_eq_eq_eq_not, Bool.not_true,
        decide_eq_false_iff_not, UInt32.not_lt] at hab hbc ⊢
      exact UInt32.le_trans hbc hab)
    (fun a b => by
      simp only [compareTrtTableEntriesOnInfluence, gt_iff_lt, Bool.or_eq_true,
        Bool.not_eq_eq_eq_not, Bool.not_true, decide_eq_false_iff_not, UInt32.not_lt]
      exact UInt32.le_total _ _) entries
  refine hsorted.imp fun {a b} hab => ?_
  simpa [compareTrtTableEntriesOnInfluence] using hab

/-- The sources that are tied with an extreme entry are those of the extreme entries. -/
theorem mem_tiedSources {before : UInt32 → UInt32 → Prop}
    (hanti : ∀ a b, before a b → before b a → a = b) {extreme : InfluenceEntry}
    (hmem : extreme ∈ entries)
    (hextreme : ∀ e ∈ entries, before e.thermalInfluence extreme.thermalInfluence) (source : Nat) :
    source ∈ tiedSources entries (some extreme) ↔
      ∃ entry ∈ entries, entry.sourceDeviceIndex = source ∧
        ∀ other ∈ entries, before other.thermalInfluence entry.thermalInfluence := by
  simp only [tiedSources, List.mem_map, List.mem_filter, Option.any_some, decide_eq_true_eq]
  constructor
  · rintro ⟨entry, ⟨hentry, htied⟩, hsource⟩
    refine ⟨entry, hentry, hsource, fun other hother => ?_⟩
    rw [htied]
    exact hextreme other hother
  · rintro ⟨entry, hentry, hsource, hbest⟩
    exact ⟨entry, ⟨hentry, hanti _ _ (hextreme entry hentry) (hbest extreme hmem)⟩, hsource⟩

theorem head_extreme {first : InfluenceEntry}
    (hsorted : entries.Pairwise fun a b => b.thermalInfluence ≤ a.thermalInfluence)
    (hfirst : entries.head? = some first) :
    first ∈ entries ∧ ∀ e ∈ entries, e.thermalInfluence ≤ first.thermalInfluence := by
  cases entries with
  | nil => cases hfirst
  | cons e es =>
    obtain rfl : e = first := by simpa using hfirst
    refine ⟨List.mem_cons_self, ?_⟩
    intro e' he'
    rcases List.mem_cons.1 he' with rfl | he'
    · exact UInt32.le_refl _
    · exact (List.pairwise_cons.1 hsorted).1 e' he'

theorem last_extreme {last : InfluenceEntry}
    (hsorted : entries.Pairwise fun a b => b.thermalInfluence ≤ a.thermalInfluence)
    (hlast : entries.getLast? = some last) :
    last ∈ entries ∧ ∀ e ∈ entries, e.thermalInfluence ≥ last.thermalInfluence := by
  obtain ⟨es, rfl⟩ := List.getLast?_eq_some_iff.1 hlast
  refine ⟨by simp, ?_⟩
  intro e he
  rcases List.mem_append.1 he with he | he
  · exact (List.pairwise_append.1 hsorted).2.2 e he last (by simp)
  · rw [List.mem_singleton.1 he]
    exact UInt32.le_refl _

/-- The sources of the extreme entries, whichever end of the list they are at. -/
theorem mem_chooseSources {canTurn : SourceDomain → Bool} {before : UInt32 → UInt32 → Prop}
    (hanti : ∀ a b, before a b → before b a → a = b)
    {pick : List InfluenceEntry → Option InfluenceEntry} (hnone : ∀ es, pick es = none → es = [])
    (hpick : ∀ es e, es.Pairwise (fun a b => b.thermalInfluence ≤ a.thermalInfluence) →
      pick es = some e → e ∈ es ∧ ∀ e' ∈ es, before e'.thermalInfluence e.thermalInfluence)
    (source : Nat) :
    source ∈ tiedSources
        (sortEntries (getEntriesWithControls tracker canTurn (getEntriesForTarget trt target)))
        (pick (sortEntries
          (getEntriesWithControls tracker canTurn (getEntriesForTarget trt target)))) ↔
      ExtremeSource tracker trt target canTurn before source := by
  have hentries : ∀ e, e ∈ sortEntries
      (getEntriesWithControls tracker canTurn (getEntriesForTarget trt target)) ↔
        Candidate tracker trt target canTurn e := by
    intro e
    rw [(perm_sortEntries _).mem_iff, mem_getEntriesWithControls]
  have hsorted := pairwise_sortEntries
    (getEntriesWithControls tracker canTurn (getEntriesForTarget trt target))
  revert hentries hsorted
  generalize sortEntries
    (getEntriesWithControls tracker canTurn (getEntriesForTarget trt target)) = entries
  intro hentries hsorted
  simp only [ExtremeSource, ← hentries]
  cases hextreme : pick entries with
  | none =>
    obtain rfl := hnone entries hextreme
    simp [tiedSources]
  | some extreme =>
    obtain ⟨hmem, hbest⟩ := hpick entries extreme hsorted hextreme
    exact mem_tiedSources hanti hmem hbest source

/-- **The sources to limit** are chosen, and no others. -/
theorem mem_chooseSourcesToLimitForTarget {source : Nat} :
    source ∈ chooseSourcesToLimitForTarget tracker trt target ↔
      SourceToLimit tracker trt target source :=
  mem_chooseSources (fun _ _ => UInt32.le_antisymm) (fun _ => List.head?_eq_none_iff.1)
    (fun _ _ => head_extreme) source

/-- **The sources to unlimit** are chosen, and no others. -/
theorem mem_chooseSourcesToUnlimitForTarget {source : Nat} :
    source ∈ chooseSourcesToUnlimitForTarget tracker trt target ↔
      SourceToUnlimit tracker trt target source :=
  mem_chooseSources (fun _ _ hab hba => UInt32.le_antisymm hba hab)
    (fun _ => List.getLast?_eq_none_iff.1) (fun _ _ => last_extreme) source

end Sources

/-! ## The requests -/

/-- **A source that is marked busy has a request**, where domains of each source are chosen. -/
theorem requested_of_busy {choose : Nat → Option (List Nat)} {target time : Nat}
    {sources : List Nat}
    (hchoose : ∀ source ∈ sources, ∀ domains, choose source = some domains → domains ≠ [])
    {scheduler : CallbackScheduler} {source : Nat}
    (hbusy : (requestSources choose target time sources scheduler).1.requestSchedule.find
        ⟨target, source⟩ ≠ scheduler.requestSchedule.find ⟨target, source⟩) :
    ∃ domain, (source, domain) ∈ (requestSources choose target time sources scheduler).2 := by
  induction sources generalizing scheduler with
  | nil => exact absurd rfl hbusy
  | cons first sources ih =>
    have hrest : ∀ source ∈ sources, ∀ domains, choose source = some domains → domains ≠ [] :=
      fun source hsource => hchoose source (List.mem_cons_of_mem _ hsource)
    simp only [requestSources] at hbusy ⊢
    split at hbusy
    · rename_i hfree
      rw [if_pos hfree]
      cases hdomains : choose first with
      | none =>
        rw [hdomains] at hbusy
        exact absurd rfl hbusy
      | some domains =>
        rw [hdomains] at hbusy
        simp only at hbusy ⊢
        cases hmark : scheduler.markBusyForRequests target first time with
        | none =>
          rw [hmark] at hbusy
          exact absurd rfl hbusy
        | some marked =>
          rw [hmark] at hbusy
          simp only at hbusy ⊢
          by_cases hfirst : source = first
          · subst hfirst
            obtain ⟨domain, hdomain⟩ := List.exists_mem_of_ne_nil domains
              (hchoose source List.mem_cons_self domains hdomains)
            exact ⟨domain, List.mem_append_left _ (List.mem_map.2 ⟨domain, hdomain, rfl⟩)⟩
          · have hsame : marked.requestSchedule.find ⟨target, source⟩ =
                scheduler.requestSchedule.find ⟨target, source⟩ := by
              simp only [CallbackScheduler.markBusyForRequests, Option.bind_eq_some_iff,
                Option.map_eq_some_iff] at hmark
              obtain ⟨_, -, sampleTime, -, rfl⟩ := hmark
              rw [KeyMap.find_assign,
                if_neg fun heq => hfirst (TargetSourceRelationship.mk.inj heq).2]
            rw [← hsame] at hbusy
            obtain ⟨domain, hdomain⟩ := ih hrest hbusy
            exact ⟨domain, List.mem_append_right _ hdomain⟩
    · rename_i hfree
      rw [if_neg hfree]
      exact ih hrest hbusy

/-! ## All choices for a target -/

section Choices

variable (tracker : ParticipantTracker) (trt : List InfluenceEntry) (target : Nat)

/-- No source is marked busy by `execute` without a request. -/
def NoneBusyInVain (choose : Nat → Option (List Nat)) (sources : List Nat) : Prop :=
  ∀ (scheduler : CallbackScheduler) (time source : Nat),
    (requestSources choose target time sources scheduler).1.requestSchedule.find
        ⟨target, source⟩ ≠ scheduler.requestSchedule.find ⟨target, source⟩ →
      ∃ domain, (source, domain) ∈ (requestSources choose target time sources scheduler).2

/-- The sources are those to limit and unlimit, some of the domains of each are chosen, and none is
busy in vain. -/
structure ChoosesWell : Prop where
  sourcesToLimit : ∀ source, source ∈ chooseSourcesToLimitForTarget tracker trt target ↔
    SourceToLimit tracker trt target source
  sourcesToUnlimit : ∀ source, source ∈ chooseSourcesToUnlimitForTarget tracker trt target ↔
    SourceToUnlimit tracker trt target source
  domainsToLimit : ∀ source ∈ chooseSourcesToLimitForTarget tracker trt target,
    ∃ participant, tracker.trackedParticipants.find source = some participant ∧
      ChosenWell (fun domain => domain.canLimit target) participant
        (chooseDomainsToLimitForSource tracker target source)
  domainsToUnlimit : ∀ source ∈ chooseSourcesToUnlimitForTarget tracker trt target,
    ∃ participant, tracker.trackedParticipants.find source = some participant ∧
      ChosenWell (fun domain => domain.canUnlimit target) participant
        (chooseDomainsToUnlimitForSource tracker target source)
  limitBusy : NoneBusyInVain target (chooseDomainsToLimitForSource tracker target)
    (chooseSourcesToLimitForTarget tracker trt target)
  unlimitBusy : NoneBusyInVain target (chooseDomainsToUnlimitForSource tracker target)
    (chooseSourcesToUnlimitForTarget tracker trt target)

/-- Of each source to limit and unlimit enough can be read. -/
def Readable : Prop :=
  (∀ source participant, SourceToLimit tracker trt target source →
    tracker.trackedParticipants.find source = some participant →
      ReadableToLimit participant target source) ∧
  ∀ source participant, SourceToUnlimit tracker trt target source →
    tracker.trackedParticipants.find source = some participant →
      ReadableToUnlimit participant target source

variable {tracker trt target}

/-- An extreme source is tracked, and has a domain that can be turned. -/
theorem ExtremeSource.tracked {canTurn : SourceDomain → Bool} {before : UInt32 → UInt32 → Prop}
    {source : Nat} (h : ExtremeSource tracker trt target canTurn before source) :
    ∃ participant, tracker.trackedParticipants.find source = some participant ∧
      getDomainsWithControlKnobs canTurn participant ≠ [] := by
  obtain ⟨entry, ⟨-, -, participant, hfind, hturn⟩, rfl, -⟩ := h
  exact ⟨participant, hfind, List.length_pos_iff.1 (getDomainsWithControlKnobs_pos_iff.2 hturn)⟩

/-- Domains are chosen of all extreme sources just if of each enough can be read. -/
theorem chosen_iff {canTurn : SourceDomain → Bool} {before : UInt32 → UInt32 → Prop}
    {choose : Nat → Option (List Nat)} {readable : ParticipantProxy → Nat → Prop}
    (hchosen : ∀ {source participant}, tracker.trackedParticipants.find source = some participant →
        getDomainsWithControlKnobs canTurn participant ≠ [] →
          (ChosenWell canTurn participant (choose source) ↔ readable participant source)) :
    (∀ source, ExtremeSource tracker trt target canTurn before source →
      ∃ participant, tracker.trackedParticipants.find source = some participant ∧
        ChosenWell canTurn participant (choose source)) ↔
    ∀ source participant, ExtremeSource tracker trt target canTurn before source →
      tracker.trackedParticipants.find source = some participant → readable participant source := by
  constructor
  · intro h source participant hsource hfind
    obtain ⟨participant', hfind', hwell⟩ := h source hsource
    obtain ⟨participant'', hfind'', hne⟩ := hsource.tracked
    rw [hfind] at hfind' hfind''
    obtain rfl := Option.some.inj hfind'
    obtain rfl := Option.some.inj hfind''
    exact (hchosen hfind hne).1 hwell
  · intro h source hsource
    obtain ⟨participant, hfind, hne⟩ := hsource.tracked
    exact ⟨participant, hfind, (hchosen hfind hne).2 (h source participant hsource hfind)⟩

/-- Where domains are chosen of each source, none is busy in vain. -/
theorem noneBusyInVain {canTurn : SourceDomain → Bool} {choose : Nat → Option (List Nat)}
    {sources : List Nat} (h : ∀ source ∈ sources, ∃ participant,
      tracker.trackedParticipants.find source = some participant ∧
        ChosenWell canTurn participant (choose source)) :
    NoneBusyInVain target choose sources := by
  intro scheduler time source hbusy
  refine requested_of_busy (fun source hsource domains hdomains => ?_) hbusy
  obtain ⟨participant, -, chosen, hchosen, hne, -⟩ := h source hsource
  rw [hchosen] at hdomains
  exact Option.some.inj hdomains ▸ hne

/-- **All is chosen well** just if of each source to limit and unlimit enough can be read. -/
theorem choosesWell_iff (tracker : ParticipantTracker) (trt : List InfluenceEntry) (target : Nat) :
    ChoosesWell tracker trt target ↔ Readable tracker trt target := by
  have hlimit : (∀ source ∈ chooseSourcesToLimitForTarget tracker trt target, _) ↔ _ :=
    (forall_congr' fun source =>
      imp_congr_left mem_chooseSourcesToLimitForTarget).trans (chosen_iff chosenWell_limit_iff)
  have hunlimit : (∀ source ∈ chooseSourcesToUnlimitForTarget tracker trt target, _) ↔ _ :=
    (forall_congr' fun source =>
      imp_congr_left mem_chooseSourcesToUnlimitForTarget).trans (chosen_iff chosenWell_unlimit_iff)
  constructor
  · intro h
    exact ⟨hlimit.1 h.domainsToLimit, hunlimit.1 h.domainsToUnlimit⟩
  · rintro ⟨hreadLimit, hreadUnlimit⟩
    exact {
      sourcesToLimit := fun source => mem_chooseSourcesToLimitForTarget
      sourcesToUnlimit := fun source => mem_chooseSourcesToUnlimitForTarget
      domainsToLimit := hlimit.2 hreadLimit
      domainsToUnlimit := hunlimit.2 hreadUnlimit
      limitBusy := noneBusyInVain (hlimit.2 hreadLimit)
      unlimitBusy := noneBusyInVain (hunlimit.2 hreadUnlimit) }

/-! ### A reading of -136 °C -/

/-- A domain whose temperature control could not read the temperature, and says -136 °C. -/
def unreadDomain : SourceDomain where
  isMultiFunction := false
  canLimit _ := true
  canUnlimit _ := true
  supportsTemperatureControls := true
  currentTemperature := some (some Temperature.minValidTemperature)
  implementsUtilizationInterface := false
  utilizationStatus := none
  domainPriority := some 0

/-- A participant with that domain alone. -/
def unreadParticipant : ParticipantProxy where
  domains := KeyMap.empty.assign 0 unreadDomain
  valid := rfl

/-- Participant 1 is tracked. -/
def unreadTracker : ParticipantTracker where
  trackedParticipants := KeyMap.empty.assign 1 unreadParticipant
  valid := rfl

/-- It is its own source. -/
def ownSource : InfluenceEntry where
  targetDeviceIndex := 1
  sourceDeviceIndex := 1
  thermalSamplingPeriod := some 10000000
  thermalInfluence := 100

/-- The participant is chosen as a source to limit, and no domain of it. -/
theorem unreadTracker_not_choosesWell :
    ¬ ∀ (tracker : ParticipantTracker) (trt : List InfluenceEntry) (target : Nat),
      ChoosesWell tracker trt target := by
  intro h
  have hsource : SourceToLimit unreadTracker [ownSource] 1 1 := by
    refine ⟨ownSource, ⟨List.mem_singleton_self _, rfl, unreadParticipant, rfl, 0, unreadDomain, rfl,
      rfl⟩, rfl, ?_⟩
    rintro other ⟨hother, -⟩
    rw [List.mem_singleton.1 hother]
    exact UInt32.le_refl _
  obtain ⟨participant, hfind, hwell⟩ := (h unreadTracker [ownSource] 1).domainsToLimit 1
    (mem_chooseSourcesToLimitForTarget.2 hsource)
  obtain rfl : unreadParticipant = participant := Option.some.inj hfind
  have hknobs : getDomainsWithControlKnobsToLimit unreadParticipant 1 = [(0, unreadDomain)] := rfl
  have hread := (chosenWell_limit_iff hfind (by simp [hknobs])).1 hwell
  rw [ReadableToLimit, if_pos rfl, someDomain_iff, ← getDomainsWithControlKnobsToLimit_eq,
    hknobs] at hread
  obtain ⟨domain, hdomain, hread⟩ := hread
  rw [List.mem_singleton.1 hdomain] at hread
  rcases hread with hmulti | hsupports | ⟨temperature, htemperature, habove⟩
  · cases hmulti
  · cases hsupports
  · rw [← Option.some.inj (Option.some.inj htemperature)] at habove
    exact lt_irrefl _ habove

end Choices

end Passive

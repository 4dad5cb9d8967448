import Dptf.Passive.TargetActions

/-!
# The domains of a source

The domains that the passive policy chooses of a source.  Where readings fail there may be none, or
an exception.

* `ReadableToLimit`, `ReadableToUnlimit` — what must be read of a source;
  `chosenWell_limit_iff`, `chosenWell_unlimit_iff` — **when domains of it are chosen**.
-/

open Lib
open Mgr (Temperature Percentage)

namespace Passive

open TargetAction

variable {participant : ParticipantProxy}

/-! ## Readings in a row -/

section MapM

variable {α β : Type} {f : α → Option β}

theorem mapM_eq_none_iff (as : List α) : as.mapM f = none ↔ ∃ a ∈ as, f a = none := by
  induction as with
  | nil => simp
  | cons a as ih =>
    rw [List.mapM_cons]
    cases hf : f a with
    | none => simp [hf]
    | some b =>
      cases hrest : as.mapM f with
      | none => simpa [hf, hrest] using ih
      | some bs => simpa [hf, hrest] using ih

theorem mem_of_mapM_eq_some {as : List α} {bs : List β} (h : as.mapM f = some bs) (b : β) :
    b ∈ bs ↔ ∃ a ∈ as, f a = some b := by
  induction as generalizing bs with
  | nil =>
    obtain rfl : bs = [] := by simpa using h.symm
    simp
  | cons a as ih =>
    rw [List.mapM_cons] at h
    cases hf : f a with
    | none => simp [hf] at h
    | some b' =>
      cases hrest : as.mapM f with
      | none => simp [hf, hrest] at h
      | some bs' =>
        obtain rfl : bs = b' :: bs' := by simpa [hf, hrest] using h.symm
        simp [ih hrest, hf, eq_comm]

end MapM

/-! ## The domains of a source -/

theorem mem_getDomainsWithControlKnobs {canTurn : SourceDomain → Bool} {domain : Nat × SourceDomain}
    :
    domain ∈ getDomainsWithControlKnobs canTurn participant ↔
      participant.domains.find domain.1 = some domain.2 ∧ canTurn domain.2 = true := by
  obtain ⟨index, domain⟩ := domain
  rw [getDomainsWithControlKnobs, List.mem_filter, KeyMap.mem_entries_iff]

theorem getDomainsWithControlKnobs_pos_iff {canTurn : SourceDomain → Bool} :
    (getDomainsWithControlKnobs canTurn participant).length > 0 ↔
      ∃ index domain, participant.domains.find index = some domain ∧ canTurn domain = true := by
  rw [gt_iff_lt, List.length_pos_iff_exists_mem]
  constructor
  · rintro ⟨⟨index, domain⟩, hmem⟩
    exact ⟨index, domain, mem_getDomainsWithControlKnobs.1 hmem⟩
  · rintro ⟨index, domain, hdomain⟩
    exact ⟨(index, domain), mem_getDomainsWithControlKnobs.2 hdomain⟩

section Loops

variable {domains : IndexedDomains}
variable {set : Finset Nat}

@[simp] theorem mem_indexes {index : Nat} :
    index ∈ indexes domains ↔ ∃ domain ∈ domains, domain.1 = index := by
  simp [indexes]

theorem indexes_eq_empty_iff : indexes domains = ∅ ↔ domains = [] := by
  simp [indexes]

theorem mem_toVector {index : Nat} : index ∈ toVector set ↔ index ∈ set :=
  Finset.mem_sort _

theorem toVector_eq_nil_iff : toVector set = [] ↔ set = ∅ := by
  rw [← List.length_eq_zero_iff, toVector, Finset.length_sort, Finset.card_eq_zero]

/-- A loop that keeps an index or takes that of the domain it looks at. -/
theorem foldl_index_mem {σ : Type} {turn : σ × Nat → Nat × SourceDomain → σ × Nat}
    (hturn : ∀ s domain, (turn s domain).2 = s.2 ∨ (turn s domain).2 = domain.1) (s : σ × Nat) :
    (domains.foldl turn s).2 = s.2 ∨ (domains.foldl turn s).2 ∈ indexes domains := by
  induction domains generalizing s with
  | nil => exact Or.inl rfl
  | cons domain domains ih =>
    rw [List.foldl_cons]
    rcases ih (turn s domain) with hsame | hrest
    · rw [hsame]
      refine (hturn s domain).imp_right fun htaken => ?_
      rw [htaken, mem_indexes]
      exact ⟨domain, List.mem_cons_self, rfl⟩
    · rw [mem_indexes] at hrest ⊢
      obtain ⟨d, hd, heq⟩ := hrest
      exact Or.inr ⟨d, List.mem_cons_of_mem _ hd, heq⟩

/-! ### The highest temperature -/

theorem warmer_snd (highest : Temperature × Nat) (domain : Nat × SourceDomain) :
    (warmer highest domain).2 = highest.2 ∨ (warmer highest domain).2 = domain.1 := by
  unfold warmer
  split
  · split
    · exact Or.inr rfl
    · exact Or.inl rfl
  · exact Or.inl rfl

/-- A domain is chosen unless no reading is above the temperature that is known. -/
theorem foldl_warmer_eq_noIndex_iff (hvalid : ∀ domain ∈ domains, domain.1 ≠ noIndex)
    (highest : Temperature × Nat) : (domains.foldl warmer highest).2 = noIndex ↔
      highest.2 = noIndex ∧ ∀ domain ∈ domains, ∀ temperature,
        domain.2.getCurrentTemperature = some (some temperature) → temperature ≤ highest.1 := by
  induction domains generalizing highest with
  | nil => simp
  | cons domain domains ih =>
    have hdomain := hvalid domain List.mem_cons_self
    have hrest : ∀ d ∈ domains, d.1 ≠ noIndex := fun d hd => hvalid d (List.mem_cons_of_mem _ hd)
    rw [List.foldl_cons, ih hrest, List.forall_mem_cons]
    cases hreading : domain.2.getCurrentTemperature with
    | none => simp [warmer, hreading]
    | some reading =>
      cases reading with
      | none => simp [warmer, hreading]
      | some temperature =>
        by_cases habove : temperature > highest.1
        · have hnot : ¬ temperature ≤ highest.1 := not_le.2 habove
          simp [warmer, hreading, habove, hdomain, hnot]
        · have hle : temperature ≤ highest.1 := not_lt.1 habove
          simp [warmer, hreading, habove, hle]

theorem mem_insertIndex {index i : Nat} :
    i ∈ insertIndex index set ↔ i = index ∧ index ≠ noIndex ∨ i ∈ set := by
  unfold insertIndex
  split
  · rename_i hvalid
    simp [hvalid]
  · rename_i hinvalid
    simp [not_not.1 hinvalid]

theorem insertIndex_eq_empty_iff {index : Nat} :
    insertIndex index set = ∅ ↔ index = noIndex ∧ set = ∅ := by
  unfold insertIndex
  split
  · rename_i hvalid
    simp [hvalid]
  · rename_i hinvalid
    simp [not_not.1 hinvalid]

/-! ### The lowest temperature -/

theorem cooler_snd (lowest : Option Temperature × Nat) (domain : Nat × SourceDomain) :
    (cooler lowest domain).2 = lowest.2 ∨ (cooler lowest domain).2 = domain.1 := by
  unfold cooler
  split
  · exact Or.inl rfl
  · split
    · exact Or.inr rfl
    · split
      · exact Or.inr rfl
      · exact Or.inl rfl
    · exact Or.inl rfl

/-- A temperature that can be read, valid or not, is taken if none is known. -/
theorem cooler_snd_ne {lowest : Option Temperature × Nat} {domain : Nat × SourceDomain}
    (hlowest : lowest.2 = noIndex → lowest.1 = none) (hdomain : domain.1 ≠ noIndex)
    (hreading : domain.2.getCurrentTemperature ≠ none) : (cooler lowest domain).2 ≠ noIndex := by
  obtain ⟨reading, hreading⟩ := Option.ne_none_iff_exists'.1 hreading
  cases hknown : lowest.1 with
  | none => simpa [cooler, hreading, hknown] using hdomain
  | some temperature =>
    have hset : lowest.2 ≠ noIndex := by
      intro heq
      rw [hlowest heq] at hknown
      cases hknown
    rcases cooler_snd lowest domain with heq | heq <;> rw [heq]
    · exact hset
    · exact hdomain

/-- A domain is chosen unless no temperature can be read. -/
theorem foldl_cooler_eq_noIndex_iff (hvalid : ∀ domain ∈ domains, domain.1 ≠ noIndex)
    {lowest : Option Temperature × Nat} (hlowest : lowest.2 = noIndex → lowest.1 = none) :
    (domains.foldl cooler lowest).2 = noIndex ↔
      lowest.2 = noIndex ∧ ∀ domain ∈ domains, domain.2.getCurrentTemperature = none := by
  induction domains generalizing lowest with
  | nil => simp
  | cons domain domains ih =>
    have hdomain := hvalid domain List.mem_cons_self
    have hrest : ∀ d ∈ domains, d.1 ≠ noIndex := fun d hd => hvalid d (List.mem_cons_of_mem _ hd)
    rw [List.foldl_cons, List.forall_mem_cons]
    cases hreading : domain.2.getCurrentTemperature with
    | none =>
      have hsame : cooler lowest domain = lowest := by simp [cooler, hreading]
      rw [hsame, ih hrest hlowest]
      simp
    | some reading =>
      have hchosen := cooler_snd_ne hlowest hdomain (by simp [hreading])
      rw [ih hrest fun heq => absurd heq hchosen]
      simp [hchosen]

/-! ### Priorities -/

/-- The set only grows, by domains of the list. -/
theorem foldl_chooseNext_subset (sorted : List (Nat × Option Percentage))
    (chosen : Finset Nat × Bool) (index : Nat) :
    index ∈ (sorted.foldl chooseNext chosen).1 →
      index ∈ chosen.1 ∨ ∃ domain ∈ sorted, domain.1 = index := by
  induction sorted generalizing chosen with
  | nil => exact Or.inl
  | cons domain sorted ih =>
    intro hmem
    rcases ih (chooseNext chosen domain) hmem with hchosen | ⟨d, hd, heq⟩
    · have hturn : index ∈ chosen.1 ∨ domain.1 = index := by
        unfold chooseNext at hchosen
        split_ifs at hchosen
        · exact (Finset.mem_insert.1 hchosen).symm.imp_right Eq.symm
        · exact (Finset.mem_insert.1 hchosen).symm.imp_right Eq.symm
        · exact Or.inl hchosen
      exact hturn.imp_right fun heq => ⟨domain, List.mem_cons_self, heq⟩
    · exact Or.inr ⟨d, List.mem_cons_of_mem _ hd, heq⟩

theorem subset_foldl_chooseNext (sorted : List (Nat × Option Percentage))
    (chosen : Finset Nat × Bool) : chosen.1 ⊆ (sorted.foldl chooseNext chosen).1 := by
  induction sorted generalizing chosen with
  | nil => exact Finset.Subset.refl _
  | cons domain sorted ih =>
    refine Finset.Subset.trans ?_ (ih (chooseNext chosen domain))
    unfold chooseNext
    split_ifs
    · exact Finset.subset_insert _ _
    · exact Finset.subset_insert _ _
    · exact Finset.Subset.refl _

/-- The first domain is always chosen. -/
theorem foldl_chooseNext_ne_empty {sorted : List (Nat × Option Percentage)} (h : sorted ≠ [])
    (set : Finset Nat) : (sorted.foldl chooseNext (set, false)).1 ≠ ∅ := by
  cases sorted with
  | nil => exact absurd rfl h
  | cons domain sorted =>
    have hfirst : domain.1 ∈ (chooseNext (set, false) domain).1 := by
      by_cases hutilization : domain.2 = none <;> simp [chooseNext, hutilization]
    intro hempty
    have hmem := subset_foldl_chooseNext sorted (chooseNext (set, false) domain) hfirst
    rw [List.foldl_cons] at hempty
    simp [hempty] at hmem

/-- One turn of the first loop of `getDomainsWithLowestPriority`. -/
def lowerPriority (lowest : UInt32) (domain : Nat × SourceDomain) : UInt32 :=
  match domain.2.domainPriority with
  | some priority => if priority < lowest then priority else lowest
  | none => lowest

theorem lowerPriority_le (lowest : UInt32) (domain : Nat × SourceDomain) :
    lowerPriority lowest domain ≤ lowest ∧ ∀ priority, domain.2.domainPriority = some priority →
        lowerPriority lowest domain ≤ priority := by
  unfold lowerPriority
  cases domain.2.domainPriority with
  | none => exact ⟨UInt32.le_refl _, by simp⟩
  | some priority =>
    simp only [Option.some.injEq, forall_eq']
    split
    · rename_i hlt
      exact ⟨UInt32.le_of_lt hlt, UInt32.le_refl _⟩
    · rename_i hge
      exact ⟨UInt32.le_refl _, UInt32.not_lt.1 hge⟩

theorem lowerPriority_eq (lowest : UInt32) (domain : Nat × SourceDomain) :
    lowerPriority lowest domain = lowest ∨
      domain.2.domainPriority = some (lowerPriority lowest domain) := by
  unfold lowerPriority
  cases domain.2.domainPriority with
  | none => exact Or.inl rfl
  | some priority =>
    simp only
    split
    · exact Or.inr rfl
    · exact Or.inl rfl

/-- The loop comes to the lowest priority that can be read, if that is below the start. -/
theorem foldl_lowerPriority (lowest : UInt32) : (domains.foldl lowerPriority lowest ≤ lowest ∧
      ∀ domain ∈ domains, ∀ priority, domain.2.domainPriority = some priority →
        domains.foldl lowerPriority lowest ≤ priority) ∧
    (domains.foldl lowerPriority lowest = lowest ∨ ∃ domain ∈ domains,
        domain.2.domainPriority = some (domains.foldl lowerPriority lowest)) := by
  induction domains generalizing lowest with
  | nil => simp
  | cons domain domains ih =>
    obtain ⟨⟨hstart, hbelow⟩, hreached⟩ := ih (lowerPriority lowest domain)
    obtain ⟨hlowest, hdomain⟩ := lowerPriority_le lowest domain
    rw [List.foldl_cons]
    refine ⟨⟨UInt32.le_trans hstart hlowest, ?_⟩, ?_⟩
    · rw [List.forall_mem_cons]
      exact ⟨fun priority hpriority => UInt32.le_trans hstart (hdomain priority hpriority), hbelow⟩
    · rcases hreached with hsame | ⟨d, hd, heq⟩
      · rw [hsame]
        rcases lowerPriority_eq lowest domain with hkept | htaken
        · exact Or.inl hkept
        · exact Or.inr ⟨domain, List.mem_cons_self, htaken⟩
      · exact Or.inr ⟨d, List.mem_cons_of_mem _ hd, heq⟩

theorem lowestPriority_eq (domains : IndexedDomains) :
    lowestPriority domains = domains.foldl lowerPriority 0xFFFFFFFF := rfl

/-- Where all priorities can be read, the lowest is one of them. -/
theorem exists_lowestPriority (hne : domains ≠ [])
    (hread : ∀ domain ∈ domains, domain.2.domainPriority ≠ none) :
    ∃ domain ∈ domains, domain.2.domainPriority = some (lowestPriority domains) := by
  rw [lowestPriority_eq]
  obtain ⟨⟨-, hbelow⟩, hreached⟩ := @foldl_lowerPriority domains 0xFFFFFFFF
  rcases hreached with hstart | hreached
  · obtain ⟨domain, hdomain⟩ := List.exists_mem_of_ne_nil domains hne
    obtain ⟨priority, hpriority⟩ := Option.ne_none_iff_exists'.1 (hread domain hdomain)
    have hle := hbelow domain hdomain priority hpriority
    rw [hstart] at hle
    have hmax : priority ≤ 0xFFFFFFFF := by
      rw [UInt32.le_iff_toNat_le]
      exact Nat.le_of_lt_succ priority.toNat_lt
    refine ⟨domain, hdomain, ?_⟩
    rw [hpriority, hstart, UInt32.le_antisymm hmax hle]
  · exact hreached

/-- What is read of each domain along with its priority fails where a priority does. -/
theorem mapM_priority_cases {β : Type} {read : Nat × SourceDomain → Option β}
    (hnone : ∀ domain, read domain = none ↔ domain.2.domainPriority = none)
    (domains : IndexedDomains) :
    domains.mapM read = none ∧ (∃ domain ∈ domains, domain.2.domainPriority = none) ∨
      ∃ readings, domains.mapM read = some readings ∧
        ∀ domain ∈ domains, domain.2.domainPriority ≠ none := by
  cases hreadings : domains.mapM read with
  | none =>
    obtain ⟨domain, hdomain, hfails⟩ := (mapM_eq_none_iff domains).1 hreadings
    exact Or.inl ⟨rfl, domain, hdomain, (hnone domain).1 hfails⟩
  | some readings =>
    refine Or.inr ⟨readings, rfl, fun domain hdomain hfails => ?_⟩
    rw [(mapM_eq_none_iff domains).2 ⟨domain, hdomain, (hnone domain).2 hfails⟩] at hreadings
    cases hreadings

/-- **The domains of the lowest priority**: an exception where a priority cannot be read, and else
some of the domains. -/
theorem getDomainsWithLowestPriority_cases (domains : IndexedDomains) :
    getDomainsWithLowestPriority domains = none ∧
        (∃ domain ∈ domains, domain.2.domainPriority = none) ∨
      ∃ lowest, getDomainsWithLowestPriority domains = some lowest ∧
        (∀ domain ∈ domains, domain.2.domainPriority ≠ none) ∧
          (∀ domain ∈ lowest, domain ∈ domains) ∧ (lowest = [] → domains = []) := by
  let read : Nat × SourceDomain → Option ((Nat × SourceDomain) × UInt32) := fun domain => do
    let priority ← domain.2.domainPriority
    pure (domain, priority)
  have hread : ∀ domain p, read domain = some p ↔
      p.1 = domain ∧ domain.2.domainPriority = some p.2 := by
    rintro domain ⟨d, priority⟩
    cases hpriority : domain.2.domainPriority <;> simp [read, hpriority, eq_comm]
  have hnone : ∀ domain, read domain = none ↔ domain.2.domainPriority = none := by
    intro domain
    cases hpriority : domain.2.domainPriority <;> simp [read, hpriority]
  have hunfold : getDomainsWithLowestPriority domains = (domains.mapM read).bind fun priorities =>
        some ((priorities.filter fun p => p.2 = lowestPriority domains).map Prod.fst) := rfl
  rcases mapM_priority_cases hnone domains with ⟨hreadings, hfails⟩ | ⟨priorities, hreadings, hall⟩
  · rw [hunfold, hreadings]
    exact Or.inl ⟨rfl, hfails⟩
  · rw [hunfold, hreadings, Option.bind_some]
    refine Or.inr ⟨_, rfl, hall, ?_, ?_⟩
    · intro domain hdomain
      obtain ⟨p, hp, rfl⟩ := List.mem_map.1 hdomain
      obtain ⟨d, hd, hpd⟩ := (mem_of_mapM_eq_some hreadings p).1 (List.mem_filter.1 hp).1
      rw [((hread d p).1 hpd).1]
      exact hd
    · intro hempty
      by_contra hne
      obtain ⟨domain, hdomain, hlowest⟩ := exists_lowestPriority hne hall
      have hmem := (mem_of_mapM_eq_some hreadings (domain, lowestPriority domains)).2
        ⟨domain, hdomain, (hread _ _).2 ⟨rfl, hlowest⟩⟩
      have hnot := List.filter_eq_nil_iff.1 (List.map_eq_nil_iff.1 hempty) _ hmem
      exact hnot (decide_eq_true rfl)

/-- **The sorted domains**: an exception where a priority cannot be read, and else all of them. -/
theorem getDomainsSortedByPriorityThenUtilization_cases (domains : IndexedDomains) :
    getDomainsSortedByPriorityThenUtilization domains = none ∧
        (∃ domain ∈ domains, domain.2.domainPriority = none) ∨
      ∃ sorted, getDomainsSortedByPriorityThenUtilization domains = some sorted ∧
        (∀ domain ∈ domains, domain.2.domainPriority ≠ none) ∧
          (∀ p ∈ sorted, ∃ domain ∈ domains, domain.1 = p.1) ∧ (sorted = [] → domains = []) := by
  let read : Nat × SourceDomain → Option Preference := fun domain => do
    let domainPriority ← domain.2.domainPriority
    pure (domain.1, domainPriority, domain.2.getUtilization)
  have hread : ∀ domain p, read domain = some p → p.1 = domain.1 := by
    intro domain p hp
    cases hpriority : domain.2.domainPriority with
    | none => simp [read, hpriority] at hp
    | some priority =>
      simp only [read, hpriority, Option.pure_def, Option.bind_eq_bind, Option.bind_some,
        Option.some.injEq] at hp
      rw [← hp]
  have hnone : ∀ domain, read domain = none ↔ domain.2.domainPriority = none := by
    intro domain
    cases hpriority : domain.2.domainPriority <;> simp [read, hpriority]
  have hunfold : getDomainsSortedByPriorityThenUtilization domains =
      (domains.mapM read).bind fun preferences =>
        some ((preferences.mergeSort fun left right =>
          !compareDomainsOnPriorityAndUtilization right left).map
            fun preference => (preference.1, preference.2.2)) := rfl
  rcases mapM_priority_cases hnone domains with ⟨hreadings, hfails⟩ | ⟨preferences, hreadings, hall⟩
  · rw [hunfold, hreadings]
    exact Or.inl ⟨rfl, hfails⟩
  · rw [hunfold, hreadings, Option.bind_some]
    have hperm := List.mergeSort_perm preferences fun left right =>
      !compareDomainsOnPriorityAndUtilization right left
    refine Or.inr ⟨_, rfl, hall, ?_, ?_⟩
    · intro p hp
      obtain ⟨preference, hmem, rfl⟩ := List.mem_map.1 hp
      obtain ⟨domain, hdomain, hpd⟩ :=
        (mem_of_mapM_eq_some hreadings preference).1 (hperm.mem_iff.1 hmem)
      exact ⟨domain, hdomain, (hread domain preference hpd).symm⟩
    · intro hempty
      by_contra hne
      obtain ⟨domain, hdomain⟩ := List.exists_mem_of_ne_nil domains hne
      obtain ⟨preference, hpreference⟩ :=
        Option.ne_none_iff_exists'.1 (mt (hnone domain).1 (hall domain hdomain))
      have hmem := (mem_of_mapM_eq_some hreadings preference).2 ⟨domain, hdomain, hpreference⟩
      rw [← hperm.mem_iff, List.map_eq_nil_iff.1 hempty] at hmem
      cases hmem

end Loops

/-! ## What must be read -/

section Participant

variable (canTurn : SourceDomain → Bool) (participant : ParticipantProxy) (target source : Nat)

/-- Some of the domains that can be turned are chosen, and nothing else. -/
def ChosenWell (chosen : Option (List Nat)) : Prop :=
  ∃ domains, chosen = some domains ∧ domains ≠ [] ∧ ∀ index ∈ domains,
    ∃ domain, participant.domains.find index = some domain ∧ canTurn domain = true

/-- One of the domains that can be turned is such. -/
def SomeDomain (P : SourceDomain → Prop) : Prop :=
  ∃ index domain, participant.domains.find index = some domain ∧ canTurn domain = true ∧ P domain

/-- All of the domains that can be turned are such. -/
def EachDomain (P : SourceDomain → Prop) : Prop :=
  ∀ index domain, participant.domains.find index = some domain → canTurn domain = true → P domain

/-- What must be read of a source to limit it.  In the target itself: of a domain that is no package
and reports a temperature, one above -136 °C.  In another participant without a package domain: the
priorities of all. -/
def ReadableToLimit : Prop :=
  if source = target then
    SomeDomain (fun domain => domain.canLimit target) participant fun domain =>
      domain.isMultiFunction = true ∨ domain.supportsTemperatureControls = false ∨
        ∃ temperature, domain.currentTemperature = some (some temperature) ∧
          Temperature.minAux < temperature
  else
    SomeDomain (fun domain => domain.canLimit target) participant
        (fun domain => domain.isMultiFunction = true) ∨
      EachDomain (fun domain => domain.canLimit target) participant
        fun domain => domain.domainPriority ≠ none

/-- What must be read of a source to unlimit it.  In the target itself: of a domain that is no
package and reports a temperature, any.  In another participant: the priorities of all that are no
packages. -/
def ReadableToUnlimit : Prop :=
  if source = target then
    SomeDomain (fun domain => domain.canUnlimit target) participant fun domain =>
      domain.isMultiFunction = true ∨ domain.supportsTemperatureControls = false ∨
        domain.currentTemperature ≠ none
  else
    EachDomain (fun domain => domain.canUnlimit target) participant fun domain =>
      domain.isMultiFunction = false → domain.domainPriority ≠ none

variable {canTurn participant target source}

theorem someDomain_iff {P : SourceDomain → Prop} :
    SomeDomain canTurn participant P ↔
      ∃ domain ∈ getDomainsWithControlKnobs canTurn participant, P domain.2 := by
  constructor
  · rintro ⟨index, domain, hfind, hturn, hP⟩
    exact ⟨(index, domain), mem_getDomainsWithControlKnobs.2 ⟨hfind, hturn⟩, hP⟩
  · rintro ⟨domain, hdomain, hP⟩
    obtain ⟨hfind, hturn⟩ := mem_getDomainsWithControlKnobs.1 hdomain
    exact ⟨domain.1, domain.2, hfind, hturn, hP⟩

theorem eachDomain_iff {P : SourceDomain → Prop} :
    EachDomain canTurn participant P ↔
      ∀ domain ∈ getDomainsWithControlKnobs canTurn participant, P domain.2 := by
  constructor
  · intro heach domain hdomain
    obtain ⟨hfind, hturn⟩ := mem_getDomainsWithControlKnobs.1 hdomain
    exact heach domain.1 domain.2 hfind hturn
  · intro heach index domain hfind hturn
    exact heach (index, domain) (mem_getDomainsWithControlKnobs.2 ⟨hfind, hturn⟩)

theorem not_chosenWell_none : ¬ ChosenWell canTurn participant none := by
  rintro ⟨domains, hnone, -⟩
  cases hnone

/-- A set of domains that can be turned is chosen well unless it is empty. -/
theorem chosenWell_toVector_iff {set : Finset Nat}
    (hset : ∀ index ∈ set, index ∈ indexes (getDomainsWithControlKnobs canTurn participant)) :
    ChosenWell canTurn participant (some (toVector set)) ↔ set ≠ ∅ := by
  constructor
  · rintro ⟨domains, hsome, hne, -⟩ rfl
    exact hne ((Option.some.inj hsome).symm.trans (toVector_eq_nil_iff.2 rfl))
  · intro hne
    refine ⟨toVector set, rfl, mt toVector_eq_nil_iff.1 hne, fun index hindex => ?_⟩
    obtain ⟨domain, hdomain, rfl⟩ := mem_indexes.1 (hset index (mem_toVector.1 hindex))
    exact ⟨domain.2, mem_getDomainsWithControlKnobs.1 hdomain⟩

/-- A choice that may be an exception, where something is chosen if what is read is enough. -/
theorem chosenWell_map_iff {choice : Option (Finset Nat)} {readable : Prop}
    (hchoice : choice = none ∧ ¬ readable ∨ ∃ set, choice = some set ∧ set ≠ ∅ ∧
        (∀ index ∈ set, index ∈ indexes (getDomainsWithControlKnobs canTurn participant)) ∧
          readable) :
    ChosenWell canTurn participant (choice.map toVector) ↔ readable := by
  rcases hchoice with ⟨hset, hnot⟩ | ⟨set, hset, hne, hsubset, hread⟩
  · rw [hset]
    exact iff_of_false not_chosenWell_none hnot
  · rw [hset]
    exact iff_of_true ((chosenWell_toVector_iff hsubset).2 hne) hread

theorem noIndex_notMem {domain : Nat × SourceDomain}
    (h : domain ∈ getDomainsWithControlKnobs canTurn participant) : domain.1 ≠ noIndex := by
  intro heq
  have hfind := (mem_getDomainsWithControlKnobs.1 h).1
  rw [heq, participant.valid] at hfind
  cases hfind

theorem mem_indexes_of_filter {domains : IndexedDomains} {p : Nat × SourceDomain → Bool}
    {index : Nat} (h : index ∈ indexes (domains.filter p)) : index ∈ indexes domains := by
  rw [mem_indexes] at h ⊢
  obtain ⟨domain, hdomain, heq⟩ := h
  exact ⟨domain, (List.mem_filter.1 hdomain).1, heq⟩

theorem filter_ne_nil_iff {domains : IndexedDomains} {p : Nat × SourceDomain → Bool} :
    domains.filter p ≠ [] ↔ ∃ domain ∈ domains, p domain = true := by
  rw [ne_eq, List.filter_eq_nil_iff]
  push Not
  rfl

end Participant

/-! ## Limiting -/

section Limiting

variable {participant : ParticipantProxy}

theorem getDomainsWithControlKnobsToLimit_eq {target : Nat} :
    getDomainsWithControlKnobsToLimit participant target =
      getDomainsWithControlKnobs (fun domain => domain.canLimit target) participant := rfl

variable {domains : IndexedDomains}

theorem getDomainWithHighestTemperature_eq_noIndex_iff
    (hvalid : ∀ domain ∈ domains, domain.1 ≠ noIndex) :
    getDomainWithHighestTemperature domains = noIndex ↔ ∀ domain ∈ domains, ∀ temperature,
      domain.2.getCurrentTemperature = some (some temperature) →
        temperature ≤ Temperature.minAux := by
  rw [getDomainWithHighestTemperature, foldl_warmer_eq_noIndex_iff hvalid]
  exact and_iff_right rfl

/-- In the target itself only domains are chosen that can be limited. -/
theorem domainsToLimitOfTarget_subset {index : Nat} (h : index ∈ domainsToLimitOfTarget domains) :
    index ∈ indexes domains := by
  simp only [domainsToLimitOfTarget] at h
  have hunion : index ∈ indexes (getDomainsThatDoNotReportTemperature domains) ∪
      indexes (getPackageDomains domains) → index ∈ indexes domains := by
    intro hmem
    rcases Finset.mem_union.1 hmem with hmem | hmem
    · exact mem_indexes_of_filter hmem
    · exact mem_indexes_of_filter hmem
  split at h
  · rcases mem_insertIndex.1 h with ⟨rfl, hvalid⟩ | hmem
    · exact (foldl_index_mem warmer_snd (Temperature.minAux, noIndex)).resolve_left hvalid
    · exact hunion hmem
  · exact hunion h

/-- In the target itself nothing is chosen just if all report a temperature and none is above the
start of the loop. -/
theorem domainsToLimitOfTarget_ne_empty_iff (hvalid : ∀ domain ∈ domains, domain.1 ≠ noIndex) :
    domainsToLimitOfTarget domains ≠ ∅ ↔ ∃ domain ∈ domains, domain.2.isMultiFunction = true ∨
      domain.2.supportsTemperatureControls = false ∨
        ∃ temperature, domain.2.currentTemperature = some (some temperature) ∧
          Temperature.minAux < temperature := by
  by_cases hpackage : getPackageDomains domains = []
  · have hnone := List.filter_eq_nil_iff.1 hpackage
    have hset : domainsToLimitOfTarget domains =
        insertIndex (getDomainWithHighestTemperature domains)
          (indexes (getDomainsThatDoNotReportTemperature domains)) := by
      simp [domainsToLimitOfTarget, hpackage, indexes]
    rw [hset, ne_eq, insertIndex_eq_empty_iff, indexes_eq_empty_iff,
      getDomainWithHighestTemperature_eq_noIndex_iff hvalid, getDomainsThatDoNotReportTemperature,
      List.filter_eq_nil_iff, ← forall₂_and]
    push Not
    refine exists_congr fun domain => and_congr_right fun hdomain => ?_
    have hno : domain.2.isMultiFunction = false := by simpa using hnone domain hdomain
    cases hsupports : domain.2.supportsTemperatureControls <;>
      simp [hno, hsupports, SourceDomain.getCurrentTemperature]
  · obtain ⟨domain, hdomain, hmulti⟩ := filter_ne_nil_iff.1 hpackage
    refine iff_of_true ?_ ⟨domain, hdomain, Or.inl hmulti⟩
    have hindex : domain.1 ∈ indexes (getPackageDomains domains) :=
      mem_indexes.2 ⟨domain, List.mem_filter.2 ⟨hdomain, hmulti⟩, rfl⟩
    simp only [domainsToLimitOfTarget, List.length_eq_zero_iff, hpackage, if_false]
    exact Finset.ne_empty_of_mem (Finset.mem_union_right _ hindex)

/-- In another participant the package domains are chosen, or else some domain, if the priorities
of all can be read. -/
theorem domainsToLimitOfOther_cases (hne : domains ≠ []) :
    domainsToLimitOfOther domains = none ∧
        ¬ ((∃ domain ∈ domains, domain.2.isMultiFunction = true) ∨
          ∀ domain ∈ domains, domain.2.domainPriority ≠ none) ∨
      ∃ set, domainsToLimitOfOther domains = some set ∧ set ≠ ∅ ∧
        (∀ index ∈ set, index ∈ indexes domains) ∧
          ((∃ domain ∈ domains, domain.2.isMultiFunction = true) ∨
            ∀ domain ∈ domains, domain.2.domainPriority ≠ none) := by
  by_cases hpackage : getPackageDomains domains = []
  · have hnone := mt filter_ne_nil_iff.2 (not_not.2 hpackage)
    have hchoice : domainsToLimitOfOther domains =
        (getDomainsSortedByPriorityThenUtilization domains).map fun sorted =>
          (sorted.foldl chooseNext (∅, false)).1 := by
      simp [domainsToLimitOfOther, hpackage, indexes]
    rw [hchoice]
    rcases getDomainsSortedByPriorityThenUtilization_cases domains with
      ⟨hsorted, domain, hdomain, hfails⟩ | ⟨sorted, hsorted, hall, hmem, hempty⟩
    · rw [hsorted]
      exact Or.inl ⟨rfl, not_or.2 ⟨hnone, fun hall => hall domain hdomain hfails⟩⟩
    · rw [hsorted]
      refine Or.inr ⟨_, rfl, foldl_chooseNext_ne_empty (mt hempty hne) ∅, ?_, Or.inr hall⟩
      intro index hindex
      rcases foldl_chooseNext_subset sorted (∅, false) index hindex with hstart | ⟨p, hp, rfl⟩
      · exact absurd hstart (Finset.notMem_empty _)
      · exact mem_indexes.2 (hmem p hp)
  · have hchoice : domainsToLimitOfOther domains = some (indexes (getPackageDomains domains)) := by
      simp [domainsToLimitOfOther, hpackage]
    rw [hchoice]
    refine Or.inr ⟨_, rfl, mt indexes_eq_empty_iff.1 hpackage, ?_,
      Or.inl (filter_ne_nil_iff.1 hpackage)⟩
    exact fun index hindex => mem_indexes_of_filter hindex

/-- **When domains of a source are chosen to be limited.** -/
theorem chosenWell_limit_iff {tracker : ParticipantTracker} {target source : Nat}
    (hfind : tracker.trackedParticipants.find source = some participant)
    (hne : getDomainsWithControlKnobsToLimit participant target ≠ []) :
    ChosenWell (fun domain => domain.canLimit target) participant
        (chooseDomainsToLimitForSource tracker target source) ↔
      ReadableToLimit participant target source := by
  have hpos := List.length_pos_iff.2 hne
  rw [ReadableToLimit, someDomain_iff, someDomain_iff, eachDomain_iff]
  by_cases hself : source = target
  · subst hself
    have hchoice : chooseDomainsToLimitForSource tracker source source =
        some (toVector (domainsToLimitOfTarget
          (getDomainsWithControlKnobsToLimit participant source))) := by
      simp [chooseDomainsToLimitForSource, hfind, hpos]
    rw [hchoice, if_pos rfl]
    exact (chosenWell_toVector_iff fun _ => domainsToLimitOfTarget_subset).trans
      (domainsToLimitOfTarget_ne_empty_iff fun _ => noIndex_notMem)
  · have hchoice : chooseDomainsToLimitForSource tracker target source =
        (domainsToLimitOfOther (getDomainsWithControlKnobsToLimit participant target)).map
          toVector := by
      simp [chooseDomainsToLimitForSource, hfind, hpos, hself]
    rw [hchoice, if_neg hself]
    exact chosenWell_map_iff (domainsToLimitOfOther_cases hne)

end Limiting

/-! ## Unlimiting -/

section Unlimiting

variable {canTurn : SourceDomain → Bool} {participant : ParticipantProxy}
variable {packageDomains domains : IndexedDomains}

/-- No two domains of a participant have an index in common, so that no other domain is filtered
along with a package domain. -/
theorem mem_filterDomainList {domain : Nat × SourceDomain} :
    domain ∈ filterDomainList (getDomainsWithControlKnobs canTurn participant)
        (getPackageDomains (getDomainsWithControlKnobs canTurn participant)) ↔
      domain ∈ getDomainsWithControlKnobs canTurn participant ∧
        domain.2.isMultiFunction = false := by
  rw [filterDomainList, List.mem_filter]
  refine and_congr_right fun hdomain => ?_
  simp only [Bool.not_eq_true', List.any_eq_false, decide_eq_true_eq]
  constructor
  · intro hother
    by_contra hmulti
    rw [Bool.not_eq_false] at hmulti
    exact hother domain (List.mem_filter.2 ⟨hdomain, hmulti⟩) rfl
  · intro hno d hd heq
    obtain ⟨hmem, hmulti⟩ := List.mem_filter.1 hd
    have hfind := (mem_getDomainsWithControlKnobs.1 hmem).1
    rw [← heq, (mem_getDomainsWithControlKnobs.1 hdomain).1] at hfind
    rw [← Option.some.inj hfind, hno] at hmulti
    cases hmulti

theorem orPackageDomains_ne_empty_iff {set : Finset Nat} :
    orPackageDomains set packageDomains ≠ ∅ ↔ set ≠ ∅ ∨ packageDomains ≠ [] := by
  unfold orPackageDomains
  split
  · rename_i hcard
    rw [Finset.card_eq_zero.1 hcard, Finset.empty_union, ne_eq, indexes_eq_empty_iff]
    simp
  · rename_i hcard
    exact iff_of_true (mt Finset.card_eq_zero.2 hcard) (Or.inl (mt Finset.card_eq_zero.2 hcard))

theorem mem_orPackageDomains {set : Finset Nat} {index : Nat}
    (h : index ∈ orPackageDomains set packageDomains) :
    index ∈ set ∨ index ∈ indexes packageDomains := by
  unfold orPackageDomains at h
  split at h
  · exact Finset.mem_union.1 h
  · exact Or.inl h

theorem getDomainWithLowestTemperature_eq_noIndex_iff
    (hvalid : ∀ domain ∈ domains, domain.1 ≠ noIndex) :
    getDomainWithLowestTemperature domains = noIndex ↔
      ∀ domain ∈ domains, domain.2.getCurrentTemperature = none := by
  rw [getDomainWithLowestTemperature, foldl_cooler_eq_noIndex_iff hvalid fun _ => rfl]
  exact and_iff_right rfl

/-- In the target itself only domains are chosen that can be unlimited. -/
theorem domainsToUnlimitOfTarget_subset {index : Nat}
    (h : index ∈ domainsToUnlimitOfTarget domains) : index ∈ indexes domains := by
  simp only [domainsToUnlimitOfTarget] at h
  rcases mem_orPackageDomains h with hset | hpackage
  · rcases mem_insertIndex.1 hset with ⟨rfl, hvalid⟩ | hmem
    · exact mem_indexes_of_filter ((foldl_index_mem cooler_snd (none, noIndex)).resolve_left hvalid)
    · exact mem_indexes_of_filter (mem_indexes_of_filter hmem)
  · exact mem_indexes_of_filter hpackage

/-- In the target itself nothing is chosen just if there is no package domain, all report a
temperature and none can be read. -/
theorem domainsToUnlimitOfTarget_ne_empty_iff :
    domainsToUnlimitOfTarget (getDomainsWithControlKnobs canTurn participant) ≠ ∅ ↔
      ∃ domain ∈ getDomainsWithControlKnobs canTurn participant,
        domain.2.isMultiFunction = true ∨ domain.2.supportsTemperatureControls = false ∨
          domain.2.currentTemperature ≠ none := by
  have hvalid : ∀ domain ∈ filterDomainList (getDomainsWithControlKnobs canTurn participant)
      (getPackageDomains (getDomainsWithControlKnobs canTurn participant)),
        domain.1 ≠ noIndex := fun domain hdomain => noIndex_notMem (mem_filterDomainList.1 hdomain).1
  simp only [domainsToUnlimitOfTarget]
  rw [orPackageDomains_ne_empty_iff, ne_eq, insertIndex_eq_empty_iff, indexes_eq_empty_iff,
    getDomainWithLowestTemperature_eq_noIndex_iff hvalid, getDomainsThatDoNotReportTemperature,
    List.filter_eq_nil_iff, ← forall₂_and, getPackageDomains, filter_ne_nil_iff]
  push Not
  constructor
  · rintro (⟨domain, hdomain, hread⟩ | ⟨domain, hdomain, hmulti⟩)
    · refine ⟨domain, (mem_filterDomainList.1 hdomain).1, Or.inr ?_⟩
      cases hsupports : domain.2.supportsTemperatureControls with
      | false => exact Or.inl rfl
      | true => exact Or.inr (by simpa [SourceDomain.getCurrentTemperature, hsupports] using hread)
    · exact ⟨domain, hdomain, Or.inl hmulti⟩
  · rintro ⟨domain, hdomain, hread⟩
    cases hmulti : domain.2.isMultiFunction with
    | true => exact Or.inr ⟨domain, hdomain, hmulti⟩
    | false =>
      refine Or.inl ⟨domain, mem_filterDomainList.2 ⟨hdomain, hmulti⟩, ?_⟩
      cases hsupports : domain.2.supportsTemperatureControls <;>
        simp_all [SourceDomain.getCurrentTemperature]

/-- In another participant some domain is chosen, if the priorities of all that are no packages can
be read. -/
theorem domainsToUnlimitOfOther_cases (hne : getDomainsWithControlKnobs canTurn participant ≠ []) :
    domainsToUnlimitOfOther (getDomainsWithControlKnobs canTurn participant) = none ∧
        ¬ (∀ domain ∈ getDomainsWithControlKnobs canTurn participant,
          domain.2.isMultiFunction = false → domain.2.domainPriority ≠ none) ∨
      ∃ set, domainsToUnlimitOfOther (getDomainsWithControlKnobs canTurn participant) = some set ∧
        set ≠ ∅ ∧
        (∀ index ∈ set, index ∈ indexes (getDomainsWithControlKnobs canTurn participant)) ∧
          ∀ domain ∈ getDomainsWithControlKnobs canTurn participant,
            domain.2.isMultiFunction = false → domain.2.domainPriority ≠ none := by
  simp only [domainsToUnlimitOfOther]
  rcases getDomainsWithLowestPriority_cases
      (filterDomainList (getDomainsWithControlKnobs canTurn participant)
        (getPackageDomains (getDomainsWithControlKnobs canTurn participant))) with
    ⟨hlowest, domain, hdomain, hfails⟩ | ⟨lowest, hlowest, hall, hmem, hempty⟩
  · rw [hlowest]
    obtain ⟨hturn, hno⟩ := mem_filterDomainList.1 hdomain
    exact Or.inl ⟨rfl, fun hread => hread domain hturn hno hfails⟩
  · rw [hlowest]
    refine Or.inr ⟨_, rfl, orPackageDomains_ne_empty_iff.2 ?_, ?_, ?_⟩
    · rw [ne_eq, indexes_eq_empty_iff]
      by_contra hnone
      push Not at hnone
      -- with no package domain nothing is filtered
      obtain ⟨domain, hdomain⟩ := List.exists_mem_of_ne_nil _ hne
      have hno := List.filter_eq_nil_iff.1 hnone.2 domain hdomain
      have hfiltered := mem_filterDomainList.2 ⟨hdomain, by simpa using hno⟩
      rw [hempty hnone.1] at hfiltered
      cases hfiltered
    · intro index hindex
      rcases mem_orPackageDomains hindex with hset | hpackage
      · obtain ⟨domain, hdomain, rfl⟩ := mem_indexes.1 hset
        exact mem_indexes.2 ⟨domain, (mem_filterDomainList.1 (hmem domain hdomain)).1, rfl⟩
      · exact mem_indexes_of_filter hpackage
    · intro domain hdomain hno
      exact hall domain (mem_filterDomainList.2 ⟨hdomain, hno⟩)

/-- **When domains of a source are chosen to be unlimited.** -/
theorem chosenWell_unlimit_iff {tracker : ParticipantTracker} {target source : Nat}
    (hfind : tracker.trackedParticipants.find source = some participant)
    (hne : getDomainsWithControlKnobsToUnlimit participant target ≠ []) :
    ChosenWell (fun domain => domain.canUnlimit target) participant
        (chooseDomainsToUnlimitForSource tracker target source) ↔
      ReadableToUnlimit participant target source := by
  have hpos := List.length_pos_iff.2 hne
  rw [ReadableToUnlimit, someDomain_iff, eachDomain_iff]
  by_cases hself : source = target
  · subst hself
    have hchoice : chooseDomainsToUnlimitForSource tracker source source =
        some (toVector (domainsToUnlimitOfTarget
          (getDomainsWithControlKnobsToUnlimit participant source))) := by
      simp [chooseDomainsToUnlimitForSource, hfind, hpos]
    rw [hchoice, if_pos rfl]
    exact (chosenWell_toVector_iff fun _ => domainsToUnlimitOfTarget_subset).trans
      domainsToUnlimitOfTarget_ne_empty_iff
  · have hchoice : chooseDomainsToUnlimitForSource tracker target source =
        (domainsToUnlimitOfOther (getDomainsWithControlKnobsToUnlimit participant target)).map
          toVector := by
      simp [chooseDomainsToUnlimitForSource, hfind, hpos, hself]
    rw [hchoice, if_neg hself]
    exact chosenWell_map_iff (domainsToUnlimitOfOther_cases hne)

end Unlimiting

end Passive

import Dptf.Lib.Machine
import Dptf.Lib.Numeral
import Dptf.Vault.CacheArray

/-!
# Runs of calls on a cache

A cache starts empty, and its three functions are called in any order, no key being inserted
that is there.

* `sortedMap_iff` — **that is so after every call just if there are never 2^31 pairs**;
  `numbers_not_sortedMap` — the pairs of 2^31 keys.
-/

open Lib

namespace Vault

/-- A call on a cache. -/
inductive CacheCall
  | insertValue (key : CName) (value : CacheData) (flags : UInt32)
  | deleteValue (key : CName)
  | getValue (key : CName)

/-- What a call does to the pairs that are there. -/
def CacheCall.apply (image : List UInt8) (rows : List DataCacheEntry) :
    CacheCall → List DataCacheEntry
  | .insertValue key value flags => ⟨flags, key, DataCache.cloneCacheData image value⟩ :: rows
  | .deleteValue key => rows.filter fun e => e.folded ≠ key.folded
  | .getValue _ => rows

/-- The pairs that were inserted and not deleted since. -/
def rowsAfter (image : List UInt8) (calls : List CacheCall) : List DataCacheEntry :=
  calls.foldl (CacheCall.apply image) []

/-- No key is inserted that is there. -/
def NewKeys (image : List UInt8) (calls : List CacheCall) : Prop :=
  ∀ before key value flags, before ++ [.insertValue key value flags] <+: calls →
    ∀ e ∈ rowsAfter image before, e.folded ≠ key.folded

namespace CacheArray

/-- A call on the array. -/
def step (image : List UInt8) (fresh : DataCacheEntry) (self : CacheArray) :
    CacheCall → Option CacheArray
  | .insertValue key value flags => self.insertValue image fresh key value flags
  | .deleteValue key => (self.deleteValue key).map Prod.snd
  | .getValue key => (self.getValue key).map fun _ => self

/-- **The array is a sorted map** of the pairs that are there. -/
structure SortedMap (rows : List DataCacheEntry) (cache : CacheArray) : Prop where
  sorted : DataCache.Sorted cache.elements
  /-- It holds the pairs, each once. -/
  perm : cache.elements.Perm rows
  /-- The search ends inside the array, at an element with the key or with `EOF`. -/
  search : ∀ key, ∃ index, cache.search key = some index ∧
    (index ≠ eof ↔ ∃ e ∈ rows, e.folded = key.folded) ∧
    (index ≠ eof → ∃ e, cache.element index = some e ∧ e.folded = key.folded)
  /-- What is read under a key is what was inserted under it. -/
  get : ∀ key, ∃ result, cache.getValue key = some result ∧
    ∀ e, result = some e ↔ e ∈ rows ∧ e.folded = key.folded
  /-- The search for a place ends inside the array, at the only place for a new key. -/
  place : ∀ key, ∃ node : Nat, cache.findInsertionPoint key = some (node : Int) ∧
    node ≤ cache.elements.length ∧
    ((∀ e ∈ rows, e.folded ≠ key.folded) → ∀ e : DataCacheEntry, e.key = key →
      ∀ j ≤ cache.elements.length,
        DataCache.Sorted (cache.elements.take j ++ e :: cache.elements.drop j) ↔ j = node)

/-! ## One state -/

/-- What a run keeps, however many pairs there are. -/
structure Holds (rows : List DataCacheEntry) (cache : CacheArray) : Prop where
  sorted : DataCache.Sorted cache.elements
  perm : cache.elements.Perm rows

variable {rows : List DataCacheEntry} {cache : CacheArray}

theorem Holds.length_eq (h : Holds rows cache) : cache.elements.length = rows.length :=
  h.perm.length_eq

theorem Holds.mem_iff (h : Holds rows cache) {e : DataCacheEntry} : e ∈ cache.elements ↔ e ∈ rows :=
  h.perm.mem_iff

theorem Holds.getValue_eq_none_iff (h : Holds rows cache) {key : CName} :
    DataCache.getValue cache.elements key = none ↔ ∀ e ∈ rows, e.folded ≠ key.folded := by
  rw [DataCache.getValue_eq_none_iff h.sorted]
  exact forall_congr' fun e => imp_congr_left h.mem_iff

/-- A sorted array of fewer than 2^31 pairs is a sorted map. -/
theorem Holds.sortedMap (h : Holds rows cache) (hrows : rows.length < 2 ^ 31) :
    SortedMap rows cache := by
  have hlen : cache.elements.length < 2 ^ 31 := h.length_eq ▸ hrows
  refine ⟨h.sorted, h.perm, ?_, ?_, ?_⟩
  · intro key
    refine ⟨_, search_eq_some hlen key, ?_⟩
    cases hslot : slot DataCacheEntry.folded key.folded cache.elements with
    | found i =>
      obtain ⟨before, e, after, hcut, rfl, he⟩ := slot_found hslot
      have hmem : e ∈ rows := h.mem_iff.1 (by simp [hcut])
      refine ⟨iff_of_true (natCast_ne_eof _) ⟨e, hmem, he⟩, fun _ => ⟨e, ?_, he⟩⟩
      rw [element_natCast]
      simp [hcut]
    | missing i =>
      have hnone : DataCache.getValue cache.elements key = none := by
        rw [DataCache.getValue, lookup, hslot]
      have habsent := h.getValue_eq_none_iff.1 hnone
      refine ⟨iff_of_false (fun hne => hne rfl) ?_, fun hne => absurd rfl hne⟩
      rintro ⟨e, he, hkey⟩
      exact habsent e he hkey
  · intro key
    refine ⟨_, getValue_eq hlen key, fun e => ?_⟩
    rw [DataCache.getValue_eq_some_iff h.sorted, h.mem_iff]
  · intro key
    refine ⟨_, findInsertionPoint_eq_some hlen key, slot_node_le h.sorted key.folded, ?_⟩
    rintro habsent e rfl j hj
    have hnew : ∀ y ∈ cache.elements, y.folded ≠ e.folded := by
      intro y hy
      exact habsent y (h.mem_iff.1 hy)
    exact ascending_cut_iff h.sorted hnew hj

/-- **With 2^31 pairs and more nothing is found.** -/
theorem SortedMap.length_lt (h : SortedMap rows cache) : rows.length < 2 ^ 31 := by
  by_contra hlarge
  have hlen : 2 ^ 31 ≤ cache.elements.length := by
    rw [h.perm.length_eq]
    exact Nat.le_of_not_lt hlarge
  obtain ⟨e, he⟩ := List.exists_mem_of_length_pos (show 0 < rows.length by omega)
  obtain ⟨index, hsearch, hiff, -⟩ := h.search e.key
  have hfound : index ≠ eof := hiff.2 ⟨e, he, rfl⟩
  rw [CacheArray.search] at hsearch
  rcases bisect_eq_of_large hlen e.key with hnone | ⟨node, hmissing⟩
  · rw [hnone] at hsearch
    cases hsearch
  · rw [hmissing] at hsearch
    exact hfound (Option.some.inj hsearch).symm

/-! ## One call -/

theorem holds_create : Holds [] create := ⟨DataCache.sorted_nil, List.Perm.refl _⟩

/-- **A call on fewer than 2^31 pairs** is carried out, and the array stays sorted. -/
theorem Holds.step (h : Holds rows cache) (hrows : rows.length < 2 ^ 31) (image : List UInt8)
    (fresh : DataCacheEntry) (call : CacheCall)
    (hnew : ∀ key value flags, call = .insertValue key value flags →
      ∀ e ∈ rows, e.folded ≠ key.folded) :
    ∃ cache', CacheArray.step image fresh cache call = some cache' ∧
      Holds (call.apply image rows) cache' := by
  have hlen : cache.elements.length < 2 ^ 31 := h.length_eq ▸ hrows
  cases call with
  | insertValue key value flags =>
    obtain ⟨cache', hcall, helements⟩ :=
      insertValue_eq hlen h.sorted image fresh key value flags
    refine ⟨cache', hcall, ?_, ?_⟩
    · rw [helements]
      exact h.sorted.insertValue (h.getValue_eq_none_iff.2 (hnew key value flags rfl)) image value
        flags
    · rw [helements]
      exact (insertKey_perm h.sorted _).trans (h.perm.cons _)
  | deleteValue key =>
    obtain ⟨rc, cache', hcall, helements, -⟩ := deleteValue_eq hlen key
    refine ⟨cache', ?_, ?_, ?_⟩
    · rw [CacheArray.step, hcall]
      rfl
    · rw [helements]
      exact h.sorted.deleteValue key
    · rw [helements, DataCache.deleteValue, eraseKey_eq_filter h.sorted]
      exact h.perm.filter _
  | getValue key =>
    refine ⟨cache, ?_, h⟩
    rw [CacheArray.step, getValue_eq hlen]
    rfl

end CacheArray

/-! ## A run -/

open CacheArray

/-- **The calls go through as long as fewer than 2^31 pairs are there.**  The induction is on the
calls from the last one on. -/
theorem holds_run {image : List UInt8} {calls : List CacheCall} (hnew : NewKeys image calls)
    (fresh : DataCacheEntry)
    (hrows : ∀ before, before <+: calls → (rowsAfter image before).length < 2 ^ 31) :
    ∃ cache, run (CacheArray.step image fresh) create calls = some cache ∧
      Holds (rowsAfter image calls) cache := by
  induction calls using List.reverseRecOn with
  | nil => exact ⟨create, rfl, holds_create⟩
  | append_singleton calls call ih =>
    have hprefix : calls <+: calls ++ [call] := List.prefix_append calls [call]
    obtain ⟨cache, hrun, hcache⟩ := ih
      (fun before key value flags h => hnew before key value flags (h.trans hprefix))
      (fun before h => hrows before (h.trans hprefix))
    obtain ⟨cache', hstep, hcache'⟩ := hcache.step (hrows calls hprefix) image fresh call (by
      rintro key value flags rfl
      exact hnew calls key value flags (List.prefix_refl _))
    refine ⟨cache', ?_, ?_⟩
    · rw [run_append, hrun, Option.bind_some, run_cons, hstep]
      rfl
    · rw [rowsAfter, List.foldl_append]
      exact hcache'

/-! ## Many keys -/

/-- A number as a key. -/
def numberKey (n : Nat) : CName where
  bytes := decimal n
  nul_free := fun h => absurd (isDigit_decimal h) (by decide)

theorem tolower_of_isDigit {b : UInt8} (h : isDigit b = true) : tolower b = b := by
  simp only [isDigit, Bool.and_eq_true, decide_eq_true_eq, UInt8.le_iff_toNat_le] at h
  have hupper : ¬(65 ≤ b ∧ b ≤ 90) := by
    simp only [UInt8.le_iff_toNat_le]
    have h57 : (57 : UInt8).toNat = 57 := rfl
    have h65 : (65 : UInt8).toNat = 65 := rfl
    omega
  exact if_neg hupper

theorem folded_numberKey (n : Nat) : (numberKey n).folded = decimal n := by
  refine (List.map_congr_left fun b hb => ?_).trans (List.map_id _)
  exact tolower_of_isDigit (isDigit_decimal hb)

/-- The numbers below `n`, inserted in their order with a null value. -/
def insertNumbers (n : Nat) : List CacheCall :=
  (List.range n).map fun i => .insertValue (numberKey i) ⟨0, .null, 0, 0⟩ 0

theorem insertNumbers_succ (n : Nat) : insertNumbers (n + 1) =
    insertNumbers n ++ [.insertValue (numberKey n) ⟨0, .null, 0, 0⟩ 0] := by
  simp [insertNumbers, List.range_succ]

theorem rowsAfter_insertNumbers (image : List UInt8) (n : Nat) :
    rowsAfter image (insertNumbers n) =
      ((List.range n).map fun i => ⟨0, numberKey i, ⟨0, .null, 0, 0⟩⟩).reverse := by
  induction n with
  | zero => rfl
  | succ n ih =>
    rw [insertNumbers_succ, rowsAfter, List.foldl_append, ← rowsAfter, ih, List.range_succ,
      List.map_append, List.reverse_append]
    rfl

theorem newKeys_insertNumbers (image : List UInt8) (n : Nat) : NewKeys image (insertNumbers n) := by
  intro before key value flags hbefore
  induction n with
  | zero => simp [insertNumbers] at hbefore
  | succ n ih =>
    rw [insertNumbers_succ, List.prefix_concat_iff] at hbefore
    rcases hbefore with heq | hbefore
    · obtain ⟨rfl, hcall⟩ := List.append_inj' heq rfl
      obtain ⟨rfl, -, -⟩ := CacheCall.insertValue.inj (List.singleton_inj.1 hcall)
      intro e he hkey
      rw [rowsAfter_insertNumbers, List.mem_reverse, List.mem_map] at he
      obtain ⟨i, hi, rfl⟩ := he
      rw [DataCacheEntry.folded, folded_numberKey, folded_numberKey] at hkey
      exact absurd (decimal_injective hkey) (List.mem_range.1 hi).ne
    · exact ih hbefore

/-- No call brings more than one pair. -/
theorem length_rowsAfter_le (image : List UInt8) (calls : List CacheCall) :
    (rowsAfter image calls).length ≤ calls.length := by
  induction calls using List.reverseRecOn with
  | nil => simp [rowsAfter]
  | append_singleton calls call ih =>
    rw [rowsAfter, List.foldl_append, ← rowsAfter, List.length_append, List.length_singleton]
    show (call.apply image (rowsAfter image calls)).length ≤ calls.length + 1
    cases call with
    | insertValue key value flags => exact Nat.succ_le_succ ih
    | deleteValue key =>
      have hfewer := List.length_filter_le (fun e => decide (e.folded ≠ key.folded))
        (rowsAfter image calls)
      simp only [CacheCall.apply]
      omega
    | getValue key => exact Nat.le_succ_of_le ih

/-! ## Every run -/

/-- **A cache is a sorted map after every call just if it never holds 2^31 pairs.** -/
theorem sortedMap_iff (image : List UInt8) (fresh : DataCacheEntry) {calls : List CacheCall}
    (hnew : NewKeys image calls) :
    (∀ before, before <+: calls →
      ∃ cache, run (CacheArray.step image fresh) create before = some cache ∧
        SortedMap (rowsAfter image before) cache) ↔
      ∀ before, before <+: calls → (rowsAfter image before).length < 2 ^ 31 := by
  constructor
  · intro h before hbefore
    obtain ⟨cache, -, hcache⟩ := h before hbefore
    exact hcache.length_lt
  · intro h before hbefore
    obtain ⟨cache, hrun, hcache⟩ := @holds_run image before
      (fun first key value flags hfirst => hnew first key value flags (hfirst.trans hbefore))
      fresh (fun first hfirst => h first (hfirst.trans hbefore))
    exact ⟨cache, hrun, hcache.sortedMap (h before hbefore)⟩

/-- Three numbers are inserted. -/
theorem sortedMap_threeNumbers :
    ∃ cache, run (CacheArray.step [] zeroed) create (insertNumbers 3) = some cache ∧
      SortedMap (rowsAfter [] (insertNumbers 3)) cache := by
  refine (sortedMap_iff [] zeroed (newKeys_insertNumbers [] 3)).2 (fun first hfirst => ?_)
    (insertNumbers 3) (List.prefix_refl _)
  have hrows := length_rowsAfter_le [] first
  have hcalls := hfirst.length_le
  simp only [insertNumbers, List.length_map, List.length_range] at hcalls
  omega

/-- With so many keys the cache is no map. -/
theorem not_sortedMap_insertNumbers {n : Nat} (hn : 2 ^ 31 ≤ n) (image : List UInt8)
    (cache : CacheArray) : ¬SortedMap (rowsAfter image (insertNumbers n)) cache := by
  intro h
  have hlt := h.length_lt
  rw [rowsAfter_insertNumbers, List.length_reverse, List.length_map, List.length_range] at hlt
  omega

/-- **The numbers below 2^31 are inserted, and then nothing is found.** -/
theorem numbers_not_sortedMap :
    NewKeys [] (insertNumbers (2 ^ 31)) ∧
      ¬∀ before, before <+: insertNumbers (2 ^ 31) →
        ∃ cache, run (CacheArray.step [] zeroed) create before = some cache ∧
          SortedMap (rowsAfter [] before) cache := by
  refine ⟨newKeys_insertNumbers [] (2 ^ 31), fun h => ?_⟩
  obtain ⟨cache, -, hcache⟩ := h _ (List.prefix_refl _)
  exact not_sortedMap_insertNumbers (Nat.le_refl _) [] cache hcache

end Vault

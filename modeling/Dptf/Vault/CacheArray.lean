import Dptf.Vault.DataCache

/-!
# The array of a cache

`DataCache` as its functions see it: an array of elements with a 32-bit count, searched with
indices of type `int`.  A signed operation that leaves the `int`s and an access outside of the
array have no result.

* `bisect_eq` — **on fewer than 2^31 elements the loop is the usual binary search**, and
  touches nothing outside; `bisect_eq_of_large` — on more it does not find what is there.
-/

open Lib

namespace Vault

/-- The object behind a `DataCachePtr`. -/
structure CacheArray where
  /-- The array. -/
  elements : List DataCacheEntry
  /-- `size`. -/
  size : UInt32
  /-- The array is as long as its count says. -/
  size_eq : size.toNat = elements.length
deriving DecidableEq

namespace CacheArray

variable {self : CacheArray}

/-! ## The functions -/

/-- `EOF`. -/
def eof : Int := -1

/-- The result of a signed operation, if it is an `int`. -/
def int (x : Int) : Option Int := if -2 ^ 31 ≤ x ∧ x < 2 ^ 31 then some x else none

/-- `DataCache_Create`. -/
def create : CacheArray := ⟨[], 0, rfl⟩

/-- An array with its count. -/
def ofElements (size : UInt32) (elements : List DataCacheEntry) : Option CacheArray :=
  if h : size.toNat = elements.length then some ⟨elements, size, h⟩ else none

/-- `self->elements[node]`. -/
def element (self : CacheArray) (node : Int) : Option DataCacheEntry :=
  if 0 ≤ node then self.elements[node.toNat]? else none

/-- `items`, the count as an `int`. -/
def items (self : CacheArray) : Int := (self.size.toNat : Int).bmod (2 ^ 32)

/-- The midpoint of what is left. -/
def midpoint (start stop : Int) : Option Int := do
  let width ← int (stop - start)
  int (width.tdiv 2 + start)

/-- The loop of both searches, for at most so many turns: whether it was left at an equal
element, and `node`. -/
def searchLoop (self : CacheArray) (key : CName) : Nat → Int → Int → Int → Option (Bool × Int)
  | 0, _, _, _ => none
  | turns + 1, start, stop, node =>
    if start ≤ stop then do
      let e ← self.element node
      match compare key.folded e.folded with
      | .eq => some (true, node)
      | .gt =>
        let start ← int (node + 1)
        let node ← midpoint start stop
        searchLoop self key turns start stop node
      | .lt =>
        let stop ← int (node - 1)
        let node ← midpoint start stop
        searchLoop self key turns start stop node
    else some (false, node)

/-- Both searches up to the end of their loop. -/
def bisect (self : CacheArray) (key : CName) : Option (Bool × Int) := do
  let stop ← int (self.items - 1)
  searchLoop self key (self.elements.length + 1) 0 stop (self.items.tdiv 2)

/-- `DataCache_Search`. -/
def search (self : CacheArray) (key : CName) : Option Int :=
  (self.bisect key).map fun r => if r.1 then r.2 else eof

/-- `DataCache_FindInsertionPoint`. -/
def findInsertionPoint (self : CacheArray) (key : CName) : Option Int :=
  (self.bisect key).map Prod.snd

/-- `DataCache_GetValue`: the element its pointer leads to, unless it is `NULL`. -/
def getValue (self : CacheArray) (key : CName) : Option (Option DataCacheEntry) := do
  let index ← self.search key
  if index = eof then some none else (self.element index).map some

/-- `realloc`, which leaves `fresh` in what is new. -/
def realloc (fresh : DataCacheEntry) (n : Nat) (xs : List DataCacheEntry) :
    List DataCacheEntry :=
  xs.take n ++ List.replicate (n - xs.length) fresh

/-- `memmove` inside of an array, counted in elements. -/
def memmove (xs : List DataCacheEntry) (dst src n : Nat) : Option (List DataCacheEntry) :=
  if dst + n ≤ xs.length ∧ src + n ≤ xs.length then
    some (xs.take dst ++ (xs.drop src).take n ++ xs.drop (dst + n))
  else none

/-- A write to one element. -/
def write (xs : List DataCacheEntry) (node : Int) (e : DataCacheEntry) :
    Option (List DataCacheEntry) :=
  if 0 ≤ node ∧ node.toNat < xs.length then some (xs.set node.toNat e) else none

/-- `DataCache_InsertValue`. -/
def insertValue (image : List UInt8) (fresh : DataCacheEntry) (self : CacheArray) (key : CName)
    (value : CacheData) (flags : UInt32) : Option CacheArray := do
  let node ← self.findInsertionPoint key
  let elements := realloc fresh (self.size + 1).toNat self.elements
  -- the old pairs are moved down
  let elements ←
    if node < self.items then do
      let behind ← int (node + 1)
      if 0 ≤ node then
        memmove elements behind.toNat node.toNat (self.size - UInt32.ofInt node).toNat
      else none
    else some elements
  let elements ← write elements node ⟨flags, key, DataCache.cloneCacheData image value⟩
  ofElements (self.size + 1) elements

/-- What `memset` leaves of an element. -/
def zeroed : DataCacheEntry := ⟨0, ⟨[], CName.nul_free_nil⟩, ⟨0, .null, 0, 0⟩⟩

/-- `DataCache_DeleteValue`. -/
def deleteValue (self : CacheArray) (key : CName) : Option (EsifError × CacheArray) := do
  let index ← self.search key
  let node := UInt32.ofInt index
  if node = UInt32.ofInt eof then some (esifENotFound, self)
  else
    -- the destructors of the pair
    let _ ← self.elements[node.toNat]?
    let elements ←
      if node < self.size - 1 then do
        let moved ← memmove self.elements node.toNat (node + 1).toNat
          (self.size - node - 1).toNat
        write moved (self.size - 1).toNat zeroed
      else some self.elements
    let elements := if 1 < self.size then realloc zeroed (self.size - 1).toNat elements else []
    let self ← ofElements (self.size - 1) elements
    some (esifOk, self)

/-! ## The searches -/

theorem int_eq {x : Int} (hlow : -2 ^ 31 ≤ x) (hhigh : x < 2 ^ 31) : int x = some x :=
  if_pos ⟨hlow, hhigh⟩

theorem element_natCast (self : CacheArray) (i : Nat) : self.element i = self.elements[i]? := by
  simp [element]

/-- The midpoint of an interval that may be empty; the end of an interval of indices is one
below its stop. -/
theorem midpoint_eq {start stop : Nat} (hle : start ≤ stop) (hstop : stop < 2 ^ 31) :
    midpoint start ((stop : Int) - 1) = some (((stop - 1 - start) / 2 + start : Nat) : Int) := by
  have hwidth : int ((stop : Int) - 1 - start) = some ((stop : Int) - 1 - start) :=
    int_eq (by omega) (by omega)
  have hhalf : ((stop : Int) - 1 - start).tdiv 2 = ((stop - 1 - start) / 2 : Nat) := by
    rcases Nat.eq_or_lt_of_le hle with rfl | hlt
    · -- nothing is left: the division of -1 cuts to 0
      have hcut : (start : Int) - 1 - start = -1 := by omega
      have hzero : start - 1 - start = 0 := by omega
      rw [hcut, hzero]
      rfl
    · have hcast : (stop : Int) - 1 - start = ((stop - 1 - start : Nat) : Int) := by omega
      rw [hcast]
      rfl
  rw [midpoint, hwidth, Option.bind_eq_bind, Option.bind_some, hhalf]
  rw [int_eq (by omega) (by omega)]
  rfl

/-- What the usual binary search says, as the loop says it. -/
def outcome : Search → Bool × Int
  | .found node => (true, node)
  | .missing node => (false, node)

/-- How a key compares with an element. -/
def comp (key : CName) (e : DataCacheEntry) : Ordering := compare key.folded e.folded

theorem searchLoop_eq {self : CacheArray} (hlen : self.elements.length < 2 ^ 31) (key : CName)
    {turns start stop node : Nat} (hle : start ≤ stop) (hstop : stop ≤ self.elements.length)
    (hturns : stop - start ≤ turns) (hnode : start < stop → start ≤ node ∧ node < stop) :
    searchLoop self key (turns + 1) start ((stop : Int) - 1) node =
      some (outcome (Lib.searchLoop (comp key) self.elements turns start stop node)) := by
  induction turns generalizing start stop node with
  | zero =>
    have hempty : ¬(start : Int) ≤ (stop : Int) - 1 := by omega
    rw [searchLoop, if_neg hempty]
    rfl
  | succ turns ih =>
    by_cases hlt : start < stop
    · have hleft : (start : Int) ≤ (stop : Int) - 1 := by omega
      obtain ⟨hlow, hhigh⟩ := hnode hlt
      have hmem : node < self.elements.length := by omega
      have hget : self.elements[node]? = some self.elements[node] := List.getElem?_eq_getElem _
      rw [searchLoop, if_pos hleft, Lib.searchLoop, if_pos hlt, element_natCast, hget,
        Option.bind_eq_bind, Option.bind_some, Option.map_some]
      simp only [comp]
      cases hcomp : compare key.folded self.elements[node].folded with
      | eq => rfl
      | gt =>
        have hint : int ((node : Int) + 1) = some ((node + 1 : Nat) : Int) :=
          int_eq (by omega) (by omega)
        have hmid := midpoint_eq (show node + 1 ≤ stop by omega) (by omega)
        simp only [hint, hmid, Option.bind_eq_bind, Option.bind_some]
        exact ih (by omega) hstop (by omega) (by omega)
      | lt =>
        have hint : int ((node : Int) - 1) = some ((node : Int) - 1) := int_eq (by omega) (by omega)
        have hmid := midpoint_eq hlow (by omega)
        simp only [hint, hmid, Option.bind_eq_bind, Option.bind_some]
        exact ih hlow (by omega) (by omega) (by omega)
    · have hempty : ¬(start : Int) ≤ (stop : Int) - 1 := by omega
      rw [searchLoop, if_neg hempty, Lib.searchLoop, if_neg hlt]
      rfl

theorem items_eq (hlen : self.elements.length < 2 ^ 31) : self.items = self.elements.length := by
  have hsize := self.size_eq
  have hitems : self.items = self.size.toNat := Int.bmod_eq_of_le (by omega) (by omega)
  rw [hitems, hsize]

/-- **The searches are the usual binary search** where the count is an `int`. -/
theorem bisect_eq (hlen : self.elements.length < 2 ^ 31) (key : CName) :
    self.bisect key = some (outcome (slot DataCacheEntry.folded key.folded self.elements)) := by
  have hint : int ((self.elements.length : Int) - 1) = some ((self.elements.length : Int) - 1) :=
    int_eq (by omega) (by omega)
  have hloop := @searchLoop_eq self hlen key self.elements.length 0 self.elements.length
    (self.elements.length / 2) (Nat.zero_le _) (Nat.le_refl _) (by omega) (by omega)
  rw [bisect, items_eq hlen, hint, Option.bind_eq_bind, Option.bind_some]
  exact hloop

/-- **More elements are not searched**: the count is negative as an `int`. -/
theorem bisect_eq_of_large (hlen : 2 ^ 31 ≤ self.elements.length) (key : CName) :
    self.bisect key = none ∨ ∃ node, self.bisect key = some (false, node) := by
  have hsize := self.size.toNat_lt
  have hitems : self.items = (self.elements.length : Int) - 2 ^ 32 := by
    have hcount := self.size_eq
    have hshift := Int.sub_bmod_right (self.size.toNat : Int) (2 ^ 32)
    have hmod : ((self.size.toNat : Int) - (2 ^ 32 : Nat)).bmod (2 ^ 32) =
        (self.size.toNat : Int) - (2 ^ 32 : Nat) := Int.bmod_eq_of_le (by omega) (by omega)
    calc self.items = (self.size.toNat : Int) - (2 ^ 32 : Nat) := hshift.symm.trans hmod
      _ = (self.elements.length : Int) - 2 ^ 32 := by omega
  rw [bisect, hitems]
  by_cases hint : int ((self.elements.length : Int) - 2 ^ 32 - 1) = none
  · left
    rw [hint]
    rfl
  · right
    obtain ⟨stop, hstop⟩ := Option.ne_none_iff_exists'.1 hint
    obtain rfl : (self.elements.length : Int) - 2 ^ 32 - 1 = stop := by
      unfold int at hstop
      split at hstop
      · exact Option.some.inj hstop
      · cases hstop
    have hempty : ¬(0 : Int) ≤ (self.elements.length : Int) - 2 ^ 32 - 1 := by
      rw [self.size_eq] at hsize
      omega
    rw [hstop, Option.bind_eq_bind, Option.bind_some, searchLoop, if_neg hempty]
    exact ⟨_, rfl⟩

theorem search_eq_some (hlen : self.elements.length < 2 ^ 31) (key : CName) :
    self.search key = some (match slot DataCacheEntry.folded key.folded self.elements with
        | .found node => node
        | .missing _ => eof) := by
  rw [search, bisect_eq hlen]
  cases slot DataCacheEntry.folded key.folded self.elements <;> rfl

theorem findInsertionPoint_eq_some (hlen : self.elements.length < 2 ^ 31) (key : CName) :
    self.findInsertionPoint key =
      some ((slot DataCacheEntry.folded key.folded self.elements).node : Int) := by
  rw [findInsertionPoint, bisect_eq hlen]
  cases slot DataCacheEntry.folded key.folded self.elements <;> rfl

theorem natCast_ne_eof (i : Nat) : (i : Int) ≠ eof := by
  unfold eof
  omega

/-- **`DataCache_GetValue` is the lookup of the list.** -/
theorem getValue_eq (hlen : self.elements.length < 2 ^ 31) (key : CName) :
    self.getValue key = some (DataCache.getValue self.elements key) := by
  rw [getValue, search_eq_some hlen, DataCache.getValue, lookup]
  cases h : slot DataCacheEntry.folded key.folded self.elements with
  | found i =>
    obtain ⟨before, e, after, hcut, rfl, -⟩ := slot_found h
    simp only [Option.bind_eq_bind, Option.bind_some, if_neg (natCast_ne_eof before.length),
      element_natCast]
    simp [hcut]
  | missing i => simp [Option.bind_eq_bind]

/-! ## Inserting and deleting -/

theorem realloc_grow (fresh : DataCacheEntry) (xs : List DataCacheEntry) :
    realloc fresh (xs.length + 1) xs = xs ++ [fresh] := by
  simp [realloc, List.take_of_length_le]

theorem realloc_shrink (fresh e : DataCacheEntry) (xs : List DataCacheEntry) :
    realloc fresh xs.length (xs ++ [e]) = xs := by
  simp [realloc]

theorem ofElements_eq {size : UInt32} {xs : List DataCacheEntry} (h : size.toNat = xs.length) :
    ofElements size xs = some ⟨xs, size, h⟩ := dif_pos h

theorem write_natCast {xs : List DataCacheEntry} {i : Nat} (hi : i < xs.length)
    (e : DataCacheEntry) : write xs i e = some (xs.set i e) := by
  have hinside : (0 : Int) ≤ i ∧ (i : Int).toNat < xs.length := by omega
  rw [write, if_pos hinside, Int.toNat_natCast]

/-- Elements are moved down by one, and one is written in front of them. -/
theorem write_memmove_down (before after : List DataCacheEntry) (fresh e : DataCacheEntry) :
    ((memmove (before ++ after ++ [fresh]) (before.length + 1) before.length after.length).bind
      fun xs => write xs before.length e) = some (before ++ e :: after) := by
  have hmoved : memmove (before ++ after ++ [fresh]) (before.length + 1) before.length
      after.length = some (before ++ (after ++ [fresh]).take 1 ++ after) := by
    have hroom : before.length + 1 + after.length ≤ (before ++ after ++ [fresh]).length ∧
        before.length + after.length ≤ (before ++ after ++ [fresh]).length := by
      simp only [List.length_append, List.length_singleton]
      omega
    have hrest : (before ++ (after ++ [fresh])).drop (before.length + 1 + after.length) = [] := by
      rw [List.drop_eq_nil_iff]
      simp only [List.length_append, List.length_singleton]
      omega
    rw [memmove, if_pos hroom, List.append_assoc before, hrest, List.take_length_add_append,
      List.drop_left, List.take_left, List.append_nil]
  rw [hmoved, Option.bind_some, write_natCast (by simp)]
  cases after with
  | nil => simp
  | cons x after => simp

/-- Elements are moved up by one, and the last one is overwritten. -/
theorem write_memmove_up (before after : List DataCacheEntry) (x e : DataCacheEntry) :
    ((memmove (before ++ x :: after) before.length (before.length + 1) after.length).bind
      fun xs => write xs (before.length + after.length : Nat) e) =
      some (before ++ after ++ [e]) := by
  have hroom : before.length + after.length ≤ (before ++ x :: after).length ∧
      before.length + 1 + after.length ≤ (before ++ x :: after).length := by
    simp only [List.length_append, List.length_cons]
    omega
  have hmoved : memmove (before ++ x :: after) before.length (before.length + 1)
      after.length = some (before ++ after ++ (x :: after).drop after.length) := by
    rw [memmove, if_pos hroom, List.take_left, List.drop_length_add_append,
      List.drop_length_add_append, List.drop_succ_cons, List.drop_zero, List.take_length]
  obtain ⟨last, hlast⟩ : ∃ last, (x :: after).drop after.length = [last] := by
    rw [← List.length_eq_one_iff]
    simp
  rw [hmoved, Option.bind_some, hlast, write_natCast (by simp)]
  rw [← List.length_append, List.set_append_right _ _ (Nat.le_refl _), Nat.sub_self]
  rfl

/-- An index that is made unsigned. -/
theorem toNat_ofInt_natCast {i : Nat} (hi : i < 2 ^ 32) : (UInt32.ofInt (i : Int)).toNat = i := by
  rw [UInt32.ofInt, UInt32.toNat_ofNat']
  omega

/-- **`DataCache_InsertValue` inserts into the list.** -/
theorem insertValue_eq (hlen : self.elements.length < 2 ^ 31) (hs : DataCache.Sorted self.elements)
    (image : List UInt8) (fresh : DataCacheEntry) (key : CName) (value : CacheData) (flags : UInt32)
    :
    ∃ self' : CacheArray, insertValue image fresh self key value flags = some self' ∧
      self'.elements = DataCache.insertValue image self.elements key value flags := by
  obtain ⟨before, after, hcut, hnode, hinserted⟩ :=
    insertKey_cut hs ⟨flags, key, DataCache.cloneCacheData image value⟩
  rw [DataCache.insertValue, hinserted]
  have hpoint : self.findInsertionPoint key = some (before.length : Int) := by
    rw [findInsertionPoint_eq_some hlen, ← hnode]
    rfl
  have hitems := items_eq hlen
  have hcount := self.size_eq
  have hlength : self.elements.length = before.length + after.length := by
    rw [hcut, List.length_append]
  have hsize : (self.size + 1).toNat = self.elements.length + 1 := by
    rw [UInt32.toNat_add, hcount, UInt32.toNat_one, Nat.mod_eq_of_lt]
    omega
  have hgrown : realloc fresh (self.size + 1).toNat self.elements = before ++ after ++ [fresh] := by
    rw [hsize, realloc_grow, hcut]
  have hdone : (self.size + 1).toNat =
      (before ++ (⟨flags, key, DataCache.cloneCacheData image value⟩ : DataCacheEntry) ::
        after).length := by
    rw [hsize, hlength, List.length_append, List.length_cons]
    omega
  refine ⟨⟨_, self.size + 1, hdone⟩, ?_, rfl⟩
  unfold insertValue
  rw [hpoint, hgrown, hitems, Option.bind_eq_bind, Option.bind_some]
  by_cases hlast : after = []
  · -- behind all others: nothing is moved
    subst hlast
    have hend : ¬(before.length : Int) < self.elements.length := by
      rw [hlength, List.length_nil]
      omega
    rw [if_neg hend]
    simp only [List.append_nil, Option.bind_eq_bind, Option.bind_some]
    rw [write_natCast (by simp), Option.bind_some, List.set_append_right _ _ (Nat.le_refl _),
      Nat.sub_self]
    exact ofElements_eq hdone
  · have hinside : (before.length : Int) < self.elements.length := by
      have hpos := List.length_pos_of_ne_nil hlast
      omega
    have hbehind : int ((before.length : Int) + 1) = some ((before.length + 1 : Nat) : Int) :=
      int_eq (by omega) (by omega)
    have hrest : (self.size - UInt32.ofInt (before.length : Int)).toNat = after.length := by
      have hnode32 := @toNat_ofInt_natCast before.length (by omega)
      rw [UInt32.toNat_sub_of_le _ _ (UInt32.le_iff_toNat_le.2 (by omega)), hcount, hnode32]
      omega
    obtain ⟨moved, hmoved, hwritten⟩ := Option.bind_eq_some_iff.1
      (write_memmove_down before after fresh
        ⟨flags, key, DataCache.cloneCacheData image value⟩)
    rw [if_pos hinside, hbehind, hrest]
    simp only [Option.bind_eq_bind, Option.bind_some, Int.toNat_natCast, Int.natCast_nonneg,
      if_true, hmoved, hwritten]
    exact ofElements_eq hdone

/-- **`DataCache_DeleteValue` deletes from the list**, and says whether the key was there. -/
theorem deleteValue_eq (hlen : self.elements.length < 2 ^ 31) (key : CName) :
    ∃ rc, ∃ self' : CacheArray, deleteValue self key = some (rc, self') ∧
      self'.elements = DataCache.deleteValue self.elements key ∧
      (rc = if DataCache.getValue self.elements key = none then esifENotFound else esifOk) := by
  have hcount := self.size_eq
  have hsearch := search_eq_some hlen key
  cases hslot : slot DataCacheEntry.folded key.folded self.elements with
  | missing i =>
    rw [hslot] at hsearch
    refine ⟨esifENotFound, self, ?_, ?_, ?_⟩
    · rw [deleteValue, hsearch]
      rfl
    · rw [DataCache.deleteValue, eraseKey, hslot]
    · rw [DataCache.getValue, lookup, hslot, if_pos rfl]
  | found i =>
    obtain ⟨before, x, after, hcut, rfl, -⟩ := slot_found hslot
    rw [hslot] at hsearch
    have hlength : self.elements.length = before.length + (after.length + 1) := by
      rw [hcut, List.length_append, List.length_cons]
    have hnode := @toNat_ofInt_natCast before.length (by omega)
    have hpresent : UInt32.ofInt (before.length : Int) ≠ UInt32.ofInt eof := by
      intro heq
      have hall := congrArg UInt32.toNat heq
      rw [hnode] at hall
      have heof : (UInt32.ofInt eof).toNat = 4294967295 := rfl
      omega
    have hfewer : (self.size - 1).toNat = before.length + after.length := by
      have hone : (1 : UInt32) ≤ self.size := UInt32.le_iff_toNat_le.2 (by
        rw [UInt32.toNat_one]
        omega)
      rw [UInt32.toNat_sub_of_le _ _ hone, hcount, UInt32.toNat_one]
      omega
    have herased : DataCache.deleteValue self.elements key = before ++ after := by
      rw [DataCache.deleteValue, eraseKey, hslot, hcut]
      exact List.eraseIdx_append_of_length_le (Nat.le_refl _) _ |>.trans (by simp)
    have hget : self.elements[before.length]? = some x := by simp [hcut]
    have hdone : (self.size - 1).toNat = (before ++ after).length := by
      rw [hfewer, List.length_append]
    -- the array without its last element, whatever that is
    have hshrunk : ∀ e, (if 1 < self.size then
        realloc zeroed (self.size - 1).toNat (before ++ after ++ [e]) else []) =
          before ++ after := by
      intro e
      split
      · rw [hdone, realloc_shrink]
      · rename_i hone
        rw [UInt32.lt_iff_toNat_lt, UInt32.toNat_one, hcount, hlength] at hone
        exact (List.eq_nil_of_length_eq_zero (by rw [List.length_append]; omega)).symm
    refine ⟨esifOk, ⟨before ++ after, self.size - 1, hdone⟩, ?_, herased.symm, ?_⟩
    · unfold deleteValue
      rw [hsearch]
      simp only [Option.bind_eq_bind, Option.bind_some, if_neg hpresent, hnode, hget]
      by_cases hlast : after = []
      · -- the last pair: nothing is moved
        subst hlast
        have hend : ¬UInt32.ofInt (before.length : Int) < self.size - 1 := by
          rw [UInt32.lt_iff_toNat_lt, hnode, hfewer, List.length_nil]
          omega
        have hshrunk := hshrunk x
        rw [if_neg hend, hcut]
        simp only [List.append_nil] at hshrunk hdone ⊢
        rw [hshrunk, ofElements_eq hdone]
        rfl
      · have hinside : UInt32.ofInt (before.length : Int) < self.size - 1 := by
          have hpos := List.length_pos_of_ne_nil hlast
          rw [UInt32.lt_iff_toNat_lt, hnode, hfewer]
          omega
        have hnext : (UInt32.ofInt (before.length : Int) + 1).toNat = before.length + 1 := by
          rw [UInt32.toNat_add, hnode, UInt32.toNat_one, Nat.mod_eq_of_lt]
          omega
        have hrest : (self.size - UInt32.ofInt (before.length : Int) - 1).toNat =
            after.length := by
          have hle : UInt32.ofInt (before.length : Int) ≤ self.size :=
            UInt32.le_iff_toNat_le.2 (by omega)
          have hwidth := UInt32.toNat_sub_of_le _ _ hle
          rw [UInt32.toNat_sub_of_le _ _ (UInt32.le_iff_toNat_le.2 (by
            rw [hwidth, UInt32.toNat_one]
            omega)), hwidth, hcount, hnode, UInt32.toNat_one]
          omega
        obtain ⟨moved, hmoved, hwritten⟩ :=
          Option.bind_eq_some_iff.1 (write_memmove_up before after x zeroed)
        rw [if_pos hinside, hnext, hrest, hcut]
        simp only [hmoved, Option.bind_some, ← hfewer] at hwritten ⊢
        rw [hwritten]
        simp only [Option.bind_some]
        rw [hshrunk zeroed, ofElements_eq hdone]
        rfl
    · rw [DataCache.getValue, lookup, hslot]
      simp [hget]

end CacheArray

end Vault

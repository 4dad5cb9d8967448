import Dptf.Lib.Enumeration
import Dptf.Vault.Spared
import Mathlib.Data.Set.Finite.List

/-!
# Finding keys

`EsifConfigFindFirst` and `EsifConfigFindNext` hand out the keys of a vault that match a
pattern, one a call.  Between the calls there is a copy of the last key and nothing else, so
that the vault may be changed meanwhile.

* `findNext_spec` — **a call finds the least matching key behind the last one**.
* `finding_exact` — it ends, and finds what was there throughout, once and in order.
-/

open Lib

namespace Vault

variable {δ : Type}

/-! ## The calls -/

/-- The `path` of a call, as far as it is read: a pattern in, a key out. -/
structure FindPath where
  type : UInt32
  bufPtr : CName
  bufLen : UInt32
deriving DecidableEq, Repr

/-- What a call returns, and its context afterwards. -/
structure FindResult where
  rc : EsifError
  path : FindPath
  context : Option CName
deriving DecidableEq, Repr

/-- `EsifConfigKeyMatch`. -/
def configKeyMatch (pattern : FindPath) (key : CName) : Bool :=
  if pattern.type = esifDataString then key.matchesPattern pattern.bufPtr else true

/-- The rows behind the context. -/
def behindContext (cache : DataCache) : Option CName → DataCache
  | none => cache
  | some context => cache.dropWhile fun e => compare e.folded context.folded ≠ .gt

/-- `EsifConfigFindNext` without a value, its copies of the key succeeding. -/
def findNext (cache : DataCache) (path : FindPath) (context : Option CName) : FindResult :=
  match (behindContext cache context).find? fun e => configKeyMatch path e.key with
  | some e =>
    if path.bufLen ≠ 0 ∧ path.bufLen.toNat < e.key.size then ⟨esifENeedLargerBuffer, path, none⟩
    else ⟨esifOk, ⟨esifDataString, e.key, .ofNat e.key.size⟩, some e.key⟩
  | none => ⟨if context.isSome then esifEIterationDone else esifENotFound, path, none⟩

/-- `EsifConfigFindFirst`. -/
def findFirst (cache : DataCache) (path : FindPath) : FindResult := findNext cache path none

/-! ## What a call finds -/

/-- What a pattern looks for, of a key without case. -/
def FoldedMatch (path : FindPath) (k : List UInt8) : Prop :=
  path.type = esifDataString → strmatch k path.bufPtr.bytes = true

/-- The key is in the cache, whatever its case. -/
def HasKey (cache : DataCache) (k : List UInt8) : Prop := ∃ e ∈ cache, e.folded = k

theorem tolower_tolower : ∀ b : UInt8, tolower (tolower b) = tolower b :=
  Lib.forall_byte (by decide +kernel)

theorem tails_map_tolower (string : List UInt8) :
    (string.map tolower).tails = string.tails.map (List.map tolower) := by
  induction string with
  | nil => rfl
  | cons b string ih => simp [ih]

/-- The case of a string makes no difference to a pattern. -/
theorem strmatch_map_tolower (string pattern : List UInt8) :
    strmatch (string.map tolower) pattern = strmatch string pattern := by
  induction pattern generalizing string with
  | nil => cases string <;> rfl
  | cons p pattern ih =>
    unfold strmatch
    split
    · rw [tails_map_tolower, List.any_map]
      congr 1
      funext rest
      exact ih rest
    · cases string with
      | nil => rfl
      | cons b string => simp [tolower_tolower, ih]

theorem configKeyMatch_iff (path : FindPath) (key : CName) :
    configKeyMatch path key = true ↔ FoldedMatch path key.folded := by
  unfold configKeyMatch FoldedMatch CName.matchesPattern CName.folded
  rw [strmatch_map_tolower]
  split <;> simp_all

/-- In a sorted cache, the rows behind the context are all those with a greater key. -/
theorem mem_behindContext_some {cache : DataCache} (hs : DataCache.Sorted cache)
    (context : CName) (e : DataCacheEntry) : e ∈ behindContext cache (some context) ↔
      e ∈ cache ∧ compare context.folded e.folded = .lt := by
  show e ∈ cache.dropWhile (fun e => decide (compare e.folded context.folded ≠ .gt)) ↔ _
  induction cache with
  | nil => simp
  | cons first cache ih =>
    obtain ⟨hfirst, hrest⟩ := List.pairwise_cons.mp hs
    by_cases hgt : compare first.folded context.folded = .gt
    · have hlt : compare context.folded first.folded = .lt := Std.OrientedCmp.gt_iff_lt.mp hgt
      rw [List.dropWhile_cons_of_neg (by simp [hgt])]
      refine ⟨fun he => ⟨he, ?_⟩, And.left⟩
      rcases List.mem_cons.mp he with rfl | he
      · exact hlt
      · exact Std.TransCmp.lt_trans hlt (hfirst e he)
    · rw [List.dropWhile_cons_of_pos (by simp [hgt]), ih hrest, List.mem_cons]
      refine ⟨fun ⟨he, hlt⟩ => ⟨.inr he, hlt⟩, ?_⟩
      rintro ⟨rfl | he, hlt⟩
      · exact absurd (Std.OrientedCmp.gt_iff_lt.mpr hlt) hgt
      · exact ⟨he, hlt⟩

/-- The keys found so far, without case, and the context that goes with them. -/
def ContextOf (context : Option CName) (found : List (List UInt8)) : Prop :=
  context.map CName.folded = found.getLast?

theorem mem_behindContext {cache : DataCache} (hs : DataCache.Sorted cache)
    {context : Option CName} {found : List (List UInt8)} (hcontext : ContextOf context found)
    (e : DataCacheEntry) : e ∈ behindContext cache context ↔ e ∈ cache ∧ Beyond found e.folded := by
  unfold Beyond
  rw [← hcontext]
  cases context with
  | none => simp [behindContext]
  | some context => simpa using mem_behindContext_some hs context e

theorem behindContext_sublist (cache : DataCache) (context : Option CName) :
    (behindContext cache context).Sublist cache := by
  cases context with
  | none => exact List.Sublist.refl _
  | some context => exact List.dropWhile_sublist _

/-- **A call finds the least matching key behind the last one**, or there is none. -/
theorem findNext_spec {cache : DataCache} (hs : DataCache.Sorted cache) (path : FindPath)
    (hlen : path.bufLen = 0) {context : Option CName} {found : List (List UInt8)}
    (hcontext : ContextOf context found) : (∃ e ∈ cache, configKeyMatch path e.key = true ∧
      findNext cache path context =
        ⟨esifOk, ⟨esifDataString, e.key, .ofNat e.key.size⟩, some e.key⟩ ∧
      ScanStep (FoldedMatch path) (HasKey cache) ⟨found, false⟩ ⟨found ++ [e.folded], false⟩) ∨
    ((findNext cache path context).rc ≠ esifOk ∧
      ScanStep (FoldedMatch path) (HasKey cache) ⟨found, false⟩ ⟨found, true⟩) := by
  unfold findNext
  cases hfind : (behindContext cache context).find? fun e => configKeyMatch path e.key with
  | none =>
    refine .inr ⟨by dsimp only; split <;> decide, .done rfl ?_⟩
    rintro k ⟨e, he, rfl⟩ hmatch hbeyond
    have hnot := List.find?_eq_none.mp hfind e ((mem_behindContext hs hcontext e).mpr ⟨he, hbeyond⟩)
    exact hnot ((configKeyMatch_iff path e.key).mpr hmatch)
  | some e =>
    have hmatch : configKeyMatch path e.key = true := by simpa using List.find?_some hfind
    obtain ⟨he, hbeyond⟩ :=
      (mem_behindContext hs hcontext e).mp (List.mem_of_find?_eq_some hfind)
    refine .inl ⟨e, he, hmatch, by simp [hlen], .found rfl ⟨e, he, rfl⟩
      ((configKeyMatch_iff path e.key).mp hmatch) hbeyond ?_⟩
    rintro k ⟨e', he', rfl⟩ hmatch' hbeyond' hgt
    have hmem := (mem_behindContext hs hcontext e').mpr ⟨he', hbeyond'⟩
    have hsorted : Ascending DataCacheEntry.folded (behindContext cache context) :=
      hs.sublist (behindContext_sublist cache context)
    -- a matching row before the one that was found would have been found
    obtain ⟨_, before, after, heq, hbefore⟩ := List.find?_eq_some_iff_append.mp hfind
    rw [heq] at hmem hsorted
    rcases List.mem_append.mp hmem with hin | hin
    · have hnot := hbefore e' hin
      rw [(configKeyMatch_iff path e'.key).mpr hmatch'] at hnot
      cases hnot
    · rcases List.mem_cons.mp hin with rfl | hin
      · rw [compare_key_self] at hgt
        cases hgt
      · have hlt := (List.pairwise_cons.mp (List.pairwise_append.mp hsorted).2.1).1 e' hin
        rw [hlt] at hgt
        cases hgt

/-! ## An enumeration among other calls -/

/-- An enumeration, the vault it goes over, and what it has found. -/
structure Finding (δ : Type) where
  vault : DataVault δ
  context : Option CName
  found : List CName
  ended : Bool

/-- The next call on the vault. -/
inductive FindAction
  /-- `DataVault_SetValue`, with or without `ESIF_SERVICE_CONFIG_DELETE`. -/
  | set (io : SetIo) (c : SetCall)
  /-- `EsifConfigFindFirst`, or `EsifConfigFindNext` if that was called. -/
  | find

def FindAction.isFind : FindAction → Bool
  | .set _ _ => false
  | .find => true

/-- Before the first call. -/
def Finding.start (v : DataVault δ) : Finding δ := ⟨v, none, [], false⟩

/-- A call on the vault.  For a find, the path is the pattern again; once there is an error the
enumeration is over. -/
def findStep [DecidableEq δ] (env : Env δ) (type : UInt32) (pattern : CName) (s : Finding δ) :
    FindAction → Option (Finding δ)
  | .set io c => some { s with vault := (s.vault.setValue env io c).vault }
  | .find =>
    if s.ended then none
    else
      let path : FindPath := ⟨type, pattern, 0⟩
      let result :=
        if s.found = [] then findFirst s.vault.cache path
        else findNext s.vault.cache path s.context
      if result.rc = esifOk then
        some { s with context := result.context, found := s.found ++ [result.path.bufPtr] }
      else some { s with context := result.context, ended := true }

/-- How many finds there are. -/
def finds (actions : List FindAction) : Nat := actions.countP FindAction.isFind

/-- The enumeration as one over a set that changes. -/
def Finding.scan (s : Finding δ) : Scan (List UInt8) := ⟨s.found.map CName.folded, s.ended⟩

/-- What holds of an enumeration at any time. -/
structure Finding.Sane (s : Finding δ) : Prop where
  orderly : Orderly s.vault
  context : s.ended = false → ContextOf s.context (s.found.map CName.folded)

section Steps

variable [DecidableEq δ] {env : Env δ} {type : UInt32} {pattern : CName} {s t : Finding δ}

/-- **A find ends the enumeration, or hands out a key that is there and matches.** -/
theorem findStep_find (hs : s.Sane) (h : findStep env type pattern s .find = some t) :
    t.Sane ∧ t.vault = s.vault ∧
      ScanStep (FoldedMatch ⟨type, pattern, 0⟩) (HasKey s.vault.cache) s.scan t.scan ∧
      ((t.found = s.found ∧ t.ended = true) ∨ ∃ e ∈ s.vault.cache,
        configKeyMatch ⟨type, pattern, 0⟩ e.key = true ∧ t.found = s.found ++ [e.key]) := by
  obtain ⟨vault, context, found, ended⟩ := s
  obtain ⟨horderly, hcontext⟩ := hs
  dsimp only at horderly hcontext
  unfold findStep at h
  dsimp only at h
  cases ended with
  | true => cases h
  | false =>
    have hcontext := hcontext rfl
    have hresult : (if found = [] then findFirst vault.cache ⟨type, pattern, 0⟩
        else findNext vault.cache ⟨type, pattern, 0⟩ context) =
        findNext vault.cache ⟨type, pattern, 0⟩ context := by
      split
      · rename_i hnil
        subst hnil
        have hnone : context = none := by simpa [ContextOf] using hcontext
        rw [hnone, findFirst]
      · rfl
    rw [if_neg (by simp), hresult] at h
    rcases findNext_spec horderly.sorted ⟨type, pattern, 0⟩ rfl hcontext with
      ⟨e, he, hmatch, hfound, hscan⟩ | ⟨hrc, hscan⟩
    · rw [hfound, if_pos rfl] at h
      cases h
      refine ⟨⟨horderly, fun _ => by simp [ContextOf]⟩, rfl, ?_, .inr ⟨e, he, hmatch, rfl⟩⟩
      simpa [Finding.scan, DataCacheEntry.folded] using hscan
    · rw [if_neg hrc] at h
      cases h
      exact ⟨⟨horderly, fun hended => by cases hended⟩, rfl, hscan, .inl ⟨rfl, rfl⟩⟩

theorem findStep_set {io : SetIo} {c : SetCall} (hs : s.Sane)
    (h : findStep env type pattern s (.set io c) = some t) :
    t.Sane ∧ t.scan = s.scan ∧ t.vault = (s.vault.setValue env io c).vault := by
  cases h
  exact ⟨⟨hs.orderly.setValue io c, hs.context⟩, rfl, rfl⟩

/-- A call adds its own key at most. -/
theorem hasKey_setValue {v : DataVault δ} (hv : Orderly v) {io : SetIo} {c : SetCall}
    {k : List UInt8} (h : HasKey (v.setValue env io c).vault.cache k) :
    HasKey v.cache k ∨ ∃ key, c.key = some key ∧ key.folded = k := by
  by_contra hnot
  rw [not_or] at hnot
  obtain ⟨hnew, hother⟩ := hnot
  obtain ⟨e, he, rfl⟩ := h
  have hnone : DataCache.getValue v.cache e.key = none :=
    (DataCache.getValue_eq_none_iff hv.sorted).mpr fun e' he' heq => hnew ⟨e', he', heq⟩
  have hne : ∀ key, c.key = some key → key.folded ≠ e.key.folded :=
    fun key hkey heq => hother ⟨key, hkey, heq⟩
  have hspares : (v.plan env io c).Spares v.cache e.key := by
    have hplanned := DataVault.plan_planned env io v c
    generalize v.plan env io c = p at hplanned
    cases hplanned with
    | stop _ => trivial
    | delete ha _ _ _ _ => exact hne _ ha
    | deleteMatching _ _ _ =>
      intro e' he'
      rw [hnone] at he'
      cases he'
    | update ha _ _ _ _ _ _ _ => exact hne _ ha
    | add ha _ _ _ _ _ _ => exact hne _ ha
  have hafter := setValue_getValue_none hv.sorted hnone hspares
  exact (DataCache.getValue_eq_none_iff (hv.setValue io c).sorted).mp hafter e he rfl

/-- **A run is an enumeration over the caches that its finds meet.** -/
theorem run_findStep_scans (hs : s.Sane) {actions : List FindAction}
    (hrun : run (findStep env type pattern) s actions = some t) :
    ∃ caches : List DataCache,
      Scans (FoldedMatch ⟨type, pattern, 0⟩) s.scan (caches.map HasKey) t.scan ∧
      caches.length = finds actions ∧
      (∀ k, EveryStep (findStep env type pattern) (fun u _ => HasKey u.vault.cache k) s actions →
        ∀ cache ∈ caches, HasKey cache k) ∧
      ∀ all : Set (List UInt8), (∀ k, HasKey s.vault.cache k → k ∈ all) →
        (∀ io c key, .set io c ∈ actions → c.key = some key → key.folded ∈ all) →
          ∀ cache ∈ caches, ∀ k, HasKey cache k → k ∈ all := by
  induction actions generalizing s with
  | nil =>
    obtain rfl : s = t := by simpa using hrun
    exact ⟨[], .nil _, rfl, by simp, by simp⟩
  | cons action actions ih =>
    obtain ⟨u, hstep, hrest⟩ := run_cons_eq_some hrun
    cases action with
    | set io c =>
      obtain ⟨hu, hscan, hvault⟩ := findStep_set hs hstep
      obtain ⟨caches, hscans, hlength, hthroughout, hall⟩ := ih hu hrest
      refine ⟨caches, hscan ▸ hscans, hlength, fun k hk => hthroughout k (hk.2 u hstep), ?_⟩
      intro all hstart hsets
      refine hall all (fun k hk => ?_) fun io' c' key hmem =>
        hsets io' c' key (List.mem_cons_of_mem _ hmem)
      rw [hvault] at hk
      rcases hasKey_setValue hs.orderly hk with hold | ⟨key, hkey, rfl⟩
      · exact hstart k hold
      · exact hsets io c key List.mem_cons_self hkey
    | find =>
      obtain ⟨hu, hvault, hscan, _⟩ := findStep_find hs hstep
      obtain ⟨caches, hscans, hlength, hthroughout, hall⟩ := ih hu hrest
      refine ⟨s.vault.cache :: caches, .cons hscan hscans, ?_, ?_, ?_⟩
      · simp only [List.length_cons, hlength, finds]
        exact (List.countP_cons_of_pos rfl).symm
      · exact fun k hk => List.forall_mem_cons.mpr ⟨hk.1, hthroughout k (hk.2 u hstep)⟩
      · intro all hstart hsets
        refine List.forall_mem_cons.mpr ⟨hstart, hall all (hvault ▸ hstart) ?_⟩
        exact fun io' c' key hmem => hsets io' c' key (List.mem_cons_of_mem _ hmem)

end Steps

/-! ## What an enumeration finds -/

/-- The keys of the calls are strings in memory: `strlen` of them is a `size_t`. -/
def InMemory (actions : List FindAction) : Prop :=
  ∀ io c key, .set io c ∈ actions → c.key = some key → key.size < 2 ^ 64

/-- There are finitely many strings of bytes in memory. -/
theorem finite_inMemory : {k : List UInt8 | k.length < 2 ^ 64}.Finite := by
  have : Finite UInt8 := Finite.of_injective UInt8.toFin fun _ _ => UInt8.toFin_inj.mp
  exact List.finite_length_lt UInt8 (2 ^ 64)

/-- The keys that an enumeration may come across: those of the vault, and those of calls. -/
def keysOf (v : DataVault δ) : Set (List UInt8) :=
  {k | HasKey v.cache k} ∪ {k | k.length < 2 ^ 64}

theorem finite_keysOf (v : DataVault δ) : (keysOf v).Finite := by
  refine Set.Finite.union ?_ finite_inMemory
  refine (List.finite_toSet (v.cache.map DataCacheEntry.folded)).subset ?_
  rintro k ⟨e, he, rfl⟩
  exact List.mem_map_of_mem he

/-- **Finding keys is exact and stable.**  Among any calls of `DataVault_SetValue`, an
enumeration of the keys that match a pattern hands them out in their order; each one matches and
is there at that moment; one that is there throughout is handed out exactly once; and after a
number of finds that does not depend on the calls it has ended. -/
theorem finding_exact [DecidableEq δ] {env : Env δ} {v : DataVault δ}
    (hv : Reachable (DataVault.setStep env) (Opened env) v) (type : UInt32) (pattern : CName) :
    (∀ actions s, run (findStep env type pattern) (.start v) actions = some s →
      (s.found.Pairwise fun a b => compare a.folded b.folded = .lt) ∧
      (∀ t, findStep env type pattern s .find = some t →
        (t.found = s.found ∧ t.ended = true) ∨ ∃ e ∈ s.vault.cache,
          configKeyMatch ⟨type, pattern, 0⟩ e.key = true ∧ t.found = s.found ++ [e.key]) ∧
      ∀ key, configKeyMatch ⟨type, pattern, 0⟩ key = true →
        EveryStep (findStep env type pattern) (fun u _ => HasKey u.vault.cache key.folded)
          (.start v) actions →
        s.ended = true → (s.found.map CName.folded).count key.folded = 1) ∧
    ∃ n, ∀ actions s, run (findStep env type pattern) (.start v) actions = some s →
      InMemory actions → n < finds actions → s.ended = true := by
  have horderly : Orderly v := by
    refine reachable_invariant (fun u hu => hu.sane.1) ?_ hv
    intro u a u' hstep hu
    obtain rfl := Option.some.inj hstep
    exact hu.setValue a.1 a.2
  have hstart : (Finding.start v).Sane := ⟨horderly, fun _ => rfl⟩
  have hsane (actions : List FindAction) (s : Finding δ)
      (hrun : run (findStep env type pattern) (.start v) actions = some s) : s.Sane := by
    refine run_invariant ?_ hrun hstart
    intro u action u' hstep hu
    cases action with
    | set io c => exact (findStep_set hu hstep).1
    | find => exact (findStep_find hu hstep).1
  refine ⟨fun actions s hrun => ?_, (keysOf v).ncard, fun actions s hrun hmem hmany => ?_⟩
  · obtain ⟨caches, hscans, _, hthroughout, _⟩ := run_findStep_scans hstart hrun
    refine ⟨?_, fun t ht => (findStep_find (hsane actions s hrun) ht).2.2.2, ?_⟩
    · exact List.pairwise_map.mp (hscans.ascending List.Pairwise.nil)
    · intro key hmatch hpresent hended
      refine hscans.count_eq_one hended ((configKeyMatch_iff _ key).mp hmatch) ?_
      intro present hin
      obtain ⟨cache, hcache, rfl⟩ := List.mem_map.mp hin
      exact hthroughout key.folded hpresent cache hcache
  · obtain ⟨caches, hscans, hlength, _, hall⟩ := run_findStep_scans hstart hrun
    refine hscans.ended_of_finite (finite_keysOf v) ?_ (by rwa [List.length_map, hlength])
    intro present hin k hk
    obtain ⟨cache, hcache, rfl⟩ := List.mem_map.mp hin
    refine hall (keysOf v) (fun k hk => .inl hk) (fun io c key hset hkey => .inr ?_) cache hcache
      k hk
    have hsize := hmem io c key hset hkey
    simp only [CName.size] at hsize
    simp only [Set.mem_ofPred_eq, CName.folded, List.length_map]
    omega

/-- A call that sets a key of one letter, or deletes it. -/
def setLetter (b : UInt8) (h : (0 : UInt8) ∉ [b]) (flags : UInt32) : SetIo × SetCall :=
  (.ok, ⟨some ⟨[b], h⟩, some (.ofBytes 7 1 [1]), flags⟩)

/-- The keys `y`, `h` and `k` are set. -/
def setThree : List (SetIo × SetCall) :=
  [setLetter 121 (by decide) 0, setLetter 104 (by decide) 0, setLetter 107 (by decide) 0]

/-- The key that was found first is deleted, and one before it is set. -/
def findAll : List FindAction :=
  let gone := setLetter 104 (by decide) ServiceConfig.delete
  let new := setLetter 97 (by decide) 0
  [.find, .set gone.1 gone.2, .find, .set new.1 new.2, .find, .find]

/-- Three keys are found in order, though the first is deleted, and `y` just once. -/
theorem finding_exact_threeKeys : ∃ v s,
    run (DataVault.setStep plainEnv) emptyVault setThree = some v ∧
      run (findStep plainEnv esifDataString ⟨[42], by decide⟩) (.start v) findAll = some s ∧
      s.found.map CName.bytes = [[104], [107], [121]] ∧ s.ended = true ∧
      (s.found.Pairwise fun a b => compare a.folded b.folded = .lt) ∧
      (s.found.map CName.folded).count (CName.folded ⟨[121], by decide⟩) = 1 := by
  obtain ⟨v, hv, s, hs, hfound, hended, hkept⟩ : ∃ v,
      run (DataVault.setStep plainEnv) emptyVault setThree = some v ∧ ∃ s,
        run (findStep plainEnv esifDataString ⟨[42], by decide⟩) (.start v) findAll = some s ∧
          s.found.map CName.bytes = [[104], [107], [121]] ∧ s.ended = true ∧
          EveryStep (findStep plainEnv esifDataString ⟨[42], by decide⟩)
            (fun u _ => HasKey u.vault.cache (CName.folded ⟨[121], by decide⟩)) (.start v)
            findAll := by
    refine ⟨_, rfl, _, rfl, by decide +kernel, by decide +kernel, ?_⟩
    have hkept : ∀ cache : DataCache, cache.any (fun e => e.folded = [121]) = true →
        HasKey cache (CName.folded ⟨[121], by decide⟩) := by
      intro cache h
      obtain ⟨e, he, hkey⟩ := List.any_eq_true.mp h
      exact ⟨e, he, of_decide_eq_true hkey⟩
    refine ⟨hkept _ (by decide +kernel), fun u hu => ?_⟩
    obtain rfl := Option.some.inj hu
    refine ⟨hkept _ (by decide +kernel), fun u hu => ?_⟩
    obtain rfl := Option.some.inj hu
    refine ⟨hkept _ (by decide +kernel), fun u hu => ?_⟩
    obtain rfl := Option.some.inj hu
    refine ⟨hkept _ (by decide +kernel), fun u hu => ?_⟩
    obtain rfl := Option.some.inj hu
    refine ⟨hkept _ (by decide +kernel), fun u hu => ?_⟩
    obtain rfl := Option.some.inj hu
    exact ⟨hkept _ (by decide +kernel), fun _ _ => trivial⟩
  obtain ⟨hruns, _⟩ :=
    finding_exact ⟨emptyVault, setThree, emptyVault_opened, hv⟩ esifDataString ⟨[42], by decide⟩
  obtain ⟨hascending, _, hthroughout⟩ := hruns findAll s hs
  exact ⟨v, s, hv, hs, hfound, hended, hascending, hthroughout _ (by decide +kernel) hkept hended⟩

end Vault

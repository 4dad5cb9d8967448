import Mathlib.Data.List.MinMax
import Dptf.Common.EsifData
import Dptf.Lib.Layout

/-!
# The event cache

`esif_uf_event_cache.c`.  For some event types the data of the last event is kept, to be
read without waiting for the next one.  An entry keeps its buffer when the new data fits,
and then it keeps the type and the length it had too.

* `GivesBack` — a read gives a payload back; `gives_back_last_iff` says when the last one
  is.
-/

open Lib

namespace Uf

variable {data entry : EsifData} {ps : List Payload}

/-- `EsifEventCacheEntry`. -/
structure EventCacheEntry where
  eventType : UInt32
  mustRegister : Bool
  data : EsifData
deriving DecidableEq, Repr

/-- The manager with `g_CachedEvents`. -/
structure EventCache where
  isStarted : Bool
  entries : List EventCacheEntry
deriving DecidableEq, Repr

/-- `EsifData` with all its fields zero. -/
def noEventData : EsifData := ⟨0, none, 0, 0⟩

/-- `g_CachedEvents`. -/
def cachedEvents : List EventCacheEntry :=
  [ ⟨44, true, noEventData⟩,    -- OS_POWER_SOURCE_CHANGED
    ⟨46, true, noEventData⟩,    -- OS_BATTERY_PERCENT_CHANGED
    ⟨48, true, noEventData⟩,    -- OS_DOCK_MODE_CHANGED
    ⟨109, true, noEventData⟩,   -- OS_GAME_MODE_CHANGED
    ⟨45, true, noEventData⟩,    -- OS_LID_STATE_CHANGED
    ⟨106, true, noEventData⟩,   -- OS_POWER_SLIDER_VALUE_CHANGED
    ⟨99, true, noEventData⟩,    -- OS_SCREEN_STATE_CHANGED
    ⟨29, true, noEventData⟩,    -- DTT_SYSTEM_COOLING_POLICY_CHANGED
    ⟨47, true, noEventData⟩,    -- OS_PLATFORM_TYPE_CHANGED
    ⟨72, true, noEventData⟩,    -- OS_POWERSCHEME_PERSONALITY_CHANGED
    ⟨97, true, noEventData⟩,    -- OS_MIXED_REALITY_MODE_CHANGED
    ⟨158, true, noEventData⟩,   -- FOREGROUND_BACKGROUND_RATIO_CHANGED
    ⟨174, true, noEventData⟩,   -- COLLABORATION_CHANGED
    ⟨100, false, noEventData⟩,  -- OS_USER_PRESENCE_CHANGED
    ⟨27, false, noEventData⟩,   -- DEVICE_ORIENTATION_CHANGED
    ⟨28, false, noEventData⟩,   -- MOTION_CHANGED
    ⟨26, false, noEventData⟩,   -- DISPLAY_ORIENTATION_CHANGED
    ⟨156, false, noEventData⟩,  -- OS_USER_INTERACTION_CHANGED
    ⟨122, false, noEventData⟩ ] -- PLATFORM_USER_PRESENCE_CHANGED

/-- `UpdateData_Locked` on the data of an entry; `malloc` may fail. -/
def updateData (entry data : EsifData) (allocated : Bool) : EsifError × EsifData :=
  let copied := (data.bufPtr.getD []).take data.dataLen.toNat
  if entry.bufPtr = none ∨ entry.bufLen < data.dataLen then
    if data.dataLen = 0 then (esifEParameterIsOutOfBounds, entry)
    else if allocated then
      (esifOk,
        { type := data.type
          bufPtr := some (overwrite (List.replicate data.dataLen.toNat 0) 0 copied)
          bufLen := data.dataLen
          dataLen := data.dataLen })
    else (esifENoMemory, { entry with bufPtr := none })
  else (esifOk, { entry with bufPtr := entry.bufPtr.map fun old => overwrite old 0 copied })

namespace EventCache

/-- After `EsifEventCache_Start`. -/
def started : EventCache := ⟨true, cachedEvents⟩

/-- The first entry of the event type is updated. -/
def updateFirst (eventType : UInt32) (data : EsifData) (allocated : Bool) :
    List EventCacheEntry → List EventCacheEntry
  | [] => []
  | entry :: entries =>
    if entry.eventType = eventType then
      { entry with data := (updateData entry.data data allocated).2 } :: entries
    else entry :: updateFirst eventType data allocated entries

/-- `EsifEventCache_EventCallback`.  What the update comes to is not looked at. -/
def eventCallback (s : EventCache) (fpcEvent : Option UInt32) (eventData : Option EsifData)
    (allocated : Bool) : EsifError × EventCache :=
  match fpcEvent, eventData with
  | some eventType, some data =>
    (esifOk, { s with entries := updateFirst eventType data allocated s.entries })
  | _, _ => (esifEParameterIsNull, s)

/-- The entry of an event type. -/
def entryOf (s : EventCache) (eventType : UInt32) : Option EventCacheEntry :=
  s.entries.find? fun entry => entry.eventType = eventType

/-- `EsifEventCache_IsEventCacheable`. -/
def isEventCacheable (s : EventCache) (eventType : UInt32) : Bool := (s.entryOf eventType).isSome

/-- `EsifEventCache_GetValue` into the buffer of the caller. -/
def getValue (s : EventCache) (eventType : UInt32) (dataPtr : Option EsifData) :
    EsifError × Option EsifData :=
  if s.isStarted then
    match dataPtr with
    | none => (esifEParameterIsNull, none)
    | some out =>
      match s.entryOf eventType with
      | none => (esifENotFound, some out)
      | some entry =>
        match entry.data.bufPtr with
        | none => (esifENotFound, some out)
        | some bytes =>
          if entry.data.dataLen ≤ out.bufLen then
            (esifOk,
              some
                { out with
                  bufPtr := out.bufPtr.map fun dst =>
                    overwrite dst 0 (bytes.take entry.data.dataLen.toNat)
                  dataLen := entry.data.dataLen })
          else (esifENeedLargerBuffer, some { out with dataLen := entry.data.dataLen })
  else (esifENotSupported, dataPtr)

/-- `EsifEventCache_GetValueClone`; the buffer is a new one. -/
def getValueClone (s : EventCache) (eventType : UInt32) (dataPtr : Option EsifData)
    (allocated : Bool) : EsifError × Option EsifData :=
  if s.isStarted then
    match dataPtr with
    | none => (esifEParameterIsNull, none)
    | some out =>
      match s.entryOf eventType with
      | none => (esifENotFound, some out)
      | some entry =>
        match entry.data.bufPtr with
        | none => (esifENotFound, some out)
        | some bytes =>
          if allocated then
            (esifOk,
              some
                { type := entry.data.type
                  bufPtr :=
                    some
                      (overwrite (List.replicate entry.data.dataLen.toNat 0) 0
                        (bytes.take entry.data.dataLen.toNat))
                  bufLen := entry.data.dataLen
                  dataLen := entry.data.dataLen })
          else (esifENoMemory, some { out with bufPtr := none })
  else (esifENotSupported, dataPtr)

end EventCache

/-! ## What is delivered -/

/-- The data of an event: its type and its bytes. -/
structure Payload where
  type : UInt32
  bytes : List UInt8
deriving DecidableEq, Repr

/-- The payload of a typed buffer. -/
def payload (data : EsifData) : Payload :=
  ⟨data.type, (data.bufPtr.getD []).take data.dataLen.toNat⟩

/-- An event that is delivered; the data may be the null pointer. -/
structure EventDelivery where
  eventType : UInt32
  data : Option EsifData
deriving DecidableEq, Repr

/-- The data fits in the buffer it comes in, and the buffer is there. -/
def EventDelivery.WellFormed (d : EventDelivery) : Prop :=
  ∀ data, d.data = some data → data.dataLen ≤ data.bufLen ∧
    (data.dataLen ≠ 0 → ∃ bytes, data.bufPtr = some bytes ∧ bytes.length = data.bufLen.toNat)

/-- What it brings for an event type. -/
def EventDelivery.payloadFor (d : EventDelivery) (eventType : UInt32) : Option Payload :=
  if d.eventType = eventType then
    d.data.bind fun data => if data.dataLen = 0 then none else some (payload data)
  else none

/-- The payloads delivered for an event type. -/
def payloads (eventType : UInt32) (ds : List EventDelivery) : List Payload :=
  ds.filterMap fun d => d.payloadFor eventType

/-- The cache after a sequence of events, with all allocations succeeding. -/
def after (ds : List EventDelivery) : EventCache :=
  ds.foldl (fun s d => (s.eventCallback (some d.eventType) d.data true).2) EventCache.started

/-- A read of the event type gives the payload back. -/
structure GivesBack (s : EventCache) (eventType : UInt32) (p : Payload) : Prop where
  clone : ∀ out, ∃ copy, s.getValueClone eventType (some out) true = (esifOk, some copy) ∧
    copy.type = p.type ∧ copy.dataLen.toNat = p.bytes.length ∧ copy.bufPtr = some p.bytes
  value : ∀ out dst, out.bufPtr = some dst → dst.length = out.bufLen.toNat →
    p.bytes.length ≤ out.bufLen.toNat →
      ∃ filled, s.getValue eventType (some out) = (esifOk, some filled) ∧
        filled.dataLen.toNat = p.bytes.length ∧ filled.bufPtr = some (overwrite dst 0 p.bytes)
  needLarger : ∀ out, (s.getValue eventType (some out)).1 = esifENeedLargerBuffer ↔
    out.bufLen.toNat < p.bytes.length

/-! ## What an entry holds -/

/-- The length of a payload. -/
def Payload.length (p : Payload) : Nat := p.bytes.length

/-- The first of the longest payloads. -/
def firstLongest (ps : List Payload) : Option Payload := ps.argmax Payload.length

/-- The entry has the type and the length of the first longest payload and starts with the
last one. -/
structure Holds (ps : List Payload) (entry : EsifData) : Prop where
  empty : ps = [] → entry.bufPtr = none
  buffer : ∀ p r, ps.getLast? = some p → firstLongest ps = some r →
    entry.type = r.type ∧ entry.dataLen.toNat = r.length ∧ entry.bufLen = entry.dataLen ∧
      ∃ buf, entry.bufPtr = some buf ∧ buf.length = r.length ∧ buf.take p.length = p.bytes

theorem firstLongest_concat (ps : List Payload) (p : Payload) :
    firstLongest (ps ++ [p]) = match firstLongest ps with
      | none => some p
      | some r => if r.length < p.length then some p else some r := by
  rw [firstLongest, List.argmax_concat, ← firstLongest]
  cases firstLongest ps <;> rfl

theorem firstLongest_eq_none : firstLongest ps = none ↔ ps = [] :=
  List.argmax_eq_none

theorem length_payload {d : EventDelivery} (h : d.WellFormed) (hdata : d.data = some data) :
    (payload data).length = data.dataLen.toNat := by
  obtain ⟨hle, hbuf⟩ := h data hdata
  by_cases hzero : data.dataLen = 0
  · simp [Payload.length, payload, hzero]
  · obtain ⟨bytes, hbytes, hlen⟩ := hbuf hzero
    have := UInt32.le_iff_toNat_le.mp hle
    simp only [Payload.length, payload, hbytes, Option.getD_some, List.length_take]
    omega

/-- Data of no length changes nothing. -/
theorem updateData_zero (hzero : data.dataLen = 0) (allocated : Bool) :
    (updateData entry data allocated).2 = entry := by
  have hcopied : (data.bufPtr.getD []).take data.dataLen.toNat = [] := by simp [hzero]
  have hsame : (fun old : List UInt8 => overwrite old 0 []) = id := by
    funext old
    simp [overwrite]
  unfold updateData
  simp only [hcopied, hsame, Option.map_id, id_eq]
  split
  · rfl
  · rfl

/-- Data longer than the buffer gets a new one. -/
theorem updateData_replaced (hpos : data.dataLen ≠ 0)
    (hnew : entry.bufPtr = none ∨ entry.bufLen < data.dataLen) : (updateData entry data true).2 =
      { type := data.type
        bufPtr :=
          some (overwrite (List.replicate data.dataLen.toNat 0) 0 (payload data).bytes)
        bufLen := data.dataLen
        dataLen := data.dataLen } := by
  unfold updateData
  rw [if_pos hnew, if_neg hpos, if_pos rfl]
  rfl

/-- Data that fits is copied over the old one, and that is all. -/
theorem updateData_kept {old : List UInt8} (hbuf : entry.bufPtr = some old)
    (hfits : data.dataLen ≤ entry.bufLen) (allocated : Bool) : (updateData entry data allocated).2 =
      { entry with bufPtr := some (overwrite old 0 (payload data).bytes) } := by
  have hold : ¬(entry.bufPtr = none ∨ entry.bufLen < data.dataLen) := by
    rintro (hnone | hlt)
    · rw [hbuf] at hnone
      cases hnone
    · exact UInt32.not_lt.mpr hfits hlt
  unfold updateData
  rw [if_neg hold, hbuf]
  rfl

theorem take_overwrite_zero (m bs : List UInt8) : (overwrite m 0 bs).take bs.length = bs := by
  simp [overwrite]

/-- An update keeps the entry in step with the payloads. -/
theorem Holds.updateData (h : Holds ps entry) (hpos : data.dataLen ≠ 0)
    (hlen : (payload data).length = data.dataLen.toNat) :
    Holds (ps ++ [payload data]) (updateData entry data true).2 := by
  refine ⟨fun hnil => absurd hnil (by simp), fun p r hlast hfirst => ?_⟩
  obtain rfl : payload data = p := by simpa using hlast
  rw [firstLongest_concat] at hfirst
  have hbytes : (payload data).bytes.length = data.dataLen.toNat := hlen
  cases hold : firstLongest ps with
  | none =>
    obtain rfl : payload data = r := by simpa [hold] using hfirst
    have hnone := h.empty (firstLongest_eq_none.mp hold)
    rw [updateData_replaced hpos (.inl hnone)]
    refine ⟨rfl, hlen.symm, rfl, _, rfl, ?_, take_overwrite_zero _ _⟩
    rw [length_overwrite (by simp [hbytes]), List.length_replicate, hlen]
  | some r₀ =>
    rw [hold] at hfirst
    obtain ⟨q, hq⟩ : ∃ q, ps.getLast? = some q := by
      cases hlast : ps.getLast? with
      | none => simp [List.getLast?_eq_none_iff.mp hlast, firstLongest] at hold
      | some q => exact ⟨q, rfl⟩
    obtain ⟨htype, hdata, hcap, old, hbuf, holdlen, -⟩ := h.buffer q r₀ hq hold
    have hcap' : entry.bufLen.toNat = r₀.length := hcap ▸ hdata
    simp only at hfirst
    split at hfirst
    · next hlonger =>
      cases hfirst
      have hnew : entry.bufLen < data.dataLen := by
        rw [UInt32.lt_iff_toNat_lt]
        omega
      rw [updateData_replaced hpos (.inr hnew)]
      refine ⟨rfl, hlen.symm, rfl, _, rfl, ?_, take_overwrite_zero _ _⟩
      rw [length_overwrite (by simp [hbytes]), List.length_replicate, hlen]
    · next hfits =>
      cases hfirst
      have hle : data.dataLen ≤ entry.bufLen := by
        rw [UInt32.le_iff_toNat_le]
        omega
      rw [updateData_kept hbuf hle]
      refine ⟨htype, hdata, hcap, _, rfl, ?_, take_overwrite_zero _ _⟩
      rw [length_overwrite (by omega), holdlen]

namespace EventCache

/-- An update is one of the first entry of the type alone. -/
theorem find_updateFirst (t t' : UInt32) (data : EsifData) (entries : List EventCacheEntry) :
    (updateFirst t data true entries).find? (fun entry => entry.eventType = t') =
      (entries.find? fun entry => entry.eventType = t').map fun entry =>
        if t = t' then { entry with data := (Uf.updateData entry.data data true).2 } else entry := by
  induction entries with
  | nil => rfl
  | cons entry entries ih =>
    unfold updateFirst
    by_cases htype : entry.eventType = t
    · rw [if_pos htype]
      by_cases ht : t = t'
      · simp [htype, ht]
      · have hne : entry.eventType ≠ t' := fun heq => ht (htype ▸ heq)
        simp [hne, ht]
    · rw [if_neg htype]
      by_cases ht : entry.eventType = t'
      · have hne : t ≠ t' := fun heq => htype (ht.trans heq.symm)
        simp [ht, hne]
      · simp only [List.find?_cons, ht, decide_false, ih]

/-- What an event does to the entry of a type. -/
theorem entryOf_eventCallback (s : EventCache) (d : EventDelivery) (t : UInt32) :
    ((s.eventCallback (some d.eventType) d.data true).2).entryOf t = (s.entryOf t).map fun entry =>
        match d.data with
        | some data =>
          if d.eventType = t then { entry with data := (Uf.updateData entry.data data true).2 }
          else entry
        | none => entry := by
  cases hdata : d.data with
  | none => simp [eventCallback]
  | some data => exact find_updateFirst d.eventType t data s.entries

end EventCache

theorem payloads_concat (t : UInt32) (ds : List EventDelivery) (d : EventDelivery) :
    payloads t (ds ++ [d]) = payloads t ds ++ (d.payloadFor t).toList := by
  rw [payloads, List.filterMap_append, ← payloads]
  cases h : d.payloadFor t <;> simp [h]

theorem after_concat (ds : List EventDelivery) (d : EventDelivery) :
    after (ds ++ [d]) = ((after ds).eventCallback (some d.eventType) d.data true).2 := by
  rw [after, List.foldl_append]
  rfl

/-- An event keeps the entry of a type in step. -/
theorem Holds.deliver {entry : EventCacheEntry} {d : EventDelivery} {t : UInt32}
    (h : Holds ps entry.data) (hd : d.WellFormed) :
    Holds (ps ++ (d.payloadFor t).toList)
      (match d.data with
        | some data =>
          if d.eventType = t then { entry with data := (Uf.updateData entry.data data true).2 }
          else entry
        | none => entry).data := by
  unfold EventDelivery.payloadFor
  cases hdata : d.data with
  | none => simpa using h
  | some data =>
    by_cases ht : d.eventType = t
    · by_cases hzero : data.dataLen = 0
      · simpa [ht, hzero, updateData_zero hzero] using h
      · simpa [ht, hzero] using h.updateData hzero (length_payload hd hdata)
    · simpa [ht] using h

/-- After every sequence of events the entries hold what was delivered. -/
theorem holds_after {ds : List EventDelivery} (hds : ∀ d ∈ ds, d.WellFormed) (t : UInt32)
    (ht : EventCache.started.isEventCacheable t = true) :
    ∃ entry, (after ds).entryOf t = some entry ∧ Holds (payloads t ds) entry.data := by
  induction ds using List.reverseRecOn with
  | nil =>
    have hempty : ∀ entry ∈ cachedEvents, entry.data = noEventData := by decide
    obtain ⟨entry, hentry⟩ := Option.isSome_iff_exists.mp ht
    refine ⟨entry, hentry, ⟨fun _ => ?_, fun p r hlast => absurd hlast (by simp [payloads])⟩⟩
    rw [hempty entry (List.mem_of_find?_eq_some hentry)]
    rfl
  | append_singleton ds d ih =>
    obtain ⟨entry, hentry, hholds⟩ := ih fun d hd => hds d (List.mem_append_left _ hd)
    rw [after_concat, EventCache.entryOf_eventCallback, hentry, payloads_concat]
    exact ⟨_, rfl, hholds.deliver (hds d (by simp))⟩

/-! ## What is read -/

theorem isStarted_after (ds : List EventDelivery) : (after ds).isStarted = true := by
  induction ds using List.reverseRecOn with
  | nil => rfl
  | append_singleton ds d ih =>
    rw [after_concat]
    cases hdata : d.data <;> exact ih

/-- A read gives back what an entry holds as its type, its length and its bytes. -/
theorem givesBack_iff {s : EventCache} {t : UInt32} {entry : EventCacheEntry} {bytes : List UInt8}
    (hstart : s.isStarted = true) (hentry : s.entryOf t = some entry)
    (hbuf : entry.data.bufPtr = some bytes) (hlen : bytes.length = entry.data.dataLen.toNat)
    {p : Payload} (hcopied : bytes.take p.length = p.bytes) :
    GivesBack s t p ↔ p.type = entry.data.type ∧ p.length = bytes.length := by
  have hclone : ∀ out, s.getValueClone t (some out) true = (esifOk,
      some ⟨entry.data.type, some bytes, entry.data.dataLen, entry.data.dataLen⟩) := fun out => by
    simp [EventCache.getValueClone, hstart, hentry, hbuf, ← hlen, overwrite]
  constructor
  · intro h
    obtain ⟨copy, hcopy, htype, hdataLen, -⟩ := h.clone noEventData
    rw [hclone] at hcopy
    obtain rfl := Option.some.inj (Prod.mk.inj hcopy).2
    exact ⟨htype.symm, hdataLen.symm.trans hlen.symm⟩
  · rintro ⟨htype, hplen⟩
    have hbytes : bytes = p.bytes := by rw [← hcopied, hplen, List.take_length]
    have hdataLen : entry.data.dataLen.toNat = p.bytes.length := by rw [← hlen, hbytes]
    refine ⟨fun out => ⟨_, hclone out, htype.symm, hdataLen, congrArg some hbytes⟩,
      fun out dst hdst _ hroom => ?_, fun out => ?_⟩
    · have hfits : entry.data.dataLen ≤ out.bufLen := by
        rw [UInt32.le_iff_toNat_le]
        omega
      refine ⟨{ out with bufPtr := some (overwrite dst 0 p.bytes), dataLen := entry.data.dataLen },
        ?_, hdataLen, rfl⟩
      simp [EventCache.getValue, hstart, hentry, hbuf, hfits, hdst, ← hlen, hbytes]
    · have hle := UInt32.le_iff_toNat_le (a := entry.data.dataLen) (b := out.bufLen)
      unfold EventCache.getValue
      simp only [hstart, if_true, hentry, hbuf]
      split
      · next hfits =>
        have hroom := hle.mp hfits
        constructor
        · intro hrc
          cases hrc
        · intro hless
          omega
      · next hless =>
        have hroom : ¬entry.data.dataLen.toNat ≤ out.bufLen.toNat := fun h => hless (hle.mpr h)
        exact ⟨fun _ => by omega, fun _ => rfl⟩

theorem exists_firstLongest {p : Payload} (h : ps.getLast? = some p) :
    ∃ r, firstLongest ps = some r := by
  cases hfirst : firstLongest ps with
  | none =>
    rw [firstLongest_eq_none.mp hfirst] at h
    cases h
  | some r => exact ⟨r, rfl⟩

/-- What was delivered last is given back if it is as long as the first of the longest
payloads and of its type. -/
theorem givesBack_last_iff {ds : List EventDelivery} (hds : ∀ d ∈ ds, d.WellFormed) {t : UInt32}
    (ht : EventCache.started.isEventCacheable t = true) {p r : Payload}
    (hlast : (payloads t ds).getLast? = some p) (hfirst : firstLongest (payloads t ds) = some r) :
    GivesBack (after ds) t p ↔ p.type = r.type ∧ p.length = r.length := by
  obtain ⟨entry, hentry, hholds⟩ := holds_after hds t ht
  obtain ⟨htype, hlen, -, buf, hbuf, hbuflen, hcopied⟩ := hholds.buffer p r hlast hfirst
  rw [givesBack_iff (isStarted_after ds) hentry hbuf (hbuflen.trans hlen.symm) hcopied, htype,
    hbuflen]

/-- **The cache returns the last event just when it is as long as the first of the longest
ones and of its type**, for every event type that is cached. -/
theorem gives_back_last_iff {ds : List EventDelivery} (hds : ∀ d ∈ ds, d.WellFormed) :
    (∀ t p, EventCache.started.isEventCacheable t = true →
        (payloads t ds).getLast? = some p → GivesBack (after ds) t p) ↔
      ∀ t p r, EventCache.started.isEventCacheable t = true →
        (payloads t ds).getLast? = some p → firstLongest (payloads t ds) = some r →
          p.type = r.type ∧ p.length = r.length := by
  constructor
  · intro h t p r ht hlast hfirst
    exact (givesBack_last_iff hds ht hlast hfirst).mp (h t p ht hlast)
  · intro h t p ht hlast
    obtain ⟨r, hfirst⟩ := exists_firstLongest hlast
    exact (givesBack_last_iff hds ht hlast hfirst).mpr (h t p r ht hlast hfirst)

/-- A string of four bytes and then one of two, of the power source. -/
def shrinkingEvents : List EventDelivery :=
  [⟨44, some ⟨8, some [97, 98, 99, 0], 4, 4⟩⟩, ⟨44, some ⟨8, some [100, 0], 2, 2⟩⟩]

theorem wellFormed_shrinkingEvents : ∀ d ∈ shrinkingEvents, d.WellFormed := by
  simp [shrinkingEvents, EventDelivery.WellFormed]

theorem not_gives_back_last :
    ¬∀ ds : List EventDelivery, (∀ d ∈ ds, d.WellFormed) →
      ∀ t p, EventCache.started.isEventCacheable t = true →
        (payloads t ds).getLast? = some p → GivesBack (after ds) t p := by
  intro h
  have hback := h shrinkingEvents wellFormed_shrinkingEvents 44 ⟨8, [100, 0]⟩ (by decide)
    (by decide)
  obtain ⟨copy, hcopy, -, hlen, -⟩ := hback.clone noEventData
  have hread : (after shrinkingEvents).getValueClone 44 (some noEventData) true =
      (esifOk, some ⟨8, some [100, 0, 99, 0], 4, 4⟩) := by decide
  rw [hread] at hcopy
  obtain rfl := Option.some.inj (Prod.mk.inj hcopy).2
  exact absurd hlen (by decide)

theorem gives_back_last_iff_shrinkingEvents :
    (∀ d ∈ shrinkingEvents, d.WellFormed) ∧
      ¬∀ t p, EventCache.started.isEventCacheable t = true →
        (payloads t shrinkingEvents).getLast? = some p → GivesBack (after shrinkingEvents) t p := by
  refine ⟨wellFormed_shrinkingEvents, fun h => ?_⟩
  have hlens := (gives_back_last_iff wellFormed_shrinkingEvents).mp h 44 ⟨8, [100, 0]⟩
    ⟨8, [97, 98, 99, 0]⟩ (by decide) (by decide) (by decide)
  exact absurd hlens (by decide)

end Uf

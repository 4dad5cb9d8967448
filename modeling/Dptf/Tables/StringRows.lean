import Dptf.Tables.Variant
import Mathlib.Algebra.Order.BigOperators.Group.List

/-!
# Rows with two embedded strings

The thermal and the active relationship table have rows of one shape: two variants with their
strings behind them, and variants for numbers.  The rows are counted in one walk, which checks
the lengths, and read in a second one, which does not.
-/

open Lib Lib.Parse

namespace Tables

/-- A row of a table: `sizeof` is that of two variants and one for each number. -/
structure RowLayout where
  /-- The numbers behind the strings. -/
  numbers : Nat
  /-- How many of them are read. -/
  used : Nat
  used_le : used ≤ numbers
  /-- What `throwIfOutOfRange` says. -/
  message : String

/-- What is read of a row. -/
structure Row where
  source : Scope
  target : Scope
  numbers : List UInt64
deriving DecidableEq

section Walks

variable (layout : RowLayout)

/-- `sizeof` the package. -/
def RowLayout.rowSize : Nat := variantSize * (layout.numbers + 2)

/-- `throwIfOutOfRange`. -/
def throwIfOutOfRange (bytesRemaining : Int) : Parse Unit :=
  if bytesRemaining < 0 then throw layout.message else pure ()

/-- The loop of `countTrtRows` and `countArtRows`: `data` is the position of the row.  None of
the subtractions leaves the range of an `IntN`, since each one is checked before the next. -/
def countRows (m : List UInt8) (bytesRemaining : Int) (data : Nat) : Parse Nat :=
  if 0 < bytesRemaining then do
    let behindRow := bytesRemaining - layout.rowSize
    throwIfOutOfRange layout behindRow
    let sourceLength ← checked (readU32 m (data + 4))
    throwIfOutOfRange layout (asIntN sourceLength)
    let behindSource := behindRow - sourceLength.toNat
    throwIfOutOfRange layout behindSource
    let targetLength ← checked (readU32 m (data + sourceLength.toNat + 16))
    throwIfOutOfRange layout (asIntN targetLength)
    let behindTarget := behindSource - targetLength.toNat
    throwIfOutOfRange layout behindTarget
    let rows ← countRows m behindTarget
      (data + sourceLength.toNat + targetLength.toNat + layout.rowSize)
    pure (rows + 1)
  else pure 0
termination_by bytesRemaining.toNat
decreasing_by
  simp only [RowLayout.rowSize, variantSize]
  omega

/-- The variants of `n` numbers. -/
def readNumbers (m : List UInt8) : Nat → Nat → Parse (List UInt64)
  | 0, _ => pure []
  | n + 1, data => do
    let value ← checked (readU64 m (data + 4))
    let values ← readNumbers m n (data + variantSize)
    pure (value :: values)

/-- The body of the second walk: the row, and where the next one starts. -/
def readRow (m : List UInt8) (data : Nat) : Parse (Row × Nat) := do
  let sourceLength ← checked (readU32 m (data + 4))
  let source ← checked (readAt m (data + variantSize) sourceLength.toNat)
  let atTarget := data + sourceLength.toNat
  let targetLength ← checked (readU32 m (atTarget + 16))
  let target ← checked (readAt m (atTarget + 2 * variantSize) targetLength.toNat)
  let atNumbers := atTarget + targetLength.toNat
  let numbers ← readNumbers m layout.used (atNumbers + 2 * variantSize)
  pure (⟨source, target, numbers⟩, atNumbers + layout.rowSize)

/-- The second walk: the rows, and the pointer behind the last one. -/
def readRows (m : List UInt8) : Nat → Nat → Parse (List Row × Nat)
  | 0, data => pure ([], data)
  | n + 1, data => do
    let (row, next) ← readRow layout m data
    let (rows, stop) ← readRows m n next
    pure (row :: rows, stop)

/-- The bytes a row takes. -/
def Row.size (row : Row) : Nat := layout.rowSize + row.source.length + row.target.length

end Walks

/-! ## What is counted can be read -/

section Safety

variable {layout : RowLayout} {m : List UInt8}

theorem safe_throwIfOutOfRange (n : Int) : Safe (throwIfOutOfRange layout n) fun _ => 0 ≤ n :=
  safe_guard fun h => safe_pure (not_lt.mp h)

theorem safe_readNumbers (n : Nat) {data : Nat} (h : data + variantSize * n ≤ m.length) :
    Safe (readNumbers m n data) fun _ => True := by
  induction n generalizing data with
  | zero => exact safe_pure trivial
  | succ n ih =>
    have hread : data + 4 + 8 ≤ m.length := by
      rw [Nat.mul_succ, variantSize] at h
      omega
    rw [Nat.mul_succ] at h
    refine (safe_checked ((isSome_readU64 m _).mpr hread)).bind fun value _ => ?_
    exact (ih (by omega)).bind fun values _ => safe_pure trivial

/-- What the checks of one round have made sure of. -/
structure RowFits (layout : RowLayout) (m : List UInt8) (data sourceLength targetLength : Nat) :
    Prop where
  source_eq : readU32 m (data + 4) = some (UInt32.ofNat sourceLength)
  target_eq : readU32 m (data + sourceLength + 16) = some (UInt32.ofNat targetLength)
  source_lt : sourceLength < 2 ^ 32
  target_lt : targetLength < 2 ^ 32
  le : data + sourceLength + targetLength + layout.rowSize ≤ m.length

/-- A row that fits is read. -/
theorem RowFits.safe_readRow {data s t : Nat} (h : RowFits layout m data s t) :
    Safe (readRow layout m data) fun r =>
      r.2 = data + s + t + layout.rowSize ∧ r.1.size layout = layout.rowSize + s + t := by
  have hle := h.le
  have hused := layout.used_le
  have hrow : layout.rowSize = 12 * (layout.numbers + 2) := rfl
  have hvariant : variantSize = 12 := rfl
  have hs : (UInt32.ofNat s).toNat = s := UInt32.toNat_ofNat_of_lt' h.source_lt
  have ht : (UInt32.ofNat t).toNat = t := UInt32.toNat_ofNat_of_lt' h.target_lt
  have hsource : readAt m (data + variantSize) s = some (peekAt m (data + variantSize) s) :=
    if_pos (Or.inr (by omega))
  have htarget : readAt m (data + s + 2 * variantSize) t =
      some (peekAt m (data + s + 2 * variantSize) t) := if_pos (Or.inr (by omega))
  have hsourceLength : (peekAt m (data + variantSize) s).length = s := by
    rw [peekAt, List.length_take, List.length_drop]
    omega
  have htargetLength : (peekAt m (data + s + 2 * variantSize) t).length = t := by
    rw [peekAt, List.length_take, List.length_drop]
    omega
  unfold readRow
  refine safe_checked_bind h.source_eq ?_
  simp only [hs]
  refine safe_checked_bind hsource (safe_checked_bind h.target_eq ?_)
  simp only [ht]
  refine safe_checked_bind htarget ?_
  have hnumbers : data + s + t + 2 * variantSize + variantSize * layout.used ≤ m.length := by
    rw [variantSize]
    omega
  refine (safe_readNumbers layout.used hnumbers).bind fun numbers _ => safe_pure ?_
  exact ⟨rfl, by simp only [Row.size, hsourceLength, htargetLength]⟩

/-- **What the first walk counts, the second one reads**: both stay inside the buffer, and the
second one ends where the first one did. -/
theorem safe_countRows {bytesRemaining : Int} {data stop : Nat} (hstop : stop ≤ m.length)
    (h : data + bytesRemaining = stop) (hnn : 0 ≤ bytesRemaining) :
    Safe (countRows layout m bytesRemaining data) fun rows =>
      Safe (readRows layout m rows data) fun r =>
        r.2 = stop ∧ data + (r.1.map (Row.size layout)).sum = stop := by
  induction hn : bytesRemaining.toNat using Nat.strong_induction_on
    generalizing bytesRemaining data with
  | h n ih =>
  subst hn
  rw [countRows]
  refine safe_ite (fun hpos => ?_) (fun hzero => ?_)
  · have hrow : layout.rowSize = 12 * (layout.numbers + 2) := rfl
    refine (safe_throwIfOutOfRange _).bind fun _ hbehindRow => ?_
    have hread := (isSome_readU32 m (data + 4)).mpr (by omega)
    refine (safe_checked hread).bind fun sourceLength hsource => ?_
    refine (safe_throwIfOutOfRange _).bind fun _ _ => ?_
    refine (safe_throwIfOutOfRange _).bind fun _ hbehindSource => ?_
    have hread' := (isSome_readU32 m (data + sourceLength.toNat + 16)).mpr (by omega)
    refine (safe_checked hread').bind fun targetLength htarget => ?_
    refine (safe_throwIfOutOfRange _).bind fun _ _ => ?_
    refine (safe_throwIfOutOfRange _).bind fun _ hbehindTarget => ?_
    have hfits : RowFits layout m data sourceLength.toNat targetLength.toNat :=
      ⟨by rw [hsource, UInt32.ofNat_toNat], by rw [htarget, UInt32.ofNat_toNat],
        sourceLength.toNat_lt, targetLength.toNat_lt, by omega⟩
    have hnext : ((data + sourceLength.toNat + targetLength.toNat + layout.rowSize : Nat) : Int) +
        (bytesRemaining - layout.rowSize - sourceLength.toNat - targetLength.toNat) = stop := by
      omega
    refine (ih _ (by omega) hnext hbehindTarget rfl).bind fun rows hrows => safe_pure ?_
    -- the second walk goes over this row and on from there
    refine hfits.safe_readRow.bind ?_
    rintro ⟨row, next⟩ ⟨rfl, hsize⟩
    refine hrows.bind ?_
    rintro ⟨more, last⟩ ⟨hlast, hsum⟩
    refine safe_pure ⟨hlast, ?_⟩
    simp only [List.map_cons, List.sum_cons] at hsize hsum ⊢
    omega
  · refine safe_pure (safe_pure ⟨by omega, ?_⟩)
    simp only [List.map_nil, List.sum_nil]
    omega

end Safety

/-! ## Reading what was written -/

section Written

variable (layout : RowLayout)
variable {n data : Nat} {rows : List Row}

/-- A row as it is written; the reserved words of its strings are whatever they were. -/
def Row.bytes (reserved : UInt32) (row : Row) : List UInt8 :=
  pack (stringVariant (UInt32.ofNat row.source.length) reserved) ++ row.source ++
    pack (stringVariant (UInt32.ofNat row.target.length) reserved) ++ row.target ++
    row.numbers.flatMap fun v => pack (numberVariant v)

/-- A row the walks can read back. -/
structure Row.Writable (row : Row) : Prop where
  numbers_eq : row.numbers.length = layout.numbers
  source_lt : row.source.length < 2 ^ 31
  target_lt : row.target.length < 2 ^ 31

theorem toNat_ofNat_of_lt (h : n < 2 ^ 31) : (UInt32.ofNat n).toNat = n := by
  rw [UInt32.toNat_ofNat', Nat.mod_eq_of_lt (by omega)]

variable {layout} {m : List UInt8} {row : Row} {reserved : UInt32}

/-- The numbers that are read of a row. -/
def Row.read (layout : RowLayout) (row : Row) : Row :=
  { row with numbers := row.numbers.take layout.used }

theorem length_numbers (values : List UInt64) :
    (values.flatMap fun v => pack (numberVariant v)).length = variantSize * values.length := by
  induction values with
  | nil => rfl
  | cons v values ih =>
    rw [List.flatMap_cons, List.length_append, length_numberVariant, ih, List.length_cons,
      Nat.mul_succ, Nat.add_comm]

theorem Row.length_bytes (h : row.numbers.length = layout.numbers) (reserved : UInt32) :
    (row.bytes reserved).length = row.size layout := by
  simp only [Row.bytes, Row.size, RowLayout.rowSize, List.length_append, length_stringVariant,
    length_numbers, h]
  rw [Nat.mul_add]
  omega

theorem length_rows (h : ∀ row ∈ rows, row.numbers.length = layout.numbers) :
    (rows.flatMap (Row.bytes reserved)).length = (rows.map (Row.size layout)).sum := by
  rw [List.length_flatMap]
  exact congrArg List.sum (List.map_congr_left fun row hrow => Row.length_bytes (h row hrow) reserved)

theorem returns_readNumbers {values : List UInt64} (hn : n ≤ values.length)
    (hat : HasAt m data (values.flatMap fun v => pack (numberVariant v))) :
    Returns (readNumbers m n data) (values.take n) := by
  induction n generalizing data values with
  | zero => simp [readNumbers]
  | succ n ih =>
    cases values with
    | nil => simp at hn
    | cons v values =>
      rw [List.flatMap_cons] at hat
      have hread : readU64 m (data + 4) = some v := (hat.left.field 4 rfl).readU64
      have hright := hat.right
      rw [length_numberVariant] at hright
      have hrest := ih (Nat.le_of_succ_le_succ hn) hright
      exact (returns_checked_iff.mpr hread).bind (hrest.bind (returns_pure_iff.mpr rfl))

/-- Where the parts of a written row are. -/
structure RowAt (m : List UInt8) (data : Nat) (row : Row) : Prop where
  sourceLength : readU32 m (data + 4) = some (UInt32.ofNat row.source.length)
  source : HasAt m (data + variantSize) row.source
  targetLength : readU32 m (data + row.source.length + 16) =
    some (UInt32.ofNat row.target.length)
  target : HasAt m (data + row.source.length + 2 * variantSize) row.target
  numbers : HasAt m (data + row.source.length + row.target.length + 2 * variantSize)
    (row.numbers.flatMap fun v => pack (numberVariant v))

theorem rowAt (hat : HasAt m data (row.bytes reserved)) : RowAt m data row := by
  unfold Row.bytes at hat
  have hfour := hat.left
  have hthree := hfour.left
  have htwo := hthree.left
  have hnumbers := hat.right
  have htarget := hfour.right
  have htargetVariant := hthree.right
  have hsource := htwo.right
  simp only [List.length_append, length_stringVariant] at hnumbers htarget htargetVariant hsource
  have htl : readU32 m (data + (variantSize + row.source.length) + 4) =
      some (UInt32.ofNat row.target.length) := (htargetVariant.field 4 rfl).readU32
  have hvariant : variantSize = 12 := rfl
  refine ⟨(htwo.left.field 4 rfl).readU32, hsource, ?_, ?_, ?_⟩
  · rwa [show data + (variantSize + row.source.length) + 4 = data + row.source.length + 16 by
      omega] at htl
  · rwa [show data + (variantSize + row.source.length + variantSize) =
      data + row.source.length + 2 * variantSize by omega] at htarget
  · rwa [show data + (variantSize + row.source.length + variantSize + row.target.length) =
      data + row.source.length + row.target.length + 2 * variantSize by omega] at hnumbers

theorem returns_readRow (hrow : row.Writable layout) (hat : HasAt m data (row.bytes reserved)) :
    Returns (readRow layout m data) (row.read layout, data + row.size layout) := by
  have h := rowAt hat
  have hs := toNat_ofNat_of_lt hrow.source_lt
  have ht := toNat_ofNat_of_lt hrow.target_lt
  have hused : layout.used ≤ row.numbers.length := hrow.numbers_eq ▸ layout.used_le
  unfold readRow
  refine (returns_checked_iff.mpr h.sourceLength).bind ?_
  simp only [hs]
  refine (returns_checked_iff.mpr h.source.readAt).bind ?_
  refine (returns_checked_iff.mpr h.targetLength).bind ?_
  simp only [ht]
  refine (returns_checked_iff.mpr h.target.readAt).bind ?_
  refine (returns_readNumbers hused h.numbers).bind (returns_pure_iff.mpr ?_)
  simp only [Row.read, Row.size, Prod.mk.injEq, true_and]
  omega

theorem returns_throwIfOutOfRange {n : Int} (h : 0 ≤ n) :
    Returns (throwIfOutOfRange layout n) () := by
  rw [throwIfOutOfRange, if_neg (not_lt.mpr h)]
  exact returns_pure_iff.mpr rfl

theorem Row.size_pos (row : Row) : 0 < row.size layout := by
  simp only [Row.size, RowLayout.rowSize, variantSize]
  omega

/-- **The first walk counts the rows that were written.** -/
theorem countRows_flatMap (hrows : ∀ row ∈ rows, row.Writable layout)
    (hat : HasAt m data (rows.flatMap (Row.bytes reserved))) :
    Returns (countRows layout m (rows.map (Row.size layout)).sum data) rows.length := by
  induction rows generalizing data with
  | nil =>
    rw [countRows, if_neg (by simp)]
    exact returns_pure_iff.mpr rfl
  | cons row rows ih =>
    have hrow := hrows row List.mem_cons_self
    have hmore : ∀ r ∈ rows, r.Writable layout := fun r hr => hrows r (List.mem_cons_of_mem row hr)
    have hpos : 0 < row.size layout := row.size_pos
    have hsize : row.size layout = layout.rowSize + row.source.length + row.target.length := rfl
    rw [List.flatMap_cons] at hat
    have h := rowAt hat.left
    have hright := hat.right
    rw [Row.length_bytes hrow.numbers_eq] at hright
    have hs := toNat_ofNat_of_lt hrow.source_lt
    have ht := toNat_ofNat_of_lt hrow.target_lt
    have hsInt : 0 ≤ asIntN (UInt32.ofNat row.source.length) :=
      (asIntN_nonneg_iff _).mpr (by rw [hs]; exact hrow.source_lt)
    have htInt : 0 ≤ asIntN (UInt32.ofNat row.target.length) :=
      (asIntN_nonneg_iff _).mpr (by rw [ht]; exact hrow.target_lt)
    simp only [List.map_cons, List.sum_cons, Nat.cast_add]
    rw [countRows, if_pos (by omega)]
    refine (returns_throwIfOutOfRange (by omega)).bind ?_
    refine (returns_checked_iff.mpr h.sourceLength).bind ?_
    refine (returns_throwIfOutOfRange hsInt).bind ?_
    simp only [hs]
    refine (returns_throwIfOutOfRange (by omega)).bind ?_
    refine (returns_checked_iff.mpr h.targetLength).bind ?_
    refine (returns_throwIfOutOfRange htInt).bind ?_
    simp only [ht]
    refine (returns_throwIfOutOfRange (by omega)).bind ?_
    have hremaining : ((row.size layout : Nat) : Int) + ((rows.map (Row.size layout)).sum : Nat) -
        layout.rowSize - row.source.length - row.target.length =
          ((rows.map (Row.size layout)).sum : Nat) := by omega
    have hdata : data + row.source.length + row.target.length + layout.rowSize =
        data + row.size layout := by omega
    rw [hremaining, hdata]
    exact (ih hmore hright).bind (returns_pure_iff.mpr (by simp))

/-- **The second walk reads the rows that were written.** -/
theorem readRows_flatMap (hrows : ∀ row ∈ rows, row.Writable layout)
    (hat : HasAt m data (rows.flatMap (Row.bytes reserved))) :
    Returns (readRows layout m rows.length data)
      (rows.map (Row.read layout), data + (rows.map (Row.size layout)).sum) := by
  induction rows generalizing data with
  | nil => exact returns_pure_iff.mpr rfl
  | cons row rows ih =>
    have hrow := hrows row List.mem_cons_self
    rw [List.flatMap_cons] at hat
    have hright := hat.right
    rw [Row.length_bytes hrow.numbers_eq] at hright
    have hrest := ih (fun r hr => hrows r (List.mem_cons_of_mem row hr)) hright
    refine (returns_readRow hrow hat.left).bind (hrest.bind (returns_pure_iff.mpr ?_))
    simp only [List.map_cons, List.sum_cons, Prod.mk.injEq, true_and]
    omega

end Written

/-! ## Both walks -/

section Table

variable (layout : RowLayout)

/-- The rows of a table from `data` on, counted and read. -/
def readTable (m : List UInt8) (bytesRemaining : Int) (data : Nat) : Parse (List Row × Nat) := do
  let rows ← countRows layout m bytesRemaining data
  readRows layout m rows data

variable {layout} {m : List UInt8} {reserved : UInt32}

theorem safe_readTable {bytesRemaining : Int} {data stop : Nat} (hstop : stop ≤ m.length)
    (h : data + bytesRemaining = stop) (hnn : 0 ≤ bytesRemaining) :
    Safe (readTable layout m bytesRemaining data) fun r =>
      r.2 = stop ∧ data + (r.1.map (Row.size layout)).sum = stop :=
  (safe_countRows hstop h hnn).bind fun _ hrows => hrows

theorem readTable_flatMap {rows : List Row} (hrows : ∀ row ∈ rows, row.Writable layout)
    {data : Nat} (hat : HasAt m data (rows.flatMap (Row.bytes reserved))) :
    Returns (readTable layout m (rows.map (Row.size layout)).sum data)
      (rows.map (Row.read layout), data + (rows.map (Row.size layout)).sum) :=
  (countRows_flatMap hrows hat).bind (readRows_flatMap hrows hat)

/-- With a negative number of bytes nothing is read. -/
theorem readTable_neg {bytesRemaining : Int} (h : bytesRemaining ≤ 0) (data : Nat) :
    Returns (readTable layout m bytesRemaining data) ([], data) := by
  have hcount : Returns (countRows layout m bytesRemaining data) 0 := by
    rw [countRows, if_neg (not_lt.mpr h)]
    exact returns_pure_iff.mpr rfl
  exact hcount.bind (returns_pure_iff.mpr rfl)

end Table

/-! ## Writing -/

section Writing

/-- One `put`, and the address moved on. -/
def putNext (s : DptfBuffer × UInt32) (part : List UInt8 × UInt32) : DptfBuffer × UInt32 :=
  (s.1.put s.2 part.1 part.2, s.2 + part.2)

/-- The lengths that are given are those of the parts. -/
def Sized (part : List UInt8 × UInt32) : Prop := part.2.toNat = part.1.length

/-- **Put after put** writes the parts one behind the other. -/
theorem foldl_putNext {parts : List (List UInt8 × UInt32)} (hparts : ∀ part ∈ parts, Sized part)
    {b : DptfBuffer} {offset : UInt32} {before rest : List UInt8} (hb : b.bytes = before ++ rest)
    (hoff : offset.toNat = before.length) (hsize : b.bytes.length < 2 ^ 32)
    (hfit : before.length + (parts.flatMap Prod.fst).length < 2 ^ 32) :
    (parts.foldl putNext (b, offset)).1.bytes =
      before ++ parts.flatMap Prod.fst ++ rest.drop (parts.flatMap Prod.fst).length := by
  induction parts generalizing b offset before rest with
  | nil => simp [hb]
  | cons part parts ih =>
    have hpart := hparts part List.mem_cons_self
    rw [List.flatMap_cons, List.length_append] at hfit
    have hput := DptfBuffer.put_eq hb hoff hpart hsize (by omega)
    have hnext : (offset + part.2).toNat = (before ++ part.1).length := by
      rw [UInt32.toNat_add, hoff, hpart, List.length_append, Nat.mod_eq_of_lt (by omega)]
    have hgrown : (b.put offset part.1 part.2).bytes.length < 2 ^ 32 := by
      have hlen := congrArg List.length hb
      rw [List.length_append] at hlen
      rw [hput]
      simp only [List.length_append, List.length_drop]
      omega
    have hrest := ih (fun p hp => hparts p (List.mem_cons_of_mem part hp)) hput hnext hgrown
      (by rw [List.length_append]; omega)
    rw [List.foldl_cons]
    show (parts.foldl putNext (b.put offset part.1 part.2, offset + part.2)).1.bytes = _
    rw [hrest]
    simp [List.drop_drop]

variable (layout : RowLayout) (reserved : UInt32)

/-- What is put into the buffer of a row. -/
def Row.parts (row : Row) : List (List UInt8 × UInt32) :=
  let sourceScopeLength := UInt32.ofNat row.source.length
  let targetScopeLength := UInt32.ofNat row.target.length
  [(pack (stringVariant sourceScopeLength reserved), 12), (row.source, sourceScopeLength),
    (pack (stringVariant targetScopeLength reserved), 12), (row.target, targetScopeLength)] ++
    row.numbers.map fun value => (pack (numberVariant value), 12)

/-- `packageBuffer`. -/
def Row.packageBuffer (row : Row) : DptfBuffer :=
  let allocated := DptfBuffer.allocate (layout.rowSize +
    (UInt32.ofNat row.source.length).toNat + (UInt32.ofNat row.target.length).toNat)
  ((row.parts reserved).foldl putNext (allocated, 0)).1

/-- `packages`: the buffers of the rows, one behind the other. -/
def writePackages (rows : List Row) : DptfBuffer :=
  ((rows.map fun row => ((row.packageBuffer layout reserved).bytes,
    (row.packageBuffer layout reserved).size)).foldl putNext (DptfBuffer.empty, 0)).1

variable {layout} {reserved}

theorem flatMap_parts (row : Row) : (row.parts reserved).flatMap Prod.fst = row.bytes reserved := by
  simp [Row.parts, Row.bytes, List.flatMap_map]

theorem bytes_packageBuffer {row : Row} (hnumbers : row.numbers.length = layout.numbers)
    (hsize : row.size layout < 2 ^ 32) :
    (row.packageBuffer layout reserved).bytes = row.bytes reserved := by
  have hrow : row.size layout = layout.rowSize + row.source.length + row.target.length := rfl
  have hs : (UInt32.ofNat row.source.length).toNat = row.source.length := by
    rw [UInt32.toNat_ofNat', Nat.mod_eq_of_lt (by omega)]
  have ht : (UInt32.ofNat row.target.length).toNat = row.target.length := by
    rw [UInt32.toNat_ofNat', Nat.mod_eq_of_lt (by omega)]
  have hlen := Row.length_bytes hnumbers reserved
  have hparts : ∀ part ∈ row.parts reserved, Sized part := by
    intro part hpart
    simp only [Row.parts, List.cons_append, List.nil_append, List.mem_cons, List.mem_map] at hpart
    rcases hpart with rfl | rfl | rfl | rfl | ⟨value, -, rfl⟩
    · exact (length_stringVariant _ _).symm
    · exact hs
    · exact (length_stringVariant _ _).symm
    · exact ht
    · exact (length_numberVariant _).symm
  unfold Row.packageBuffer
  simp only [hs, ht]
  rw [foldl_putNext hparts (List.nil_append _).symm rfl]
  · rw [flatMap_parts, hlen, hrow, DptfBuffer.allocate, List.drop_replicate]
    simp
  · rw [DptfBuffer.allocate, List.length_replicate]
    omega
  · rw [flatMap_parts, hlen]
    simpa using hsize

/-- **What the encoder writes**, where its addresses do not wrap. -/
theorem bytes_writePackages {rows : List Row}
    (hrows : ∀ row ∈ rows, row.numbers.length = layout.numbers)
    (hsize : (rows.map (Row.size layout)).sum < 2 ^ 32) :
    (writePackages layout reserved rows).bytes = rows.flatMap (Row.bytes reserved) := by
  have hle : ∀ row ∈ rows, row.size layout < 2 ^ 32 := fun row hrow =>
    lt_of_le_of_lt (List.le_sum_of_mem (List.mem_map_of_mem hrow)) hsize
  have hbytes : ∀ row ∈ rows, (row.packageBuffer layout reserved).bytes = row.bytes reserved :=
    fun row hrow => bytes_packageBuffer (hrows row hrow) (hle row hrow)
  have hflat : (rows.map fun row => ((row.packageBuffer layout reserved).bytes,
      (row.packageBuffer layout reserved).size)).flatMap Prod.fst =
        rows.flatMap (Row.bytes reserved) := by
    rw [List.flatMap_map]
    exact List.flatMap_congr hbytes
  have htotal : (rows.flatMap (Row.bytes reserved)).length = (rows.map (Row.size layout)).sum :=
    length_rows hrows
  have hparts : ∀ part ∈ (rows.map fun row => ((row.packageBuffer layout reserved).bytes,
      (row.packageBuffer layout reserved).size)), Sized part := by
    intro part hpart
    obtain ⟨row, hrow, rfl⟩ := List.mem_map.mp hpart
    refine DptfBuffer.toNat_size_of_lt ?_
    rw [hbytes row hrow, Row.length_bytes (hrows row hrow)]
    exact hle row hrow
  have hempty : DptfBuffer.empty.bytes = [] ++ [] := rfl
  have hzero : (0 : UInt32).toNat = ([] : List UInt8).length := rfl
  unfold writePackages
  rw [foldl_putNext hparts hempty hzero (by decide)]
  · rw [hflat]
    simp
  · rw [hflat, htotal]
    simpa using hsize

end Writing

/-! ## Keeping one entry for two devices -/

section Entries

variable {ε : Type} (isSameAs : ε → ε → Bool)

/-- The new entry goes to the end, unless one that is the same as it is there. -/
def addEntry (entries : List ε) (entry : ε) : List ε :=
  if entries.any (isSameAs entry) then entries else entries ++ [entry]

variable {isSameAs}

/-- Entries that differ are all kept. -/
theorem foldl_addEntry {before entries : List ε}
    (h : (before ++ entries).Pairwise fun e e' => isSameAs e' e = false) :
    entries.foldl (addEntry isSameAs) before = before ++ entries := by
  induction entries generalizing before with
  | nil => simp
  | cons e entries ih =>
    have hnone : before.any (isSameAs e) = false := by
      rw [List.any_eq_false]
      intro e' he'
      have := (List.pairwise_append.mp h).2.2 e' he' e List.mem_cons_self
      simp [this]
    have hadd : addEntry isSameAs before e = before ++ [e] := by
      rw [addEntry, hnone]
      rfl
    rw [List.foldl_cons, hadd, ih (by simpa using h)]
    simp

/-- What is kept was there, in that order. -/
theorem foldl_addEntry_sublist (before entries : List ε) :
    (entries.foldl (addEntry isSameAs) before).Sublist (before ++ entries) := by
  induction entries generalizing before with
  | nil => simp
  | cons e entries ih =>
    refine (ih (addEntry isSameAs before e)).trans ?_
    unfold addEntry
    split
    · exact (List.sublist_cons_self e entries).append_left before
    · simp

/-- Normalized scopes are longer than those in the buffer by no more than a row is. -/
theorem sum_foldl_addEntry_le {layout : RowLayout} {ofRow : Row → ε} {entrySize : ε → Nat}
    (hsize : ∀ row, entrySize (ofRow row) ≤ row.size layout + 8) (rows : List Row) :
    (((rows.map ofRow).foldl (addEntry isSameAs) []).map entrySize).sum ≤
      2 * (rows.map (Row.size layout)).sum := by
  have hrows : ((rows.map ofRow).map entrySize).sum ≤ 2 * (rows.map (Row.size layout)).sum := by
    induction rows with
    | nil => simp
    | cons row rows ih =>
      have hrow := hsize row
      have hlarge : 8 ≤ row.size layout := by
        simp only [Row.size, RowLayout.rowSize, variantSize]
        omega
      simp only [List.map_cons, List.sum_cons]
      omega
  have hsub : ((rows.map ofRow).foldl (addEntry isSameAs) []).Sublist (rows.map ofRow) :=
    foldl_addEntry_sublist [] (rows.map ofRow)
  exact ((hsub.map entrySize).sum_le_sum fun _ _ => Nat.zero_le _).trans hrows

end Entries

end Tables

import Mathlib.Data.List.TakeWhile
import Dptf.Uf.TableObject

/-!
# Digits in the texts of a table

* `AllOf` — a text of digits of a base.
-/

open Lib

namespace Uf

namespace TableObject

/-- Digits of a base and nothing else. -/
def AllOf (p : UInt8 → Bool) (text : List UInt8) : Prop := ∀ b ∈ text, p b = true

theorem allOf_of_all {p : UInt8 → Bool} {text : List UInt8} (h : text.all p = true) :
    AllOf p text :=
  List.all_eq_true.mp h

set_option maxRecDepth 2000 in
theorem isBlank_of_isHexDigit : ∀ b : UInt8, isHexDigit b = true → isBlank b = false :=
  forall_byte (by decide)

set_option maxRecDepth 2000 in
theorem isHexDigit_of_isDigit : ∀ b : UInt8, isDigit b = true → isHexDigit b = true :=
  forall_byte (by decide)

end TableObject

end Uf

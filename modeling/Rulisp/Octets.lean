import Mathlib.Data.Int.Notation
import Mathlib.Data.List.Basic
import Mathlib.Tactic.Ring

/-!
# Little-endian fields of an octet string

A field is read at an offset and a width.  Read totally, octets past the end
count as zero; a field that lies within a prefix of the string is the same in
every extension of the prefix.
-/

namespace Octets

/-- The octet at an offset, zero past the end. -/
def octetAt (octets : List UInt8) (offset : ℕ) : ℕ :=
  (octets[offset]?.map UInt8.toNat).getD 0

/-- The little-endian number of `width` octets at `offset`. -/
def field (octets : List UInt8) (offset : ℕ) : ℕ → ℕ
  | 0 => 0
  | width + 1 =>
      field octets offset width +
        octetAt octets (offset + width) * 2 ^ (8 * width)

theorem field_zero (octets : List UInt8) (offset : ℕ) :
    field octets offset 0 = 0 := rfl

theorem field_succ (octets : List UInt8) (offset width : ℕ) :
    field octets offset (width + 1) =
      field octets offset width +
        octetAt octets (offset + width) * 2 ^ (8 * width) := rfl

/-- The part of the string from `start`, at most `count` octets of it. -/
def slice (octets : List UInt8) (start count : ℕ) : List UInt8 :=
  (octets.drop start).take count

theorem length_slice {octets : List UInt8} {start count : ℕ}
    (hfits : start + count ≤ octets.length) :
    (slice octets start count).length = count := by
  simp only [slice, List.length_take, List.length_drop]
  omega

theorem octetAt_append {octets : List UInt8} (rest : List UInt8) {offset : ℕ}
    (hlt : offset < octets.length) :
    octetAt (octets ++ rest) offset = octetAt octets offset := by
  unfold octetAt
  rw [List.getElem?_append_left hlt]

theorem octetAt_slice (octets : List UInt8) (start : ℕ) {count offset : ℕ}
    (hlt : offset < count) :
    octetAt (slice octets start count) offset =
      octetAt octets (start + offset) := by
  unfold octetAt slice
  rw [List.getElem?_take_of_lt hlt, List.getElem?_drop]

/-- A field within the string is that of every extension. -/
theorem field_append {octets : List UInt8} (rest : List UInt8)
    {offset width : ℕ} (hfits : offset + width ≤ octets.length) :
    field (octets ++ rest) offset width = field octets offset width := by
  induction width with
  | zero => rfl
  | succ width ih =>
      have hinner : offset + width ≤ octets.length := by omega
      have hlast : offset + width < octets.length := by omega
      simp only [field]
      rw [ih hinner, octetAt_append rest hlast]

/-- A field within a slice is one of the whole string. -/
theorem field_slice (octets : List UInt8) (start : ℕ)
    {count offset width : ℕ} (hfits : offset + width ≤ count) :
    field (slice octets start count) offset width =
      field octets (start + offset) width := by
  induction width with
  | zero => rfl
  | succ width ih =>
      have hinner : offset + width ≤ count := by omega
      have hlast : offset + width < count := by omega
      simp only [field]
      rw [ih hinner, octetAt_slice octets start hlast, Nat.add_assoc]

-- a field is never evaluated in a proof
attribute [irreducible] field

end Octets

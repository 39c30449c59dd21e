import Mathlib.Data.Nat.Notation

/-!
# The case of characters

What `upper-case-p`, `char-upcase` and `char-downcase` answer is the Lisp's
own.  Characters with case come in pairs of one upper-case and one lower-case
character, any other character is its own upper case and its own lower case,
and among the standard characters the letters are those with case.
-/

namespace Rulisp

/-- The case functions of a Lisp. -/
class LispCase where
  upperCaseP : Char → Bool
  charUpcase : Char → Char
  charDowncase : Char → Char
  upcase_of_upper : ∀ ch, upperCaseP ch = true → charUpcase ch = ch
  /-- Two characters that are not upper-case have different upper cases. -/
  upcase_inj : ∀ ch ch', upperCaseP ch = false → upperCaseP ch' = false →
    charUpcase ch = charUpcase ch' → ch = ch'
  downcase_not_upper : ∀ ch, upperCaseP (charDowncase ch) = false
  upcase_downcase : ∀ ch, upperCaseP ch = true →
    charUpcase (charDowncase ch) = ch
  standard : ∀ ch, ch.toNat < 128 →
    upperCaseP ch = ch.isUpper ∧ charUpcase ch = ch.toUpper ∧
      charDowncase ch = ch.toLower

export LispCase (upperCaseP charUpcase charDowncase)

section LispCase

variable [LispCase]

/-- `(string-upcase s)`. -/
def stringUpcase (s : String) : String :=
  String.ofList (s.toList.map charUpcase)

/-- `(string-downcase s)`. -/
def stringDowncase (s : String) : String :=
  String.ofList (s.toList.map charDowncase)

def camelToKebab (s : String) : String :=
  String.ofList (s.toList.zipIdx.flatMap fun (ch, i) =>
    if 0 < i && upperCaseP ch then ['-', charUpcase ch] else [charUpcase ch])

theorem upperCaseP_hyphen : upperCaseP '-' = false :=
  (LispCase.standard '-' (by decide)).1

theorem charUpcase_hyphen : charUpcase '-' = '-' :=
  (LispCase.standard '-' (by decide)).2.1

end LispCase

/-! ## A Lisp whose characters with case are the standard letters -/

theorem isUpper_iff {ch : Char} :
    ch.isUpper = true ↔ 'A'.val ≤ ch.val ∧ ch.val ≤ 'Z'.val :=
  decide_eq_true_iff

theorem isUpper_eq_false_iff {ch : Char} :
    ch.isUpper = false ↔ ¬ ('A'.val ≤ ch.val ∧ ch.val ≤ 'Z'.val) :=
  decide_eq_false_iff_not

theorem toUpper_of_isUpper {ch : Char} (hupper : ch.isUpper = true) :
    ch.toUpper = ch := by
  have hrange := isUpper_iff.mp hupper
  unfold Char.toUpper
  rw [dif_neg]
  intro hlower
  grind

theorem eq_of_toUpper_eq {ch ch' : Char} (hch : ch.isUpper = false)
    (hch' : ch'.isUpper = false) (heq : ch.toUpper = ch'.toUpper) :
    ch = ch' := by
  have hrange := isUpper_eq_false_iff.mp hch
  have hrange' := isUpper_eq_false_iff.mp hch'
  clear hch hch'
  unfold Char.toUpper at heq
  split at heq <;> split at heq
  · have hvals := congrArg Char.val heq
    apply Char.ext
    simpa using hvals
  · subst heq
    simp only at hrange'
    grind
  · subst heq
    simp only at hrange
    grind
  · exact heq

theorem isUpper_toLower (ch : Char) : ch.toLower.isUpper = false := by
  rw [isUpper_eq_false_iff]
  unfold Char.toLower
  split
  · simp only
    grind
  · grind

theorem toUpper_toLower {ch : Char} (hupper : ch.isUpper = true) :
    ch.toLower.toUpper = ch := by
  have hlower := isUpper_iff.mp hupper
  apply Char.ext
  unfold Char.toLower
  rw [dif_pos hlower]
  unfold Char.toUpper
  split
  · have hback : (32 : UInt32) + 4294967264 = 0 := by decide
    change ch.val + 32 + 4294967264 = ch.val
    rw [UInt32.add_assoc, hback, UInt32.add_zero]
  · clear hupper
    simp only at *
    grind

@[reducible] def standardCase : LispCase where
  upperCaseP := Char.isUpper
  charUpcase := Char.toUpper
  charDowncase := Char.toLower
  upcase_of_upper _ hupper := toUpper_of_isUpper hupper
  upcase_inj _ _ hch hch' heq := eq_of_toUpper_eq hch hch' heq
  downcase_not_upper := isUpper_toLower
  upcase_downcase _ hupper := toUpper_toLower hupper
  standard _ _ := ⟨rfl, rfl, rfl⟩

end Rulisp

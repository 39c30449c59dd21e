import Mathlib.Data.List.Basic

/-!
# Octets of strings

UTF-8 on lists of octets, and the code points of a string.  A text whose
units are all below 128 is its own encoding; the two directions of that are
what an ASCII fast path relies on.
-/

namespace Utf8

/-- The code points of a string. -/
def codesOf (s : String) : List Nat := s.toList.map Char.toNat

/-- The UTF-8 encoding of a string. -/
def octetsOf (s : String) : List UInt8 := s.toList.flatMap String.utf8EncodeChar

/-- The string that the octets encode, if they are valid UTF-8. -/
def decode (octets : List UInt8) : Option String :=
  String.fromUTF8? octets.toByteArray

/-- The encoding of a text of ASCII code points. -/
def asciiOctets (codes : List Nat) : Option (List UInt8) :=
  codes.mapM fun code =>
    if code < 128 then some (UInt8.ofNat code) else none

/-- The code points of a text of ASCII octets. -/
def asciiCodes (octets : List UInt8) : Option (List Nat) :=
  octets.mapM fun octet => if octet < 128 then some octet.toNat else none

theorem toByteArray_octetsOf (s : String) :
    (octetsOf s).toByteArray = s.toByteArray := by
  have hencode : s.toList.utf8Encode = s.toByteArray := String.utf8Encode_toList
  rw [← hencode, octetsOf, List.utf8Encode]

@[simp] theorem decode_octetsOf (s : String) :
    decode (octetsOf s) = some s := by
  have hvalid : (octetsOf s).toByteArray.IsValidUTF8 := by
    rw [toByteArray_octetsOf]
    exact s.isValidUTF8
  have hsame : String.fromUTF8 _ hvalid = s :=
    String.toByteArray_inj.mp (toByteArray_octetsOf s)
  rw [decode, String.fromUTF8?, dif_pos hvalid, hsame]

theorem octetsOf_of_decode {octets : List UInt8} {s : String}
    (hdecode : decode octets = some s) : octetsOf s = octets := by
  rw [decode, String.fromUTF8?] at hdecode
  split at hdecode
  · cases hdecode
    apply List.toByteArray_inj.mp
    exact toByteArray_octetsOf _
  · cases hdecode

theorem octetsOf_injective {s s' : String} (hsame : octetsOf s = octetsOf s') :
    s = s' := by
  have hdecode := decode_octetsOf s
  rw [hsame, decode_octetsOf] at hdecode
  exact (Option.some.inj hdecode).symm

theorem utf8EncodeChar_ascii : ∀ code < 128,
    String.utf8EncodeChar (Char.ofNat code) = [UInt8.ofNat code] := by
  decide

theorem toNat_ofNat_ascii : ∀ code < 128, (Char.ofNat code).toNat = code := by
  decide

/-- A string of ASCII characters is encoded as its codes. -/
theorem octetsOf_ascii {s : String} (hascii : ∀ ch ∈ s.toList, ch.toNat < 128) :
    octetsOf s = (codesOf s).map UInt8.ofNat := by
  unfold octetsOf codesOf
  revert hascii
  generalize s.toList = chars
  intro hascii
  induction chars with
  | nil => rfl
  | cons ch rest ih =>
      obtain ⟨hch, hrest⟩ := List.forall_mem_cons.mp hascii
      have hencode := utf8EncodeChar_ascii ch.toNat hch
      rw [Char.ofNat_toNat] at hencode
      rw [List.flatMap_cons, hencode, ih hrest]
      rfl

theorem codesOf_ofList (chars : List Char) :
    codesOf (String.ofList chars) = chars.map Char.toNat := by
  rw [codesOf, String.toList_ofList]

theorem octetsOf_ofList (chars : List Char) :
    octetsOf (String.ofList chars) =
      chars.flatMap String.utf8EncodeChar := by
  rw [octetsOf, String.toList_ofList]

theorem asciiOctets_eq_some {codes : List Nat} {octets : List UInt8}
    (hascii : asciiOctets codes = some octets) :
    ∃ s, codesOf s = codes ∧ octetsOf s = octets := by
  refine ⟨String.ofList (codes.map Char.ofNat), ?_⟩
  rw [codesOf_ofList, octetsOf_ofList]
  induction codes generalizing octets with
  | nil =>
      cases hascii
      exact ⟨rfl, rfl⟩
  | cons code rest ih =>
      simp only [asciiOctets, List.mapM_cons, Option.bind_eq_bind,
        Option.bind_eq_some_iff, Option.pure_def, Option.some.injEq] at hascii
      obtain ⟨octet, hoctet, octets', hrest, rfl⟩ := hascii
      obtain ⟨hcodes, hoctets⟩ := ih hrest
      split at hoctet
      · rename_i hcode
        cases hoctet
        constructor
        · rw [List.map_cons, List.map_cons, hcodes, toNat_ofNat_ascii code hcode]
        · rw [List.map_cons, List.flatMap_cons, hoctets,
            utf8EncodeChar_ascii code hcode]
          rfl
      · cases hoctet

theorem asciiCodes_eq_some {octets : List UInt8} {codes : List Nat}
    (hascii : asciiCodes octets = some codes) :
    asciiOctets codes = some octets := by
  induction octets generalizing codes with
  | nil =>
      cases hascii
      rfl
  | cons octet rest ih =>
      simp only [asciiCodes, List.mapM_cons, Option.bind_eq_bind,
        Option.bind_eq_some_iff, Option.pure_def, Option.some.injEq] at hascii
      obtain ⟨code, hcode, codes', hrest, rfl⟩ := hascii
      split at hcode
      · rename_i hoctet
        cases hcode
        have hlt : octet.toNat < 128 := by simpa using UInt8.lt_iff_toNat_lt.mp hoctet
        have htail : asciiOctets codes' = some rest := ih hrest
        simp only [asciiOctets] at htail
        simp [asciiOctets, hlt, htail]
      · cases hcode

/-- What an ASCII fast path decodes is what UTF-8 decodes. -/
theorem codesOf_of_asciiCodes {s : String} {codes : List Nat}
    (hascii : asciiCodes (octetsOf s) = some codes) : codes = codesOf s := by
  obtain ⟨s', hcodes, hoctets⟩ :=
    asciiOctets_eq_some (asciiCodes_eq_some hascii)
  rw [← hcodes, octetsOf_injective hoctets]

end Utf8

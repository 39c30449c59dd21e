import Rulisp.WireAgreement

/-!
# Strings over the boundary

`call-with-utf8-arg` lends the UTF-8 octets of a string, `str_arg` reads
them and `foreign-utf8` makes a string of them, down to the foreign memory:
pinned vectors, copies and stack buffers.  Text that is all ASCII takes a
loop of its own in either direction, and the rest goes to Babel.
-/

namespace Rulisp

/-! ## Foreign memory -/

/-- What each address holds; `none` where it is not readable. -/
abbrev ForeignMemory := ℕ → Option UInt8

namespace ForeignMemory

def write (memory : ForeignMemory) (ptr : ℕ) (octet : UInt8) : ForeignMemory :=
  fun address => if address = ptr then some octet else memory address

/-- One octet after the other, from `ptr` on. -/
def store : ForeignMemory → ℕ → List UInt8 → ForeignMemory
  | memory, _, [] => memory
  | memory, ptr, octet :: octets => (memory.write ptr octet).store (ptr + 1) octets

def load (memory : ForeignMemory) (ptr : ℕ) : ℕ → Option (List UInt8)
  | 0 => some []
  | len + 1 => do
      let octet ← memory ptr
      let octets ← memory.load (ptr + 1) len
      return octet :: octets

/-- `%memcpy`. -/
def memcpy (memory : ForeignMemory) (dst src nbytes : ℕ) : Option ForeignMemory :=
  (memory.load src nbytes).map (memory.store dst)

theorem store_of_lt {memory : ForeignMemory} {ptr address : ℕ}
    (octets : List UInt8) (hbelow : address < ptr) :
    memory.store ptr octets address = memory address := by
  induction octets generalizing memory ptr with
  | nil => rfl
  | cons octet octets ih =>
      have hne : address ≠ ptr := by omega
      rw [store, ih (by omega), write, if_neg hne]

@[simp] theorem load_store (memory : ForeignMemory) (ptr : ℕ)
    (octets : List UInt8) :
    (memory.store ptr octets).load ptr octets.length = some octets := by
  induction octets generalizing memory ptr with
  | nil => rfl
  | cons octet octets ih =>
      have hfirst : (memory.write ptr octet).store (ptr + 1) octets ptr =
          some octet := by
        rw [store_of_lt octets (by omega), write, if_pos rfl]
      simp [store, load, hfirst, ih]

theorem length_of_load {memory : ForeignMemory} {ptr len : ℕ}
    {octets : List UInt8} (hload : memory.load ptr len = some octets) :
    octets.length = len := by
  induction len generalizing ptr octets with
  | zero =>
      cases hload
      rfl
  | succ len ih =>
      simp only [load, Option.bind_eq_bind, Option.bind_eq_some_iff,
        Option.pure_def, Option.some.injEq] at hload
      obtain ⟨octet, -, rest, hrest, rfl⟩ := hload
      rw [List.length_cons, ih hrest]

end ForeignMemory

/-! ## Strings -/

/-- A character, below `char-code-limit`; surrogates are among them. -/
abbrev LispChar := Fin 0x110000

inductive LispString
  | simpleCharacter (chars : List LispChar)
  | simpleBase (chars : List LispChar)
  /-- A fill pointer, or displaced into another string. -/
  | nonSimple (data : List LispChar) (offset fill : ℕ)
      (fits : offset + fill ≤ data.length)

namespace LispString

def length : LispString → ℕ
  | simpleCharacter chars => chars.length
  | simpleBase chars => chars.length
  | nonSimple _ _ fill _ => fill

/-- `(char-code (char string i))`. -/
def charCode : LispString → ℕ → ℕ
  | simpleCharacter chars, i => (chars[i]?.map Fin.val).getD 0
  | simpleBase chars, i => (chars[i]?.map Fin.val).getD 0
  | nonSimple data offset _ _, i => (data[offset + i]?.map Fin.val).getD 0

/-- The characters, as codes. -/
def codes : LispString → List ℕ
  | simpleCharacter chars => chars.map Fin.val
  | simpleBase chars => chars.map Fin.val
  | nonSimple data offset fill _ => ((data.drop offset).take fill).map Fin.val

/-- No character is a surrogate. -/
def Scalar (s : LispString) : Prop :=
  ∀ code ∈ s.codes, ¬(0xD800 ≤ code ∧ code ≤ 0xDFFF)

/-- The loop of `%ascii-octets`, from `i` on. -/
def scan (accessor : ℕ → ℕ) : ℕ → ℕ → Option (List UInt8)
  | _, 0 => some []
  | i, n + 1 =>
      if accessor i < 128 then
        (scan accessor (i + 1) n).map (UInt8.ofNat (accessor i) :: ·)
      else none

/-- `%ascii-octets`, which peeks at the first character before it scans. -/
def asciiOctets (s : LispString) : Option (List UInt8) :=
  if s.length = 0 ∨ s.charCode 0 < 128 then scan s.charCode 0 s.length
  else none

end LispString

/-! ## The transfer -/

/-- `babel:string-to-octets` and `octets-to-string` with `:utf-8`, on codes;
`none` where they signal. -/
structure Babel where
  stringToOctets : List ℕ → Option (List UInt8)
  octetsToString : List UInt8 → Option (List ℕ)

/-- A UTF-8 encoder of the strings without surrogates, and a decoder of what
is well formed. -/
structure Babel.Correct (babel : Babel) : Prop where
  encodes : ∀ s, babel.stringToOctets (Utf8.codesOf s) = some (Utf8.octetsOf s)
  decodes : ∀ octets s, Utf8.decode octets = some s →
    babel.octetsToString octets = some (Utf8.codesOf s)

/-- What `call-with-bytes-arg` finds: whether octet vectors can be pinned,
whether this is CCL, where a pinned vector lies and where a foreign buffer
is made. -/
structure Placement where
  pinnable : Bool
  ccl : Bool
  vector : ℕ
  buffer : ℕ

/-- The pointer and the length that the function is called with. -/
structure Lent where
  memory : ForeignMemory
  ptr : ℕ
  len : ℕ

/-- `%call-with-copied-buffer`, of a pinned vector. -/
def callWithCopiedBuffer (place : Placement) (memory : ForeignMemory)
    (nbytes len : ℕ) : Option Lent :=
  if 0 < nbytes then
    (memory.memcpy place.buffer place.vector nbytes).map (⟨·, place.buffer, len⟩)
  else some ⟨memory, place.buffer, len⟩

/-- `call-with-bytes-arg` on a simple octet vector. -/
def callWithBytesArg (place : Placement) (memory : ForeignMemory)
    (octets : List UInt8) : Option Lent :=
  let len := octets.length
  if len = 0 then some ⟨memory, place.buffer, 0⟩
  else if place.pinnable then
    let pinned := memory.store place.vector octets
    if place.ccl then callWithCopiedBuffer place pinned len len
    else some ⟨pinned, place.vector, len⟩
  else some ⟨memory.store place.buffer octets, place.buffer, len⟩

/-- `call-with-utf8-arg`. -/
def callWithUtf8Arg (babel : Babel) (place : Placement) (memory : ForeignMemory)
    (s : LispString) : Option Lent := do
  let octets ←
    match s.asciiOctets with
    | some octets => some octets
    | none => babel.stringToOctets s.codes
  callWithBytesArg place memory octets

/-- `str_arg`; the outer `none` is a read outside the readable memory. -/
def readStrArg (memory : ForeignMemory) (ptr len : ℕ) :
    Option (Except ℤ String) :=
  (if len = 0 then some [] else memory.load ptr len).map fun bytes =>
    match Utf8.decode bytes with
    | some s => .ok s
    | none => .error Shim.statusInvalid

/-- `foreign-octets`. -/
def copyOctets (place : Placement) (memory : ForeignMemory) (ptr len : ℕ) :
    Option (List UInt8) :=
  if 0 < len then
    if place.pinnable then do
      -- the fresh vector is pinned, filled and read
      let filled ← memory.memcpy place.vector ptr len
      filled.load place.vector len
    else memory.load ptr len
  else some []

/-- The loop of `%octets-to-ascii-string`. -/
def scanAscii : List UInt8 → Option (List ℕ)
  | [] => some []
  | b :: rest =>
      if b < 128 then (scanAscii rest).map (b.toNat :: ·) else none

/-- `%octets-to-ascii-string`, which peeks at the first octet. -/
def octetsToAsciiString (octets : List UInt8) : Option (List ℕ) :=
  if 0 < octets.length ∧ 128 ≤ octets.head?.getD 0 then none
  else scanAscii octets

/-- `foreign-utf8`. -/
def copyUtf8 (babel : Babel) (place : Placement) (memory : ForeignMemory)
    (ptr len : ℕ) : Option (List ℕ) :=
  if len = 0 then some []
  else do
    let octets ← copyOctets place memory ptr len
    match octetsToAsciiString octets with
    | some codes => some codes
    | none => babel.octetsToString octets

/-! ## The loops -/

namespace LispString

theorem length_codes (s : LispString) : s.codes.length = s.length := by
  cases s with
  | simpleCharacter chars => simp [codes, length]
  | simpleBase chars => simp [codes, length]
  | nonSimple data offset fill fits =>
      simp only [codes, length, List.length_map, List.length_take,
        List.length_drop]
      omega

theorem charCode_eq (s : LispString) {i : ℕ} (hlt : i < s.length) :
    s.codes[i]? = some (s.charCode i) := by
  cases s with
  | simpleCharacter chars =>
      have hchar : i < chars.length := hlt
      simp [codes, charCode, hchar]
  | simpleBase chars =>
      have hchar : i < chars.length := hlt
      simp [codes, charCode, hchar]
  | nonSimple data offset fill fits =>
      have hfill : i < fill := hlt
      have hchar : offset + i < data.length := by omega
      simp [codes, charCode, List.getElem?_take_of_lt hfill, hchar]

/-- The scan from `i` on encodes the codes from there on. -/
theorem scan_eq (s : LispString) {i n : ℕ} (hend : i + n = s.length) :
    scan s.charCode i n = Utf8.asciiOctets (s.codes.drop i) := by
  induction n generalizing i with
  | zero =>
      have hnil : s.codes.drop i = [] := by
        rw [List.drop_eq_nil_iff, length_codes]
        omega
      rw [hnil]
      rfl
  | succ n ih =>
      have hlt : i < s.codes.length := by
        rw [length_codes]
        omega
      have hcode : s.codes[i] = s.charCode i := by
        have hsome := s.charCode_eq (i := i) (by omega)
        rw [List.getElem?_eq_getElem hlt] at hsome
        exact Option.some.inj hsome
      rw [List.drop_eq_getElem_cons hlt, hcode, scan, ih (by omega)]
      by_cases hascii : s.charCode i < 128
      · rw [if_pos hascii]
        simp only [Utf8.asciiOctets, List.mapM_cons, if_pos hascii]
        cases (s.codes.drop (i + 1)).mapM fun code =>
          if code < 128 then some (UInt8.ofNat code) else none <;> rfl
      · rw [if_neg hascii]
        simp [Utf8.asciiOctets, hascii]

/-- The peek only spares the scan. -/
theorem asciiOctets_eq (s : LispString) :
    s.asciiOctets = Utf8.asciiOctets s.codes := by
  have hscan := s.scan_eq (Nat.zero_add s.length)
  rw [List.drop_zero] at hscan
  unfold asciiOctets
  split
  · exact hscan
  · rename_i hpeek
    obtain ⟨hlength, hcode⟩ := not_or.mp hpeek
    obtain ⟨n, hn⟩ := Nat.exists_eq_succ_of_ne_zero hlength
    rw [← hscan, hn, scan, if_neg hcode]

/-- A string without surrogates is one of Unicode scalar values. -/
theorem Scalar.exists_codesOf {s : LispString} (hscalar : s.Scalar) :
    ∃ str : String, Utf8.codesOf str = s.codes := by
  have hbound : ∀ code ∈ s.codes, code < 0x110000 := by
    intro code hcode
    cases s <;>
      · simp only [codes, List.mem_map] at hcode
        obtain ⟨ch, -, rfl⟩ := hcode
        exact ch.isLt
  refine ⟨String.ofList (s.codes.map Char.ofNat), ?_⟩
  rw [Utf8.codesOf_ofList, List.map_map]
  conv_rhs => rw [← List.map_id s.codes]
  apply List.map_congr_left
  intro code hcode
  have hvalid : code.isValidChar := by
    have hsurrogate := hscalar code hcode
    have hlimit := hbound code hcode
    unfold Nat.isValidChar
    omega
  rw [Function.comp_apply, Char.ofNat, dif_pos hvalid]
  rfl

end LispString

theorem scanAscii_eq (octets : List UInt8) :
    scanAscii octets = Utf8.asciiCodes octets := by
  induction octets with
  | nil => rfl
  | cons b rest ih =>
      rw [scanAscii, ih]
      by_cases hascii : b < 128
      · rw [if_pos hascii]
        simp only [Utf8.asciiCodes, List.mapM_cons, if_pos hascii]
        cases rest.mapM fun octet =>
          if octet < 128 then some octet.toNat else none <;> rfl
      · rw [if_neg hascii]
        simp [Utf8.asciiCodes, hascii]

theorem octetsToAsciiString_eq (octets : List UInt8) :
    octetsToAsciiString octets = Utf8.asciiCodes octets := by
  rw [← scanAscii_eq]
  unfold octetsToAsciiString
  split
  · rename_i hpeek
    cases octets with
    | nil => cases hpeek.1
    | cons b rest =>
        have hascii : ¬ b < 128 := UInt8.not_lt.mpr hpeek.2
        rw [scanAscii, if_neg hascii]
  · rfl

/-! ## Every way lends the octets -/

theorem callWithBytesArg_lends (place : Placement) (memory : ForeignMemory)
    (octets : List UInt8) :
    ∃ lent, callWithBytesArg place memory octets = some lent ∧
      lent.len = octets.length ∧
      lent.memory.load lent.ptr lent.len = some octets := by
  unfold callWithBytesArg
  cases octets with
  | nil => exact ⟨_, rfl, rfl, rfl⟩
  | cons octet rest =>
      have hnonempty : (octet :: rest).length ≠ 0 := Nat.succ_ne_zero _
      have hpositive : 0 < (octet :: rest).length := Nat.succ_pos _
      have hpinned : (memory.store place.vector (octet :: rest)).load
          place.vector (octet :: rest).length = some (octet :: rest) :=
        memory.load_store place.vector _
      simp only [if_neg hnonempty]
      cases place.pinnable with
      | false => exact ⟨_, rfl, rfl, memory.load_store place.buffer _⟩
      | true =>
          cases place.ccl with
          | false => exact ⟨_, rfl, rfl, hpinned⟩
          | true =>
              simp only [if_true, callWithCopiedBuffer, if_pos hpositive,
                ForeignMemory.memcpy, hpinned, Option.map_some]
              exact ⟨_, rfl, rfl, ForeignMemory.load_store _ _ _⟩

theorem readStrArg_of_load {memory : ForeignMemory} {ptr : ℕ} {str : String}
    (hload : memory.load ptr (Utf8.octetsOf str).length =
      some (Utf8.octetsOf str)) :
    readStrArg memory ptr (Utf8.octetsOf str).length = some (.ok str) := by
  have hbytes : (if (Utf8.octetsOf str).length = 0 then some []
      else memory.load ptr (Utf8.octetsOf str).length) =
        some (Utf8.octetsOf str) := by
    split
    · rename_i hempty
      rw [List.length_eq_zero_iff.mp hempty]
    · exact hload
  rw [readStrArg, hbytes, Option.map_some, Utf8.decode_octetsOf]

/-- The copy holds what lay at the pointer, pinned or not. -/
theorem copyOctets_of_load {place : Placement} {memory : ForeignMemory}
    {ptr len : ℕ} {octets : List UInt8}
    (hload : memory.load ptr len = some octets) :
    copyOctets place memory ptr len = some octets := by
  have hlength := ForeignMemory.length_of_load hload
  unfold copyOctets
  split
  · cases place.pinnable with
    | false => exact hload
    | true =>
        subst hlength
        simp only [if_true, ForeignMemory.memcpy, hload, Option.map_some,
          Option.bind_eq_bind, Option.bind_some]
        exact ForeignMemory.load_store _ _ _
  · rename_i hzero
    rw [List.length_eq_zero_iff.mp (by omega : octets.length = 0)]

/-! ## The layer above -/

/-- Babel as the wrapper model has it. -/
def WireHost.babel (host : WireHost) : Babel :=
  ⟨host.stringToOctets, host.octetsToString⟩

/-- The octets lent are those of `utf8Octets`. -/
theorem callWithUtf8Arg_eq (host : WireHost) (place : Placement)
    (memory : ForeignMemory) (s : LispString) :
    callWithUtf8Arg host.babel place memory s =
      (utf8Octets host (.string s.codes)).bind (callWithBytesArg place memory) := by
  rw [callWithUtf8Arg, LispString.asciiOctets_eq, utf8Octets]
  cases Utf8.asciiOctets s.codes <;> rfl

/-- The string made is that of `foreignUtf8`. -/
theorem copyUtf8_eq (host : WireHost) {place : Placement}
    {memory : ForeignMemory} {ptr : ℕ} {octets : List UInt8}
    (hload : memory.load ptr octets.length = some octets) :
    (copyUtf8 host.babel place memory ptr octets.length).map LispValue.string =
      foreignUtf8 host (.octets octets) (.length octets.length) := by
  unfold copyUtf8 foreignUtf8 foreignOctets
  by_cases hempty : octets.length = 0
  · simp [hempty, Utf8.asciiCodes]
  · simp only [if_neg hempty, copyOctets_of_load hload, octetsToAsciiString_eq,
      Option.bind_eq_bind, Option.bind_some, List.take_length]
    cases Utf8.asciiCodes octets <;> rfl

theorem WireHost.Lawful.babel_correct {host : WireHost} (hhost : host.Lawful) :
    host.babel.Correct where
  encodes := hhost.stringToOctets_utf8
  decodes octets s hdecode := by
    rw [← Utf8.octetsOf_of_decode hdecode]
    exact hhost.octetsToString_utf8 s

/-! ## Fast paths and round trip -/

/-- `foreign-utf8` makes the string of the octets, on either path. -/
theorem copyUtf8_of_load {babel : Babel} (hbabel : babel.Correct)
    {place : Placement} {memory : ForeignMemory} {ptr : ℕ} {str : String}
    (hload : memory.load ptr (Utf8.octetsOf str).length =
      some (Utf8.octetsOf str)) :
    copyUtf8 babel place memory ptr (Utf8.octetsOf str).length =
      some (Utf8.codesOf str) := by
  unfold copyUtf8
  split
  · rename_i hempty
    have hcodes : Utf8.asciiCodes (Utf8.octetsOf str) = some [] := by
      rw [List.length_eq_zero_iff.mp hempty]
      rfl
    rw [Utf8.codesOf_of_asciiCodes hcodes]
  · rw [copyOctets_of_load hload]
    simp only [Option.bind_eq_bind, Option.bind_some, octetsToAsciiString_eq]
    cases hascii : Utf8.asciiCodes (Utf8.octetsOf str) with
    | some codes => rw [Utf8.codesOf_of_asciiCodes hascii]
    | none => exact hbabel.decodes _ _ (Utf8.decode_octetsOf str)

theorem asciiOctets_general {babel : Babel} (hbabel : babel.Correct)
    {s : LispString} {octets : List UInt8}
    (hascii : s.asciiOctets = some octets) :
    babel.stringToOctets s.codes = some octets := by
  rw [LispString.asciiOctets_eq] at hascii
  obtain ⟨str, hcodes, hoctets⟩ := Utf8.asciiOctets_eq_some hascii
  rw [← hcodes, ← hoctets]
  exact hbabel.encodes str

theorem octetsToAsciiString_general {babel : Babel} (hbabel : babel.Correct)
    {octets : List UInt8} {codes : List ℕ}
    (hascii : octetsToAsciiString octets = some codes) :
    babel.octetsToString octets = some codes := by
  rw [octetsToAsciiString_eq] at hascii
  obtain ⟨str, hcodes, hoctets⟩ :=
    Utf8.asciiOctets_eq_some (Utf8.asciiCodes_eq_some hascii)
  rw [← hcodes, ← hoctets]
  exact hbabel.decodes _ _ (Utf8.decode_octetsOf str)

/-- Any string without surrogates goes over as its UTF-8 octets, `str_arg`
takes them, and they come back as an equal string; the ASCII paths answer as
Babel would. -/
theorem utf8_transfer (babel : Babel) (hbabel : babel.Correct) :
    (∀ (s : LispString), s.Scalar → ∃ str : String, Utf8.codesOf str = s.codes ∧
      ∀ (place : Placement) (memory : ForeignMemory),
        ∃ lent, callWithUtf8Arg babel place memory s = some lent ∧
          lent.len = (Utf8.octetsOf str).length ∧
          lent.memory.load lent.ptr lent.len = some (Utf8.octetsOf str) ∧
          readStrArg lent.memory lent.ptr lent.len = some (.ok str) ∧
          ∀ (place' : Placement) (memory' : ForeignMemory) (ptr : ℕ),
            memory'.load ptr lent.len = some (Utf8.octetsOf str) →
              copyUtf8 babel place' memory' ptr lent.len = some s.codes) ∧
    (∀ (octets : List UInt8) (codes : List ℕ),
      octetsToAsciiString octets = some codes →
        babel.octetsToString octets = some codes) ∧
    ∀ (s : LispString) (octets : List UInt8),
      s.asciiOctets = some octets →
        babel.stringToOctets s.codes = some octets := by
  refine ⟨?_, fun _ _ => octetsToAsciiString_general hbabel,
    fun _ _ => asciiOctets_general hbabel⟩
  intro s hscalar
  obtain ⟨str, hcodes⟩ := hscalar.exists_codesOf
  refine ⟨str, hcodes, fun place memory => ?_⟩
  obtain ⟨lent, hlent, hlen, hload⟩ :=
    callWithBytesArg_lends place memory (Utf8.octetsOf str)
  have hcall : callWithUtf8Arg babel place memory s = some lent := by
    unfold callWithUtf8Arg
    cases hascii : s.asciiOctets with
    | some octets =>
        have hgeneral := asciiOctets_general hbabel hascii
        rw [← hcodes, hbabel.encodes, Option.some_inj] at hgeneral
        rw [← hgeneral]
        exact hlent
    | none =>
        simp only [← hcodes, hbabel.encodes]
        exact hlent
  refine ⟨lent, hcall, hlen, hload, ?_, ?_⟩
  · rw [hlen] at hload ⊢
    exact readStrArg_of_load hload
  · intro place' memory' ptr hmemory
    rw [hlen] at hmemory ⊢
    rw [← hcodes]
    exact copyUtf8_of_load hbabel hmemory

/-- `"né"` behind a fill pointer. -/
def fillPointerString : LispString :=
  .nonSimple [0x6e, 0xe9, 0x21] 0 2 (by decide)

/-- Its octets are lent as the wrapper's own, and come back as its string. -/
theorem utf8_transfer_fillPointer :
    ∃ str : String, Utf8.codesOf str = [0x6e, 0xe9] ∧
      ∃ lent, callWithUtf8Arg strictHost.babel ⟨true, true, 0, 64⟩ (fun _ => none)
          fillPointerString = some lent ∧
        (utf8Octets strictHost (.string [0x6e, 0xe9])).bind
          (callWithBytesArg ⟨true, true, 0, 64⟩ fun _ => none) = some lent ∧
        readStrArg lent.memory lent.ptr lent.len = some (.ok str) ∧
        foreignUtf8 strictHost (.octets (Utf8.octetsOf str))
          (.length (Utf8.octetsOf str).length) =
            some (.string [0x6e, 0xe9]) := by
  have hscalar : fillPointerString.Scalar := by
    unfold LispString.Scalar
    decide
  obtain ⟨str, hcodes, hall⟩ :=
    (utf8_transfer strictHost.babel strictHost_lawful.babel_correct).1
      fillPointerString hscalar
  obtain ⟨lent, hlent, hlen, hload, hread, hback⟩ :=
    hall ⟨true, true, 0, 64⟩ fun _ => none
  refine ⟨str, hcodes, lent, hlent, ?_, hread, ?_⟩
  · rw [← hlent, callWithUtf8Arg_eq]
    rfl
  · have hcopied := hback ⟨true, true, 0, 64⟩ lent.memory lent.ptr
      (hlen ▸ hload)
    rw [hlen] at hload hcopied
    rw [← copyUtf8_eq strictHost hload, hcopied]
    rfl

end Rulisp

import Mathlib.Data.List.DropRight
import Rulisp.FetchRequest
import Rulisp.HttpdResponse
import Rulisp.Utf8

/-!
# Header blocks

Both examples hand header fields over as one octet string,
`name: value` CRLF repeated.  The Lisp side validates and encodes the fields
of a response or a request and decodes those it is given; the Rust side has
an encoder and a decoder of its own in each crate.  `babel`, the printer and
the `http` crate are parameters.
-/

namespace Rulisp

namespace HeaderBlock

abbrev Bytes := List UInt8

/-! ## The Lisp side -/

/-- A string designator, with the codes of its characters. -/
inductive Designator
  | string (codes : List ℕ)
  | symbol (name : List ℕ)
  | character (code : ℕ)
  deriving DecidableEq, Repr

/-- `(string name)`. -/
def Designator.codes : Designator → List ℕ
  | .string codes => codes
  | .symbol name => name
  | .character code => [code]

inductive HeaderValue
  | string (codes : List ℕ)
  | octets (bytes : Bytes)
  deriving DecidableEq, Repr

/-- The elements that `across` runs over. -/
def HeaderValue.elements : HeaderValue → List ℕ
  | .string codes => codes
  | .octets bytes => bytes.map UInt8.toNat

/-- What Babel, the printer and `char-downcase` answer. -/
structure TextHost where
  /-- The UTF-8 octets of one character; `none` where Babel signals. -/
  utf8 : ℕ → Option Bytes
  prin1 : List ℕ → String
  princ : Designator → String
  downcase : ℕ → ℕ

/-- An ASCII character is one octet, and any other is of octets from 128
on. -/
structure TextHost.Lawful (text : TextHost) : Prop where
  ascii : ∀ code < 128, text.utf8 code = some [UInt8.ofNat code]
  other : ∀ code octets, 128 ≤ code → text.utf8 code = some octets →
    ∀ octet ∈ octets, 128 ≤ octet

/-- What the encoder signals. -/
inductive Signal
  | httpError (kind detail : String)
  | encodingError
  deriving DecidableEq, Repr

def refuseIf (kind : String) (test : Bool) (detail : String) :
    Except Signal Unit :=
  if test then .error (.httpError kind detail) else .ok ()

/-- The characters that a name must not have. -/
def separators : List ℕ :=
  ":()<>@,;\\\"/[]?=\x7b\x7d ".toList.map Char.toNat

def nameCharacter (code : ℕ) : Bool :=
  32 < code && code < 127 && code ∉ separators

def badInValue (b : ℕ) : Bool := b = 13 || b = 10 || b = 0

section Lisp

variable (text : TextHost) (kind : String)

/-- `%validate-header`. -/
def validateHeader (name : Designator) (value : HeaderValue) :
    Except Signal Unit := do
  refuseIf kind name.codes.isEmpty "empty header name"
  refuseIf kind (name.codes.any fun ch => !nameCharacter ch)
    ("illegal character in header name " ++ text.prin1 name.codes)
  refuseIf kind (value.elements.any badInValue)
    ("CR, LF or NUL in the value of " ++ text.princ name)

/-- `babel:string-to-octets`. -/
def stringToOctets (codes : List ℕ) : Option Bytes :=
  (codes.mapM text.utf8).map List.flatten

def HeaderValue.encoded : HeaderValue → Option Bytes
  | .string codes => stringToOctets text codes
  | .octets bytes => some bytes

/-- The octets of a field's name and of its value. -/
def fieldOctets (field : Designator × HeaderValue) : Option (Bytes × Bytes) := do
  let name ← stringToOctets text field.1.codes
  let value ← field.2.encoded text
  return (name, value)

/-- One field of a block. -/
def putField (field : Bytes × Bytes) : Bytes :=
  field.1 ++ [58, 32] ++ field.2 ++ [13, 10]

/-- `%encode-headers`; `none` is NIL. -/
def encodeHeaders (alist : List (Designator × HeaderValue)) :
    Except Signal (Option Bytes) :=
  if alist = [] then .ok none
  else do
    alist.forM fun (name, value) => validateHeader text kind name value
    match alist.mapM (fieldOctets text) with
    | some fields => return some (fields.flatMap putField)
    | none => .error .encodingError

/-- The lines that `%decode-headers` collects. -/
def decodedLines (octets : Bytes) : List Bytes :=
  (Httpd.headerLines [] octets).filterMap fun (line, terminated) =>
    let line :=
      if terminated ∧ line.getLast? = some 13 then line.dropLast else line
    if line = [] then none else some line

def latin1 (bytes : Bytes) : List ℕ := bytes.map UInt8.toNat

/-- `%decode-headers`; a line without a colon is passed over. -/
def decodeHeaders (octets : Bytes) : List (List ℕ × List ℕ) :=
  (decodedLines octets).filterMap fun line =>
    if 58 ∈ line then
      let c := line.idxOf 58
      some ((latin1 (line.take c)).map text.downcase,
        latin1 ((line.drop (c + 1)).dropWhile (· = 32)))
    else none

end Lisp

end HeaderBlock

/-! ## Both examples -/

namespace Httpd

open HeaderBlock

/-- `%encode-headers` of `httpd`. -/
def lispEncodeHeaders (text : TextHost) :
    List (Designator × HeaderValue) → Except Signal (Option Bytes) :=
  HeaderBlock.encodeHeaders text "response"

/-- `%decode-headers` of `httpd`. -/
def lispDecodeHeaders (text : TextHost) : Bytes → List (List ℕ × List ℕ) :=
  HeaderBlock.decodeHeaders text

/-- `encode_headers`. -/
def encodeHeaders (map : HeaderMap) : Bytes :=
  map.flatMap fun (name, value) => putField (Utf8.octetsOf name, value)

end Httpd

namespace Fetch

open HeaderBlock

/-- `%encode-headers` of `fetch`. -/
def lispEncodeHeaders (text : TextHost) :
    List (Designator × HeaderValue) → Except Signal (Option Bytes) :=
  HeaderBlock.encodeHeaders text "request"

/-- `%decode-headers` of `fetch`. -/
def lispDecodeHeaders (text : TextHost) : Bytes → List (List ℕ × List ℕ) :=
  HeaderBlock.decodeHeaders text

/-- `encode_headers`. -/
def encodeHeaders (map : Httpd.HeaderMap) : Bytes :=
  map.flatMap fun (name, value) => putField (Utf8.octetsOf name, value)

/-- `HttpError::request`. -/
def HttpError.request (msg : String) : HttpError := ⟨"request", msg⟩

/-- `char::is_whitespace`. -/
def isWhitespace (code : ℕ) : Bool :=
  (9 ≤ code && code ≤ 13) || code = 32 || code = 0x85 || code = 0xA0 ||
    code = 0x1680 || (0x2000 ≤ code && code ≤ 0x200A) || code = 0x2028 ||
    code = 0x2029 || code = 0x202F || code = 0x205F || code = 0x3000

/-- `str::trim`. -/
def trim (s : String) : String :=
  let start := s.toList.dropWhile fun ch => isWhitespace ch.toNat
  .ofList (start.reverse.dropWhile fun ch => isWhitespace ch.toNat).reverse

def isBlank (b : UInt8) : Bool := b = 32 || b = 9

/-- `block.split(…)`; `line` has been read, backwards. -/
def splitLines (line : Bytes) : Bytes → List Bytes
  | [] => [line.reverse]
  | b :: rest =>
      if b = 10 then line.reverse :: splitLines [] rest
      else splitLines (b :: line) rest

section DecodeHeaders

variable (host : Httpd.HeaderHost)

/-- The field of a line without its CR. -/
def decodeField (line : Bytes) : Except HttpError (String × Bytes) := do
  if 58 ∉ line then .error (.request "header line without a colon")
  let colon := line.idxOf 58
  let name ←
    match Utf8.decode (line.take colon) with
    | some name => .ok (trim name)
    | none => .error (.request "header name is not ASCII")
  let value := (line.drop (colon + 1)).dropWhile isBlank
  let name ← (host.headerName (Utf8.octetsOf name)).mapError
    fun e => .request ("bad header name: " ++ e)
  let value ← (host.headerValue value).mapError
    fun e => .request ("bad header value: " ++ e)
  return (name, value)

/-- One turn of the loop of `decode_headers`; an empty line is skipped. -/
def decodeHeaderLine (line : Bytes) :
    Except HttpError (Option (String × Bytes)) :=
  if line.getLast? = some 13 then
    if line.dropLast = [] then .ok none
    else (decodeField host line.dropLast).map some
  else if line = [] then .ok none
  else .error (.request "header block must terminate every field with CRLF")

/-- `decode_headers`. -/
def decodeHeaders (block : Bytes) : Except HttpError Httpd.HeaderMap := do
  let fields ← (splitLines [] block).mapM (decodeHeaderLine host)
  return (fields.filterMap id).foldl Httpd.HeaderMap.append []

end DecodeHeaders

end Fetch

namespace HeaderBlock

open Httpd Fetch

/-! ## Fields kept -/

/-- A name up to case, as `HeaderName` keeps it. -/
def lowerName (name : Bytes) : String :=
  .ofList (name.map fun b => (Char.ofNat b.toNat).toLower)

/-- A value up to leading blanks. -/
def dropBlanks (value : Bytes) : Bytes := value.dropWhile isBlank

/-- The map has the given fields: for each name, the values given under it,
in their order. -/
def SameFields (given : List (Bytes × Bytes)) (map : HeaderMap) : Prop :=
  ∀ name, (given.filter fun field => lowerName field.1 = name).map
      (fun field => dropBlanks field.2) =
    (map.filter fun field => field.1 = name).map fun field => dropBlanks field.2

/-- After its leading blanks the value begins with a form feed. -/
def FormFeedFirst (value : Bytes) : Prop := (dropBlanks value).head? = some 12

/-- What is relied on of the `http` crate: a name is kept in lower case, and
a value is kept as it is, without control characters other than the tab. -/
structure CrateLaws (host : HeaderHost) : Prop where
  headerName : ∀ bytes name, host.headerName bytes = .ok name →
    name = lowerName bytes
  headerValue : ∀ bytes value, host.headerValue bytes = .ok value →
    value = bytes ∧ ∀ b ∈ bytes, b = 9 ∨ (32 ≤ b ∧ b ≠ 127)

/-- What validation leaves of a field. -/
structure Clean (field : Bytes × Bytes) : Prop where
  name : ∀ b ∈ field.1, nameCharacter b.toNat = true
  value : ∀ b ∈ field.2, b ≠ 13 ∧ b ≠ 10

/-! ## Octets of names and values -/

theorem nameCharacter_bounds {code : ℕ} (hname : nameCharacter code = true) :
    32 < code ∧ code < 127 ∧ code ∉ separators := by
  simpa [nameCharacter, and_assoc] using hname

theorem mapM_utf8_octets {text : TextHost} (htext : text.Lawful)
    {codes : List ℕ} {parts : List Bytes}
    (hparts : codes.mapM text.utf8 = some parts) :
    ∀ b ∈ parts.flatten, b.toNat ∈ codes ∨ 128 ≤ b := by
  induction codes generalizing parts with
  | nil =>
      cases hparts
      simp
  | cons code codes ih =>
      simp only [List.mapM_cons, Option.bind_eq_bind, Option.bind_eq_some_iff,
        Option.pure_def, Option.some.injEq] at hparts
      obtain ⟨part, hpart, rest, hrest, rfl⟩ := hparts
      intro b hb
      rw [List.flatten_cons, List.mem_append] at hb
      rcases hb with hb | hb
      · by_cases hascii : code < 128
        · rw [htext.ascii code hascii] at hpart
          cases hpart
          rw [List.mem_singleton.mp hb]
          left
          have hcode : (UInt8.ofNat code).toNat = code := by
            rw [UInt8.toNat_ofNat']
            omega
          rw [hcode]
          exact List.mem_cons_self
        · exact .inr (htext.other code part (by omega) hpart b hb)
      · rcases ih hrest b hb with hmem | hhigh
        · exact .inl (List.mem_cons_of_mem _ hmem)
        · exact .inr hhigh

/-- An octet of an encoded string is one of its characters or no ASCII. -/
theorem stringToOctets_octets {text : TextHost} (htext : text.Lawful)
    {codes : List ℕ} {octets : Bytes}
    (hoctets : stringToOctets text codes = some octets) :
    ∀ b ∈ octets, b.toNat ∈ codes ∨ 128 ≤ b := by
  obtain ⟨parts, hparts, rfl⟩ := Option.map_eq_some_iff.mp hoctets
  exact mapM_utf8_octets htext hparts

/-- ASCII characters are encoded as they are. -/
theorem stringToOctets_ascii {text : TextHost} (htext : text.Lawful)
    {codes : List ℕ} (hascii : ∀ code ∈ codes, code < 128) :
    stringToOctets text codes = some (codes.map UInt8.ofNat) := by
  unfold stringToOctets
  induction codes with
  | nil => rfl
  | cons code codes ih =>
      have hrest := ih fun code' hcode' => hascii code' (List.mem_cons_of_mem _ hcode')
      obtain ⟨parts, hparts, hflat⟩ := Option.map_eq_some_iff.mp hrest
      have hcode := htext.ascii code (hascii code List.mem_cons_self)
      simp [hcode, hparts, hflat]

theorem validateHeader_eq_ok {text : TextHost} {kind : String}
    {name : Designator} {value : HeaderValue} :
    validateHeader text kind name value = .ok () ↔
      name.codes ≠ [] ∧ (∀ code ∈ name.codes, nameCharacter code = true) ∧
        ∀ code ∈ value.elements, badInValue code = false := by
  unfold validateHeader refuseIf
  cases hempty : name.codes.isEmpty with
  | true =>
      rw [List.isEmpty_iff] at hempty
      simp [hempty, bind, Except.bind]
  | false =>
      cases hname : name.codes.any fun ch => !nameCharacter ch with
      | true =>
          have hillegal : ¬∀ code ∈ name.codes, nameCharacter code = true := by
            simpa using hname
          simp [hillegal, bind, Except.bind]
      | false =>
          have hlegal : ∀ code ∈ name.codes, nameCharacter code = true := by
            simpa using hname
          have hnonempty : name.codes ≠ [] := by simpa using hempty
          simp [hnonempty, bind, Except.bind]
          exact fun _ => hlegal

theorem toNat_ofNat_of_lt {code : ℕ} (hlt : code < 256) :
    (UInt8.ofNat code).toNat = code := by
  rw [UInt8.toNat_ofNat']
  omega

/-- A field that passes `%validate-header` is clean. -/
theorem clean_of_validated {text : TextHost} (htext : text.Lawful)
    {kind : String} {name : Designator} {value : HeaderValue}
    (hvalid : validateHeader text kind name value = .ok ())
    {octets : Bytes × Bytes}
    (hoctets : fieldOctets text (name, value) = some octets) : Clean octets := by
  obtain ⟨-, hname, hvalue⟩ := validateHeader_eq_ok.mp hvalid
  have hbound : ∀ code ∈ name.codes, code < 128 := fun code hcode =>
    (nameCharacter_bounds (hname code hcode)).2.1.trans (by decide)
  simp only [fieldOctets, Option.bind_eq_bind, Option.bind_eq_some_iff,
    Option.pure_def, Option.some.injEq] at hoctets
  obtain ⟨nameOctets, hnameOctets, valueOctets, hvalueOctets, rfl⟩ := hoctets
  rw [stringToOctets_ascii htext hbound, Option.some_inj] at hnameOctets
  subst hnameOctets
  constructor
  · intro b hb
    obtain ⟨code, hcode, rfl⟩ := List.mem_map.mp hb
    have hlt := hbound code hcode
    rw [toNat_ofNat_of_lt (by omega)]
    exact hname code hcode
  · intro b hb
    have helement : b.toNat ∈ value.elements ∨ 128 ≤ b := by
      cases value with
      | string codes => exact stringToOctets_octets htext hvalueOctets b hb
      | octets bytes =>
          cases hvalueOctets
          exact .inl (List.mem_map_of_mem hb)
    constructor
    · rintro rfl
      rcases helement with hmem | hhigh
      · exact absurd (hvalue _ hmem) (by decide)
      · exact absurd hhigh (by decide)
    · rintro rfl
      rcases helement with hmem | hhigh
      · exact absurd (hvalue _ hmem) (by decide)
      · exact absurd hhigh (by decide)

theorem forM_eq_ok {α ε : Type} {f : α → Except ε Unit} {xs : List α}
    (hok : xs.forM f = .ok ()) : ∀ x ∈ xs, f x = .ok () := by
  induction xs with
  | nil => simp
  | cons x xs ih =>
      change (f x >>= fun _ => xs.forM f) = .ok () at hok
      cases hx : f x with
      | error e =>
          rw [hx] at hok
          cases hok
      | ok value =>
          rw [hx] at hok
          intro y hy
          rcases List.mem_cons.mp hy with rfl | hy
          · exact hx
          · exact ih hok y hy

theorem mem_of_mapM {α β : Type} {f : α → Option β} {xs : List α} {ys : List β}
    (hmap : xs.mapM f = some ys) : ∀ y ∈ ys, ∃ x ∈ xs, f x = some y := by
  induction xs generalizing ys with
  | nil =>
      cases hmap
      simp
  | cons x xs ih =>
      simp only [List.mapM_cons, Option.bind_eq_bind, Option.bind_eq_some_iff,
        Option.pure_def, Option.some.injEq] at hmap
      obtain ⟨first, hfirst, rest, hrest, rfl⟩ := hmap
      intro y hy
      rcases List.mem_cons.mp hy with rfl | hy
      · exact ⟨x, List.mem_cons_self, hfirst⟩
      · obtain ⟨x', hx', hfx'⟩ := ih hrest y hy
        exact ⟨x', List.mem_cons_of_mem _ hx', hfx'⟩

/-- The block that the encoder builds, of clean fields. -/
theorem encodeHeaders_eq_ok {text : TextHost} (htext : text.Lawful)
    {kind : String} {alist : List (Designator × HeaderValue)} {block : Bytes}
    (hblock : encodeHeaders text kind alist = .ok (some block)) :
    ∃ given, alist.mapM (fieldOctets text) = some given ∧
      block = given.flatMap putField ∧ ∀ field ∈ given, Clean field := by
  unfold encodeHeaders at hblock
  split at hblock
  · cases hblock
  · cases hvalid : alist.forM fun (name, value) =>
        validateHeader text kind name value with
    | error e =>
        rw [hvalid] at hblock
        cases hblock
    | ok value =>
        rw [hvalid] at hblock
        cases hgiven : alist.mapM (fieldOctets text) with
        | none =>
            rw [hgiven] at hblock
            cases hblock
        | some given =>
            rw [hgiven] at hblock
            cases hblock
            refine ⟨given, rfl, rfl, fun field hfield => ?_⟩
            obtain ⟨⟨name, value⟩, hmem, hoctets⟩ := mem_of_mapM hgiven field hfield
            exact clean_of_validated htext (forM_eq_ok hvalid _ hmem) hoctets

/-! ## The lines of a block -/

/-- A field's line, up to the line feed. -/
def fieldLine (field : Bytes × Bytes) : Bytes :=
  field.1 ++ [58, 32] ++ field.2 ++ [13]

theorem putField_eq (field : Bytes × Bytes) :
    putField field = fieldLine field ++ [10] := by
  simp [putField, fieldLine]

theorem headerLines_append {line rest : Bytes} (read : Bytes)
    (hline : 10 ∉ line) :
    headerLines read (line ++ 10 :: rest) =
      (read.reverse ++ line, true) :: headerLines [] rest := by
  induction line generalizing read with
  | nil => simp [headerLines]
  | cons b line ih =>
      obtain ⟨hb, hline⟩ : 10 ≠ b ∧ 10 ∉ line := by simpa using hline
      rw [List.cons_append, headerLines, if_neg (Ne.symm hb), ih _ hline]
      simp

theorem splitLines_append {line rest : Bytes} (read : Bytes)
    (hline : 10 ∉ line) :
    splitLines read (line ++ 10 :: rest) =
      (read.reverse ++ line) :: splitLines [] rest := by
  induction line generalizing read with
  | nil => simp [splitLines]
  | cons b line ih =>
      obtain ⟨hb, hline⟩ : 10 ≠ b ∧ 10 ∉ line := by simpa using hline
      rw [List.cons_append, splitLines, if_neg (Ne.symm hb), ih _ hline]
      simp

/-- A block of fields without line feeds has the fields' lines. -/
theorem headerLines_block {fields : List (Bytes × Bytes)}
    (hfields : ∀ field ∈ fields, 10 ∉ fieldLine field) :
    headerLines [] (fields.flatMap putField) =
      fields.map fun field => (fieldLine field, true) := by
  induction fields with
  | nil => rfl
  | cons field fields ih =>
      obtain ⟨hfirst, hrest⟩ := List.forall_mem_cons.mp hfields
      rw [List.flatMap_cons, putField_eq, List.append_assoc, List.singleton_append,
        headerLines_append [] hfirst, ih hrest]
      rfl

theorem splitLines_block {fields : List (Bytes × Bytes)}
    (hfields : ∀ field ∈ fields, 10 ∉ fieldLine field) :
    splitLines [] (fields.flatMap putField) = fields.map fieldLine ++ [[]] := by
  induction fields with
  | nil => rfl
  | cons field fields ih =>
      obtain ⟨hfirst, hrest⟩ := List.forall_mem_cons.mp hfields
      rw [List.flatMap_cons, putField_eq, List.append_assoc, List.singleton_append,
        splitLines_append [] hfirst, ih hrest]
      rfl

theorem separators_spec : 58 ∈ separators ∧ 32 ∈ separators := by decide

theorem Clean.name_ne {field : Bytes × Bytes} (hclean : Clean field) :
    ∀ b ∈ field.1, b ≠ 58 ∧ 32 < b.toNat ∧ b.toNat < 127 := by
  intro b hb
  obtain ⟨hlow, hhigh, hseparator⟩ := nameCharacter_bounds (hclean.name b hb)
  refine ⟨?_, hlow, hhigh⟩
  rintro rfl
  exact hseparator separators_spec.1

theorem Clean.no_lineFeed {field : Bytes × Bytes} (hclean : Clean field) :
    10 ∉ fieldLine field := by
  intro hmem
  simp only [fieldLine, List.mem_append, List.mem_cons, List.not_mem_nil,
    or_false] at hmem
  rcases hmem with ((hname | hsep) | hvalue) | hcr
  · exact absurd (hclean.name_ne 10 hname).2.1 (by decide)
  · exact absurd hsep (by decide)
  · exact (hclean.value 10 hvalue).2 rfl
  · exact absurd hcr (by decide)

/-- The colon after the name is the first. -/
theorem idxOf_colon {name rest : Bytes} (hname : 58 ∉ name) :
    (name ++ 58 :: rest).idxOf 58 = name.length := by
  rw [List.idxOf_append_of_notMem hname, List.idxOf_cons_self, Nat.add_zero]

/-! ## What the decoders make of a field's line -/

theorem isAsciiWhitespace_eq_false {b : UInt8} (hb : 32 < b.toNat) :
    isAsciiWhitespace b = false := by
  have hne : ∀ c : UInt8, c.toNat ≤ 32 → b ≠ c := by
    rintro c hc rfl
    omega
  simp [isAsciiWhitespace, hne 32 (by decide), hne 9 (by decide),
    hne 10 (by decide), hne 12 (by decide), hne 13 (by decide)]

/-- Nothing is trimmed off octets that are no white space. -/
theorem dropWhile_ends {α : Type} {p : α → Bool} {xs : List α}
    (hxs : ∀ x ∈ xs, p x = false) :
    ((xs.dropWhile p).reverse.dropWhile p).reverse = xs := by
  have hstart : ∀ {ys : List α}, (∀ y ∈ ys, p y = false) → ys.dropWhile p = ys := by
    intro ys hys
    cases ys with
    | nil => rfl
    | cons y ys => simp [hys y List.mem_cons_self]
  have hback : ∀ x ∈ xs.reverse, p x = false := fun x hx =>
    hxs x (List.mem_reverse.mp hx)
  rw [hstart hxs, hstart hback, List.reverse_reverse]

theorem Clean.trimAscii_name {field : Bytes × Bytes} (hclean : Clean field) :
    trimAscii field.1 = field.1 :=
  dropWhile_ends fun b hb =>
    isAsciiWhitespace_eq_false (hclean.name_ne b hb).2.1

theorem isWhitespace_eq_false {code : ℕ} (hlow : 32 < code) (hhigh : code < 127) :
    isWhitespace code = false := by
  unfold isWhitespace
  simp
  omega

/-- A clean name is ASCII text that `trim` leaves as it is. -/
theorem Clean.decode_name {field : Bytes × Bytes} (hclean : Clean field) :
    ∃ s, Utf8.decode field.1 = some s ∧ Utf8.octetsOf (trim s) = field.1 := by
  have hcodes : Utf8.asciiCodes field.1 = some (field.1.map UInt8.toNat) := by
    have hascii : ∀ b ∈ field.1, b < 128 := by
      intro b hb
      have hlt := (hclean.name_ne b hb).2.2
      rw [UInt8.lt_iff_toNat_lt]
      exact hlt.trans (by decide)
    revert hascii
    generalize field.1 = name
    intro hascii
    induction name with
    | nil => rfl
    | cons b name ih =>
        obtain ⟨hb, hrest⟩ := List.forall_mem_cons.mp hascii
        have htail := ih hrest
        simp only [Utf8.asciiCodes] at htail
        simp [Utf8.asciiCodes, hb, htail]
  obtain ⟨s, hs, hoctets⟩ :=
    Utf8.asciiOctets_eq_some (Utf8.asciiCodes_eq_some hcodes)
  have htrim : trim s = s := by
    have hspace : ∀ ch ∈ s.toList, isWhitespace ch.toNat = false := by
      intro ch hch
      have hcode : ch.toNat ∈ field.1.map UInt8.toNat := by
        rw [← hs]
        exact List.mem_map_of_mem hch
      obtain ⟨b, hb, heq⟩ := List.mem_map.mp hcode
      obtain ⟨-, hlow, hhigh⟩ := hclean.name_ne b hb
      rw [← heq]
      exact isWhitespace_eq_false hlow hhigh
    rw [trim, dropWhile_ends hspace, String.ofList_toList]
  refine ⟨s, ?_, ?_⟩
  · rw [← hoctets, Utf8.decode_octetsOf]
  · rw [htrim, hoctets]

/-- The line without its CR, as both decoders strip it. -/
theorem fieldLine_strip (field : Bytes × Bytes) :
    (fieldLine field).getLast? = some 13 ∧
      (fieldLine field).dropLast = field.1 ++ 58 :: 32 :: field.2 := by
  unfold fieldLine
  constructor
  · exact List.getLast?_concat
  · rw [List.dropLast_concat]
    simp

theorem Clean.colon {field : Bytes × Bytes} (hclean : Clean field) :
    58 ∈ field.1 ++ 58 :: 32 :: field.2 ∧
      (field.1 ++ 58 :: 32 :: field.2).idxOf 58 = field.1.length := by
  refine ⟨by simp, idxOf_colon fun hmem => ?_⟩
  exact (hclean.name_ne 58 hmem).1 rfl

theorem mapM_eq_map {ε α β : Type} {f : α → Except ε β} {g : α → β}
    {xs : List α} {ys : List β} (hf : ∀ x ∈ xs, ∀ y, f x = .ok y → y = g x)
    (hok : xs.mapM f = .ok ys) : ys = xs.map g := by
  induction xs generalizing ys with
  | nil =>
      cases hok
      rfl
  | cons x xs ih =>
      rw [List.mapM_cons] at hok
      cases hx : f x with
      | error e =>
          rw [hx] at hok
          cases hok
      | ok y =>
          rw [hx] at hok
          cases hrest : xs.mapM f with
          | error e =>
              simp only [hrest] at hok
              cases hok
          | ok rest =>
              simp only [hrest] at hok
              cases hok
              rw [List.map_cons, ← hf x List.mem_cons_self y hx,
                ← ih (fun x' hx' => hf x' (List.mem_cons_of_mem _ hx')) hrest]

section Decoders

variable {host : HeaderHost} (hhost : CrateLaws host)
include hhost

/-- `httpd` takes white space off the front of the value. -/
theorem Clean.decode_httpd {field : Bytes × Bytes} (hclean : Clean field)
    {decoded : Option (String × Bytes)}
    (hok : Httpd.decodeHeaderLine host (fieldLine field, true) = .ok decoded) :
    decoded = some (lowerName field.1, trimAsciiStart field.2) := by
  obtain ⟨hlast, hstrip⟩ := fieldLine_strip field
  obtain ⟨hcolon, hidx⟩ := hclean.colon
  have hnonempty : field.1 ++ 58 :: 32 :: field.2 ≠ [] := by simp
  have hspace : trimAsciiStart (32 :: field.2) = trimAsciiStart field.2 := rfl
  simp only [Httpd.decodeHeaderLine, hlast, hstrip, Httpd.refuseIf, ne_eq,
    not_true_eq_false, false_and, if_false, if_true, hnonempty, hcolon, hidx,
    List.take_left, List.drop_append, hclean.trimAscii_name] at hok
  simp only [bind, Except.bind, Nat.add_sub_cancel_left, List.drop_one,
    List.drop_eq_nil_of_le (Nat.le_add_right field.1.length 1), List.nil_append,
    List.tail_cons, hspace] at hok
  cases hname : host.headerName field.1 with
  | error e =>
      rw [hname] at hok
      cases hok
  | ok name =>
      rw [hname] at hok
      cases hvalue : host.headerValue (trimAsciiStart field.2) with
      | error e =>
          rw [hvalue] at hok
          cases hok
      | ok value =>
          rw [hvalue] at hok
          cases hok
          rw [hhost.headerName _ _ hname, (hhost.headerValue _ _ hvalue).1]

/-- `fetch` takes spaces and tabs off the front of the value. -/
theorem Clean.decode_fetch {field : Bytes × Bytes} (hclean : Clean field)
    {decoded : Option (String × Bytes)}
    (hok : Fetch.decodeHeaderLine host (fieldLine field) = .ok decoded) :
    decoded = some (lowerName field.1, dropBlanks field.2) := by
  obtain ⟨hlast, hstrip⟩ := fieldLine_strip field
  obtain ⟨hcolon, hidx⟩ := hclean.colon
  have hnonempty : field.1 ++ 58 :: 32 :: field.2 ≠ [] := by simp
  obtain ⟨s, hdecode, hoctets⟩ := hclean.decode_name
  have hspace : (32 :: field.2).dropWhile isBlank = dropBlanks field.2 := rfl
  simp only [Fetch.decodeHeaderLine, Fetch.decodeField, hlast, hstrip, if_true,
    if_false, hnonempty, hcolon, hidx, not_true_eq_false, List.take_left,
    List.drop_append, hdecode] at hok
  simp only [bind, Except.bind, pure, Except.pure, Nat.add_sub_cancel_left,
    List.drop_one, List.nil_append,
    List.drop_eq_nil_of_le (Nat.le_add_right field.1.length 1),
    List.tail_cons, hspace, hoctets] at hok
  cases hname : host.headerName field.1 with
  | error e =>
      rw [hname] at hok
      cases hok
  | ok name =>
      rw [hname] at hok
      cases hvalue : host.headerValue (dropBlanks field.2) with
      | error e =>
          rw [hvalue] at hok
          cases hok
      | ok value =>
          rw [hvalue] at hok
          cases hok
          rw [hhost.headerName _ _ hname, (hhost.headerValue _ _ hvalue).1]

theorem decode_httpd_block {fields : List (Bytes × Bytes)}
    (hclean : ∀ field ∈ fields, Clean field) {map : HeaderMap}
    (hok : Httpd.decodeHeaders host (fields.flatMap putField) = .ok map) :
    map = (fields.map fun field =>
      (lowerName field.1, trimAsciiStart field.2)).foldl HeaderMap.append [] := by
  unfold Httpd.decodeHeaders at hok
  rw [headerLines_block fun field hfield => (hclean field hfield).no_lineFeed] at hok
  cases hlines : (fields.map fun field => (fieldLine field, true)).mapM
      (Httpd.decodeHeaderLine host) with
  | error e =>
      rw [hlines] at hok
      cases hok
  | ok decoded =>
      rw [hlines] at hok
      cases hok
      rw [List.mapM_map] at hlines
      have hdecoded := mapM_eq_map
        (fun field hfield _ => (hclean field hfield).decode_httpd hhost) hlines
      rw [hdecoded, List.filterMap_map]
      exact congrArg (List.foldl HeaderMap.append [])
        (congrFun List.filterMap_eq_map' _)

theorem decode_fetch_block {fields : List (Bytes × Bytes)}
    (hclean : ∀ field ∈ fields, Clean field) {map : HeaderMap}
    (hok : Fetch.decodeHeaders host (fields.flatMap putField) = .ok map) :
    map = (fields.map fun field =>
      (lowerName field.1, dropBlanks field.2)).foldl HeaderMap.append [] := by
  unfold Fetch.decodeHeaders at hok
  rw [splitLines_block fun field hfield => (hclean field hfield).no_lineFeed,
    List.mapM_append] at hok
  cases hlines : (fields.map fieldLine).mapM (Fetch.decodeHeaderLine host) with
  | error e =>
      rw [hlines] at hok
      cases hok
  | ok decoded =>
      rw [hlines] at hok
      cases hok
      rw [List.mapM_map] at hlines
      have hdecoded := mapM_eq_map
        (fun field hfield _ => (hclean field hfield).decode_fetch hhost) hlines
      rw [hdecoded, List.filterMap_append, List.filterMap_map]
      simp

end Decoders

/-! ## Nothing is lost but a form feed -/

/-- The map groups the fields that it is given, and loses none. -/
theorem sameFields_append_iff {given : List (Bytes × Bytes)}
    {fields : List (String × Bytes)} :
    SameFields given (fields.foldl HeaderMap.append []) ↔
      SameFields given fields := by
  unfold SameFields
  refine forall_congr' fun name => ?_
  rw [HeaderMap.filter_foldl_append, List.filter_nil, List.nil_append]

theorem sameFields_map_iff {given : List (Bytes × Bytes)} {g : Bytes → Bytes} :
    SameFields given (given.map fun field => (lowerName field.1, g field.2)) ↔
      ∀ field ∈ given, dropBlanks (g field.2) = dropBlanks field.2 := by
  constructor
  · intro hsame field hfield
    have hname := hsame (lowerName field.1)
    rw [List.filter_map, List.map_map] at hname
    have hvalues := List.map_inj_left.mp hname field
      (by simpa [Function.comp_def] using hfield)
    exact hvalues.symm
  · intro hvalues name
    rw [List.filter_map, List.map_map]
    apply List.map_congr_left
    intro field hfield
    exact (hvalues field (List.mem_of_mem_filter hfield)).symm

theorem dropBlanks_dropBlanks (value : Bytes) :
    dropBlanks (dropBlanks value) = dropBlanks value :=
  List.dropWhile_idempotent ..

/-- Blanks are white space. -/
theorem trimAsciiStart_dropBlanks (value : Bytes) :
    trimAsciiStart (dropBlanks value) = trimAsciiStart value := by
  induction value with
  | nil => rfl
  | cons b value ih =>
      unfold dropBlanks
      cases hblank : isBlank b with
      | false => rw [List.dropWhile_cons_of_neg (by simp [hblank])]
      | true =>
          have hspace : isAsciiWhitespace b = true := by
            simp only [isBlank, Bool.or_eq_true, decide_eq_true_eq] at hblank
            rcases hblank with rfl | rfl <;> rfl
          rw [List.dropWhile_cons_of_pos hblank]
          unfold trimAsciiStart at ih ⊢
          rw [List.dropWhile_cons_of_pos hspace]
          exact ih

/-- White space that is no blank, in a clean value, is a form feed. -/
theorem isAsciiWhitespace_cases {b : UInt8} (hspace : isAsciiWhitespace b = true)
    (hclean : b ≠ 13 ∧ b ≠ 10) : isBlank b = true ∨ b = 12 := by
  simp only [isAsciiWhitespace, Bool.or_eq_true, decide_eq_true_eq] at hspace
  simp only [isBlank, Bool.or_eq_true, decide_eq_true_eq]
  obtain ⟨hcr, hlf⟩ := hclean
  tauto

theorem dropBlanks_trimAsciiStart_iff {value : Bytes}
    (hclean : ∀ b ∈ value, b ≠ 13 ∧ b ≠ 10) :
    dropBlanks (trimAsciiStart value) = dropBlanks value ↔
      ¬FormFeedFirst value := by
  have hmem : ∀ b ∈ dropBlanks value, b ∈ value := fun b hb =>
    (List.dropWhile_sublist isBlank).subset hb
  rw [← trimAsciiStart_dropBlanks, FormFeedFirst]
  cases hrest : dropBlanks value with
  | nil => simp [trimAsciiStart, dropBlanks]
  | cons b rest =>
      have hblank : isBlank b = false := by
        have hhead := List.head?_dropWhile_not isBlank value
        unfold dropBlanks at hrest
        rw [hrest] at hhead
        simpa using hhead
      rw [List.head?_cons, Option.some_inj]
      unfold trimAsciiStart
      cases hspace : isAsciiWhitespace b with
      | false =>
          rw [List.dropWhile_cons_of_neg (by simp [hspace])]
          have hne : b ≠ 12 := by
            rintro rfl
            cases hspace
          have hkeep : dropBlanks (b :: rest) = b :: rest :=
            List.dropWhile_cons_of_neg (by simp [hblank])
          simp [hkeep, hne]
      | true =>
          have hfeed : b = 12 := by
            have hb : b ∈ value := hmem b (by rw [hrest]; exact List.mem_cons_self)
            rcases isAsciiWhitespace_cases hspace (hclean b hb) with hb | hb
            · rw [hblank] at hb
              cases hb
            · exact hb
          rw [List.dropWhile_cons_of_pos hspace]
          have hshort : (dropBlanks (rest.dropWhile isAsciiWhitespace)).length <
              (b :: rest).length := by
            have hinner := (List.dropWhile_sublist isAsciiWhitespace
              (l := rest)).length_le
            have houter := (List.dropWhile_sublist isBlank
              (l := rest.dropWhile isAsciiWhitespace)).length_le
            unfold dropBlanks
            rw [List.length_cons]
            omega
          simp only [hfeed, not_true_eq_false, iff_false]
          intro hsame
          rw [hsame, hfeed] at hshort
          exact Nat.lt_irrefl _ hshort

/-! ## What Lisp reads of a block of the crates -/

/-- A name as the `http` crate keeps it. -/
def IsHeaderName (name : String) : Prop :=
  ∀ ch ∈ name.toList, nameCharacter ch.toNat = true

theorem IsHeaderName.octets {name : String} (hname : IsHeaderName name) :
    Utf8.octetsOf name = (Utf8.codesOf name).map UInt8.ofNat ∧
      latin1 (Utf8.octetsOf name) = Utf8.codesOf name := by
  have hascii : ∀ ch ∈ name.toList, ch.toNat < 128 := fun ch hch =>
    (nameCharacter_bounds (hname ch hch)).2.1.trans (by decide)
  have hoctets := Utf8.octetsOf_ascii hascii
  refine ⟨hoctets, ?_⟩
  rw [hoctets, latin1, List.map_map]
  conv_rhs => rw [← List.map_id (Utf8.codesOf name)]
  apply List.map_congr_left
  intro code hcode
  obtain ⟨ch, hch, rfl⟩ := List.mem_map.mp hcode
  have hlt := hascii ch hch
  exact toNat_ofNat_of_lt (by omega)

theorem IsHeaderName.clean {name : String} (hname : IsHeaderName name)
    {value : Bytes} (hvalue : ∀ b ∈ value, b ≠ 13 ∧ b ≠ 10) :
    Clean (Utf8.octetsOf name, value) := by
  refine ⟨fun b hb => ?_, hvalue⟩
  have hcode : b.toNat ∈ latin1 (Utf8.octetsOf name) := List.mem_map_of_mem hb
  rw [hname.octets.2] at hcode
  obtain ⟨ch, hch, heq⟩ := List.mem_map.mp hcode
  rw [← heq]
  exact hname ch hch

theorem decodedLines_block {fields : List (Bytes × Bytes)}
    (hclean : ∀ field ∈ fields, Clean field) :
    decodedLines (fields.flatMap putField) =
      fields.map fun field => field.1 ++ 58 :: 32 :: field.2 := by
  unfold decodedLines
  rw [headerLines_block fun field hfield => (hclean field hfield).no_lineFeed,
    List.filterMap_map, ← congrFun List.filterMap_eq_map']
  apply List.filterMap_congr
  intro field hfield
  obtain ⟨hlast, hstrip⟩ := fieldLine_strip field
  simp [hlast, hstrip]

/-- A clean field whose value does not begin with a space comes out as it
is, its name in lower case. -/
theorem decodeHeaders_block (text : TextHost) {fields : List (Bytes × Bytes)}
    (hclean : ∀ field ∈ fields, Clean field)
    (hspace : ∀ field ∈ fields, field.2.head? ≠ some 32) :
    decodeHeaders text (fields.flatMap putField) = fields.map fun field =>
      ((latin1 field.1).map text.downcase, latin1 field.2) := by
  unfold decodeHeaders
  rw [decodedLines_block hclean, List.filterMap_map,
    ← congrFun List.filterMap_eq_map']
  apply List.filterMap_congr
  intro field hfield
  obtain ⟨hcolon, hidx⟩ := (hclean field hfield).colon
  have hkeep : (32 :: field.2).dropWhile (fun b => decide (b = 32)) = field.2 := by
    rw [List.dropWhile_cons_of_pos (by decide)]
    cases hvalue : field.2 with
    | nil => rfl
    | cons b value =>
        have hne : b ≠ 32 := by
          rintro rfl
          exact hspace field hfield (by rw [hvalue]; rfl)
        rw [List.dropWhile_cons_of_neg (by simpa using hne)]
  simp only [Function.comp_apply, if_pos hcolon, hidx, List.take_left,
    List.drop_append, Nat.add_sub_cancel_left, List.drop_one, List.tail_cons,
    List.drop_eq_nil_of_le (Nat.le_add_right field.1.length 1), List.nil_append,
    hkeep]

theorem decode_encoded_map (text : TextHost) {map : HeaderMap}
    (hnames : ∀ field ∈ map, IsHeaderName field.1)
    (hvalues : ∀ field ∈ map, (∀ b ∈ field.2, b ≠ 13 ∧ b ≠ 10) ∧
      field.2.head? ≠ some 32) :
    decodeHeaders text
        (map.flatMap fun (name, value) => putField (Utf8.octetsOf name, value)) =
      map.map fun field =>
        ((Utf8.codesOf field.1).map text.downcase, latin1 field.2) := by
  have hflat : (map.flatMap fun (name, value) =>
      putField (Utf8.octetsOf name, value)) =
      (map.map fun field => (Utf8.octetsOf field.1, field.2)).flatMap putField := by
    rw [List.flatMap_map]
  rw [hflat, decodeHeaders_block text, List.map_map]
  · apply List.map_congr_left
    intro field hfield
    rw [Function.comp_apply, (hnames field hfield).octets.2]
  · intro field hfield
    obtain ⟨entry, hentry, rfl⟩ := List.mem_map.mp hfield
    exact (hnames entry hentry).clean (hvalues entry hentry).1
  · intro field hfield
    obtain ⟨entry, hentry, rfl⟩ := List.mem_map.mp hfield
    exact (hvalues entry hentry).2

/-! ## Blocks of both examples -/

/-- A block that the crate accepts has the fields that were given, but that
`httpd` takes a form feed before a value for white space; and Lisp reads the
fields of a map off its block. -/
theorem header_blocks_iff (text : TextHost) (htext : text.Lawful)
    (host : HeaderHost) (hhost : CrateLaws host) :
    (∀ alist block map, Httpd.lispEncodeHeaders text alist = .ok (some block) →
      Httpd.decodeHeaders host block = .ok map →
        ∃ given, alist.mapM (fieldOctets text) = some given ∧
          (SameFields given map ↔ ∀ field ∈ given, ¬FormFeedFirst field.2)) ∧
    (∀ alist block map, Fetch.lispEncodeHeaders text alist = .ok (some block) →
      Fetch.decodeHeaders host block = .ok map →
        ∃ given, alist.mapM (fieldOctets text) = some given ∧
          SameFields given map) ∧
    ∀ map : HeaderMap, (∀ field ∈ map, IsHeaderName field.1) →
      (∀ field ∈ map, (∀ b ∈ field.2, b ≠ 13 ∧ b ≠ 10) ∧
        field.2.head? ≠ some 32) →
      Httpd.lispDecodeHeaders text (Httpd.encodeHeaders map) =
          (map.map fun field =>
            ((Utf8.codesOf field.1).map text.downcase, latin1 field.2)) ∧
        Fetch.lispDecodeHeaders text (Fetch.encodeHeaders map) =
          map.map fun field =>
            ((Utf8.codesOf field.1).map text.downcase, latin1 field.2) := by
  refine ⟨?_, ?_, ?_⟩
  · intro alist block map hencode hdecode
    obtain ⟨given, hgiven, rfl, hclean⟩ := encodeHeaders_eq_ok htext hencode
    refine ⟨given, hgiven, ?_⟩
    rw [decode_httpd_block hhost hclean hdecode, sameFields_append_iff,
      sameFields_map_iff]
    exact forall₂_congr fun field hfield =>
      dropBlanks_trimAsciiStart_iff (hclean field hfield).value
  · intro alist block map hencode hdecode
    obtain ⟨given, hgiven, rfl, hclean⟩ := encodeHeaders_eq_ok htext hencode
    refine ⟨given, hgiven, ?_⟩
    rw [decode_fetch_block hhost hclean hdecode, sameFields_append_iff,
      sameFields_map_iff]
    exact fun field _ => dropBlanks_dropBlanks field.2
  · intro map hnames hvalues
    exact ⟨decode_encoded_map text hnames hvalues,
      decode_encoded_map text hnames hvalues⟩

/-! ## A field with a form feed -/

/-- Babel up to U+07FF, and a printer of ASCII. -/
def latinText : TextHost where
  utf8 code :=
    if code < 128 then some [UInt8.ofNat code]
    else if code < 2048 then
      some [UInt8.ofNat (192 + code / 64), UInt8.ofNat (128 + code % 64)]
    else none
  prin1 codes := "\"" ++ String.ofList (codes.map Char.ofNat) ++ "\""
  princ name := String.ofList (name.codes.map Char.ofNat)
  downcase code := if 65 ≤ code ∧ code ≤ 90 then code + 32 else code

theorem latinText_lawful : latinText.Lawful := by
  constructor
  · intro code hascii
    simp [latinText, hascii]
  · intro code octets hhigh hoctets octet hoctet
    have hnot : ¬code < 128 := by omega
    simp only [latinText, if_neg hnot] at hoctets
    split at hoctets
    · cases hoctets
      simp only [List.mem_cons, List.not_mem_nil, or_false] at hoctet
      rw [UInt8.le_iff_toNat_le]
      rcases hoctet with rfl | rfl <;>
        · rw [toNat_ofNat_of_lt (by omega)]
          change 128 ≤ _
          omega
    · cases hoctets

/-- The checks of `HeaderName` and `HeaderValue`. -/
def tokenHost : HeaderHost where
  headerName bytes :=
    if bytes ≠ [] ∧ bytes.all fun b => nameCharacter b.toNat then
      .ok (lowerName bytes)
    else .error "invalid HTTP header name"
  headerValue bytes :=
    if bytes.all fun b => b = 9 || (32 ≤ b && b ≠ 127) then .ok bytes
    else .error "failed to parse header value"
  fromUtf8Lossy bytes := String.ofList (bytes.map fun b => Char.ofNat b.toNat)

theorem tokenHost_laws : CrateLaws tokenHost := by
  constructor
  · intro bytes name hname
    simp only [tokenHost] at hname
    split at hname
    · cases hname
      rfl
    · cases hname
  · intro bytes value hvalue
    simp only [tokenHost] at hvalue
    split at hvalue
    · rename_i hall
      cases hvalue
      exact ⟨rfl, by simpa using hall⟩
    · cases hvalue

/-- `(("X-Note" . "…hi"))`, the value after the given octets. -/
def noteAlist (before : List ℕ) : List (Designator × HeaderValue) :=
  [(.string (Utf8.codesOf "X-Note"), .string (before ++ Utf8.codesOf "hi"))]

theorem header_blocks_iff_note :
    SameFields [(Utf8.octetsOf "X-Note", Utf8.octetsOf "\thi")]
      [("x-note", Utf8.octetsOf "hi")] := by
  obtain ⟨given, hgiven, hsame⟩ :=
    (header_blocks_iff latinText latinText_lawful tokenHost tokenHost_laws).1
      (noteAlist [9]) (Utf8.octetsOf "X-Note: \thi\r\n")
      [("x-note", Utf8.octetsOf "hi")] (by decide +kernel) (by decide +kernel)
  have hfields : (noteAlist [9]).mapM (fieldOctets latinText) =
      some [(Utf8.octetsOf "X-Note", Utf8.octetsOf "\thi")] := by decide +kernel
  rw [hfields, Option.some_inj] at hgiven
  subst hgiven
  apply hsame.mpr
  unfold FormFeedFirst
  decide +kernel

/-- A form feed before a value is accepted and lost in `httpd`, and refused
in `fetch`. -/
theorem form_feed_lost :
    Httpd.lispEncodeHeaders latinText (noteAlist [12]) =
        .ok (some (Utf8.octetsOf "X-Note: \x0chi\r\n")) ∧
      Httpd.decodeHeaders tokenHost (Utf8.octetsOf "X-Note: \x0chi\r\n") =
        .ok [("x-note", Utf8.octetsOf "hi")] ∧
      (noteAlist [12]).mapM (fieldOctets latinText) =
        some [(Utf8.octetsOf "X-Note", Utf8.octetsOf "\x0chi")] ∧
      ¬SameFields [(Utf8.octetsOf "X-Note", Utf8.octetsOf "\x0chi")]
        [("x-note", Utf8.octetsOf "hi")] ∧
      Fetch.decodeHeaders tokenHost (Utf8.octetsOf "X-Note: \x0chi\r\n") =
        .error (.request "bad header value: failed to parse header value") := by
  refine ⟨?_, ?_, ?_, ?_, ?_⟩
  · decide +kernel
  · decide +kernel
  · decide +kernel
  · intro hsame
    have hname := hsame "x-note"
    revert hname
    decide +kernel
  · decide +kernel

end HeaderBlock

end Rulisp

import Rulisp.HeaderBlocks
import Rulisp.StringTransfer

/-!
# Percent decoding

`%percent-decode` of `web.lisp` pushes octets into a vector with as many
places as the string has characters, and `vector-push` on a full vector is
quiet.  Three characters of an escape leave room for two octets; a raw
character outside ASCII needs more than the one place it brings.  A digit of
an escape is what `digit-char-p` takes for one, which in some Lisps is more
than ASCII.
-/

namespace Rulisp

/-- A codec that signals on what is not UTF-8. -/
structure Babel.Strict (babel : Babel) : Prop extends babel.Correct where
  signals : ∀ octets, Utf8.decode octets = none →
    babel.octetsToString octets = none

namespace Web

open HeaderBlock (latin1)

/-! ## The Lisp functions -/

/-- What the Lisp at hand and its libraries bring. -/
structure WebHost where
  babel : Babel
  /-- The weight of a character outside ASCII that `digit-char-p` takes for a
  decimal digit. -/
  wideDigit : Char → Option ℕ
  /-- `uiop:split-string`, at one separator. -/
  splitString : Char → List Char → List (List Char)

/-- `split-string` cuts at every separator, and the empty string has no parts. -/
structure WebHost.Lawful (host : WebHost) : Prop where
  babel_strict : host.babel.Strict
  splitString_nil : ∀ separator, host.splitString separator [] = []
  splitString_cut : ∀ separator string, string ≠ [] →
    host.splitString separator string = string.splitOn separator

/-- The weight of an ASCII digit or letter. -/
def asciiDigit (ch : Char) : Option ℕ :=
  if '0' ≤ ch ∧ ch ≤ '9' then some (ch.toNat - '0'.toNat)
  else if 'A' ≤ ch ∧ ch ≤ 'Z' then some (ch.toNat - 'A'.toNat + 10)
  else if 'a' ≤ ch ∧ ch ≤ 'z' then some (ch.toNat - 'a'.toNat + 10)
  else none

/-- `(digit-char-p ch radix)`. -/
def WebHost.digitCharP (host : WebHost) (radix : ℕ) (ch : Char) : Option ℕ :=
  (if ch.toNat < 128 then asciiDigit ch else host.wideDigit ch).filter
    fun weight => weight < radix

/-- `parse-integer` on two digits, as an octet; `none` if one of them is no
digit. -/
def hexOctet (digit : Char → Option ℕ) (high low : Char) : Option UInt8 := do
  let high ← digit high
  let low ← digit low
  return UInt8.ofNat (high * 16 + low)

/-- A vector with a fill pointer and `capacity` places, not adjustable. -/
structure PushVector (capacity : ℕ) where
  octets : List UInt8
  fits : octets.length ≤ capacity

namespace PushVector

variable {capacity : ℕ}

def empty : PushVector capacity := ⟨[], Nat.zero_le _⟩

/-- `vector-push`, which leaves a full vector as it is. -/
def push (out : PushVector capacity) (octet : UInt8) : PushVector capacity :=
  if hroom : out.octets.length < capacity then
    ⟨out.octets ++ [octet], List.length_append.trans_le hroom⟩
  else out

def pushAll (out : PushVector capacity) (octets : List UInt8) :
    PushVector capacity :=
  octets.foldl push out

end PushVector

/-- The loop of `%percent-decode`, from the characters left on; `none` if
babel signals. -/
def percentLoop (host : WebHost) (plusIsSpace : Bool) {capacity : ℕ} :
    List Char → PushVector capacity → Option (PushVector capacity)
  | [], out => some out
  | ch :: high :: low :: rest, out =>
      match if ch = '%' then hexOctet (host.digitCharP 16) high low else none with
      | some octet => percentLoop host plusIsSpace rest (out.push octet)
      | none => do
          let out ← pushChar ch out
          percentLoop host plusIsSpace (high :: low :: rest) out
  | ch :: rest, out => do
      let out ← pushChar ch out
      percentLoop host plusIsSpace rest out
where
  /-- The branches for a character that begins no escape. -/
  pushChar (ch : Char) (out : PushVector capacity) :
      Option (PushVector capacity) :=
    if plusIsSpace && ch = '+' then some (out.push 32)
    else (host.babel.stringToOctets [ch.toNat]).map out.pushAll

/-- The octets that `%percent-decode` goes on with. -/
def percentOut (host : WebHost) (plusIsSpace : Bool) (string : List Char) :
    Option (PushVector string.length) :=
  percentLoop host plusIsSpace string .empty

/-- UTF-8, or latin-1 where babel signals. -/
def octetsText (babel : Babel) (octets : List UInt8) : List ℕ :=
  (babel.octetsToString octets).getD (latin1 octets)

def percentDecode (host : WebHost) (plusIsSpace : Bool) (string : List Char) :
    Option (List ℕ) :=
  (percentOut host plusIsSpace string).map fun out =>
    octetsText host.babel out.octets

/-- One pair of a query; without `=` the value is `""`. -/
def queryPair (host : WebHost) (pair : List Char) :
    Option (List ℕ × List ℕ) := do
  let name ← percentDecode host true (pair.takeWhile (· ≠ '='))
  match pair.dropWhile (· ≠ '=') with
  | [] => return (name, [])
  | _ :: value => return (name, ← percentDecode host true value)

def queryParams (host : WebHost) (query : Option (List Char)) :
    Option (List (List ℕ × List ℕ)) :=
  match query with
  | none => some []
  | some [] => some []
  | some query =>
      ((host.splitString '&' query).filter (· ≠ [])).mapM (queryPair host)

/-- `NIL`, `T`, or an alist of captures. -/
inductive PathMatch
  | none
  | matched
  | captures (alist : List (List Char × List ℕ))
  deriving DecidableEq, Repr

/-- The loop of `match-path`; `none` inside is its early return. -/
def matchSegments (host : WebHost) :
    List (List Char × List Char) →
      Option (Option (List (List Char × List ℕ)))
  | [] => some (some [])
  | (p, x) :: rest =>
      match p with
      | ':' :: name => do
          let value ← percentDecode host false x
          let captured ← matchSegments host rest
          return captured.map ((name, value) :: ·)
      | _ => if p = x then matchSegments host rest else some none

def matchPath (host : WebHost) (pattern path : List Char) : Option PathMatch :=
  let ps := host.splitString '/' pattern
  let xs := host.splitString '/' path
  if ps.length = xs.length then
    (matchSegments host (ps.zip xs)).map fun
      | none => PathMatch.none
      | some [] => .matched
      | some captured => .captures captured
  else some .none

/-! ## What decoding is for -/

/-- A hexadecimal digit of ASCII, with its value. -/
def hexDigit (ch : Char) : Option ℕ :=
  (asciiDigit ch).filter fun weight => weight < 16

/-- The octets that a string stands for: an escape its byte, `+` a space where
the plus rule is on, every other character its UTF-8 octets. -/
def percentOctets (digit : Char → Option ℕ) (plusIsSpace : Bool) :
    List Char → List UInt8
  | [] => []
  | ch :: high :: low :: rest =>
      match if ch = '%' then hexOctet digit high low else none with
      | some octet => octet :: percentOctets digit plusIsSpace rest
      | none => charOctets ch ++
          percentOctets digit plusIsSpace (high :: low :: rest)
  | ch :: rest => charOctets ch ++ percentOctets digit plusIsSpace rest
where
  charOctets (ch : Char) : List UInt8 :=
    if plusIsSpace && ch = '+' then [32] else String.utf8EncodeChar ch

/-- No `%` is followed by two digits for the Lisp with one outside ASCII. -/
def WebHost.ReadsAscii (host : WebHost) (string : List Char) : Prop :=
  ∀ high low, ['%', high, low] <:+: string →
    hexOctet (host.digitCharP 16) high low ≠ none →
    high.toNat < 128 ∧ low.toNat < 128

/-- What the octets read as: UTF-8, latin-1 if they are not UTF-8. -/
def readOctets (octets : List UInt8) : List ℕ :=
  ((Utf8.decode octets).map Utf8.codesOf).getD (latin1 octets)

/-- The UTF-8 octets of a string. -/
def utf8Octets (chars : List Char) : List UInt8 :=
  chars.flatMap String.utf8EncodeChar

/-- A spelling of octets as escapes, each digit in either case. -/
inductive Escapes : List UInt8 → List Char → Prop
  | nil : Escapes [] []
  | cons (octet : UInt8) (high low : Char) {octets : List UInt8}
      {written : List Char} (hoctet : hexOctet hexDigit high low = some octet)
      (hrest : Escapes octets written) :
      Escapes (octet :: octets) ('%' :: high :: low :: written)

/-- A spelling of a string with some of its characters escaped, `%`, `+` and
the separators among them. -/
inductive PercentEncoded (separators : List Char) :
    List Char → List Char → Prop
  | nil : PercentEncoded separators [] []
  | raw (ch : Char) {original written : List Char}
      (hraw : ch ∉ '%' :: '+' :: separators)
      (hrest : PercentEncoded separators original written) :
      PercentEncoded separators (ch :: original) (ch :: written)
  | escaped (ch : Char) {original escapes written : List Char}
      (hescapes : Escapes (String.utf8EncodeChar ch) escapes)
      (hrest : PercentEncoded separators original written) :
      PercentEncoded separators (ch :: original) (escapes ++ written)

structure EncodedString (separators : List Char) where
  original : List Char
  written : List Char
  encoded : PercentEncoded separators original written

/-- As many places as octets. -/
def EncodedString.HasRoom {separators : List Char}
    (e : EncodedString separators) : Prop :=
  (utf8Octets e.original).length ≤ e.written.length

/-- Written raw, and spelled by the first of its own octets, which are not
UTF-8: octets are lost, but latin-1 makes up for it. -/
def EncodedString.SelfSpelled {separators : List Char}
    (e : EncodedString separators) : Prop :=
  let kept := (utf8Octets e.original).take e.original.length
  e.written = e.original ∧ Utf8.decode kept = none ∧
    latin1 kept = e.original.map Char.toNat

/-- The separators of a query. -/
abbrev querySeparators : List Char := ['&', '=']

abbrev pathSeparators : List Char := ['/']

/-- `name=value`. -/
def pairText
    (pair : EncodedString querySeparators × EncodedString querySeparators) :
    List Char :=
  pair.1.written ++ '=' :: pair.2.written

def queryText
    (pairs : List (EncodedString querySeparators ×
      EncodedString querySeparators)) : List Char :=
  ['&'].intercalate (pairs.map pairText)

/-- A segment of a pattern with what stands for it in the path. -/
inductive PathSegment
  | literal (text : List Char) (hsegment : '/' ∉ text)
      (hplain : text.head? ≠ some ':')
  | capture (name : List Char) (hsegment : '/' ∉ name)
      (value : EncodedString pathSeparators)

def PathSegment.pattern : PathSegment → List Char
  | literal text _ _ => text
  | capture name _ _ => ':' :: name

def PathSegment.path : PathSegment → List Char
  | literal text _ _ => text
  | capture _ _ value => value.written

def PathSegment.captured? :
    PathSegment → Option (List Char × EncodedString pathSeparators)
  | literal _ _ _ => none
  | capture name _ value => some (name, value)

/-- What is captured when each value is read by `read`. -/
def capturedWith (read : EncodedString pathSeparators → List ℕ)
    (segments : List PathSegment) : List (List Char × List ℕ) :=
  segments.filterMap fun segment =>
    segment.captured?.map fun (name, value) => (name, read value)

/-- A capture of `""` that is the whole path. -/
def LoneEmpty (segments : List PathSegment) : Prop :=
  ∃ name hsegment value, segments = [.capture name hsegment value] ∧
    value.original = []

def PathMatch.ofCaptures : List (List Char × List ℕ) → PathMatch
  | [] => .matched
  | alist => .captures alist

/-! ## The loop -/

namespace PushVector

variable {capacity : ℕ}

theorem take_take_append {α : Type} (k : ℕ) (xs ys : List α) :
    (xs.take k ++ ys).take k = (xs ++ ys).take k := by
  by_cases hlen : xs.length ≤ k
  · rw [List.take_of_length_le hlen]
  · have hle : k ≤ xs.length := by omega
    rw [List.take_append_of_le_length hle, List.take_append_of_le_length]
    · exact List.take_take.trans (by rw [Nat.min_self])
    · rw [List.length_take]
      omega

theorem octets_push (out : PushVector capacity) (octet : UInt8) :
    (out.push octet).octets = (out.octets ++ [octet]).take capacity := by
  unfold push
  split
  · rename_i hroom
    rw [List.take_of_length_le]
    exact List.length_append.trans_le hroom
  · rename_i hfull
    have hlen : out.octets.length = capacity := by
      have hfits := out.fits
      omega
    rw [List.take_append_of_le_length (by omega),
      List.take_of_length_le (by omega)]

theorem octets_pushAll (out : PushVector capacity) (octets : List UInt8) :
    (out.pushAll octets).octets = (out.octets ++ octets).take capacity := by
  induction octets generalizing out with
  | nil =>
      rw [List.append_nil, List.take_of_length_le out.fits]
      rfl
  | cons octet rest ih =>
      have hstep : out.pushAll (octet :: rest) =
          (out.push octet).pushAll rest := rfl
      rw [hstep, ih, octets_push, take_take_append, List.append_assoc]
      rfl

theorem pushAll_append (out : PushVector capacity) (left right : List UInt8) :
    out.pushAll (left ++ right) = (out.pushAll left).pushAll right :=
  List.foldl_append

end PushVector

section Decoding

variable {host : WebHost} {plusIsSpace : Bool}

theorem pushChar_eq (hhost : host.Lawful) {capacity : ℕ} (ch : Char)
    (out : PushVector capacity) :
    percentLoop.pushChar host plusIsSpace ch out =
      some (out.pushAll (percentOctets.charOctets plusIsSpace ch)) := by
  unfold percentLoop.pushChar percentOctets.charOctets
  split
  · rfl
  · have hencodes := hhost.babel_strict.encodes (String.ofList [ch])
    rw [Utf8.codesOf_ofList, Utf8.octetsOf_ofList, List.flatMap_singleton]
      at hencodes
    rw [List.map_singleton] at hencodes
    rw [hencodes]
    rfl

/-- The loop pushes the octets of the string in order, by the Lisp's digits. -/
theorem percentLoop_eq (hhost : host.Lawful) {capacity : ℕ}
    (string : List Char) (out : PushVector capacity) :
    percentLoop host plusIsSpace string out =
      some (out.pushAll
        (percentOctets (host.digitCharP 16) plusIsSpace string)) := by
  fun_induction percentLoop host plusIsSpace string out with
  | case1 out => rfl
  | case2 out ch high low rest octet hescape ih =>
      rw [ih, percentOctets, hescape]
      rfl
  | case3 out ch high low rest hescape ih =>
      rw [pushChar_eq hhost, percentOctets, hescape]
      simp only [Option.bind_eq_bind, Option.bind_some]
      rw [ih, PushVector.pushAll_append]
  | case4 out ch rest hshort ih =>
      rw [pushChar_eq hhost]
      simp only [Option.bind_eq_bind, Option.bind_some]
      rw [ih, percentOctets, PushVector.pushAll_append]
      exact hshort

theorem percentOut_eq (hhost : host.Lawful) (string : List Char) :
    ∃ out, percentOut host plusIsSpace string = some out ∧
      out.octets = (percentOctets (host.digitCharP 16) plusIsSpace
        string).take string.length := by
  refine ⟨_, percentLoop_eq hhost string .empty, ?_⟩
  rw [PushVector.octets_pushAll]
  rfl

theorem octetsText_eq (hhost : host.Lawful) (octets : List UInt8) :
    octetsText host.babel octets = readOctets octets := by
  unfold octetsText readOctets
  cases hdecode : Utf8.decode octets with
  | none => rw [hhost.babel_strict.signals octets hdecode, Option.map_none]
  | some str =>
      rw [hhost.babel_strict.decodes octets str hdecode, Option.map_some]

theorem percentDecode_eq (hhost : host.Lawful) (plusIsSpace : Bool)
    (string : List Char) :
    percentDecode host plusIsSpace string =
      some (readOctets ((percentOctets (host.digitCharP 16) plusIsSpace
        string).take string.length)) := by
  obtain ⟨out, hout, hoctets⟩ :=
    @percentOut_eq host plusIsSpace hhost string
  rw [percentDecode, hout, Option.map_some, octetsText_eq hhost, hoctets]

end Decoding

/-! ## The digits of the Lisp -/

section Digits

theorem toNat_lt_of_asciiDigit {ch : Char} {weight : ℕ}
    (hdigit : asciiDigit ch = some weight) : ch.toNat < 128 := by
  have hbound : ∀ upper : Char, upper.toNat < 128 → ch ≤ upper →
      ch.toNat < 128 := fun upper hupper hle => lt_of_le_of_lt hle hupper
  unfold asciiDigit at hdigit
  split at hdigit
  · rename_i hrange
    exact hbound '9' (by decide) hrange.2
  split at hdigit
  · rename_i hrange
    exact hbound 'Z' (by decide) hrange.2
  split at hdigit
  · rename_i hrange
    exact hbound 'z' (by decide) hrange.2
  · cases hdigit

theorem digitCharP_of_lt (host : WebHost) {ch : Char} (hlt : ch.toNat < 128) :
    host.digitCharP 16 ch = hexDigit ch := by
  rw [WebHost.digitCharP, if_pos hlt, hexDigit]

theorem hexDigit_of_not_lt {ch : Char} (hwide : ¬ch.toNat < 128) :
    hexDigit ch = none := by
  cases hdigit : asciiDigit ch with
  | none => rw [hexDigit, hdigit, Option.filter_none]
  | some weight => exact absurd (toNat_lt_of_asciiDigit hdigit) hwide

theorem hexOctet_eq_some {digit : Char → Option ℕ} {high low : Char}
    {octet : UInt8} (hoctet : hexOctet digit high low = some octet) :
    digit high ≠ none ∧ digit low ≠ none := by
  constructor
  · intro hnone
    simp [hexOctet, hnone] at hoctet
  · intro hnone
    simp [hexOctet, hnone] at hoctet

theorem toNat_lt_of_hexOctet {high low : Char} {octet : UInt8}
    (hoctet : hexOctet hexDigit high low = some octet) :
    high.toNat < 128 ∧ low.toNat < 128 := by
  obtain ⟨hhigh, hlow⟩ := hexOctet_eq_some hoctet
  constructor
  · by_contra hwide
    exact hhigh (hexDigit_of_not_lt hwide)
  · by_contra hwide
    exact hlow (hexDigit_of_not_lt hwide)

/-- What is an escape in ASCII is the same escape for the Lisp. -/
theorem hexOctet_digitCharP (host : WebHost) {high low : Char} {octet : UInt8}
    (hoctet : hexOctet hexDigit high low = some octet) :
    hexOctet (host.digitCharP 16) high low = some octet := by
  obtain ⟨hhigh, hlow⟩ := toNat_lt_of_hexOctet hoctet
  rw [hexOctet, digitCharP_of_lt host hhigh, digitCharP_of_lt host hlow]
  exact hoctet

theorem percent_ne_of_digitCharP {host : WebHost} {ch : Char}
    (hdigit : host.digitCharP 16 ch ≠ none) : ch ≠ '%' := by
  rintro rfl
  exact hdigit (digitCharP_of_lt host (by decide))

theorem utf8EncodeChar_length_pos (ch : Char) :
    0 < (String.utf8EncodeChar ch).length := by
  rw [String.length_utf8EncodeChar]
  exact ch.utf8Size_pos

theorem charOctets_length_pos (plusIsSpace : Bool) (ch : Char) :
    0 < (percentOctets.charOctets plusIsSpace ch).length := by
  unfold percentOctets.charOctets
  split
  · exact Nat.one_pos
  · exact utf8EncodeChar_length_pos ch

variable {digit : Char → Option ℕ}

/-- No escape begins at `ch`. -/
def PlainAt (digit : Char → Option ℕ) (ch : Char) (rest : List Char) : Prop :=
  ∀ high low tail, ch = '%' → rest = high :: low :: tail →
    hexOctet digit high low = none

theorem plainAt_of_ne {ch : Char} (hch : ch ≠ '%') (rest : List Char) :
    PlainAt digit ch rest :=
  fun _ _ _ hpercent => absurd hpercent hch

theorem PlainAt.hexDigit {host : WebHost} {ch : Char} {rest : List Char}
    (hplain : PlainAt (host.digitCharP 16) ch rest) :
    PlainAt hexDigit ch rest := by
  intro high low tail hch hrest
  cases hhex : hexOctet Web.hexDigit high low with
  | none => rfl
  | some octet =>
      have hnone := hplain high low tail hch hrest
      rw [hexOctet_digitCharP host hhex] at hnone
      cases hnone

theorem percentOctets_plain (plusIsSpace : Bool) {ch : Char} {rest : List Char}
    (hplain : PlainAt digit ch rest) :
    percentOctets digit plusIsSpace (ch :: rest) =
      percentOctets.charOctets plusIsSpace ch ++
        percentOctets digit plusIsSpace rest := by
  match rest with
  | [] => rfl
  | [_] => rfl
  | high :: low :: rest =>
      have hnone : (if ch = '%' then hexOctet digit high low else none) =
          none := by
        simpa using fun hch => hplain high low rest hch rfl
      rw [percentOctets, hnone]

theorem percentOctets_escape (plusIsSpace : Bool) {high low : Char}
    {octet : UInt8} (hoctet : hexOctet digit high low = some octet)
    (rest : List Char) :
    percentOctets digit plusIsSpace ('%' :: high :: low :: rest) =
      octet :: percentOctets digit plusIsSpace rest := by
  rw [percentOctets, if_pos rfl, hoctet]

theorem readsAscii_cons {host : WebHost} {ch : Char} {rest : List Char}
    (hascii : ∀ high low tail, ch = '%' → rest = high :: low :: tail →
      hexOctet (host.digitCharP 16) high low ≠ none →
      high.toNat < 128 ∧ low.toNat < 128) :
    host.ReadsAscii (ch :: rest) ↔ host.ReadsAscii rest := by
  constructor
  · intro hall high low hwithin
    exact hall high low (hwithin.trans (List.suffix_cons ch rest).isInfix)
  · intro hall high low hwithin hescape
    rcases List.infix_cons_iff.mp hwithin with ⟨tail, htail⟩ | hwithin
    · cases htail
      exact hascii high low tail rfl rfl hescape
    · exact hall high low hwithin hescape

theorem PlainAt.readsAscii_cons {host : WebHost} {ch : Char} {rest : List Char}
    (hplain : PlainAt (host.digitCharP 16) ch rest) :
    host.ReadsAscii (ch :: rest) ↔ host.ReadsAscii rest :=
  Web.readsAscii_cons fun high low tail hch hrest hescape =>
    absurd (hplain high low tail hch hrest) hescape

/-- The Lisp reads the octets that there are if every escape is ASCII, and
fewer if not. -/
def WebHost.ReadsAtMost (host : WebHost) (plusIsSpace : Bool)
    (string : List Char) : Prop :=
  percentOctets (host.digitCharP 16) plusIsSpace string =
      percentOctets hexDigit plusIsSpace string ∧ host.ReadsAscii string ∨
    (percentOctets (host.digitCharP 16) plusIsSpace string).length <
      (percentOctets hexDigit plusIsSpace string).length ∧
      ¬host.ReadsAscii string

theorem WebHost.ReadsAtMost.length_le {host : WebHost} {plusIsSpace : Bool}
    {string : List Char} (hreads : host.ReadsAtMost plusIsSpace string) :
    (percentOctets (host.digitCharP 16) plusIsSpace string).length ≤
      (percentOctets hexDigit plusIsSpace string).length := by
  rcases hreads with ⟨hsame, -⟩ | ⟨hlt, -⟩
  · rw [hsame]
  · exact hlt.le

theorem WebHost.ReadsAtMost.plain {host : WebHost} {plusIsSpace : Bool}
    {ch : Char} {rest : List Char}
    (hplain : PlainAt (host.digitCharP 16) ch rest)
    (hreads : host.ReadsAtMost plusIsSpace rest) :
    host.ReadsAtMost plusIsSpace (ch :: rest) := by
  unfold ReadsAtMost
  rw [percentOctets_plain plusIsSpace hplain,
    percentOctets_plain plusIsSpace hplain.hexDigit, hplain.readsAscii_cons,
    List.append_cancel_left_eq, List.length_append, List.length_append,
    Nat.add_lt_add_iff_left]
  exact hreads

/-- Two characters outside ASCII, or one, taken for the digits of an escape. -/
theorem readsAtMost_wide {host : WebHost} {plusIsSpace : Bool}
    {high low : Char} {rest : List Char} {octet : UInt8}
    (hoctet : hexOctet (host.digitCharP 16) high low = some octet)
    (hwide : ¬(high.toNat < 128 ∧ low.toNat < 128))
    (hreads : host.ReadsAtMost plusIsSpace rest) :
    host.ReadsAtMost plusIsSpace ('%' :: high :: low :: rest) := by
  obtain ⟨hhigh, hlow⟩ := hexOctet_eq_some hoctet
  have hplain : PlainAt hexDigit '%' (high :: low :: rest) := by
    rintro _ _ _ - ⟨⟩
    cases hhex : hexOctet hexDigit high low with
    | none => rfl
    | some octet => exact absurd (toNat_lt_of_hexOctet hhex) hwide
  right
  constructor
  · have hpercent := charOctets_length_pos plusIsSpace '%'
    have hfirst := charOctets_length_pos plusIsSpace high
    have hrest := hreads.length_le
    rw [percentOctets_escape plusIsSpace hoctet,
      percentOctets_plain plusIsSpace hplain,
      percentOctets_plain plusIsSpace
        (plainAt_of_ne (percent_ne_of_digitCharP hhigh) _),
      percentOctets_plain plusIsSpace
        (plainAt_of_ne (percent_ne_of_digitCharP hlow) _)]
    simp only [List.length_append, List.length_cons]
    omega
  · intro hascii
    have hwithin : ['%', high, low] <:+: '%' :: high :: low :: rest :=
      (List.prefix_append ['%', high, low] rest).isInfix
    exact hwide (hascii high low hwithin (by rw [hoctet]; simp))

theorem readsAtMost_escape {host : WebHost} {plusIsSpace : Bool}
    {high low : Char} {rest : List Char} {octet : UInt8}
    (hoctet : hexOctet (host.digitCharP 16) high low = some octet)
    (hascii : high.toNat < 128 ∧ low.toNat < 128)
    (hreads : host.ReadsAtMost plusIsSpace rest) :
    host.ReadsAtMost plusIsSpace ('%' :: high :: low :: rest) := by
  obtain ⟨hhigh, hlow⟩ := hexOctet_eq_some hoctet
  have hsame : hexOctet hexDigit high low = some octet := by
    rw [hexOctet, ← digitCharP_of_lt host hascii.1,
      ← digitCharP_of_lt host hascii.2]
    exact hoctet
  have hiff : host.ReadsAscii ('%' :: high :: low :: rest) ↔
      host.ReadsAscii rest := by
    rw [readsAscii_cons (by rintro _ _ _ - ⟨⟩ -; exact hascii),
      (plainAt_of_ne (percent_ne_of_digitCharP hhigh) _).readsAscii_cons,
      (plainAt_of_ne (percent_ne_of_digitCharP hlow) _).readsAscii_cons]
  unfold WebHost.ReadsAtMost
  rw [percentOctets_escape plusIsSpace hoctet,
    percentOctets_escape plusIsSpace hsame, hiff, List.cons_inj_right,
    List.length_cons, List.length_cons, Nat.add_lt_add_iff_right]
  exact hreads

theorem readsAtMost (host : WebHost) (plusIsSpace : Bool)
    (string : List Char) : host.ReadsAtMost plusIsSpace string := by
  fun_induction percentOctets (host.digitCharP 16) plusIsSpace string with
  | case1 =>
      left
      refine ⟨rfl, fun high low hwithin => ?_⟩
      cases List.infix_nil.mp hwithin
  | case2 ch high low rest octet hescape ih =>
      obtain ⟨rfl, hoctet⟩ : ch = '%' ∧
          hexOctet (host.digitCharP 16) high low = some octet := by
        simpa using hescape
      by_cases hascii : high.toNat < 128 ∧ low.toNat < 128
      · exact readsAtMost_escape hoctet hascii ih
      · exact readsAtMost_wide hoctet hascii ih
  | case3 ch high low rest hescape ih =>
      apply ih.plain
      rintro _ _ _ hch ⟨⟩
      rw [if_pos hch] at hescape
      exact hescape
  | case4 ch rest hshort ih =>
      apply ih.plain
      intro high low tail hch hrest
      exact absurd hrest (hshort high low tail)

end Digits

/-! ## Encoded strings -/

section Encoding

variable {separators : List Char} {original written : List Char}

theorem Escapes.percentOctets_append (host : WebHost) (plusIsSpace : Bool)
    {octets : List UInt8} {escapes : List Char}
    (hescapes : Escapes octets escapes) (rest : List Char) :
    percentOctets (host.digitCharP 16) plusIsSpace (escapes ++ rest) =
      octets ++ percentOctets (host.digitCharP 16) plusIsSpace rest := by
  induction hescapes with
  | nil => rfl
  | cons octet high low hoctet hrest ih =>
      rw [List.cons_append, List.cons_append, List.cons_append,
        percentOctets_escape plusIsSpace (hexOctet_digitCharP host hoctet), ih,
        List.cons_append]

/-- A spelling stands for the UTF-8 octets of the string. -/
theorem PercentEncoded.percentOctets_eq (host : WebHost) (plusIsSpace : Bool)
    (hencoded : PercentEncoded separators original written) :
    percentOctets (host.digitCharP 16) plusIsSpace written =
      utf8Octets original := by
  induction hencoded with
  | nil => rfl
  | raw ch hraw hrest ih =>
      have hpercent : ch ≠ '%' := by
        rintro rfl
        exact hraw List.mem_cons_self
      have hplus : ch ≠ '+' := by
        rintro rfl
        exact hraw (List.mem_cons_of_mem _ List.mem_cons_self)
      rw [percentOctets_plain plusIsSpace (plainAt_of_ne hpercent _), ih,
        percentOctets.charOctets, if_neg (by simp [hplus]), utf8Octets,
        utf8Octets, List.flatMap_cons]
  | escaped ch hescapes hrest ih =>
      rw [hescapes.percentOctets_append, ih, utf8Octets, utf8Octets,
        List.flatMap_cons]

theorem Escapes.length_eq {octets : List UInt8} {escapes : List Char}
    (hescapes : Escapes octets escapes) :
    escapes.length = 3 * octets.length := by
  induction hescapes with
  | nil => rfl
  | cons octet high low hoctet hrest ih =>
      simp only [List.length_cons, ih]
      omega

/-- A spelling is as long as the string only if it is the string. -/
theorem PercentEncoded.length_cases
    (hencoded : PercentEncoded separators original written) :
    original.length < written.length ∨ written = original := by
  induction hencoded with
  | nil => exact .inr rfl
  | raw ch hraw hrest ih =>
      rcases ih with hlt | rfl
      · exact .inl (by simpa using hlt)
      · exact .inr rfl
  | escaped ch hescapes hrest ih =>
      have hpos := utf8EncodeChar_length_pos ch
      have hlen := hescapes.length_eq
      left
      rw [List.length_append, List.length_cons]
      rcases ih with hlt | rfl
      · omega
      · omega

theorem hexDigit_eq_none_of_mem :
    ∀ ch ∈ ['&', '=', '/'], hexDigit ch = none := by
  simp only [List.mem_cons, List.not_mem_nil, or_false, forall_eq_or_imp,
    forall_eq]
  decide

theorem Escapes.not_mem {octets : List UInt8} {escapes : List Char}
    (hescapes : Escapes octets escapes) {separator : Char}
    (hseparator : separator ∈ ['&', '=', '/']) : separator ∉ escapes := by
  have hnone := hexDigit_eq_none_of_mem separator hseparator
  have hpercent : separator ≠ '%' := by
    rintro rfl
    simp at hseparator
  induction hescapes with
  | nil => exact List.not_mem_nil
  | cons octet high low hoctet hrest ih =>
      obtain ⟨hhigh, hlow⟩ := hexOctet_eq_some hoctet
      have hhigh_ne : separator ≠ high := by
        rintro rfl
        exact hhigh hnone
      have hlow_ne : separator ≠ low := by
        rintro rfl
        exact hlow hnone
      simp only [List.mem_cons, not_or]
      exact ⟨hpercent, hhigh_ne, hlow_ne, ih⟩

theorem PercentEncoded.not_mem
    (hencoded : PercentEncoded separators original written)
    {separator : Char} (hmem : separator ∈ separators)
    (hseparator : separator ∈ ['&', '=', '/']) : separator ∉ written := by
  induction hencoded with
  | nil => exact List.not_mem_nil
  | raw ch hraw hrest ih =>
      have hne : separator ≠ ch := by
        rintro rfl
        exact hraw (List.mem_cons_of_mem _ (List.mem_cons_of_mem _ hmem))
      simp only [List.mem_cons, not_or]
      exact ⟨hne, ih⟩
  | escaped ch hescapes hrest ih =>
      simp only [List.mem_append, not_or]
      exact ⟨hescapes.not_mem hseparator, ih⟩

end Encoding

section Reading

variable {separators : List Char}

/-- What the octets that fit read as. -/
def EncodedString.decoded (e : EncodedString separators) : List ℕ :=
  readOctets ((utf8Octets e.original).take e.written.length)

/-- The codes of the original string. -/
def EncodedString.codes (e : EncodedString separators) : List ℕ :=
  e.original.map Char.toNat

theorem percentDecode_written {host : WebHost} (hhost : host.Lawful)
    (plusIsSpace : Bool) (e : EncodedString separators) :
    percentDecode host plusIsSpace e.written = some e.decoded := by
  rw [percentDecode_eq hhost, e.encoded.percentOctets_eq]
  rfl

theorem decode_utf8Octets (chars : List Char) :
    Utf8.decode (utf8Octets chars) = some (String.ofList chars) := by
  rw [utf8Octets, ← Utf8.octetsOf_ofList, Utf8.decode_octetsOf]

theorem utf8Octets_of_decode {octets : List UInt8} {str : String}
    {chars : List Char} (hdecode : Utf8.decode octets = some str)
    (hcodes : Utf8.codesOf str = chars.map Char.toNat) :
    octets = utf8Octets chars := by
  have hchars : str.toList = chars :=
    List.map_injective_iff.mpr (fun _ _ => Char.toNat_inj.mp) hcodes
  rw [← Utf8.octetsOf_of_decode hdecode, Utf8.octetsOf, hchars, utf8Octets]

theorem EncodedString.decoded_of_hasRoom {e : EncodedString separators}
    (hroom : e.HasRoom) : e.decoded = e.codes := by
  rw [decoded, List.take_of_length_le hroom, readOctets, decode_utf8Octets,
    Option.map_some, Utf8.codesOf_ofList]
  rfl

/-- Which strings are read back. -/
theorem EncodedString.decoded_eq_iff (e : EncodedString separators) :
    e.decoded = e.codes ↔ e.HasRoom ∨ e.SelfSpelled := by
  constructor
  · intro hback
    by_cases hroom : e.HasRoom
    · exact .inl hroom
    · have hlong : e.written.length < (utf8Octets e.original).length := by
        unfold HasRoom at hroom
        omega
      have hkept : ((utf8Octets e.original).take e.written.length).length =
          e.written.length := by
        rw [List.length_take]
        omega
      unfold decoded readOctets at hback
      cases hdecode : Utf8.decode
          ((utf8Octets e.original).take e.written.length) with
      | some str =>
          -- the octets kept would be those of the whole string
          rw [hdecode] at hback
          have hall := utf8Octets_of_decode hdecode hback
          rw [hall] at hkept
          omega
      | none =>
          rw [hdecode] at hback
          have hlength : e.written.length = e.original.length := by
            have hcount := congrArg List.length hback
            simp only [Option.map_none, Option.getD_none, latin1, codes,
              List.length_map] at hcount
            omega
          have hwritten : e.written = e.original := by
            rcases e.encoded.length_cases with hlt | heq
            · omega
            · exact heq
          rw [hlength] at hdecode hback
          exact .inr ⟨hwritten, hdecode, hback⟩
  · rintro (hroom | ⟨hwritten, hdecode, hback⟩)
    · exact decoded_of_hasRoom hroom
    · rw [decoded, hwritten, readOctets, hdecode]
      exact hback

end Reading

/-! ## Queries and paths -/

section Queries

variable {host : WebHost}

theorem mapM_eq_some_map {α β : Type} {f : α → Option β} {g : α → β}
    {xs : List α} (hsome : ∀ x ∈ xs, f x = some (g x)) :
    xs.mapM f = some (xs.map g) := by
  induction xs with
  | nil => rfl
  | cons x xs ih =>
      obtain ⟨hx, hxs⟩ := List.forall_mem_cons.mp hsome
      rw [List.mapM_cons, hx, ih hxs]
      rfl

theorem queryPair_pairText (hhost : host.Lawful)
    (pair : EncodedString querySeparators × EncodedString querySeparators) :
    queryPair host (pairText pair) =
      some (pair.1.decoded, pair.2.decoded) := by
  have hname : ∀ ch ∈ pair.1.written, decide (ch ≠ '=') = true := by
    intro ch hch
    have hnot := @PercentEncoded.not_mem _ _ _ pair.1.encoded '=' (by simp) (by simp)
    simp only [ne_eq, decide_eq_true_eq]
    rintro rfl
    exact hnot hch
  unfold queryPair pairText
  rw [List.takeWhile_append_of_pos hname, List.dropWhile_append_of_pos hname]
  simp only [ne_eq, not_true_eq_false, decide_false, Bool.false_eq_true,
    not_false_eq_true, List.takeWhile_cons_of_neg, List.dropWhile_cons_of_neg,
    List.append_nil, percentDecode_written hhost, Option.bind_eq_bind,
    Option.bind_some, Option.pure_def]

theorem ampersand_not_mem_pairText
    (pair : EncodedString querySeparators × EncodedString querySeparators) :
    '&' ∉ pairText pair := by
  have hname : '&' ∉ pair.1.written :=
    pair.1.encoded.not_mem (by simp) (by simp)
  have hvalue : '&' ∉ pair.2.written :=
    pair.2.encoded.not_mem (by simp) (by simp)
  simp only [pairText, List.mem_append, List.mem_cons, not_or]
  exact ⟨hname, by decide, hvalue⟩

theorem queryText_splitOn
    {pairs : List (EncodedString querySeparators ×
      EncodedString querySeparators)} (hpairs : pairs ≠ []) :
    (queryText pairs).splitOn '&' = pairs.map pairText := by
  apply List.splitOn_intercalate
  · intro text htext
    obtain ⟨pair, -, rfl⟩ := List.mem_map.mp htext
    exact ampersand_not_mem_pairText pair
  · simpa using hpairs

theorem pairText_ne_nil
    (pair : EncodedString querySeparators × EncodedString querySeparators) :
    pairText pair ≠ [] := by
  simp [pairText]

theorem queryParams_queryText (hhost : host.Lawful)
    (pairs : List (EncodedString querySeparators ×
      EncodedString querySeparators)) :
    queryParams host (some (queryText pairs)) =
      some (pairs.map fun pair => (pair.1.decoded, pair.2.decoded)) := by
  by_cases hpairs : pairs = []
  · rw [hpairs]
    rfl
  · have hsplit := queryText_splitOn hpairs
    have htext : queryText pairs ≠ [] := by
      intro hnil
      rw [hnil, List.splitOn_nil] at hsplit
      have hmem : [] ∈ pairs.map pairText := by simp [← hsplit]
      obtain ⟨pair, -, hpair⟩ := List.mem_map.mp hmem
      exact pairText_ne_nil pair hpair
    have hkept : (pairs.map pairText).filter (· ≠ []) =
        pairs.map pairText := by
      apply List.filter_eq_self.mpr
      intro text hmem
      obtain ⟨pair, -, rfl⟩ := List.mem_map.mp hmem
      simpa using pairText_ne_nil pair
    rw [queryParams, hhost.splitString_cut '&' _ htext, hsplit, hkept,
      List.mapM_map]
    · exact mapM_eq_some_map fun pair _ => queryPair_pairText hhost pair
    · exact htext

end Queries

section Paths

variable {host : WebHost}

theorem PathSegment.slash_not_mem_pattern (segment : PathSegment) :
    '/' ∉ segment.pattern := by
  cases segment with
  | literal text hsegment hplain => exact hsegment
  | capture name hsegment value => simpa [pattern] using hsegment

theorem PathSegment.slash_not_mem_path (segment : PathSegment) :
    '/' ∉ segment.path := by
  cases segment with
  | literal text hsegment hplain => exact hsegment
  | capture name hsegment value =>
      exact value.encoded.not_mem (by simp) (by simp)

theorem splitString_segments (hhost : host.Lawful)
    {text : PathSegment → List Char} (hslash : ∀ segment, '/' ∉ text segment)
    {segments : List PathSegment} (hsegments : segments ≠ [])
    (htext : segments.map text ≠ [[]]) :
    host.splitString '/' (['/'].intercalate (segments.map text)) =
      segments.map text := by
  have hsplit : (['/'].intercalate (segments.map text)).splitOn '/' =
      segments.map text := by
    apply List.splitOn_intercalate
    · intro piece hpiece
      obtain ⟨segment, -, rfl⟩ := List.mem_map.mp hpiece
      exact hslash segment
    · simpa using hsegments
  rw [hhost.splitString_cut, hsplit]
  intro hnil
  rw [hnil, List.splitOn_nil] at hsplit
  exact htext hsplit.symm

theorem matchSegments_eq (hhost : host.Lawful)
    (segments : List PathSegment) :
    matchSegments host
        ((segments.map PathSegment.pattern).zip
          (segments.map PathSegment.path)) =
      some (some (capturedWith EncodedString.decoded segments)) := by
  induction segments with
  | nil => rfl
  | cons segment rest ih =>
      cases segment with
      | literal text hsegment hplain =>
          have hstep : matchSegments host ((text, text) ::
                (rest.map PathSegment.pattern).zip
                  (rest.map PathSegment.path)) =
              matchSegments host ((rest.map PathSegment.pattern).zip
                (rest.map PathSegment.path)) := by
            rw [matchSegments, if_pos rfl]
            rintro name rfl
            exact hplain rfl
          exact hstep.trans ih
      | capture name hsegment value =>
          change matchSegments host ((':' :: name, value.written) ::
            (rest.map PathSegment.pattern).zip
              (rest.map PathSegment.path)) = _
          rw [matchSegments, percentDecode_written hhost, ih]
          rfl

theorem PathMatch.ofCaptures_ne_none (alist : List (List Char × List ℕ)) :
    PathMatch.ofCaptures alist ≠ .none := by
  cases alist <;> exact fun hnone => nomatch hnone

theorem PathMatch.ofCaptures_injective {left right : List (List Char × List ℕ)}
    (hsame : PathMatch.ofCaptures left = PathMatch.ofCaptures right) :
    left = right := by
  cases left with
  | nil =>
      cases right with
      | nil => rfl
      | cons _ _ => cases hsame
  | cons _ _ =>
      cases right with
      | nil => cases hsame
      | cons _ _ =>
          cases hsame
          rfl

theorem matchPath_of_parts {pattern path : List Char}
    {ps xs : List (List Char)} (hpattern : host.splitString '/' pattern = ps)
    (hpath : host.splitString '/' path = xs) (hlength : ps.length = xs.length)
    {alist : List (List Char × List ℕ)}
    (hcaptured : matchSegments host (ps.zip xs) = some (some alist)) :
    matchPath host pattern path = some (PathMatch.ofCaptures alist) := by
  unfold matchPath
  rw [hpattern, hpath, if_pos hlength, hcaptured, Option.map_some]
  cases alist <;> rfl

theorem EncodedString.written_eq_nil {separators : List Char}
    {e : EncodedString separators} : e.written = [] ↔ e.original = [] := by
  obtain ⟨original, written, hencoded⟩ := e
  cases hencoded with
  | nil => simp
  | raw ch hraw hrest => simp
  | @escaped _ _ escapes written hescapes hrest =>
      have hpos := utf8EncodeChar_length_pos ‹Char›
      have hlen := hescapes.length_eq
      have hne : escapes ++ written ≠ [] := by
        apply List.append_ne_nil_of_left_ne_nil
        apply List.ne_nil_of_length_pos
        omega
      simpa only [reduceCtorEq, iff_false] using hne

/-- The path of a lone capture of `""` has no parts, and matches nothing. -/
theorem matchPath_loneEmpty (hhost : host.Lawful)
    {segments : List PathSegment} (hlone : LoneEmpty segments) :
    matchPath host (['/'].intercalate (segments.map PathSegment.pattern))
        (['/'].intercalate (segments.map PathSegment.path)) =
      some .none := by
  obtain ⟨name, hsegment, value, rfl, hempty⟩ := hlone
  have hpattern := splitString_segments hhost
    PathSegment.slash_not_mem_pattern
    (List.cons_ne_nil (.capture name hsegment value) [])
    (by simp [PathSegment.pattern])
  have hpath : ['/'].intercalate
      ([PathSegment.capture name hsegment value].map PathSegment.path) =
        [] := by
    have hwritten := EncodedString.written_eq_nil.mpr hempty
    simp [PathSegment.path, hwritten]
  unfold matchPath
  rw [hpattern, hpath, hhost.splitString_nil]
  rfl

theorem matchPath_segments (hhost : host.Lawful)
    {segments : List PathSegment} (hsegments : segments ≠ [])
    (hlone : ¬LoneEmpty segments) :
    matchPath host (['/'].intercalate (segments.map PathSegment.pattern))
        (['/'].intercalate (segments.map PathSegment.path)) =
      some (PathMatch.ofCaptures
        (capturedWith EncodedString.decoded segments)) := by
  by_cases hempty : segments.map PathSegment.path = [[]]
  · obtain ⟨segment, rfl, hpath⟩ := List.map_eq_singleton_iff.mp hempty
    cases segment with
    | literal text hsegment hplain =>
        obtain rfl : text = [] := hpath
        exact matchPath_of_parts (hhost.splitString_nil '/')
          (hhost.splitString_nil '/') rfl rfl
    | capture name hsegment value =>
        exact absurd ⟨name, hsegment, value, rfl,
          EncodedString.written_eq_nil.mp hpath⟩ hlone
  · have hpattern : segments.map PathSegment.pattern ≠ [[]] := by
      intro hpattern
      obtain ⟨segment, rfl, hsegment⟩ := List.map_eq_singleton_iff.mp hpattern
      cases segment with
      | literal text hslash hplain => exact hempty hpattern
      | capture name hslash value => cases hsegment
    apply matchPath_of_parts
      (splitString_segments hhost PathSegment.slash_not_mem_pattern hsegments
        hpattern)
      (splitString_segments hhost PathSegment.slash_not_mem_path hsegments
        hempty)
    · rw [List.length_map, List.length_map]
    · exact matchSegments_eq hhost segments

theorem capturedWith_eq_iff {left right : EncodedString pathSeparators → List ℕ}
    {segments : List PathSegment} :
    capturedWith left segments = capturedWith right segments ↔
      ∀ name value, some (name, value) ∈ segments.map PathSegment.captured? →
        left value = right value := by
  induction segments with
  | nil => simp [capturedWith]
  | cons segment rest ih =>
      cases segment with
      | literal text hsegment hplain =>
          simpa [capturedWith, PathSegment.captured?] using ih
      | capture name hsegment value =>
          have hcons : ∀ read : EncodedString pathSeparators → List ℕ,
              capturedWith read (.capture name hsegment value :: rest) =
                (name, read value) :: capturedWith read rest := fun _ => rfl
          rw [hcons, hcons, List.cons.injEq, Prod.mk.injEq, ih]
          simp only [true_and, List.map_cons, List.mem_cons]
          constructor
          · rintro ⟨hvalue, hrest⟩ name' value' (hhead | htail)
            · cases hhead
              exact hvalue
            · exact hrest name' value' htail
          · intro hall
            exact ⟨hall name value (.inl rfl),
              fun name' value' hmem => hall name' value' (.inr hmem)⟩

end Paths

/-- `%percent-decode` drops no octet, and then reads the octets that the
string stands for, exactly if these are no more than its characters and every
escape is ASCII.  A query comes back as it was exactly if every name and value
has room for its octets, or is spelled by the first of them; a path likewise
for what is captured, but for a lone `""`. -/
theorem percent_decode_iff {host : WebHost} (hhost : host.Lawful) :
    (∀ plusIsSpace string,
      ((∃ out, percentOut host plusIsSpace string = some out ∧
          out.octets = percentOctets hexDigit plusIsSpace string) ∧
        percentDecode host plusIsSpace string =
          some (readOctets (percentOctets hexDigit plusIsSpace string))) ↔
      (percentOctets hexDigit plusIsSpace string).length ≤ string.length ∧
        host.ReadsAscii string) ∧
    (∀ pairs, queryParams host (some (queryText pairs)) =
        some (pairs.map fun pair => (pair.1.codes, pair.2.codes)) ↔
      ∀ pair ∈ pairs, (pair.1.HasRoom ∨ pair.1.SelfSpelled) ∧
        (pair.2.HasRoom ∨ pair.2.SelfSpelled)) ∧
    ∀ segments : List PathSegment, segments ≠ [] →
      (matchPath host (['/'].intercalate (segments.map PathSegment.pattern))
          (['/'].intercalate (segments.map PathSegment.path)) =
        some (PathMatch.ofCaptures
          (capturedWith EncodedString.codes segments)) ↔
      ¬LoneEmpty segments ∧
        ∀ name value, some (name, value) ∈ segments.map PathSegment.captured? →
          value.HasRoom ∨ value.SelfSpelled) := by
  refine ⟨?_, ?_, ?_⟩
  · intro plusIsSpace string
    obtain ⟨out, hout, hoctets⟩ :=
      @percentOut_eq host plusIsSpace hhost string
    have hdigits := readsAtMost host plusIsSpace string
    constructor
    · rintro ⟨⟨out', hout', hall⟩, -⟩
      obtain rfl : out = out' := Option.some.inj (hout.symm.trans hout')
      have hfits := out.fits
      rw [hall] at hfits
      refine ⟨hfits, ?_⟩
      rcases hdigits with ⟨-, hascii⟩ | ⟨hlt, -⟩
      · exact hascii
      · have hcount := congrArg List.length (hoctets.symm.trans hall)
        rw [List.length_take] at hcount
        omega
    · rintro ⟨hroom, hascii⟩
      rcases hdigits with ⟨hsame, -⟩ | ⟨-, hwide⟩
      · rw [hsame, List.take_of_length_le hroom] at hoctets
        refine ⟨⟨out, hout, hoctets⟩, ?_⟩
        rw [percentDecode_eq hhost, hsame, List.take_of_length_le hroom]
      · exact absurd hascii hwide
  · intro pairs
    rw [queryParams_queryText hhost, Option.some.injEq, List.map_inj_left]
    simp only [Prod.mk.injEq, EncodedString.decoded_eq_iff]
  · intro segments hsegments
    by_cases hlone : LoneEmpty segments
    · rw [matchPath_loneEmpty hhost hlone, Option.some.injEq]
      constructor
      · intro hnone
        exact absurd hnone.symm (PathMatch.ofCaptures_ne_none _)
      · rintro ⟨hnot, -⟩
        exact absurd hlone hnot
    · rw [matchPath_segments hhost hsegments hlone, Option.some.injEq]
      constructor
      · intro hsame
        refine ⟨hlone, fun name value hmem => ?_⟩
        have hcaptured := PathMatch.ofCaptures_injective hsame
        exact value.decoded_eq_iff.mp
          (capturedWith_eq_iff.mp hcaptured name value hmem)
      · rintro ⟨-, hall⟩
        rw [capturedWith_eq_iff.mpr]
        intro name value hmem
        exact value.decoded_eq_iff.mpr (hall name value hmem)

/-! ## One host -/

/-- A host that knows the Arabic-Indic digits. -/
def sampleHost : WebHost where
  babel := strictHost.babel
  wideDigit ch :=
    if 0x660 ≤ ch.toNat ∧ ch.toNat ≤ 0x669 then some (ch.toNat - 0x660)
    else none
  splitString separator string :=
    if string = [] then [] else string.splitOn separator

theorem sampleHost_lawful : sampleHost.Lawful where
  babel_strict :=
    { toCorrect := strictHost_lawful.babel_correct
      signals := by
        intro octets hdecode
        change (Utf8.decode octets).map Utf8.codesOf = none
        rw [hdecode]
        rfl }
  splitString_nil _ := rfl
  splitString_cut _ _ hstring := if_neg hstring

theorem readsAscii_of_ascii {host : WebHost} {string : List Char}
    (hascii : string.all (fun ch => ch.toNat < 128) = true) :
    host.ReadsAscii string := by
  intro high low hwithin _
  have hlt : ∀ ch ∈ string, ch.toNat < 128 := by simpa using hascii
  exact ⟨hlt high (hwithin.subset (by simp)),
    hlt low (hwithin.subset (by simp))⟩

theorem percentDecode_escaped :
    percentDecode sampleHost true ['%', 'c', '3', '%', 'A', '9', '+'] =
      some (readOctets [0xC3, 0xA9, 0x20]) :=
  (((percent_decode_iff sampleHost_lawful).1 true
    ['%', 'c', '3', '%', 'A', '9', '+']).mpr
      ⟨by decide, readsAscii_of_ascii rfl⟩).2

/-- The value of `q=éa`, its first letter not escaped. -/
def rawAccent : EncodedString querySeparators :=
  ⟨['é', 'a'], ['é', 'a'], .raw 'é' (by decide) (.raw 'a' (by decide) .nil)⟩

def queryName : EncodedString querySeparators :=
  ⟨['q'], ['q'], .raw 'q' (by decide) .nil⟩

theorem percentDecode_rawAccent :
    (∀ out, percentOut sampleHost false ['é', 'a'] = some out →
      out.octets ≠ percentOctets hexDigit false ['é', 'a']) ∧
    percentDecode sampleHost false ['é', 'a'] ≠
      some (readOctets (percentOctets hexDigit false ['é', 'a'])) ∧
    queryParams sampleHost (some (queryText [(queryName, rawAccent)])) ≠
      some [(queryName.codes, rawAccent.codes)] := by
  decide +kernel

end Web

end Rulisp

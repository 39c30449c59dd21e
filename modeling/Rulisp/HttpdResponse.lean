import Mathlib.Algebra.Group.Nat.Defs
import Mathlib.Data.Nat.Notation

/-!
# Responses of `httpd`

The header codec and the checks of a response, all made before the reply
channel of a request is taken.  What `HeaderName` and `HeaderValue` admit is
the `http` crate's, and a parameter.
-/

namespace Rulisp

namespace Httpd

abbrev Bytes := List UInt8

structure HttpError where
  kind : String
  msg : String
  deriving DecidableEq, Repr

/-- `HttpError::new("response", …)`. -/
def HttpError.response (msg : String) : HttpError := ⟨"response", msg⟩

/-- A check that refuses with the message. -/
def refuseIf (test : Prop) [Decidable test] (msg : String) :
    Except HttpError Unit :=
  if test then .error (.response msg) else .ok ()

/-- A header map, in the order of its iteration: the values of a name stand
together, where its first one came. -/
abbrev HeaderMap := List (String × Bytes)

/-- `HeaderMap::append`. -/
def HeaderMap.append : HeaderMap → String × Bytes → HeaderMap
  | [], field => [field]
  | first :: rest, field =>
      if first.1 = field.1 ∧ field.1 ∉ rest.map Prod.fst then
        first :: field :: rest
      else first :: HeaderMap.append rest field

/-- Appending keeps the values of each name in their order. -/
theorem HeaderMap.filter_append (map : HeaderMap) (field : String × Bytes)
    (name : String) :
    (map.append field).filter (fun entry => entry.1 = name) =
      map.filter (fun entry => entry.1 = name) ++
        [field].filter fun entry => entry.1 = name := by
  induction map with
  | nil => rfl
  | cons first rest ih =>
      unfold HeaderMap.append
      split
      · rename_i hlast
        obtain ⟨hsame, hnone⟩ := hlast
        by_cases hname : field.1 = name
        · have hrest : rest.filter (fun entry => entry.1 = name) = [] := by
            rw [List.filter_eq_nil_iff]
            intro entry hentry hentryName
            apply hnone
            rw [hname, ← of_decide_eq_true hentryName]
            exact List.mem_map_of_mem hentry
          simp [hsame, hname, hrest]
        · simp [hsame, hname]
      · by_cases hfirst : first.1 = name
        · simp [hfirst, ih]
        · simp [hfirst, ih]

theorem HeaderMap.filter_foldl_append (fields : List (String × Bytes))
    (map : HeaderMap) (name : String) :
    (fields.foldl HeaderMap.append map).filter (fun entry => entry.1 = name) =
      map.filter (fun entry => entry.1 = name) ++
        fields.filter fun entry => entry.1 = name := by
  induction fields generalizing map with
  | nil => simp
  | cons field fields ih =>
      rw [List.foldl_cons, ih, HeaderMap.filter_append, List.append_assoc,
        ← List.filter_append, List.singleton_append]

/-- What the `http` crate and the standard library make of octets: a header
name or why not, a header value or why not, and a string for a message. -/
structure HeaderHost where
  headerName : Bytes → Except String String
  headerValue : Bytes → Except String Bytes
  fromUtf8Lossy : Bytes → String

structure Response where
  status : ℕ
  headers : HeaderMap
  body : Bytes
  deriving DecidableEq, Repr

/-- `status_only`. -/
def statusOnly (code : ℕ) : Response := ⟨code, [], []⟩

/-- `retry_later`. -/
def retryLater : Response := ⟨503, [("retry-after", [49])], []⟩

/-! ## The header block -/

def isAsciiWhitespace (b : UInt8) : Bool :=
  b = 32 || b = 9 || b = 10 || b = 12 || b = 13

def trimAsciiStart (bytes : Bytes) : Bytes :=
  bytes.dropWhile isAsciiWhitespace

def trimAscii (bytes : Bytes) : Bytes :=
  (trimAsciiStart (trimAsciiStart bytes).reverse).reverse

/-- The lines of a block, and whether a line feed ends them; `line` has been
read, backwards. -/
def headerLines (line : Bytes) : Bytes → List (Bytes × Bool)
  | [] => if line = [] then [] else [(line.reverse, false)]
  | b :: rest =>
      if b = 10 then (line.reverse, true) :: headerLines [] rest
      else headerLines (b :: line) rest

section DecodeHeaders

variable (host : HeaderHost)

/-- One turn of the loop of `decode_headers`; an empty line is skipped. -/
def decodeHeaderLine : Bytes × Bool → Except HttpError (Option (String × Bytes))
  | (line, terminated) => do
      refuseIf (line.getLast? ≠ some 13 ∧ terminated = true)
        "header block is not CRLF-separated"
      let line := if line.getLast? = some 13 then line.dropLast else line
      if line = [] then return none
      else do
        refuseIf (58 ∉ line) "header line without a colon"
        let c := line.idxOf 58
        let name ← (host.headerName (trimAscii (line.take c))).mapError
          fun e => .response ("bad header name: " ++ e)
        let value ←
          (host.headerValue (trimAsciiStart (line.drop (c + 1)))).mapError
            fun e => .response ("bad header value: " ++ e)
        return some (name, value)

/-- `decode_headers`. -/
def decodeHeaders (block : Bytes) : Except HttpError HeaderMap := do
  let fields ← (headerLines [] block).mapM (decodeHeaderLine host)
  return (fields.filterMap id).foldl HeaderMap.append []

end DecodeHeaders

/-! ## `Content-Length` -/

/-- `HeaderValue::to_str`: visible ASCII and tabs only. -/
def visibleAscii (bytes : Bytes) : Bool :=
  bytes.all fun b => (32 ≤ b && b < 127) || b = 9

/-- `str::parse::<u64>`, of ASCII digits after an optional plus sign. -/
def parseU64 (bytes : Bytes) : Option ℕ :=
  let digits := if bytes.head? = some 43 then bytes.tail else bytes
  if digits ≠ [] ∧ digits.all (fun b => 48 ≤ b && b ≤ 57) then
    let n := digits.foldl (fun n b => n * 10 + (b.toNat - 48)) 0
    if n < 2 ^ 64 then some n else none
  else none

def contentLength (value : Bytes) : Option ℕ :=
  if visibleAscii value then parseU64 (trimAscii value) else none

/-! ## The checks of a response -/

section Builder

variable (host : HeaderHost)

/-- The check of the `Content-Length` fields, in their order. -/
def checkContentLength (headAnswer : Bool) (bodyLen : Option ℕ) :
    List Bytes → Except HttpError Unit
  | [] => .ok ()
  | value :: values => do
      refuseIf (contentLength value = none ∨
          (headAnswer = false ∧ contentLength value ≠ bodyLen))
        ("Content-Length " ++ host.fromUtf8Lossy value ++
          " does not match the body (" ++ toString (bodyLen.getD 0) ++
          " bytes)")
      checkContentLength headAnswer bodyLen values

/-- `Request::builder`, for a request of the given method. -/
def builder (method : String) (status : ℕ) (headers : Option Bytes)
    (bodyLen : Option ℕ) : Except HttpError HeaderMap := do
  refuseIf (status < 100 ∨ 999 < status) "invalid status code"
  refuseIf (status < 200) (toString status ++ " is not a final response")
  refuseIf ((status = 204 ∨ status = 304) ∧ 0 < bodyLen.getD 0)
    ("a " ++ toString status ++ " response carries no body")
  match headers with
  | none => return []
  | some block => do
      let map ← decodeHeaders host block
      refuseIf (map.any (fun field => field.1 = "transfer-encoding") = true)
        "framing is hyper's: Transfer-Encoding is refused"
      let headAnswer := method = "HEAD" && bodyLen = some 0
      checkContentLength host headAnswer bodyLen
        ((map.filter (fun field => field.1 = "content-length")).map Prod.snd)
      return map

/-- `Request::respond` as far as the response it builds. -/
def buildResponse (method : String) (status : ℕ) (headers : Option Bytes)
    (body : Bytes) : Except HttpError Response := do
  let map ← builder host method status headers (some body.length)
  return ⟨status, map, body⟩

end Builder

/-! ## Refusals -/

section Refusals

variable {host : HeaderHost}

/-- The error, if there is one, is of kind "response". -/
def Refuses {α : Type} (result : Except HttpError α) : Prop :=
  ∀ e, result = .error e → e.kind = "response"

theorem Refuses.ok {α : Type} (value : α) :
    Refuses (.ok value : Except HttpError α) := by
  intro e herror
  cases herror

theorem Refuses.error {α : Type} (msg : String) :
    Refuses (.error (.response msg) : Except HttpError α) := by
  intro e herror
  cases herror
  rfl

theorem Refuses.bind {α β : Type} {first : Except HttpError α}
    {next : α → Except HttpError β} (hfirst : Refuses first)
    (hnext : ∀ value, Refuses (next value)) :
    Refuses (first >>= next) := by
  intro e herror
  cases first with
  | error e' =>
      cases herror
      exact hfirst e rfl
  | ok value => exact hnext value e herror

theorem Refuses.mapError {α : Type} {result : Except String α}
    {message : String → String} :
    Refuses (result.mapError fun e => .response (message e)) := by
  cases result with
  | error e => exact .error (message e)
  | ok value => exact .ok value

theorem Refuses.mapM {α β : Type} {f : α → Except HttpError β}
    (hf : ∀ x, Refuses (f x)) (xs : List α) : Refuses (xs.mapM f) := by
  induction xs with
  | nil => exact .ok []
  | cons x xs ih =>
      rw [List.mapM_cons]
      exact (hf x).bind fun y => ih.bind fun ys => .ok (y :: ys)

theorem Refuses.refuseIf (test : Prop) [Decidable test] (msg : String) :
    Refuses (refuseIf test msg) := by
  unfold Httpd.refuseIf
  split
  · exact .error msg
  · exact .ok ()

theorem decodeHeaderLine_refuses (line : Bytes × Bool) :
    Refuses (decodeHeaderLine host line) := by
  unfold decodeHeaderLine
  refine (Refuses.refuseIf _ _).bind fun _ => ?_
  generalize (if line.1.getLast? = some 13 then line.1.dropLast
    else line.1) = stripped
  by_cases hempty : stripped = []
  · simp only [if_pos hempty]
    exact .ok none
  · simp only [if_neg hempty]
    refine (Refuses.refuseIf _ _).bind fun _ => ?_
    exact .bind .mapError fun name => .bind .mapError fun value =>
      .ok (some (name, value))

theorem decodeHeaders_refuses (block : Bytes) :
    Refuses (decodeHeaders host block) :=
  (Refuses.mapM decodeHeaderLine_refuses _).bind fun _ => .ok _

theorem checkContentLength_refuses (headAnswer : Bool) (bodyLen : Option ℕ)
    (values : List Bytes) :
    Refuses (checkContentLength host headAnswer bodyLen values) := by
  induction values with
  | nil => exact .ok ()
  | cons value values ih => exact (Refuses.refuseIf _ _).bind fun _ => ih

/-- A response is refused with an error of kind "response" only. -/
theorem buildResponse_refuses (method : String) (status : ℕ)
    (headers : Option Bytes) (body : Bytes) :
    Refuses (buildResponse host method status headers body) := by
  refine Refuses.bind ?_ fun _ => .ok _
  unfold builder
  refine (Refuses.refuseIf _ _).bind fun _ => ?_
  refine (Refuses.refuseIf _ _).bind fun _ => ?_
  refine (Refuses.refuseIf _ _).bind fun _ => ?_
  cases headers with
  | none => exact .ok []
  | some block =>
      refine (decodeHeaders_refuses block).bind fun map => ?_
      refine (Refuses.refuseIf _ _).bind fun _ => ?_
      exact (checkContentLength_refuses _ _ _).bind fun _ => .ok map

end Refusals

end Httpd

end Rulisp

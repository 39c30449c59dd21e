import Mathlib.Data.Int.Notation
import Mathlib.Data.List.Basic
import Mathlib.Data.List.TakeWhile

/-!
# A reader of s-expressions

The standard syntax for lists, strings, keywords, symbols and decimal
integers, one character at a time over a stack of open lists.  Whatever else
a text may hold is left to the host: dispatching macro characters, quotes,
comments and escapes in tokens, and tokens that are neither a plain symbol
nor a keyword nor a natural number, or not of ASCII characters.

`Reads` is what a writer shows of its output, piece by piece.  `Completes`
is what remains certain of the result once a part of the text is read,
whatever follows it.
-/

namespace LispReader

inductive LispObject
  | null
  | symbol (name : String)
  | keyword (name : String)
  | string (value : String)
  | integer (value : ℤ)
  | cons (car cdr : LispObject)
  /-- An object of any other type, as it prints. -/
  | other (printed : String)
  deriving DecidableEq, Repr

/-- The list of the objects, with a tail. -/
def LispObject.ofListTail : List LispObject → LispObject → LispObject
  | [], tail => tail
  | first :: rest, tail => .cons first (ofListTail rest tail)

/-! ## Characters -/

def isWhitespace (c : Char) : Bool :=
  c = ' ' || c = '\n' || c = '\t' || c = '\r' || c.toNat = 12 || c.toNat = 127

/-- The characters that end a token. -/
def isTerminating (c : Char) : Bool :=
  isWhitespace c || c = '(' || c = ')' || c = '"' || c = '\'' || c = ',' ||
    c = ';' || c.toNat = 96

def isEscape (c : Char) : Bool := c = '\\' || c = '|'

/-! ## Tokens -/

def upcase (chars : List Char) : String := String.ofList (chars.map Char.toUpper)

def digitsValue (chars : List Char) : ℕ :=
  chars.foldl (fun value c => 10 * value + (c.toNat - '0'.toNat)) 0

/-- A natural number, a keyword, or a symbol that starts with a letter and
names no package, in ASCII. -/
def plainToken : List Char → Option LispObject
  | [] => none
  | first :: rest =>
      if (first :: rest).all Char.isDigit then
        some (.integer (digitsValue (first :: rest)))
      else if (first :: rest).any (fun c => c.toNat = 8 || 128 ≤ c.toNat) then
        none
      else if rest.any (fun c => c = ':') then none
      else if first = ':' then
        if rest = [] then none else some (.keyword (upcase rest))
      else if first.isAlpha then some (.symbol (upcase (first :: rest)))
      else none

/-- What a host reads beyond the syntax above: at a character, after the
characters of an unfinished token, an object or nothing and how many
characters that took; and the object that another token denotes. -/
structure ReadHost where
  dispatch : List Char → List Char → Except String (Option LispObject × ℕ)
  token : List Char → Except String LispObject

/-! ## Reading -/

/-- A list that is being read: its elements, and its tail after a dot. -/
inductive Frame
  | elements (elems : List LispObject)
  | dotted (elems : List LispObject) (tail : Option LispObject)
  deriving DecidableEq, Repr

inductive Lexer
  | between
  | inString (chars : List Char)
  | escaped (chars : List Char)
  | inToken (chars : List Char)
  /-- The host has read these many characters already. -/
  | skipping (n : ℕ)
  deriving DecidableEq, Repr

/-- The innermost list comes first. -/
inductive Progress
  | reading (stack : List Frame) (lexer : Lexer)
  | done (object : LispObject)
  deriving DecidableEq, Repr

abbrev ReadResult := Except String Progress

def push (stack : List Frame) (object : LispObject) (lexer : Lexer) :
    ReadResult :=
  match stack with
  | [] => .ok (.done object)
  | .elements elems :: rest =>
      .ok (.reading (.elements (elems ++ [object]) :: rest) lexer)
  | .dotted elems none :: rest =>
      .ok (.reading (.dotted elems (some object) :: rest) lexer)
  | .dotted _ (some _) :: _ => .error "more than one object follows . in list"

def closeList : List Frame → ReadResult
  | [] => .error "unmatched close parenthesis"
  | .elements elems :: rest =>
      push rest (.ofListTail elems .null) .between
  | .dotted elems (some tail) :: rest =>
      push rest (.ofListTail elems tail) .between
  | .dotted _ none :: _ => .error "nothing appears after . in list"

/-- The host reads at `text`, whose first character is current. -/
def dispatch (host : ReadHost) (stack : List Frame) (token text : List Char) :
    ReadResult :=
  match host.dispatch token text with
  | .error e => .error e
  | .ok (none, n) => .ok (.reading stack (.skipping (n - 1)))
  | .ok (some object, n) => push stack object (.skipping (n - 1))

def finishToken (host : ReadHost) (stack : List Frame) (token : List Char) :
    ReadResult :=
  if token = ['.'] then
    match stack with
    | .elements (first :: elems) :: rest =>
        .ok (.reading (.dotted (first :: elems) none :: rest) .between)
    | _ => .error "dot context error"
  else
    match plainToken token with
    | some object => push stack object .between
    | none =>
        match host.token token with
        | .error e => .error e
        | .ok object => push stack object .between

/-- A character outside of strings and tokens. -/
def start (host : ReadHost) (stack : List Frame) (c : Char)
    (rest : List Char) : ReadResult :=
  if isWhitespace c then .ok (.reading stack .between)
  else if c = '(' then .ok (.reading (.elements [] :: stack) .between)
  else if c = ')' then closeList stack
  else if c = '"' then .ok (.reading stack (.inString []))
  else if isTerminating c || isEscape c || c = '#' then
    dispatch host stack [] (c :: rest)
  else .ok (.reading stack (.inToken [c]))

def step (host : ReadHost) (stack : List Frame) (lexer : Lexer) (c : Char)
    (rest : List Char) : ReadResult :=
  match lexer with
  | .between | .skipping 0 => start host stack c rest
  | .skipping (n + 1) => .ok (.reading stack (.skipping n))
  | .inString chars =>
      if c = '"' then push stack (.string (.ofList chars)) .between
      else if c = '\\' then .ok (.reading stack (.escaped chars))
      else .ok (.reading stack (.inString (chars ++ [c])))
  | .escaped chars => .ok (.reading stack (.inString (chars ++ [c])))
  | .inToken token =>
      if isTerminating c then
        match finishToken host stack token with
        | .ok (.reading stack _) => start host stack c rest
        | result => result
      else if isEscape c then dispatch host stack token (c :: rest)
      else .ok (.reading stack (.inToken (token ++ [c])))

/-- Read until the first object is complete. -/
def run (host : ReadHost) : Progress → List Char → Except String LispObject
  | .done object, _ => .ok object
  | .reading stack lexer, c :: rest =>
      match step host stack lexer c rest with
      | .error e => .error e
      | .ok progress => run host progress rest
  | .reading stack (.inToken token), [] =>
      match finishToken host stack token with
      | .ok (.done object) => .ok object
      | .ok (.reading _ _) => .error "end of file"
      | .error e => .error e
  | .reading _ _, [] => .error "end of file"

/-- `(read-from-string text)`. -/
def readFromString (host : ReadHost) (text : String) :
    Except String LispObject :=
  run host (.reading [] .between) text.toList

/-! ## Text that a writer makes -/

section Reads

variable {host : ReadHost}

theorem run_cons {stack : List Frame} {lexer : Lexer} {c : Char}
    {rest : List Char} :
    run host (.reading stack lexer) (c :: rest) =
      match step host stack lexer c rest with
      | .error e => .error e
      | .ok progress => run host progress rest := by
  cases lexer <;> rfl

@[simp] theorem run_done (object : LispObject) (text : List Char) :
    run host (.done object) text = .ok object := by
  cases text <;> rfl

/-- The text ends a token that stands before it. -/
def Delimited (text : List Char) : Prop :=
  ∃ c rest, text = c :: rest ∧ isTerminating c = true

theorem isTerminating_of_isWhitespace {c : Char}
    (hspace : isWhitespace c = true) : isTerminating c = true := by
  simp [isTerminating, hspace]

/-- Neither a quote nor a backslash. -/
def Plain (text : String) : Prop := ∀ c ∈ text.toList, c ≠ '"' ∧ c ≠ '\\'

instance (text : String) : Decidable (Plain text) :=
  List.decidableBAll _ text.toList

theorem Plain.append {text text' : String} (hplain : Plain text)
    (hplain' : Plain text') : Plain (text ++ text') := by
  intro c hc
  rw [String.toList_append, List.mem_append] at hc
  exact hc.elim (hplain c) (hplain' c)

theorem run_inString_plain {chars : List Char} {stack : List Frame}
    {rest : List Char} (read : List Char)
    (hplain : ∀ c ∈ chars, c ≠ '"' ∧ c ≠ '\\') :
    run host (.reading stack (.inString read)) (chars ++ rest) =
      run host (.reading stack (.inString (read ++ chars))) rest := by
  induction chars generalizing read with
  | nil => simp
  | cons c chars ih =>
      obtain ⟨hquote, hescape⟩ := hplain c List.mem_cons_self
      rw [List.cons_append, run_cons]
      simp only [step, if_neg hquote, if_neg hescape]
      rw [ih _ fun other hother => hplain other (List.mem_cons_of_mem _ hother)]
      simp

theorem run_closeString (chars : List Char) (elems : List LispObject)
    (stack : List Frame) (rest : List Char) :
    run host (.reading (.elements elems :: stack) (.inString chars))
        ('"' :: rest) =
      run host (.reading
        (.elements (elems ++ [.string (.ofList chars)]) :: stack) .between)
        rest := by
  rw [run_cons]
  rfl

theorem run_escape {stack : List Frame} {c : Char} {rest : List Char}
    (read : List Char) :
    run host (.reading stack (.inString read)) ('\\' :: c :: rest) =
      run host (.reading stack (.inString (read ++ [c]))) rest := by
  rw [run_cons]
  simp only [step]
  rw [if_neg (by decide), if_pos trivial]
  simp only
  rw [run_cons]
  rfl

/-- Backslashes before quotes and backslashes. -/
def escape (chars : List Char) : List Char :=
  chars.flatMap fun c => if c = '\\' ∨ c = '"' then ['\\', c] else [c]

theorem run_inString_escape {chars : List Char} {stack : List Frame}
    {rest : List Char} (read : List Char) :
    run host (.reading stack (.inString read)) (escape chars ++ rest) =
      run host (.reading stack (.inString (read ++ chars))) rest := by
  induction chars generalizing read with
  | nil => simp [escape]
  | cons c chars ih =>
      have hrest := ih (read ++ [c])
      rw [List.append_assoc, List.singleton_append] at hrest
      have hcons : escape (c :: chars) ++ rest =
          (if c = '\\' ∨ c = '"' then ['\\', c] else [c]) ++
            (escape chars ++ rest) := by
        simp [escape]
      rw [hcons]
      by_cases hspecial : c = '\\' ∨ c = '"'
      · rw [if_pos hspecial, List.cons_append, List.singleton_append, run_cons]
        simp only [step]
        exact hrest
      · rw [if_neg hspecial, List.singleton_append, run_cons]
        rw [not_or] at hspecial
        simp only [step, if_neg hspecial.1, if_neg hspecial.2]
        exact hrest

/-- In a list, the text is read as the objects. -/
def Reads (host : ReadHost) (text : String) (objects : List LispObject) :
    Prop :=
  ∀ elems stack rest, Delimited rest →
    run host (.reading (.elements elems :: stack) .between)
        (text.toList ++ rest) =
      run host (.reading (.elements (elems ++ objects) :: stack) .between) rest

theorem Reads.empty : Reads host "" [] := by
  intro elems stack rest _
  simp

theorem run_between_space {stack : List Frame} {c : Char} {rest : List Char}
    (hspace : isWhitespace c = true) :
    run host (.reading stack .between) (c :: rest) =
      run host (.reading stack .between) rest := by
  rw [run_cons]
  simp [step, start, hspace]

theorem run_between_spaces {stack : List Frame} {spaces rest : List Char}
    (hspaces : ∀ c ∈ spaces, isWhitespace c = true) :
    run host (.reading stack .between) (spaces ++ rest) =
      run host (.reading stack .between) rest := by
  induction spaces with
  | nil => rfl
  | cons c spaces ih =>
      rw [List.cons_append, run_between_space (hspaces c List.mem_cons_self)]
      exact ih fun other hother => hspaces other (List.mem_cons_of_mem _ hother)

theorem run_open {stack : List Frame} {rest : List Char} :
    run host (.reading stack .between) ('(' :: rest) =
      run host (.reading (.elements [] :: stack) .between) rest := by
  rw [run_cons]
  rfl

theorem run_openString {stack : List Frame} {rest : List Char} :
    run host (.reading stack .between) ('"' :: rest) =
      run host (.reading stack (.inString [])) rest := by
  rw [run_cons]
  rfl

/-- White space between two texts. -/
structure Separator (sep : String) : Prop where
  nonempty : sep.toList ≠ []
  spaces : ∀ c ∈ sep.toList, isWhitespace c = true

theorem Separator.delimited {sep : String} (hsep : Separator sep)
    (rest : List Char) : Delimited (sep.toList ++ rest) := by
  cases hchars : sep.toList with
  | nil => exact absurd hchars hsep.nonempty
  | cons c spaces =>
      have hspace := hsep.spaces c (hchars ▸ List.mem_cons_self)
      exact ⟨c, spaces ++ rest, rfl, isTerminating_of_isWhitespace hspace⟩

theorem Reads.append {text text' sep : String}
    {objects objects' : List LispObject} (hsep : Separator sep)
    (hfirst : Reads host text objects) (hsecond : Reads host text' objects') :
    Reads host (text ++ sep ++ text') (objects ++ objects') := by
  intro elems stack rest hrest
  simp only [String.toList_append, List.append_assoc]
  rw [hfirst elems stack _ (hsep.delimited _),
    run_between_spaces hsep.spaces, hsecond _ stack rest hrest,
    List.append_assoc]

/-- `texts.join(sep)`. -/
def join (sep : String) : List String → String
  | [] => ""
  | [text] => text
  | text :: rest => text ++ sep ++ join sep rest

theorem Reads.join {α : Type} {text : α → String} {objects : α → LispObject}
    {sep : String} (hsep : Separator sep) {xs : List α}
    (hreads : ∀ x ∈ xs, Reads host (text x) [objects x]) :
    Reads host (LispReader.join sep (xs.map text)) (xs.map objects) := by
  induction xs with
  | nil => exact .empty
  | cons x xs ih =>
      have hfirst := hreads x List.mem_cons_self
      have hrest := ih fun y hy => hreads y (List.mem_cons_of_mem x hy)
      cases xs with
      | nil => exact hfirst
      | cons y ys => exact hfirst.append hsep hrest

theorem Reads.list {text : String} {objects : List LispObject}
    (hreads : Reads host text objects) :
    Reads host ("(" ++ text ++ ")") [.ofListTail objects .null] := by
  intro elems stack rest _
  have hdelimited : Delimited (')' :: rest) := ⟨')', rest, rfl, rfl⟩
  have hclose : run host
      (.reading (.elements objects :: .elements elems :: stack) .between)
      (')' :: rest) =
        run host (.reading
          (.elements (elems ++ [.ofListTail objects .null]) :: stack) .between)
          rest := by
    rw [run_cons]
    rfl
  simp only [String.toList_append, List.append_assoc]
  exact run_open.trans ((hreads [] _ _ hdelimited).trans hclose)

theorem Reads.string {text : String} (hplain : Plain text) :
    Reads host ("\"" ++ text ++ "\"") [.string text] := by
  intro elems stack rest _
  simp only [String.toList_append, String.reduceToList, List.append_assoc,
    List.cons_append, List.nil_append]
  rw [run_openString, run_inString_plain [] hplain, run_closeString, List.nil_append,
    String.ofList_toList]

theorem Reads.escaped (text : String) :
    Reads host ("\"" ++ .ofList (escape text.toList) ++ "\"")
      [.string text] := by
  intro elems stack rest _
  simp only [String.toList_append, String.reduceToList, String.toList_ofList,
    List.append_assoc, List.cons_append, List.nil_append]
  rw [run_openString, run_inString_escape [], run_closeString, List.nil_append,
    String.ofList_toList]

/-- A character that continues a token. -/
def isConstituent (c : Char) : Bool := !isTerminating c && !isEscape c

theorem run_inToken {chars : List Char} {stack : List Frame}
    {rest : List Char} (read : List Char)
    (hchars : ∀ c ∈ chars, isConstituent c = true) :
    run host (.reading stack (.inToken read)) (chars ++ rest) =
      run host (.reading stack (.inToken (read ++ chars))) rest := by
  induction chars generalizing read with
  | nil => simp
  | cons c chars ih =>
      have hc := hchars c List.mem_cons_self
      simp only [isConstituent, Bool.and_eq_true, Bool.not_eq_true'] at hc
      rw [List.cons_append, run_cons]
      simp only [step, hc.1, hc.2, Bool.false_eq_true, if_false]
      rw [ih _ fun other hother => hchars other (List.mem_cons_of_mem _ hother)]
      simp

theorem run_endToken {token : List Char} {object : LispObject}
    {elems : List LispObject} {stack : List Frame} {rest : List Char}
    (htoken : plainToken token = some object) (hdot : token ≠ ['.'])
    (hrest : Delimited rest) :
    run host (.reading (.elements elems :: stack) (.inToken token)) rest =
      run host (.reading (.elements (elems ++ [object]) :: stack) .between)
        rest := by
  obtain ⟨c, rest, rfl, hc⟩ := hrest
  rw [run_cons, run_cons]
  simp only [step, hc, if_true, finishToken, if_neg hdot, htoken, push]

theorem Reads.token {text : String} {object : LispObject}
    (hchars : text.toList.all isConstituent = true)
    (hhead : text.toList.head? ≠ some '#')
    (htoken : plainToken text.toList = some object) :
    Reads host text [object] := by
  intro elems stack rest hrest
  cases htext : text.toList with
  | nil =>
      rw [htext] at htoken
      cases htoken
  | cons c chars =>
      rw [htext] at hchars hhead htoken
      simp only [List.all_cons, Bool.and_eq_true] at hchars
      obtain ⟨hc, hchars⟩ := hchars
      have hstart : run host (.reading (.elements elems :: stack) .between)
          (c :: (chars ++ rest)) =
            run host (.reading (.elements elems :: stack) (.inToken [c]))
              (chars ++ rest) := by
        have hsharp : c ≠ '#' := by simpa using hhead
        simp only [isConstituent, Bool.and_eq_true, Bool.not_eq_true'] at hc
        have hnone := hc.1
        simp only [isTerminating, Bool.or_eq_false_iff,
          decide_eq_false_iff_not] at hnone
        rw [run_cons]
        simp [step, start, hc.1, hc.2, hnone, hsharp]
      rw [List.cons_append, hstart,
        run_inToken [c] fun other hother => List.all_eq_true.mp hchars other hother]
      refine run_endToken htoken ?_ hrest
      intro hdot
      rw [List.singleton_append] at hdot
      rw [hdot] at htoken
      cases htoken

/-- The texts with a separator after each. -/
def leading (sep : String) : List String → String
  | [] => ""
  | text :: rest => text ++ sep ++ leading sep rest

theorem join_append_cons (sep text : String) (before after : List String) :
    ∃ more, LispReader.join sep (before ++ text :: after) =
      leading sep before ++ text ++ more := by
  induction before with
  | nil =>
      cases after with
      | nil => exact ⟨"", by simp [LispReader.join, leading]⟩
      | cons next after =>
          exact ⟨sep ++ LispReader.join sep (next :: after), by
            simp [LispReader.join, leading, String.append_assoc]⟩
  | cons first before ih =>
      obtain ⟨more, hmore⟩ := ih
      refine ⟨more, ?_⟩
      have hcons : LispReader.join sep (first :: (before ++ text :: after)) =
          first ++ sep ++ LispReader.join sep (before ++ text :: after) := by
        cases before <;> rfl
      rw [List.cons_append, hcons, hmore, leading]
      simp only [String.append_assoc]

theorem Reads.before_separator {text sep : String} {objects : List LispObject}
    (hreads : Reads host text objects) (hsep : Separator sep)
    (elems : List LispObject) (stack : List Frame) (rest : List Char) :
    run host (.reading (.elements elems :: stack) .between)
        (text.toList ++ (sep.toList ++ rest)) =
      run host (.reading (.elements (elems ++ objects) :: stack) .between)
        rest := by
  rw [hreads elems stack _ (hsep.delimited _), run_between_spaces hsep.spaces]

/-- A text that is one list. -/
theorem readFromString_list {text : String} {objects : List LispObject}
    (after : String) (hreads : Reads host text objects) :
    readFromString host ("(" ++ text ++ ")" ++ after) =
      .ok (.ofListTail objects .null) := by
  have hdelimited : Delimited (')' :: after.toList) :=
    ⟨')', after.toList, rfl, rfl⟩
  have hclose : run host (.reading [.elements objects] .between)
      (')' :: after.toList) = .ok (.ofListTail objects .null) := by
    rw [run_cons]
    exact run_done _ _
  simp only [readFromString, String.toList_append, List.append_assoc]
  exact run_open.trans ((hreads [] _ _ hdelimited).trans hclose)

end Reads

/-! ## Whatever follows -/

/-- The completed list starts as it was read. -/
def Frame.Starts : Frame → LispObject → Prop
  | .elements elems, list | .dotted elems none, list =>
      ∃ tail, list = .ofListTail elems tail
  | .dotted elems (some tail), list => list = .ofListTail elems tail

/-- The next object in the completed list is `next`. -/
def Frame.Continues (next : LispObject) : Frame → LispObject → Prop
  | .elements elems, list => ∃ tail, list = .ofListTail elems (.cons next tail)
  | .dotted elems none, list => list = .ofListTail elems next
  | .dotted _ (some _), _ => False

/-- In the completed object, what is read next has the property. -/
def Inside (object : LispObject) : List Frame → (LispObject → Prop) → Prop
  | [], property => property object
  | frame :: outer, property =>
      Inside object outer fun list =>
        ∃ next, property next ∧ frame.Continues next list

def StackCompletes (object : LispObject) : List Frame → Prop
  | [] => True
  | frame :: outer => Inside object outer frame.Starts

/-- Any object that this state of the reader can still end with. -/
def Progress.Completes (object : LispObject) : Progress → Prop
  | .done result => object = result
  | .reading stack (.inString chars) | .reading stack (.escaped chars) =>
      Inside object stack fun next =>
        ∃ value, chars <+: value ∧ next = .string (.ofList value)
  | .reading stack _ => StackCompletes object stack

theorem ofListTail_append (elems : List LispObject) (next tail : LispObject) :
    LispObject.ofListTail (elems ++ [next]) tail =
      .ofListTail elems (.cons next tail) := by
  induction elems with
  | nil => rfl
  | cons first rest ih =>
      rw [List.cons_append, LispObject.ofListTail, ih]
      rfl

theorem Frame.Continues.starts {next list : LispObject} {frame : Frame}
    (hcontinues : frame.Continues next list) : frame.Starts list := by
  cases frame with
  | elements elems =>
      obtain ⟨tail, hlist⟩ := hcontinues
      exact ⟨.cons next tail, hlist⟩
  | dotted elems tail =>
      cases tail with
      | none => exact ⟨next, hcontinues⟩
      | some tail => exact hcontinues.elim

section Completes

variable {host : ReadHost} {object : LispObject} {stack : List Frame}

theorem Inside.mono {property property' : LispObject → Prop}
    (himp : ∀ next, property next → property' next)
    (hinside : Inside object stack property) :
    Inside object stack property' := by
  induction stack generalizing property property' with
  | nil => exact himp object hinside
  | cons frame outer ih =>
      apply ih _ hinside
      rintro list ⟨next, hnext, hcontinues⟩
      exact ⟨next, himp next hnext, hcontinues⟩

theorem Inside.completes {property : LispObject → Prop}
    (hinside : Inside object stack property) :
    StackCompletes object stack := by
  cases stack with
  | nil => trivial
  | cons frame outer =>
      have houter : Inside object outer fun list =>
          ∃ next, property next ∧ frame.Continues next list := hinside
      apply Inside.mono _ houter
      rintro list ⟨next, -, hcontinues⟩
      exact hcontinues.starts

/-- The lexer is not inside a string. -/
def Lexer.Outside : Lexer → Prop
  | .inString _ | .escaped _ => False
  | _ => True

theorem Progress.Completes.reading {lexer : Lexer} (houtside : lexer.Outside) :
    (Progress.reading stack lexer).Completes object ↔
      StackCompletes object stack := by
  cases lexer with
  | inString chars => exact houtside.elim
  | escaped chars => exact houtside.elim
  | _ => rfl

theorem push_completes {next : LispObject} {lexer : Lexer}
    {progress : Progress} (hpush : push stack next lexer = .ok progress)
    (houtside : lexer.Outside)
    (hcompletes : progress.Completes object) :
    Inside object stack (· = next) := by
  unfold push at hpush
  split at hpush
  · cases hpush
    exact hcompletes
  · cases hpush
    rw [Progress.Completes.reading houtside] at hcompletes
    apply Inside.mono _ hcompletes
    rintro list ⟨tail, hlist⟩
    rw [ofListTail_append] at hlist
    exact ⟨next, rfl, tail, hlist⟩
  · cases hpush
    rw [Progress.Completes.reading houtside] at hcompletes
    apply Inside.mono _ hcompletes
    intro list hlist
    exact ⟨next, rfl, hlist⟩
  · cases hpush

theorem closeList_completes {progress : Progress}
    (hclose : closeList stack = .ok progress)
    (hcompletes : progress.Completes object) :
    StackCompletes object stack := by
  unfold closeList at hclose
  split at hclose
  · cases hclose
  · apply Inside.mono _ (push_completes hclose trivial hcompletes)
    rintro list rfl
    exact ⟨.null, rfl⟩
  · apply Inside.mono _ (push_completes hclose trivial hcompletes)
    rintro list rfl
    rfl
  · cases hclose

theorem dispatch_completes {token text : List Char} {progress : Progress}
    (hdispatch : dispatch host stack token text = .ok progress)
    (hcompletes : progress.Completes object) :
    StackCompletes object stack := by
  unfold dispatch at hdispatch
  split at hdispatch
  · cases hdispatch
  · cases hdispatch
    exact hcompletes
  · exact (push_completes hdispatch trivial hcompletes).completes

theorem finishToken_completes {token : List Char} {progress : Progress}
    (hfinish : finishToken host stack token = .ok progress)
    (hcompletes : progress.Completes object) :
    StackCompletes object stack := by
  unfold finishToken at hfinish
  split at hfinish
  · split at hfinish
    · cases hfinish
      exact hcompletes
    · cases hfinish
  · split at hfinish
    · exact (push_completes hfinish trivial hcompletes).completes
    · split at hfinish
      · cases hfinish
      · exact (push_completes hfinish trivial hcompletes).completes

theorem start_completes {c : Char} {rest : List Char} {progress : Progress}
    (hstart : start host stack c rest = .ok progress)
    (hcompletes : progress.Completes object) :
    StackCompletes object stack := by
  unfold start at hstart
  split at hstart
  · cases hstart
    exact hcompletes
  split at hstart
  · cases hstart
    exact Inside.completes hcompletes
  split at hstart
  · exact closeList_completes hstart hcompletes
  split at hstart
  · cases hstart
    exact Inside.completes hcompletes
  split at hstart
  · exact dispatch_completes hstart hcompletes
  · cases hstart
    exact hcompletes

theorem finishToken_outside {token : List Char} {stack' : List Frame}
    {lexer : Lexer}
    (hfinish : finishToken host stack token = .ok (.reading stack' lexer)) :
    lexer.Outside := by
  have hpush : ∀ next, push stack next .between = .ok (.reading stack' lexer) →
      lexer.Outside := by
    intro next hpush
    unfold push at hpush
    split at hpush <;> cases hpush <;> trivial
  unfold finishToken at hfinish
  split at hfinish
  · split at hfinish <;> cases hfinish
    trivial
  · split at hfinish
    · exact hpush _ hfinish
    · split at hfinish
      · cases hfinish
      · exact hpush _ hfinish

/-- A step only adds to what was read. -/
theorem step_completes {lexer : Lexer} {c : Char} {rest : List Char}
    {progress : Progress}
    (hstep : step host stack lexer c rest = .ok progress)
    (hcompletes : progress.Completes object) :
    (Progress.reading stack lexer).Completes object := by
  unfold step at hstep
  split at hstep
  · exact start_completes hstep hcompletes
  · exact start_completes hstep hcompletes
  · cases hstep
    exact hcompletes
  · rename_i chars
    split at hstep
    · apply Inside.mono _ (push_completes hstep trivial hcompletes)
      rintro next rfl
      exact ⟨chars, List.prefix_rfl, rfl⟩
    split at hstep
    · cases hstep
      exact hcompletes
    · cases hstep
      apply Inside.mono _ hcompletes
      rintro next ⟨value, hinitial, hnext⟩
      exact ⟨value, (List.prefix_append chars [c]).trans hinitial, hnext⟩
  · rename_i chars
    cases hstep
    apply Inside.mono _ hcompletes
    rintro next ⟨value, hinitial, hnext⟩
    exact ⟨value, (List.prefix_append chars [c]).trans hinitial, hnext⟩
  · split at hstep
    · split at hstep
      · rename_i stack' lexer' hfinish
        apply finishToken_completes hfinish
        rw [Progress.Completes.reading (finishToken_outside hfinish)]
        exact start_completes hstep hcompletes
      · exact finishToken_completes hstep hcompletes
    split at hstep
    · exact dispatch_completes hstep hcompletes
    · cases hstep
      exact hcompletes

theorem run_completes {progress : Progress} {text : List Char}
    (hrun : run host progress text = .ok object) :
    progress.Completes object := by
  induction text generalizing progress with
  | nil =>
      cases progress with
      | done result =>
          cases hrun
          rfl
      | reading stack lexer =>
          cases lexer with
          | inToken token =>
              simp only [run] at hrun
              split at hrun
              · rename_i hfinish
                cases hrun
                exact finishToken_completes hfinish rfl
              · cases hrun
              · cases hrun
          | _ => cases hrun
  | cons c rest ih =>
      cases progress with
      | done result =>
          cases hrun
          rfl
      | reading stack lexer =>
          rw [run_cons] at hrun
          split at hrun
          · cases hrun
          · rename_i progress hstep
            exact step_completes hstep (ih hrun)

/-- The characters of a string up to its quote, or past that quote when a
backslash stands before it. -/
theorem run_inString_unquoted {chars : List Char} {rest : List Char}
    (hquote : '"' ∉ chars) (read : List Char) :
    ∃ value,
      (run host (.reading stack (.inString read)) (chars ++ '"' :: rest) =
          run host (.reading stack (.inString (read ++ value)))
            ('"' :: rest) ∧
        value.length ≤ chars.length ∧
        ('\\' ∈ chars → value.length < chars.length)) ∨
      (run host (.reading stack (.inString read)) (chars ++ '"' :: rest) =
          run host (.reading stack (.inString (read ++ value))) rest ∧
        '"' ∈ value) := by
  match chars with
  | [] => exact ⟨[], .inl ⟨by simp, by simp, by simp⟩⟩
  | c :: more =>
      by_cases hescape : c = '\\'
      · subst hescape
        cases more with
        | nil =>
            refine ⟨['"'], .inr ⟨?_, by simp⟩⟩
            rw [List.cons_append, List.nil_append, run_escape]
        | cons c more =>
            have hmore : '"' ∉ more := fun hmem => hquote (by simp [hmem])
            obtain ⟨value, hvalue⟩ :=
              run_inString_unquoted hmore (read ++ [c])
            rw [List.append_assoc, List.singleton_append] at hvalue
            refine ⟨c :: value, ?_⟩
            rw [List.cons_append, List.cons_append, run_escape]
            rcases hvalue with ⟨hrun, hle, -⟩ | ⟨hrun, hmem⟩
            · left
              simp only [List.length_cons]
              exact ⟨hrun, by omega, fun _ => by omega⟩
            · exact .inr ⟨hrun, List.mem_cons_of_mem c hmem⟩
      · have hmore : '"' ∉ more := fun hmem => hquote (by simp [hmem])
        have hc : c ≠ '"' := by
          rintro rfl
          exact hquote List.mem_cons_self
        obtain ⟨value, hvalue⟩ := run_inString_unquoted hmore (read ++ [c])
        rw [List.append_assoc, List.singleton_append] at hvalue
        refine ⟨c :: value, ?_⟩
        rw [List.cons_append, run_cons]
        simp only [step, if_neg hc, if_neg hescape]
        rcases hvalue with ⟨hrun, hle, hlt⟩ | ⟨hrun, hmem⟩
        · left
          simp only [List.length_cons]
          refine ⟨hrun, by omega, fun hmem => ?_⟩
          rcases List.mem_cons.mp hmem with heq | hrest
          · exact absurd heq.symm hescape
          · have hless := hlt hrest
            omega
        · exact .inr ⟨hrun, List.mem_cons_of_mem c hmem⟩

/-- The characters that a string without quotes is read as, if its last
backslash does not stand before the closing quote. -/
def unescape : List Char → Option (List Char)
  | [] => some []
  | c :: rest =>
      if c = '\\' then
        match rest with
        | [] => none
        | c :: rest => (unescape rest).map (c :: ·)
      else (unescape rest).map (c :: ·)

theorem run_inString_unescape {chars rest value : List Char}
    (hquote : '"' ∉ chars) (hvalue : unescape chars = some value)
    (read : List Char) :
    run host (.reading stack (.inString read)) (chars ++ '"' :: rest) =
      run host (.reading stack (.inString (read ++ value))) ('"' :: rest) := by
  fun_induction unescape chars generalizing read value with
  | case1 =>
      cases hvalue
      simp
  | case2 => cases hvalue
  | case3 c more ih =>
      obtain ⟨value, hmore, rfl⟩ := Option.map_eq_some_iff.mp hvalue
      rw [List.cons_append, List.cons_append, run_escape,
        ih (fun hmem => hquote (by simp [hmem])) hmore, List.append_assoc]
      rfl
  | case4 c more hescape ih =>
      obtain ⟨value, hmore, rfl⟩ := Option.map_eq_some_iff.mp hvalue
      have hc : c ≠ '"' := by
        rintro rfl
        exact hquote List.mem_cons_self
      rw [List.cons_append, run_cons]
      simp only [step, if_neg hc, if_neg hescape]
      rw [ih (fun hmem => hquote (List.mem_cons_of_mem c hmem)) hmore,
        List.append_assoc]
      rfl

/-- The quote after a pending backslash is a character of the string. -/
theorem run_inString_pending {chars rest : List Char}
    (hquote : '"' ∉ chars) (hpending : unescape chars = none)
    (read : List Char) :
    ∃ value,
      run host (.reading stack (.inString read)) (chars ++ '"' :: rest) =
        run host (.reading stack (.inString (read ++ value))) rest := by
  fun_induction unescape chars generalizing read with
  | case1 => cases hpending
  | case2 =>
      refine ⟨['"'], ?_⟩
      rw [List.cons_append, List.nil_append, run_escape]
  | case3 c more ih =>
      obtain ⟨value, hrun⟩ := ih (fun hmem => hquote (by simp [hmem]))
        (Option.map_eq_none_iff.mp hpending) (read ++ [c])
      refine ⟨c :: value, ?_⟩
      rw [List.cons_append, List.cons_append, run_escape, hrun,
        List.append_assoc]
      rfl
  | case4 c more hescape ih =>
      have hc : c ≠ '"' := by
        rintro rfl
        exact hquote List.mem_cons_self
      obtain ⟨value, hrun⟩ := ih
        (fun hmem => hquote (List.mem_cons_of_mem c hmem))
        (Option.map_eq_none_iff.mp hpending) (read ++ [c])
      refine ⟨c :: value, ?_⟩
      rw [List.cons_append, run_cons]
      simp only [step, if_neg hc, if_neg hescape]
      rw [hrun, List.append_assoc]
      rfl

theorem Reads.unescaped {text : String} {value : List Char}
    (hquote : '"' ∉ text.toList) (hvalue : unescape text.toList = some value) :
    Reads host ("\"" ++ text ++ "\"") [.string (.ofList value)] := by
  intro elems stack rest _
  simp only [String.toList_append, String.reduceToList, List.append_assoc,
    List.cons_append, List.nil_append]
  rw [run_openString, run_inString_unescape hquote hvalue, run_closeString,
    List.nil_append]

/-- How many backslashes a text ends in. -/
def trailingBackslashes (chars : List Char) : ℕ :=
  (chars.reverse.takeWhile (· = '\\')).length

theorem trailingBackslashes_all {chars : List Char}
    (hall : chars.all (· = '\\') = true) :
    trailingBackslashes chars = chars.length := by
  have hreverse : chars.reverse.all (· = '\\') = true := by
    rwa [List.all_reverse]
  unfold trailingBackslashes
  rw [List.takeWhile_eq_self_iff.mpr (List.all_eq_true.mp hreverse),
    List.length_reverse]

theorem trailingBackslashes_cons (c : Char) (rest : List Char) :
    trailingBackslashes (c :: rest) =
      if rest.all (· = '\\') then
        rest.length + (if c = '\\' then 1 else 0)
      else trailingBackslashes rest := by
  unfold trailingBackslashes
  rw [List.reverse_cons, List.takeWhile_append]
  by_cases hall : rest.all (· = '\\') = true
  · have hwhole : rest.reverse.takeWhile (· = '\\') = rest.reverse := by
      apply List.takeWhile_eq_self_iff.mpr
      simpa using hall
    rw [if_pos hall, hwhole, if_pos rfl]
    by_cases hc : c = '\\' <;> simp [hc]
  · have hpart : (rest.reverse.takeWhile (· = '\\')).length ≠
        rest.reverse.length := by
      intro hlength
      have hwhole := (List.takeWhile_prefix _).eq_of_length hlength
      apply hall
      simpa using List.takeWhile_eq_self_iff.mp hwhole
    rw [if_neg hall, if_neg hpart]

theorem unescape_eq_none_iff (chars : List Char) :
    unescape chars = none ↔ trailingBackslashes chars % 2 = 1 := by
  fun_induction unescape chars with
  | case1 => decide
  | case2 => decide
  | case3 c more ih =>
      rw [Option.map_eq_none_iff, ih, trailingBackslashes_cons '\\' (c :: more),
        trailingBackslashes_cons c more]
      by_cases hall : more.all (· = '\\') = true
      · have hmore := trailingBackslashes_all hall
        by_cases hc : c = '\\' <;> simp [hall, hc, hmore]
        omega
      · simp [hall]
  | case4 c more hescape ih =>
      rw [Option.map_eq_none_iff, ih, trailingBackslashes_cons, if_neg hescape,
        Nat.add_zero]
      split
      · rename_i hall
        rw [trailingBackslashes_all hall]
      · rfl

/-- A text with a backslash and no quote, between quotes, is not read back. -/
theorem string_misread {text : String} {rest : List Char}
    (hquote : '"' ∉ text.toList) (hescape : '\\' ∈ text.toList)
    (hrun : run host (.reading stack (.inString [])) (text.toList ++ '"' :: rest) =
      .ok object) :
    Inside object stack fun next =>
      ∃ value, value ≠ text ∧ next = .string value := by
  obtain ⟨value, hvalue⟩ :=
    @run_inString_unquoted host stack text.toList rest hquote []
  rw [List.nil_append] at hvalue
  rcases hvalue with ⟨heq, -, hlt⟩ | ⟨heq, hmem⟩
  · rw [heq, run_cons] at hrun
    split at hrun
    · cases hrun
    · rename_i progress hstep
      have hpush : push stack (.string (.ofList value)) .between =
          .ok progress := hstep
      apply Inside.mono _ (push_completes hpush trivial (run_completes hrun))
      rintro next rfl
      refine ⟨.ofList value, ?_, rfl⟩
      rintro rfl
      rw [String.toList_ofList] at hlt hescape
      exact Nat.lt_irrefl _ (hlt hescape)
  · rw [heq] at hrun
    apply Inside.mono _ (run_completes hrun)
    rintro next ⟨whole, hinitial, hnext⟩
    refine ⟨.ofList whole, ?_, hnext⟩
    rintro rfl
    rw [String.toList_ofList] at hquote
    exact hquote (hinitial.subset hmem)

end Completes

end LispReader

import Mathlib.Data.List.Basic

/-!
# Cargo.toml

What a `Cargo.toml` with a package name may look like: tables, entries and
comments, with every spelling that TOML has for the `[package]` header, the
key `name` and a string on one line.  Values of other keys are any text, and
may go on over several lines.
-/

namespace Rulisp
namespace Cargo

/-! ## Within a line -/

/-- What TOML calls white space. -/
abbrev Blanks := { text : List Char // ∀ ch ∈ text, ch = ' ' ∨ ch = '\t' }

/-- Text that stays in its line. -/
abbrev LineText := { text : List Char // '\n' ∉ text }

inductive LineEnd
  | lf
  | crlf
  deriving DecidableEq, Repr

/-- What stands before the newline. -/
def LineEnd.text : LineEnd → List Char
  | lf => []
  | crlf => ['\r']

/-- What may follow on a line: blanks, then a comment. -/
structure LineRest where
  blanks : Blanks
  comment : Option LineText
  lineEnd : LineEnd

def LineRest.text (rest : LineRest) : List Char :=
  rest.blanks.val ++ rest.comment.elim [] (fun comment => '#' :: comment.val) ++
    rest.lineEnd.text

/-- No control character but the tab. -/
def IsTextChar (ch : Char) : Prop :=
  ch = '\t' ∨ 0x20 ≤ ch.toNat ∧ ch.toNat ≠ 0x7F

/-- What a backslash and a letter stand for. -/
def escapedChar : Char → Option Char
  | 'b' => some '\x08'
  | 't' => some '\t'
  | 'n' => some '\n'
  | 'f' => some '\x0c'
  | 'r' => some '\r'
  | '"' => some '"'
  | '\\' => some '\\'
  | _ => none

def hexDigits : List Char :=
  ['0', '1', '2', '3', '4', '5', '6', '7', '8', '9', 'a', 'b', 'c', 'd', 'e',
    'f']

/-- The number that hexadecimal digits spell, in either case. -/
def hexNumber (digits : List Char) : Option ℕ :=
  digits.foldlM (fun number digit =>
    (hexDigits.idxOf? digit.toLower).map (number * 16 + ·)) 0

/-- What stands between the quotes of a basic string. -/
inductive BasicSpelling : List Char → List Char → Prop
  | nil : BasicSpelling [] []
  | plain (ch : Char) {value raw : List Char} (htext : IsTextChar ch)
      (hquote : ch ≠ '"') (hbackslash : ch ≠ '\\')
      (hrest : BasicSpelling value raw) :
      BasicSpelling (ch :: value) (ch :: raw)
  | escaped (letter ch : Char) {value raw : List Char}
      (hletter : escapedChar letter = some ch)
      (hrest : BasicSpelling value raw) :
      BasicSpelling (ch :: value) ('\\' :: letter :: raw)
  | unicode (letter : Char) (digits : List Char) (ch : Char)
      {value raw : List Char}
      (hwidth : letter = 'u' ∧ digits.length = 4 ∨
        letter = 'U' ∧ digits.length = 8)
      (hnumber : hexNumber digits = some ch.toNat)
      (hrest : BasicSpelling value raw) :
      BasicSpelling (ch :: value) ('\\' :: letter :: digits ++ raw)

def apostrophe : Char := '\x27'

theorem BasicSpelling.of_plain {value : List Char}
    (hplain : ∀ ch ∈ value, IsTextChar ch ∧ ch ≠ '"' ∧ ch ≠ '\\') :
    BasicSpelling value value := by
  induction value with
  | nil => exact .nil
  | cons ch value ih =>
      obtain ⟨⟨htext, hquote, hbackslash⟩, hrest⟩ :=
        List.forall_mem_cons.mp hplain
      exact .plain ch htext hquote hbackslash (ih hrest)

/-- A string on one line. -/
inductive TomlString
  | basic (value raw : List Char) (hspelling : BasicSpelling value raw)
  | literal (value : List Char)
      (hliteral : ∀ ch ∈ value, IsTextChar ch ∧ ch ≠ apostrophe)

namespace TomlString

def value : TomlString → List Char
  | basic value _ _ => value
  | literal value _ => value

def text : TomlString → List Char
  | basic _ raw _ => '"' :: raw ++ ['"']
  | literal value _ => apostrophe :: value ++ [apostrophe]

end TomlString

/-! ## Keys and tables -/

def IsBareKeyChar (ch : Char) : Prop :=
  ch.isAlphanum = true ∨ ch = '-' ∨ ch = '_'

inductive KeySpelling
  | bare (name : List Char)
      (hname : name ≠ [] ∧ ∀ ch ∈ name, IsBareKeyChar ch)
  | quoted (name : TomlString)

namespace KeySpelling

def name : KeySpelling → List Char
  | bare name _ => name
  | quoted name => name.value

def text : KeySpelling → List Char
  | bare name _ => name
  | quoted name => name.text

end KeySpelling

/-- One part of a dotted key. -/
structure KeyPart where
  before : Blanks
  spelling : KeySpelling
  after : Blanks

def KeyPart.text (part : KeyPart) : List Char :=
  part.before.val ++ part.spelling.text ++ part.after.val

structure TomlKey where
  parts : List KeyPart
  parts_ne_nil : parts ≠ []

namespace TomlKey

def names (key : TomlKey) : List (List Char) :=
  key.parts.map fun part => part.spelling.name

def text (key : TomlKey) : List Char :=
  ['.'].intercalate (key.parts.map KeyPart.text)

end TomlKey

/-- `[key]`, or `[[key]]` for one more table of an array. -/
structure TableHeader where
  indent : Blanks
  array : Bool
  key : TomlKey
  rest : LineRest

namespace TableHeader

def line (header : TableHeader) : List Char :=
  let brackets := if header.array then 2 else 1
  header.indent.val ++ List.replicate brackets '[' ++ header.key.text ++
    List.replicate brackets ']' ++ header.rest.text

/-- The header of `[package]`, in any spelling. -/
def IsPackage (header : TableHeader) : Prop :=
  header.array = false ∧
    header.key.names = [['p', 'a', 'c', 'k', 'a', 'g', 'e']]

end TableHeader

inductive TomlItem
  | blank (rest : LineRest)
  | table (header : TableHeader)
  | entry (key : TomlKey) (value : LineText) (more : List LineText)

def TomlItem.lines : TomlItem → List (List Char)
  | blank rest => [rest.text]
  | table header => [header.line]
  | entry key value more =>
      (key.text ++ '=' :: value.val) :: more.map Subtype.val

/-- The key `name`, in any spelling, and its string. -/
structure NameEntry where
  key : TomlKey
  key_name : key.names = [['n', 'a', 'm', 'e']]
  before : Blanks
  string : TomlString
  rest : LineRest

def NameEntry.line (entry : NameEntry) : List Char :=
  entry.key.text ++
    '=' :: (entry.before.val ++ entry.string.text ++ entry.rest.text)

/-! ## The document -/

/-- A document whose `[package]` table has a name. -/
structure CargoToml where
  before : List TomlItem
  header : TableHeader
  inside : List TomlItem
  name : NameEntry
  rest : List TomlItem
  header_isPackage : header.IsPackage
  before_no_package : ∀ other, .table other ∈ before → ¬other.IsPackage
  inside_no_table : ∀ other, .table other ∉ inside
  inside_no_name : ∀ key value more, .entry key value more ∈ inside →
    key.names ≠ [['n', 'a', 'm', 'e']]

namespace CargoToml

/-- The lines above the name. -/
def above (doc : CargoToml) : List (List Char) :=
  doc.before.flatMap TomlItem.lines ++
    doc.header.line :: doc.inside.flatMap TomlItem.lines

def lines (doc : CargoToml) : List (List Char) :=
  doc.above ++ doc.name.line :: doc.rest.flatMap TomlItem.lines

/-- A newline between any two lines; a text that ends in one has an empty last
line. -/
def text (doc : CargoToml) : List Char :=
  ['\n'].intercalate doc.lines

end CargoToml

/-! ## Every line is one line -/

theorem newline_not_mem_blanks (blanks : Blanks) : '\n' ∉ blanks.val := by
  intro hmem
  rcases blanks.property _ hmem with hch | hch <;> exact absurd hch (by decide)

theorem newline_not_mem_lineRest (rest : LineRest) : '\n' ∉ rest.text := by
  have hblanks := newline_not_mem_blanks rest.blanks
  have hcomment : '\n' ∉ rest.comment.elim []
      (fun comment => '#' :: comment.val) := by
    cases rest.comment with
    | none => exact List.not_mem_nil
    | some comment => simpa using comment.property
  have hend : '\n' ∉ rest.lineEnd.text := by
    cases rest.lineEnd with
    | lf => exact List.not_mem_nil
    | crlf => decide
  simp [LineRest.text, hblanks, hcomment, hend]

theorem newline_ne_of_isTextChar {ch : Char} (htext : IsTextChar ch) :
    ch ≠ '\n' := by
  rintro rfl
  rcases htext with htab | ⟨hlow, -⟩
  · exact absurd htab (by decide)
  · exact absurd hlow (by decide)

theorem mem_hexDigits_of_foldlM {digits : List Char} {start number : ℕ}
    (hnumber : digits.foldlM (fun number digit =>
      (hexDigits.idxOf? digit.toLower).map (number * 16 + ·)) start =
        some number) :
    ∀ digit ∈ digits, digit.toLower ∈ hexDigits := by
  induction digits generalizing start with
  | nil => exact fun _ hmem => absurd hmem List.not_mem_nil
  | cons digit digits ih =>
      rw [List.foldlM_cons] at hnumber
      obtain ⟨next, hnext, hrest⟩ := Option.bind_eq_some_iff.mp hnumber
      obtain ⟨index, hindex, -⟩ := Option.map_eq_some_iff.mp hnext
      refine List.forall_mem_cons.mpr ⟨?_, ih hrest⟩
      by_contra hnot
      rw [List.idxOf?_eq_none_iff.mpr hnot] at hindex
      cases hindex

/-- No digit is a newline, a blank or a quote. -/
theorem not_mem_of_hexNumber {digits : List Char} {number : ℕ}
    (hnumber : hexNumber digits = some number) {ch : Char}
    (hch : ch ∈ ['\n', '\r', '\t', ' ', '"']) : ch ∉ digits := by
  have hnone : ∀ ch ∈ ['\n', '\r', '\t', ' ', '"'],
      ch.toLower ∉ hexDigits := by
    simp only [List.mem_cons, List.not_mem_nil, or_false, forall_eq_or_imp,
      forall_eq]
    decide
  intro hmem
  exact hnone ch hch (mem_hexDigits_of_foldlM hnumber ch hmem)

theorem BasicSpelling.newline_not_mem {value raw : List Char}
    (hspelling : BasicSpelling value raw) : '\n' ∉ raw := by
  induction hspelling with
  | nil => exact List.not_mem_nil
  | plain ch htext hquote hbackslash hrest ih =>
      rw [List.mem_cons, not_or]
      exact ⟨(newline_ne_of_isTextChar htext).symm, ih⟩
  | escaped letter ch hletter hrest ih =>
      have hne : '\n' ≠ letter := by
        rintro rfl
        cases hletter
      simp only [List.mem_cons, not_or]
      exact ⟨by decide, hne, ih⟩
  | unicode letter digits ch hwidth hnumber hrest ih =>
      have hne : '\n' ≠ letter := by
        rintro rfl
        rcases hwidth with ⟨hletter, -⟩ | ⟨hletter, -⟩ <;>
          exact absurd hletter (by decide)
      have hdigits := not_mem_of_hexNumber hnumber List.mem_cons_self
      simp only [List.cons_append, List.mem_cons, List.mem_append, not_or]
      exact ⟨by decide, hne, hdigits, ih⟩

theorem TomlString.newline_not_mem (string : TomlString) :
    '\n' ∉ string.text := by
  cases string with
  | basic value raw hspelling =>
      have hraw := hspelling.newline_not_mem
      simpa [text] using hraw
  | literal value hliteral =>
      have hvalue : '\n' ∉ value := fun hmem =>
        newline_ne_of_isTextChar (hliteral _ hmem).1 rfl
      have hquote : '\n' ≠ apostrophe := by decide
      simp [text, hvalue, hquote]

theorem KeySpelling.newline_not_mem (spelling : KeySpelling) :
    '\n' ∉ spelling.text := by
  cases spelling with
  | bare name hname =>
      intro hmem
      rcases hname.2 _ hmem with hch | hch | hch <;>
        exact absurd hch (by decide)
  | quoted name => exact name.newline_not_mem

theorem KeyPart.newline_not_mem (part : KeyPart) : '\n' ∉ part.text := by
  simp [KeyPart.text, newline_not_mem_blanks, part.spelling.newline_not_mem]

theorem not_mem_intercalate {α : Type} {x : α} {separator : List α}
    {texts : List (List α)} (hseparator : x ∉ separator)
    (htexts : ∀ text ∈ texts, x ∉ text) : x ∉ separator.intercalate texts := by
  induction texts with
  | nil => exact List.not_mem_nil
  | cons text texts ih =>
      obtain ⟨htext, hrest⟩ := List.forall_mem_cons.mp htexts
      cases texts with
      | nil => rwa [List.intercalate_singleton]
      | cons next texts =>
          rw [List.intercalate_cons_cons, List.mem_append, List.mem_append,
            not_or, not_or]
          exact ⟨⟨htext, hseparator⟩, ih hrest⟩

theorem TomlKey.newline_not_mem (key : TomlKey) : '\n' ∉ key.text := by
  apply not_mem_intercalate (by decide)
  intro text htext
  obtain ⟨part, -, rfl⟩ := List.mem_map.mp htext
  exact part.newline_not_mem

theorem TableHeader.newline_not_mem (header : TableHeader) :
    '\n' ∉ header.line := by
  simp [TableHeader.line, newline_not_mem_blanks, newline_not_mem_lineRest,
    header.key.newline_not_mem]

theorem NameEntry.newline_not_mem (entry : NameEntry) :
    '\n' ∉ entry.line := by
  simp [NameEntry.line, newline_not_mem_blanks, newline_not_mem_lineRest,
    entry.key.newline_not_mem, entry.string.newline_not_mem]

theorem TomlItem.newline_not_mem (item : TomlItem) :
    ∀ line ∈ item.lines, '\n' ∉ line := by
  cases item with
  | blank rest => simpa [lines] using newline_not_mem_lineRest rest
  | table header => simpa [lines] using header.newline_not_mem
  | entry key value more =>
      intro line hline
      rcases List.mem_cons.mp hline with rfl | hmore
      · simp [key.newline_not_mem, value.property]
      · obtain ⟨text, -, rfl⟩ := List.mem_map.mp hmore
        exact text.property

theorem newline_not_mem_items (items : List TomlItem) :
    ∀ line ∈ items.flatMap TomlItem.lines, '\n' ∉ line := by
  intro line hline
  obtain ⟨item, -, hmem⟩ := List.mem_flatMap.mp hline
  exact item.newline_not_mem line hmem

namespace CargoToml

theorem newline_not_mem (doc : CargoToml) : ∀ line ∈ doc.lines, '\n' ∉ line := by
  intro line hline
  simp only [lines, above, List.mem_append, List.mem_cons] at hline
  rcases hline with (hbefore | rfl | hinside) | rfl | hrest
  · exact newline_not_mem_items _ line hbefore
  · exact doc.header.newline_not_mem
  · exact newline_not_mem_items _ line hinside
  · exact doc.name.newline_not_mem
  · exact newline_not_mem_items _ line hrest

/-- Cut at its newlines, the text gives its lines. -/
theorem splitOn_text (doc : CargoToml) : doc.text.splitOn '\n' = doc.lines := by
  apply List.splitOn_intercalate
  · exact doc.newline_not_mem
  · simp [lines]

end CargoToml

end Cargo
end Rulisp

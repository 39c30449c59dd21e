import Mathlib.Data.List.DropRight
import Rulisp.CargoToml

/-!
# Scraping the crate's name

`scrape-cargo-name` of `build.lisp` reads `Cargo.toml` line by line.  It has
its own ideas of what opens a table, what sets the name and what the name is;
a line is all it looks at.
-/

namespace Rulisp
namespace Cargo

/-! ## The Lisp functions -/

/-- `(string-trim bag string)`. -/
def stringTrim (bag string : List Char) : List Char :=
  (string.dropWhile (· ∈ bag)).rdropWhile (· ∈ bag)

/-- What `read-line` gives until the end of the file. -/
def readLines (text : List Char) : List (List Char) :=
  let lines := text.splitOn '\n'
  if lines.getLast? = some [] then lines.dropLast else lines

def lineBag : List Char := [' ', '\t', '\r']

def nameBag : List Char := [' ', '\t', '\r', '"']

def packageLine : List Char :=
  ['[', 'p', 'a', 'c', 'k', 'a', 'g', 'e', ']']

def nameChars : List Char := ['n', 'a', 'm', 'e']

/-- The name that a line sets, where the scanner takes it for one that does. -/
def valueText (line : List Char) : List Char :=
  let trim := stringTrim lineBag line
  stringTrim nameBag (trim.drop (trim.idxOf '=' + 1))

/-- The loop of `scrape-cargo-name`. -/
def scanLines (inPackageSection : Bool) :
    List (List Char) → Option (List Char)
  | [] => none
  | line :: lines =>
      let trim := stringTrim lineBag line
      if trim = packageLine then scanLines true lines
      else if trim.head? = some '[' then scanLines false lines
      else if inPackageSection = true ∧ 5 ≤ trim.length ∧
          trim.take 4 = nameChars ∧ '=' ∈ trim then
        some (valueText line)
      else scanLines inPackageSection lines

structure BuildError where
  command : Option (List String)
  stderr : String
  deriving DecidableEq, Repr

/-- `scrape-cargo-name`, from the directory and its `Cargo.toml` as `~A`
prints them and the text of that file, if there is one. -/
def scrapeCargoName (crateDir toml : String) (text : Option (List Char)) :
    Except BuildError (List Char) :=
  match text with
  | none => .error ⟨none, "no Cargo.toml in " ++ crateDir⟩
  | some text =>
      match scanLines false (readLines text) with
      | some name => .ok name
      | none => .error ⟨none, "no [package] name in " ++ toml⟩

/-! ## What the scanner sees -/

def OpensPackage (line : List Char) : Prop :=
  stringTrim lineBag line = packageLine

def OpensTable (line : List Char) : Prop :=
  (stringTrim lineBag line).head? = some '['

/-- Begins with the letters of `name` and has an equals sign. -/
def ReadsLikeName (line : List Char) : Prop :=
  5 ≤ (stringTrim lineBag line).length ∧
    (stringTrim lineBag line).take 4 = nameChars ∧
    '=' ∈ stringTrim lineBag line

/-- The last line above that opens a table opens `[package]`. -/
def InPackage (above : List (List Char)) : Prop :=
  ∃ before opener between, above = before ++ opener :: between ∧
    OpensPackage opener ∧ ∀ line ∈ between, ¬OpensTable line

/-- The scanner takes the line for the name, if it comes that far. -/
def TakenForName (above : List (List Char)) (line : List Char) : Prop :=
  InPackage above ∧ ReadsLikeName line

/-- The first line that is taken for the name, with the lines above it. -/
structure FirstTaken (lines above : List (List Char)) (line : List Char) :
    Prop where
  position : above ++ [line] <+: lines
  taken : TakenForName above line
  first : ∀ above' line', above' ++ [line'] <+: above →
    ¬TakenForName above' line'

/-- A basic string without escapes, not begun or ended by blanks, and nothing
but blanks behind it. -/
def NameEntry.Plain (entry : NameEntry) : Prop :=
  match entry.string with
  | .basic value raw _ =>
      raw = value ∧ entry.rest.comment = none ∧
        (∀ ch ∈ value.head?, ch ∉ [' ', '\t']) ∧
        ∀ ch ∈ value.getLast?, ch ∉ [' ', '\t']
  | .literal _ _ => False

/-- `[package]` without a comment, blanks or quotes in its brackets. -/
def TableHeader.Plain (header : TableHeader) : Prop :=
  header.key.text = ['p', 'a', 'c', 'k', 'a', 'g', 'e'] ∧
    header.rest.comment = none

/-- `name`, not quoted. -/
def NameEntry.Bare (entry : NameEntry) : Prop :=
  ∀ part ∈ entry.key.parts, ∃ hname, part.spelling = .bare nameChars hname

/-! ## Trimming -/

section Trimming

variable {bag : List Char}

theorem dropWhile_mem_eq_nil {string : List Char}
    (hall : ∀ ch ∈ string, ch ∈ bag) : string.dropWhile (· ∈ bag) = [] := by
  simpa using hall

/-- What is trimmed off, and what is left. -/
theorem stringTrim_eq {left core right : List Char}
    (hleft : ∀ ch ∈ left, ch ∈ bag) (hright : ∀ ch ∈ right, ch ∈ bag)
    (hhead : ∀ ch ∈ core.head?, ch ∉ bag)
    (hlast : ∀ ch ∈ core.getLast?, ch ∉ bag) :
    stringTrim bag (left ++ core ++ right) = core := by
  have hfront : (left ++ (core ++ right)).dropWhile (· ∈ bag) =
      (core ++ right).dropWhile (· ∈ bag) :=
    List.dropWhile_append_of_pos (by simpa using hleft)
  rw [stringTrim, List.append_assoc, hfront]
  cases core with
  | nil => rw [List.nil_append, dropWhile_mem_eq_nil hright, List.rdropWhile_nil]
  | cons ch core =>
      have hch : ch ∉ bag := hhead ch rfl
      rw [List.cons_append, List.dropWhile_cons_of_neg (by simpa using hch),
        ← List.cons_append, List.rdropWhile, List.reverse_append,
        List.dropWhile_append_of_pos (by simpa using hright), ← List.rdropWhile,
        List.rdropWhile_eq_self_iff]
      intro hne
      simpa using hlast _ (List.getLast?_eq_some_getLast hne)

theorem exists_stringTrim (bag string : List Char) :
    ∃ left right, string = left ++ stringTrim bag string ++ right ∧
      (∀ ch ∈ left, ch ∈ bag) ∧ ∀ ch ∈ right, ch ∈ bag := by
  refine ⟨string.takeWhile (· ∈ bag),
    (string.dropWhile (· ∈ bag)).rtakeWhile (· ∈ bag), ?_, ?_, ?_⟩
  · rw [stringTrim, List.append_assoc, List.rdropWhile_append_rtakeWhile,
      List.takeWhile_append_dropWhile]
  · intro ch hch
    simpa using List.mem_takeWhile_imp hch
  · intro ch hch
    simpa using List.mem_rtakeWhile_imp hch

theorem head_stringTrim (string : List Char) :
    ∀ ch ∈ (stringTrim bag string).head?, ch ∉ bag := by
  intro ch hch
  obtain ⟨core, hcore⟩ := List.head?_eq_some_iff.mp hch
  obtain ⟨right, hright⟩ : stringTrim bag string <+:
      string.dropWhile (· ∈ bag) := List.rdropWhile_prefix _ _
  have hnot := List.head?_dropWhile_not (fun ch => decide (ch ∈ bag)) string
  rw [← hright, hcore] at hnot
  simpa using hnot

theorem getLast_rdropWhile (string : List Char) :
    ∀ ch ∈ (string.rdropWhile (· ∈ bag)).getLast?, ch ∉ bag := by
  intro ch hch
  have hne : string.rdropWhile (· ∈ bag) ≠ [] := by
    intro hnil
    rw [hnil] at hch
    cases hch
  rw [List.getLast?_eq_some_getLast hne] at hch
  cases hch
  exact fun hmem => List.rdropWhile_last_not _ _ hne (decide_eq_true hmem)

theorem getLast_stringTrim (string : List Char) :
    ∀ ch ∈ (stringTrim bag string).getLast?, ch ∉ bag :=
  getLast_rdropWhile _

/-- What may be trimmed on the right. -/
theorem exists_trimRight (bag string : List Char) :
    ∃ core right, string = core ++ right ∧ (∀ ch ∈ right, ch ∈ bag) ∧
      ∀ ch ∈ core.getLast?, ch ∉ bag := by
  refine ⟨string.rdropWhile (· ∈ bag), string.rtakeWhile (· ∈ bag),
    List.rdropWhile_append_rtakeWhile.symm, ?_, getLast_rdropWhile string⟩
  intro ch hch
  simpa using List.mem_rtakeWhile_imp hch

theorem stringTrim_append {string right : List Char}
    (hright : ∀ ch ∈ right, ch ∈ bag) :
    stringTrim bag (string ++ right) = stringTrim bag string := by
  obtain ⟨left, middle, hstring, hleft, hmiddle⟩ :=
    exists_stringTrim bag string
  have hsplit : string ++ right =
      left ++ stringTrim bag string ++ (middle ++ right) := by
    conv_lhs => rw [hstring]
    rw [List.append_assoc]
  rw [hsplit]
  apply stringTrim_eq hleft _ (head_stringTrim string)
    (getLast_stringTrim string)
  intro ch hch
  rcases List.mem_append.mp hch with hch | hch
  · exact hmiddle ch hch
  · exact hright ch hch

/-- The first character that is not trimmed. -/
theorem head_stringTrim_eq {left tail : List Char} {ch : Char}
    (hleft : ∀ ch ∈ left, ch ∈ bag) (hch : ch ∉ bag) :
    (stringTrim bag (left ++ ch :: tail)).head? = some ch := by
  rw [stringTrim, List.dropWhile_append_of_pos (by simpa using hleft),
    List.dropWhile_cons_of_neg (by simpa using hch)]
  obtain ⟨right, hright⟩ :=
    List.rdropWhile_prefix (fun ch => decide (ch ∈ bag)) (ch :: tail)
  cases hcore : (ch :: tail).rdropWhile (fun ch => decide (ch ∈ bag)) with
  | nil =>
      have hall := List.rdropWhile_eq_nil_iff.mp hcore ch List.mem_cons_self
      exact absurd (of_decide_eq_true hall) hch
  | cons first core =>
      rw [hcore] at hright
      cases hright
      rfl

theorem mem_stringTrim {string : List Char} {ch : Char} (hmem : ch ∈ string)
    (hch : ch ∉ bag) : ch ∈ stringTrim bag string := by
  obtain ⟨left, right, hstring, hleft, hright⟩ := exists_stringTrim bag string
  rw [hstring, List.mem_append, List.mem_append] at hmem
  rcases hmem with (hmem | hmem) | hmem
  · exact absurd (hleft ch hmem) hch
  · exact hmem
  · exact absurd (hright ch hmem) hch

/-- How many characters are never trimmed. -/
def weight (bag string : List Char) : ℕ :=
  string.countP (· ∉ bag)

theorem weight_cons (ch : Char) (string : List Char) :
    weight bag (ch :: string) =
      weight bag string + if ch ∈ bag then 0 else 1 := by
  rw [weight, List.countP_cons, weight]
  by_cases hch : ch ∈ bag <;> simp [hch]

theorem weight_append (left right : List Char) :
    weight bag (left ++ right) = weight bag left + weight bag right :=
  List.countP_append

theorem weight_eq_zero {string : List Char} :
    weight bag string = 0 ↔ ∀ ch ∈ string, ch ∈ bag := by
  simp [weight, List.countP_eq_zero]

theorem weight_stringTrim (string : List Char) :
    weight bag (stringTrim bag string) = weight bag string := by
  obtain ⟨left, right, hstring, hleft, hright⟩ := exists_stringTrim bag string
  conv_rhs => rw [hstring]
  rw [weight_append, weight_append, weight_eq_zero.mpr hleft,
    weight_eq_zero.mpr hright]
  omega

end Trimming

/-! ## Lines taken -/

theorem OpensPackage.opensTable {line : List Char}
    (hopens : OpensPackage line) : OpensTable line := by
  rw [OpensTable, hopens]
  rfl

theorem ReadsLikeName.not_opensTable {line : List Char}
    (hreads : ReadsLikeName line) : ¬OpensTable line := by
  obtain ⟨-, htake, -⟩ := hreads
  intro hopens
  unfold OpensTable at hopens
  cases htrim : stringTrim lineBag line with
  | nil =>
      rw [htrim] at hopens
      cases hopens
  | cons ch rest =>
      rw [htrim] at hopens htake
      cases hopens
      cases htake

theorem not_inPackage_nil : ¬InPackage [] := by
  rintro ⟨before, opener, between, habove, -, -⟩
  cases before <;> cases habove

/-- What one more line does to the table that is open. -/
theorem inPackage_concat {above : List (List Char)} {line : List Char} :
    InPackage (above ++ [line]) ↔
      OpensPackage line ∨ InPackage above ∧ ¬OpensTable line := by
  constructor
  · rintro ⟨before, opener, between, habove, hopener, hbetween⟩
    rcases List.eq_nil_or_concat' between with rfl | ⟨between, last, rfl⟩
    · obtain ⟨-, hline⟩ := List.append_inj' habove rfl
      cases hline
      exact .inl hopener
    · rw [← List.cons_append, ← List.append_assoc] at habove
      obtain ⟨hbefore, hline⟩ := List.append_inj' habove rfl
      cases hline
      refine .inr ⟨⟨before, opener, between, hbefore, hopener, ?_⟩, ?_⟩
      · exact fun line hmem => hbetween line (List.mem_append_left _ hmem)
      · exact hbetween _ (List.mem_append_right _ List.mem_cons_self)
  · rintro (hopens | ⟨⟨before, opener, between, rfl, hopener, hbetween⟩, hline⟩)
    · exact ⟨above, line, [], rfl, hopens,
        fun _ hmem => absurd hmem List.not_mem_nil⟩
    · refine ⟨before, opener, between ++ [line], by simp, hopener, ?_⟩
      intro other hmem
      rcases List.mem_append.mp hmem with hmem | hmem
      · exact hbetween other hmem
      · rw [List.mem_singleton.mp hmem]
        exact hline

/-- There is one line at most that is taken first. -/
theorem FirstTaken.unique {lines above above' : List (List Char)}
    {line line' : List Char} (hfirst : FirstTaken lines above line)
    (hfirst' : FirstTaken lines above' line') :
    above = above' ∧ line = line' := by
  rcases lt_trichotomy above.length above'.length with hlt | heq | hlt
  · have hbegins : above ++ [line] <+: above' := by
      apply List.prefix_of_prefix_length_le hfirst.position
        ((List.prefix_append above' [line']).trans hfirst'.position)
      rw [List.length_append, List.length_singleton]
      omega
    exact absurd hfirst.taken (hfirst'.first above line hbegins)
  · have hbegins := List.prefix_of_prefix_length_le hfirst.position
      hfirst'.position (by simp [heq])
    have hsame := hbegins.eq_of_length (by simp [heq])
    obtain ⟨habove, hline⟩ := List.append_inj' hsame rfl
    exact ⟨habove, List.singleton_inj.mp hline⟩
  · have hbegins : above' ++ [line'] <+: above := by
      apply List.prefix_of_prefix_length_le hfirst'.position
        ((List.prefix_append above [line]).trans hfirst.position)
      rw [List.length_append, List.length_singleton]
      omega
    exact absurd hfirst'.taken (hfirst.first above' line' hbegins)

/-- No line so far was taken. -/
def NoneTaken (above : List (List Char)) : Prop :=
  ∀ above' line', above' ++ [line'] <+: above → ¬TakenForName above' line'

theorem NoneTaken.concat {above : List (List Char)} {line : List Char}
    (hnone : NoneTaken above) (hline : ¬TakenForName above line) :
    NoneTaken (above ++ [line]) := by
  intro above' line' hbegins
  rcases List.prefix_concat_iff.mp hbegins with hsame | hbegins
  · obtain ⟨rfl, hline'⟩ := List.append_inj' hsame rfl
    cases hline'
    exact hline
  · exact hnone above' line' hbegins

/-- The loop returns what the first line sets that is taken for the name.  The
induction carries the lines read so far, of which none was taken. -/
theorem scanLines_eq_some_iff {inPackageSection : Bool}
    {above lines : List (List Char)} {value : List Char}
    (hopen : inPackageSection = true ↔ InPackage above)
    (hnone : NoneTaken above) :
    scanLines inPackageSection lines = some value ↔
      ∃ above' line, FirstTaken (above ++ lines) above' line ∧
        valueText line = value := by
  induction lines generalizing inPackageSection above with
  | nil =>
      simp only [scanLines, reduceCtorEq, false_iff, not_exists, not_and]
      intro above' line hfirst
      have hposition := hfirst.position
      rw [List.append_nil] at hposition
      exact absurd hfirst.taken (hnone above' line hposition)
  | cons line lines ih =>
      -- the rest of the lines, once this one was not taken
      have hskip : ∀ {next : Bool},
          (next = true ↔ InPackage (above ++ [line])) →
          ¬TakenForName above line →
          (scanLines next lines = some value ↔
            ∃ above' line', FirstTaken (above ++ line :: lines) above' line' ∧
              valueText line' = value) := by
        intro next hnext hline
        rw [ih hnext (hnone.concat hline), List.append_assoc]
        rfl
      rw [scanLines]
      split
      · rename_i hopens
        refine hskip (iff_of_true rfl (inPackage_concat.mpr (.inl hopens))) ?_
        exact fun htaken => htaken.2.not_opensTable
          (OpensPackage.opensTable hopens)
      split
      · rename_i hopens htable
        have hclosed : ¬InPackage (above ++ [line]) := by
          rw [inPackage_concat]
          rintro (hpackage | ⟨-, hplain⟩)
          · exact hopens hpackage
          · exact hplain htable
        refine hskip (iff_of_false Bool.false_ne_true hclosed) ?_
        exact fun htaken => htaken.2.not_opensTable htable
      split
      · rename_i htaken
        have hfirst : FirstTaken (above ++ line :: lines) above line := by
          refine ⟨⟨lines, by simp⟩, ⟨hopen.mp htaken.1, htaken.2⟩, hnone⟩
        rw [Option.some.injEq]
        constructor
        · intro hvalue
          exact ⟨above, line, hfirst, hvalue⟩
        · rintro ⟨above', line', hfirst', hvalue⟩
          obtain ⟨-, rfl⟩ := hfirst.unique hfirst'
          exact hvalue
      · rename_i hopens htable htaken
        refine hskip ?_ fun hline => htaken ⟨hopen.mpr hline.1, hline.2⟩
        rw [inPackage_concat, hopen]
        constructor
        · exact fun hpackage => .inr ⟨hpackage, htable⟩
        · rintro (hpackage | ⟨hpackage, -⟩)
          · exact absurd hpackage hopens
          · exact hpackage

theorem scanLines_concat_nil (inPackageSection : Bool)
    (lines : List (List Char)) :
    scanLines inPackageSection (lines ++ [[]]) =
      scanLines inPackageSection lines := by
  induction lines generalizing inPackageSection with
  | nil => cases inPackageSection <;> rfl
  | cons line lines ih => simp only [List.cons_append, scanLines, ih]

/-- An empty last line, which `read-line` does not give, says nothing. -/
theorem scanLines_readLines (text : List Char) :
    scanLines false (readLines text) = scanLines false (text.splitOn '\n') := by
  by_cases hlast : (text.splitOn '\n').getLast? = some []
  · obtain ⟨lines, hlines⟩ := List.getLast?_eq_some_iff.mp hlast
    rw [readLines, if_pos hlast, hlines, List.dropLast_concat,
      scanLines_concat_nil]
  · rw [readLines, if_neg hlast]

/-! ## The line with the name -/

section NameLine

theorem blanks_mem_lineBag (blanks : Blanks) :
    ∀ ch ∈ blanks.val, ch ∈ lineBag := by
  intro ch hch
  rcases blanks.property ch hch with rfl | rfl <;> decide

theorem lineEnd_mem_lineBag (lineEnd : LineEnd) :
    ∀ ch ∈ lineEnd.text, ch ∈ lineBag := by
  cases lineEnd with
  | lf => exact List.forall_mem_nil _
  | crlf => exact List.forall_mem_singleton.mpr (by decide)

theorem mem_nameBag_of_mem_lineBag {ch : Char} (hch : ch ∈ lineBag) :
    ch ∈ nameBag :=
  List.mem_append_left ['"'] hch

/-- A backslash and what follows it outweigh one character. -/
theorem weight_escape_lt {ch letter : Char} {value raw : List Char}
    (hletter : letter ∈ nameBag → ch ∈ nameBag)
    (hle : weight nameBag value ≤ weight nameBag raw) :
    weight nameBag (ch :: value) <
      weight nameBag ('\\' :: letter :: raw) := by
  have hbackslash : '\\' ∉ nameBag := by decide
  rw [weight_cons, weight_cons, weight_cons, if_neg hbackslash]
  by_cases hch : ch ∈ nameBag
  · rw [if_pos hch]
    omega
  · rw [if_neg hch, if_neg fun hmem => hch (hletter hmem)]
    omega

/-- Escapes weigh more than what they stand for. -/
theorem BasicSpelling.plain_or_escaped {value raw : List Char}
    (hspelling : BasicSpelling value raw) :
    weight nameBag value < weight nameBag raw ∨
      raw = value ∧ ∀ ch ∈ value, IsTextChar ch ∧ ch ≠ '"' := by
  have hle : ∀ {value raw : List Char},
      (weight nameBag value < weight nameBag raw ∨
        raw = value ∧ ∀ ch ∈ value, IsTextChar ch ∧ ch ≠ '"') →
      weight nameBag value ≤ weight nameBag raw := by
    rintro value raw (hlt | ⟨rfl, -⟩)
    · exact hlt.le
    · exact le_rfl
  induction hspelling with
  | nil => exact .inr ⟨rfl, fun _ hmem => absurd hmem List.not_mem_nil⟩
  | plain ch htext hquote hbackslash hrest ih =>
      rcases ih with hlt | ⟨rfl, hplain⟩
      · left
        rw [weight_cons, weight_cons]
        omega
      · exact .inr ⟨rfl, List.forall_mem_cons.mpr ⟨⟨htext, hquote⟩, hplain⟩⟩
  | escaped letter ch hletter hrest ih =>
      refine .inl (weight_escape_lt ?_ (hle ih))
      intro hmem
      -- of the characters that are trimmed, only the quote is an escape
      simp only [nameBag, List.mem_cons, List.not_mem_nil, or_false] at hmem
      rcases hmem with rfl | rfl | rfl | rfl <;> cases hletter
      decide
  | unicode letter digits ch hwidth hnumber hrest ih =>
      refine .inl (weight_escape_lt ?_ ?_)
      · intro hmem
        rcases hwidth with ⟨rfl, -⟩ | ⟨rfl, -⟩ <;>
          exact absurd hmem (by decide)
      · exact (hle ih).trans
          ((Nat.le_add_left _ _).trans_eq (weight_append digits _).symm)

theorem weight_blanks (blanks : Blanks) : weight nameBag blanks.val = 0 :=
  weight_eq_zero.mpr fun ch hch =>
    mem_nameBag_of_mem_lineBag (blanks_mem_lineBag blanks ch hch)

/-- Behind a value only a comment weighs anything. -/
theorem weight_lineRest {rest : LineRest} :
    weight nameBag rest.text = 0 ↔ rest.comment = none := by
  have hend : weight nameBag rest.lineEnd.text = 0 :=
    weight_eq_zero.mpr fun ch hch =>
      mem_nameBag_of_mem_lineBag (lineEnd_mem_lineBag rest.lineEnd ch hch)
  rw [LineRest.text, weight_append, weight_append, weight_blanks, hend]
  cases rest.comment with
  | none => exact iff_of_true rfl rfl
  | some comment =>
      have hhash : '#' ∉ nameBag := by decide
      have hne : 0 + weight nameBag ('#' :: comment.val) + 0 ≠ 0 := by
        rw [weight_cons, if_neg hhash]
        omega
      exact iff_of_false hne (Option.some_ne_none comment)

theorem not_mem_nameBag {ch : Char} (htext : IsTextChar ch) (hquote : ch ≠ '"')
    (hblank : ch ∉ [' ', '\t']) : ch ∉ nameBag := by
  have hreturn : ch ≠ '\r' := by
    rintro rfl
    rcases htext with htab | ⟨hlow, -⟩
    · exact absurd htab (by decide)
    · exact absurd hlow (by decide)
  simp only [List.mem_cons, List.not_mem_nil, or_false, not_or] at hblank
  simp only [nameBag, List.mem_cons, List.not_mem_nil, or_false, not_or]
  exact ⟨hblank.1, hblank.2, hreturn, hquote⟩

theorem not_mem_blanks_of_not_mem_nameBag {ch : Char} (hch : ch ∉ nameBag) :
    ch ∉ [' ', '\t'] :=
  fun hmem => hch (List.mem_append_left ['\r', '"'] hmem)

/-- What the trim leaves has the weight of the text, and neither end in the
bag. -/
theorem plain_of_stringTrim {entry : NameEntry}
    (htrim : stringTrim nameBag
        (entry.before.val ++ entry.string.text ++ entry.rest.text) =
      entry.string.value) : entry.Plain := by
  have hweight := congrArg (weight nameBag) htrim
  rw [weight_stringTrim, weight_append, weight_append, weight_blanks]
    at hweight
  have hhead := @head_stringTrim nameBag
    (entry.before.val ++ entry.string.text ++ entry.rest.text)
  have hlast := @getLast_stringTrim nameBag
    (entry.before.val ++ entry.string.text ++ entry.rest.text)
  rw [htrim] at hhead hlast
  unfold NameEntry.Plain
  cases hstring : entry.string with
  | literal value hliteral =>
      -- the quotes of a literal string are not trimmed
      have hquote : apostrophe ∉ nameBag := by decide
      rw [hstring, TomlString.text, TomlString.value, weight_append,
        weight_cons, weight_cons, if_neg hquote] at hweight
      omega
  | basic value raw hspelling =>
      have hquote : '"' ∈ nameBag := by decide
      have hraw : weight nameBag ('"' :: raw ++ ['"']) =
          weight nameBag raw := by
        rw [weight_append, weight_cons, weight_cons, if_pos hquote]
        rfl
      rw [hstring, TomlString.text, TomlString.value, hraw] at hweight
      rw [hstring] at hhead hlast
      rcases hspelling.plain_or_escaped with hlt | ⟨hsame, -⟩
      · omega
      · refine ⟨hsame, ?_, ?_, ?_⟩
        · rw [← weight_lineRest]
          rw [hsame] at hweight
          omega
        · exact fun ch hch => not_mem_blanks_of_not_mem_nameBag (hhead ch hch)
        · exact fun ch hch => not_mem_blanks_of_not_mem_nameBag (hlast ch hch)

theorem stringTrim_of_plain {entry : NameEntry} (hplain : entry.Plain) :
    stringTrim nameBag
        (entry.before.val ++ entry.string.text ++ entry.rest.text) =
      entry.string.value := by
  unfold NameEntry.Plain at hplain
  cases hstring : entry.string with
  | literal value hliteral =>
      rw [hstring] at hplain
      exact absurd hplain id
  | basic value raw hspelling =>
      rw [hstring] at hplain
      obtain ⟨rfl, hcomment, hhead, hlast⟩ := hplain
      have hchars : ∀ ch ∈ raw, IsTextChar ch ∧ ch ≠ '"' := by
        rcases hspelling.plain_or_escaped with hlt | ⟨-, hchars⟩
        · exact absurd hlt (lt_irrefl _)
        · exact hchars
      have hsplit : entry.before.val ++ ('"' :: raw ++ ['"']) ++
            entry.rest.text =
          (entry.before.val ++ ['"']) ++ raw ++ ('"' :: entry.rest.text) := by
        simp
      rw [TomlString.text, TomlString.value, hsplit]
      apply stringTrim_eq
      · intro ch hch
        rcases List.mem_append.mp hch with hch | hch
        · exact mem_nameBag_of_mem_lineBag
            (blanks_mem_lineBag entry.before ch hch)
        · rw [List.mem_singleton.mp hch]
          decide
      · exact List.forall_mem_cons.mpr
          ⟨by decide, weight_eq_zero.mp (weight_lineRest.mpr hcomment)⟩
      · intro ch hch
        obtain ⟨htext, hquote⟩ := hchars ch (List.mem_of_mem_head? hch)
        exact not_mem_nameBag htext hquote (hhead ch hch)
      · intro ch hch
        obtain ⟨htext, hquote⟩ := hchars ch (List.mem_of_getLast? hch)
        exact not_mem_nameBag htext hquote (hlast ch hch)

/-- Trimmed, the text behind the equals sign is the string just if it is
plain. -/
theorem stringTrim_string_iff (entry : NameEntry) :
    stringTrim nameBag
        (entry.before.val ++ entry.string.text ++ entry.rest.text) =
      entry.string.value ↔ entry.Plain :=
  ⟨plain_of_stringTrim, stringTrim_of_plain⟩

/-- A key of one part. -/
theorem TomlKey.exists_part {key : TomlKey} {name : List Char}
    (hnames : key.names = [name]) :
    ∃ part, key.parts = [part] ∧ part.spelling.name = name ∧
      key.text = part.text := by
  obtain ⟨part, hparts, hname⟩ := List.map_eq_singleton_iff.mp hnames
  refine ⟨part, hparts, hname, ?_⟩
  rw [TomlKey.text, hparts]
  exact List.intercalate_singleton

theorem NameEntry.bare_iff {entry : NameEntry} {part : KeyPart}
    (hparts : entry.key.parts = [part]) :
    entry.Bare ↔ ∃ hname, part.spelling = .bare nameChars hname := by
  rw [NameEntry.Bare, hparts]
  simp

/-- What trimming leaves of a line with a bare key. -/
theorem NameEntry.exists_trimmed {entry : NameEntry} (hbare : entry.Bare) :
    ∃ (after : Blanks) (value right : List Char),
      stringTrim lineBag entry.line =
        nameChars ++ after.val ++ '=' :: value ∧
      entry.before.val ++ entry.string.text ++ entry.rest.text =
        value ++ right ∧ ∀ ch ∈ right, ch ∈ lineBag := by
  obtain ⟨part, hparts, -, htext⟩ := TomlKey.exists_part entry.key_name
  obtain ⟨hname, hspelling⟩ := (NameEntry.bare_iff hparts).mp hbare
  obtain ⟨value, right, hbehind, hright, hvalue⟩ := exists_trimRight lineBag
    (entry.before.val ++ entry.string.text ++ entry.rest.text)
  have hline : entry.line = part.before.val ++
      (nameChars ++ part.after.val ++ '=' :: value) ++ right := by
    rw [NameEntry.line, htext, KeyPart.text, hspelling, KeySpelling.text,
      hbehind]
    simp
  refine ⟨part.after, value, right, ?_, hbehind, hright⟩
  rw [hline]
  apply stringTrim_eq (blanks_mem_lineBag part.before) hright
  · rintro ch ⟨⟩
    decide
  · intro ch hch
    rw [List.getLast?_append_of_ne_nil _ (List.cons_ne_nil _ _)] at hch
    cases value with
    | nil =>
        cases hch
        decide
    | cons first value =>
        rw [List.getLast?_cons_cons] at hch
        exact hvalue ch hch

theorem NameEntry.readsLikeName_of_bare {entry : NameEntry}
    (hbare : entry.Bare) : ReadsLikeName entry.line := by
  obtain ⟨after, value, right, htrim, -⟩ := entry.exists_trimmed hbare
  rw [ReadsLikeName, htrim]
  refine ⟨?_, ?_, ?_⟩
  · simp [nameChars]
    omega
  · rfl
  · simp

theorem NameEntry.valueText_of_bare {entry : NameEntry} (hbare : entry.Bare) :
    valueText entry.line = stringTrim nameBag
      (entry.before.val ++ entry.string.text ++ entry.rest.text) := by
  obtain ⟨after, value, right, htrim, hvalue, hright⟩ :=
    entry.exists_trimmed hbare
  have hequals : '=' ∉ nameChars ++ after.val := by
    intro hmem
    rcases List.mem_append.mp hmem with hmem | hmem
    · exact absurd hmem (by decide)
    · exact absurd (blanks_mem_lineBag after _ hmem) (by decide)
  rw [valueText, htrim, List.idxOf_append_of_notMem hequals,
    List.idxOf_cons_self, Nat.add_zero, hvalue,
    stringTrim_append fun ch hch => mem_nameBag_of_mem_lineBag (hright ch hch)]
  congr 1
  exact List.drop_length_add_append _

theorem NameEntry.bare_of_readsLikeName {entry : NameEntry}
    (hreads : ReadsLikeName entry.line) : entry.Bare := by
  obtain ⟨part, hparts, hname, htext⟩ := TomlKey.exists_part entry.key_name
  rw [NameEntry.bare_iff hparts]
  cases hspelling : part.spelling with
  | bare name hchars =>
      rw [hspelling] at hname
      obtain rfl : name = nameChars := hname
      exact ⟨hchars, rfl⟩
  | quoted string =>
      obtain ⟨quote, tail, hstring, hquote⟩ : ∃ quote tail,
          string.text = quote :: tail ∧
            (quote = '"' ∨ quote = apostrophe) := by
        cases string with
        | basic value raw _ => exact ⟨_, _, rfl, .inl rfl⟩
        | literal value _ => exact ⟨_, _, rfl, .inr rfl⟩
      have hline : ∃ tail, entry.line = part.before.val ++ quote :: tail := by
        rw [NameEntry.line, htext, KeyPart.text, hspelling, KeySpelling.text,
          hstring]
        rw [List.append_assoc, List.append_assoc, List.append_assoc]
        exact ⟨_, rfl⟩
      obtain ⟨tail, hline⟩ := hline
      have hhead : (stringTrim lineBag entry.line).head? = some quote := by
        rw [hline]
        apply head_stringTrim_eq (blanks_mem_lineBag part.before)
        rcases hquote with rfl | rfl <;> decide
      have htake := congrArg List.head? hreads.2.1
      rw [List.head?_take, if_neg (by decide), hhead] at htake
      cases htake
      rcases hquote with hquote | hquote <;> exact absurd hquote (by decide)

end NameLine

/-! ## The line with the table -/

/-- Which spellings of the header the scanner knows. -/
theorem TableHeader.opensPackage_iff {header : TableHeader}
    (hpackage : header.IsPackage) :
    OpensPackage header.line ↔ header.Plain := by
  have hline : header.line = header.indent.val ++
      ('[' :: header.key.text ++ [']']) ++ header.rest.text := by
    rw [TableHeader.line, hpackage.1]
    simp
  cases hcomment : header.rest.comment with
  | some comment =>
      have hhash : '#' ∈ stringTrim lineBag header.line := by
        apply mem_stringTrim _ (by decide)
        rw [hline, LineRest.text, hcomment]
        simp
      apply iff_of_false
      · intro hopens
        rw [OpensPackage] at hopens
        rw [hopens] at hhash
        exact absurd hhash (by decide)
      · intro hplain
        have hnone := hplain.2
        rw [hcomment] at hnone
        cases hnone
  | none =>
      have hrest : ∀ ch ∈ header.rest.text, ch ∈ lineBag := by
        intro ch hch
        rw [LineRest.text, hcomment] at hch
        rcases List.mem_append.mp hch with hch | hch
        · rcases List.mem_append.mp hch with hch | hch
          · exact blanks_mem_lineBag _ ch hch
          · cases hch
        · exact lineEnd_mem_lineBag _ ch hch
      have htrim : stringTrim lineBag header.line =
          '[' :: header.key.text ++ [']'] := by
        rw [hline]
        apply stringTrim_eq (blanks_mem_lineBag _) hrest
        · rintro ch ⟨⟩
          decide
        · intro ch hch
          rw [List.getLast?_concat] at hch
          cases hch
          decide
      have hpackageLine : packageLine =
          '[' :: ['p', 'a', 'c', 'k', 'a', 'g', 'e'] ++ [']'] := rfl
      rw [OpensPackage, htrim, hpackageLine, List.append_cancel_right_eq,
        List.cons_inj_right, TableHeader.Plain, hcomment]
      exact (and_iff_left rfl).symm

theorem TableHeader.opensTable (header : TableHeader) :
    OpensTable header.line := by
  obtain ⟨tail, hline⟩ : ∃ tail, header.line =
      header.indent.val ++ '[' :: tail := by
    cases harray : header.array with
    | false => exact ⟨_, by rw [TableHeader.line, harray]; simp; rfl⟩
    | true => exact ⟨_, by rw [TableHeader.line, harray]; simp; rfl⟩
  rw [OpensTable, hline]
  exact head_stringTrim_eq (blanks_mem_lineBag _) (by decide)

/-- A table opened above is the last one, or there is one after it. -/
theorem inPackage_append {above between : List (List Char)}
    {opener : List Char} (hopener : OpensTable opener) :
    InPackage (above ++ opener :: between) ↔
      InPackage between ∨
        OpensPackage opener ∧ ∀ line ∈ between, ¬OpensTable line := by
  induction between using List.reverseRecOn with
  | nil =>
      rw [inPackage_concat]
      constructor
      · rintro (hopens | ⟨-, hplain⟩)
        · exact .inr ⟨hopens, fun _ hmem => absurd hmem List.not_mem_nil⟩
        · exact absurd hopener hplain
      · rintro (hnil | ⟨hopens, -⟩)
        · exact absurd hnil not_inPackage_nil
        · exact .inl hopens
  | append_singleton between line ih =>
      have hsplit : above ++ opener :: (between ++ [line]) =
          (above ++ opener :: between) ++ [line] := by simp
      rw [hsplit, inPackage_concat, inPackage_concat, ih]
      simp only [List.forall_mem_append, List.forall_mem_singleton]
      tauto

/-! ## The name scraped -/

theorem CargoToml.firstTaken_name_iff (doc : CargoToml) :
    FirstTaken doc.lines doc.above doc.name.line ↔
      NoneTaken doc.above ∧ InPackage doc.above ∧ doc.name.Bare := by
  constructor
  · intro hfirst
    exact ⟨hfirst.first, hfirst.taken.1,
      NameEntry.bare_of_readsLikeName hfirst.taken.2⟩
  · rintro ⟨hnone, hpackage, hbare⟩
    refine ⟨⟨doc.rest.flatMap TomlItem.lines, ?_⟩,
      ⟨hpackage, NameEntry.readsLikeName_of_bare hbare⟩, hnone⟩
    rw [CargoToml.lines, List.append_assoc]
    rfl

theorem CargoToml.inPackage_above_iff (doc : CargoToml) :
    InPackage doc.above ↔
      InPackage (doc.inside.flatMap TomlItem.lines) ∨
        doc.header.Plain ∧
          ∀ line ∈ doc.inside.flatMap TomlItem.lines, ¬OpensTable line := by
  rw [CargoToml.above, inPackage_append doc.header.opensTable,
    TableHeader.opensPackage_iff doc.header_isPackage]

theorem scanLines_lines (doc : CargoToml) {value : List Char} :
    scanLines false (readLines doc.text) = some value ↔
      ∃ above line, FirstTaken doc.lines above line ∧
        valueText line = value := by
  rw [scanLines_readLines, doc.splitOn_text]
  apply @scanLines_eq_some_iff false []
  · exact iff_of_false Bool.false_ne_true not_inPackage_nil
  · intro above' line' hbegins
    simp at hbegins

theorem scrapeCargoName_eq_ok {crateDir toml : String} {text value : List Char} :
    scrapeCargoName crateDir toml (some text) = .ok value ↔
      scanLines false (readLines text) = some value := by
  unfold scrapeCargoName
  cases hscan : scanLines false (readLines text) <;> simp [hscan]

/-- The line of the package's name is the first that is taken for one. -/
def CargoToml.NameTaken (doc : CargoToml) : Prop :=
  NoneTaken doc.above ∧
    (InPackage (doc.inside.flatMap TomlItem.lines) ∨
      doc.header.Plain ∧
        ∀ line ∈ doc.inside.flatMap TomlItem.lines, ¬OpensTable line) ∧
    doc.name.Bare

theorem CargoToml.nameTaken_iff (doc : CargoToml) :
    doc.NameTaken ↔ FirstTaken doc.lines doc.above doc.name.line := by
  rw [doc.firstTaken_name_iff, NameTaken, doc.inPackage_above_iff]

/-- What is taken below the lines above the name is the name's own line. -/
theorem CargoToml.nameTaken_of_firstTaken {doc : CargoToml} {line : List Char}
    (hfirst : FirstTaken doc.lines doc.above line) : doc.NameTaken := by
  obtain ⟨below, hbelow⟩ := hfirst.position
  obtain rfl : line = doc.name.line := by
    rw [CargoToml.lines, List.append_assoc] at hbelow
    exact (List.cons.inj (List.append_cancel_left hbelow)).1
  exact doc.nameTaken_iff.mpr hfirst

/-- Where the name's own line is the first that is taken for one,
`scrape-cargo-name` returns the name exactly if the line holds it plainly;
elsewhere it returns what another line says, or nothing. -/
theorem scrape_cargo_name_iff (crateDir toml : String) (doc : CargoToml) :
    (doc.NameTaken →
      (scrapeCargoName crateDir toml (some doc.text) =
        .ok doc.name.string.value ↔ doc.name.Plain)) ∧
    (¬doc.NameTaken → ∀ value,
      scrapeCargoName crateDir toml (some doc.text) = .ok value ↔
        ∃ above line, above ≠ doc.above ∧ FirstTaken doc.lines above line ∧
          valueText line = value) := by
  constructor
  · intro htaken
    have hscraped : scrapeCargoName crateDir toml (some doc.text) =
        .ok (valueText doc.name.line) := by
      rw [scrapeCargoName_eq_ok, scanLines_lines]
      exact ⟨doc.above, doc.name.line, doc.nameTaken_iff.mp htaken, rfl⟩
    rw [hscraped, Except.ok.injEq, NameEntry.valueText_of_bare htaken.2.2,
      stringTrim_string_iff]
  · intro hnot value
    rw [scrapeCargoName_eq_ok, scanLines_lines]
    constructor
    · rintro ⟨above, line, hfirst, hvalue⟩
      refine ⟨above, line, ?_, hfirst, hvalue⟩
      rintro rfl
      exact hnot (CargoToml.nameTaken_of_firstTaken hfirst)
    · rintro ⟨above, line, -, hfirst, hvalue⟩
      exact ⟨above, line, hfirst, hvalue⟩

/-! ## Two documents -/

def noBlanks : Blanks := ⟨[], List.forall_mem_nil _⟩

theorem mem_space : ∀ ch ∈ [' '], ch = ' ' ∨ ch = '\t' :=
  List.forall_mem_singleton.mpr (.inl rfl)

def space : Blanks := ⟨[' '], mem_space⟩

def lineFeed : LineRest := ⟨noBlanks, none, .lf⟩

theorem bareName (name : List Char) (hne : name ≠ [])
    (hname : name.all Char.isAlphanum = true) :
    name ≠ [] ∧ ∀ ch ∈ name, IsBareKeyChar ch :=
  ⟨hne, fun ch hch => .inl (List.all_eq_true.mp hname ch hch)⟩

def packageKey : TomlKey where
  parts := [⟨noBlanks, .bare ['p', 'a', 'c', 'k', 'a', 'g', 'e']
    (bareName _ (List.cons_ne_nil _ _) rfl), noBlanks⟩]
  parts_ne_nil := List.cons_ne_nil _ _

def nameKey : TomlKey where
  parts := [⟨noBlanks, .bare nameChars
    (bareName _ (List.cons_ne_nil _ _) rfl), space⟩]
  parts_ne_nil := List.cons_ne_nil _ _

/-- `[package]`, and below it `name = ` with the string and what follows. -/
def smallToml (string : TomlString) (rest : LineRest) : CargoToml where
  before := []
  header := ⟨noBlanks, false, packageKey, lineFeed⟩
  inside := []
  name := ⟨nameKey, rfl, space, string, rest⟩
  rest := [.blank lineFeed]
  header_isPackage := ⟨rfl, rfl⟩
  before_no_package _ hmem := absurd hmem List.not_mem_nil
  inside_no_table _ := List.not_mem_nil
  inside_no_name _ _ _ hmem := absurd hmem List.not_mem_nil

def demoChars : List Char := ['d', 'e', 'm', 'o']

theorem demoChars_plain : ∀ ch ∈ demoChars,
    IsTextChar ch ∧ ch ≠ '"' ∧ ch ≠ '\\' ∧ ch ≠ apostrophe := by
  simp only [demoChars, IsTextChar, List.mem_cons, List.not_mem_nil, or_false,
    forall_eq_or_imp, forall_eq]
  decide

theorem demoChars_spelling : BasicSpelling demoChars demoChars :=
  BasicSpelling.of_plain fun ch hch =>
    let ⟨htext, hquote, hbackslash, _⟩ := demoChars_plain ch hch
    ⟨htext, hquote, hbackslash⟩

theorem demoChars_literal : ∀ ch ∈ demoChars, IsTextChar ch ∧ ch ≠ apostrophe :=
  fun ch hch =>
    let ⟨htext, _, _, hquote⟩ := demoChars_plain ch hch
    ⟨htext, hquote⟩

theorem newline_not_mem_remark : '\n' ∉ [' ', 'x'] := by decide

/-- `name = "demo" # x`. -/
def commentedToml : CargoToml :=
  smallToml (.basic demoChars demoChars demoChars_spelling)
    ⟨space, some ⟨[' ', 'x'], newline_not_mem_remark⟩, .lf⟩

/-- `name = 'demo'`. -/
def literalToml : CargoToml :=
  smallToml (.literal demoChars demoChars_literal) lineFeed

theorem scrapeCargoName_commentedToml :
    scrapeCargoName "demo/" "demo/Cargo.toml" (some commentedToml.text) ≠
      .ok commentedToml.name.string.value ∧
    scrapeCargoName "demo/" "demo/Cargo.toml" (some literalToml.text) ≠
      .ok literalToml.name.string.value := by
  decide +kernel

end Cargo
end Rulisp

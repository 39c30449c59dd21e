import Mathlib.Data.Fintype.EquivFin
import Rulisp.ManifestText

/-!
# Forms with labels

What `read-from-string` makes of a text with `#n=` and `#n#` may share parts
and come back to itself.  A form is a finite graph of objects here, and
`%sanitize` goes through it: the car first, then the cdr if nothing in the
car was refused.  It comes to an end unless it enters a circle, or finds an
object that it cannot finish to print.
-/

namespace Rulisp

open LispReader

/-- An object and where its parts are. -/
inductive ReadNode (n : ℕ)
  | null
  | cons (car cdr : Fin n)
  | keyword (name : String)
  | symbol (name : String)
  | string (value : String)
  | integer (value : ℤ)
  /-- An object of any other type, as it prints; `none` where printing never
  ends. -/
  | other (printed : Option String)
  deriving DecidableEq, Repr

/-- The parts are at other places. -/
def ReadNode.map {n m : ℕ} (place : Fin n → Fin m) : ReadNode n → ReadNode m
  | .null => .null
  | .cons car cdr => .cons (place car) (place cdr)
  | .keyword name => .keyword name
  | .symbol name => .symbol name
  | .string value => .string value
  | .integer value => .integer value
  | .other printed => .other printed

structure ReadForm where
  size : ℕ
  node : Fin size → ReadNode size
  root : Fin size

/-- What is read, or the text of the reader's error. -/
abbrev FormReader := String → Except String ReadForm

namespace ReadForm

/-- `%sanitize`; `none` if it needs more than `fuel` nested calls. -/
def sanitize (form : ReadForm) : ℕ → Fin form.size → Option (LispResult Datum)
  | 0, _ => none
  | fuel + 1, i =>
      match form.node i with
      | .null => some (.ok .nil)
      | .cons car cdr =>
          match form.sanitize fuel car with
          | none => none
          | some (.error e) => some (.error e)
          | some (.ok first) =>
              match form.sanitize fuel cdr with
              | none => none
              | some (.error e) => some (.error e)
              | some (.ok rest) => some (.ok (.cons first rest))
      | .keyword name => some (.ok (.keyword name))
      | .symbol name =>
          if name = "NIL" then some (.ok .nil)
          else some (manifestError
            [.text ("unexpected symbol " ++ name ++ " in manifest")])
      | .string value => some (.ok (.string value))
      | .integer value => some (.ok (.integer value))
      | .other printed =>
          printed.map fun text => manifestError
            [.text ("unexpected object " ++ text ++ " in manifest")]

/-- The form below `i` is the datum, once its labels are followed. -/
inductive Unfolds (form : ReadForm) : Fin form.size → Datum → Prop
  | null {i} (hnode : form.node i = .null) : Unfolds form i .nil
  | cons {i car cdr first rest} (hnode : form.node i = .cons car cdr)
      (hfirst : Unfolds form car first) (hrest : Unfolds form cdr rest) :
      Unfolds form i (.cons first rest)
  | keyword {i name} (hnode : form.node i = .keyword name) :
      Unfolds form i (.keyword name)
  | nilSymbol {i} (hnode : form.node i = .symbol "NIL") : Unfolds form i .nil
  | string {i value} (hnode : form.node i = .string value) :
      Unfolds form i (.string value)
  | integer {i value} (hnode : form.node i = .integer value) :
      Unfolds form i (.integer value)

/-- From `i`, `%sanitize` goes on to `j`. -/
def Enters (form : ReadForm) (i j : Fin form.size) : Prop :=
  ∃ car cdr, form.node i = .cons car cdr ∧
    (j = car ∨ j = cdr ∧ ∃ first, form.Unfolds car first)

/-- `%sanitize` enters no circle and finds nothing that never ends to print. -/
structure Settles (form : ReadForm) : Prop where
  no_circle : ∀ j, Relation.ReflTransGen form.Enters form.root j →
    ¬Relation.TransGen form.Enters j j
  prints : ∀ j, Relation.ReflTransGen form.Enters form.root j →
    form.node j ≠ .other none

/-! ## Sanitizing -/

variable {form : ReadForm}

theorem sanitize_mono {fuel : ℕ} {i : Fin form.size}
    {result : LispResult Datum} (hresult : form.sanitize fuel i = some result)
    {more : ℕ} (hmore : fuel ≤ more) : form.sanitize more i = some result := by
  induction fuel generalizing i result more with
  | zero => cases hresult
  | succ fuel ih =>
      obtain ⟨more, rfl⟩ : ∃ k, more = k + 1 := ⟨more - 1, by omega⟩
      have hle : fuel ≤ more := by omega
      cases hnode : form.node i with
      | cons car cdr =>
          simp only [sanitize, hnode] at hresult ⊢
          cases hcar : form.sanitize fuel car with
          | none =>
              rw [hcar] at hresult
              cases hresult
          | some first =>
              rw [hcar] at hresult
              rw [ih hcar hle]
              cases first with
              | error e => exact hresult
              | ok first =>
                  cases hcdr : form.sanitize fuel cdr with
                  | none =>
                      rw [hcdr] at hresult
                      cases hresult
                  | some rest =>
                      rw [hcdr] at hresult
                      rw [ih hcdr hle]
                      exact hresult
      | _ =>
          simp only [sanitize, hnode] at hresult ⊢
          exact hresult

theorem sanitize_unique {fuel fuel' : ℕ} {i : Fin form.size}
    {result result' : LispResult Datum}
    (hresult : form.sanitize fuel i = some result)
    (hresult' : form.sanitize fuel' i = some result') : result = result' := by
  have hmax := sanitize_mono hresult (le_max_left fuel fuel')
  have hmax' := sanitize_mono hresult' (le_max_right fuel fuel')
  exact Option.some.inj (hmax.symm.trans hmax')

/-- `%sanitize` accepts what is a datum, as that. -/
theorem sanitize_eq_ok_iff {i : Fin form.size} {datum : Datum} :
    (∃ fuel, form.sanitize fuel i = some (.ok datum)) ↔
      form.Unfolds i datum := by
  constructor
  · rintro ⟨fuel, hresult⟩
    induction fuel generalizing i datum with
    | zero => cases hresult
    | succ fuel ih =>
        cases hnode : form.node i with
        | null =>
            simp only [sanitize, hnode] at hresult
            cases hresult
            exact .null hnode
        | cons car cdr =>
            simp only [sanitize, hnode] at hresult
            split at hresult
            · cases hresult
            · cases hresult
            · rename_i first hfirst
              split at hresult
              · cases hresult
              · cases hresult
              · rename_i rest hrest
                cases hresult
                exact .cons hnode (ih hfirst) (ih hrest)
        | keyword name =>
            simp only [sanitize, hnode] at hresult
            cases hresult
            exact .keyword hnode
        | symbol name =>
            simp only [sanitize, hnode] at hresult
            split at hresult
            · rename_i hname
              cases hresult
              exact .nilSymbol (hname ▸ hnode)
            · cases hresult
        | string value =>
            simp only [sanitize, hnode] at hresult
            cases hresult
            exact .string hnode
        | integer value =>
            simp only [sanitize, hnode] at hresult
            cases hresult
            exact .integer hnode
        | other printed =>
            simp only [sanitize, hnode, Option.map_eq_some_iff] at hresult
            obtain ⟨text, -, hresult⟩ := hresult
            cases hresult
  · intro hunfolds
    induction hunfolds with
    | null hnode => exact ⟨1, by simp only [sanitize, hnode]⟩
    | cons hnode hfirst hrest ihfirst ihrest =>
        obtain ⟨fuel, hfirst⟩ := ihfirst
        obtain ⟨fuel', hrest⟩ := ihrest
        refine ⟨max fuel fuel' + 1, ?_⟩
        simp only [sanitize, hnode, sanitize_mono hfirst (le_max_left _ _),
          sanitize_mono hrest (le_max_right _ _)]
    | keyword hnode => exact ⟨1, by simp only [sanitize, hnode]⟩
    | nilSymbol hnode => exact ⟨1, by simp only [sanitize, hnode, if_pos]⟩
    | string hnode => exact ⟨1, by simp only [sanitize, hnode]⟩
    | integer hnode => exact ⟨1, by simp only [sanitize, hnode]⟩

/-- All that `%sanitize` signals is its own. -/
theorem sanitize_refusal {fuel : ℕ} {i : Fin form.size} {e : LoadCondition}
    (hresult : form.sanitize fuel i = some (.error e)) :
    ∃ message, e = .manifestError message := by
  induction fuel generalizing i with
  | zero => cases hresult
  | succ fuel ih =>
      cases hnode : form.node i with
      | cons car cdr =>
          simp only [sanitize, hnode] at hresult
          split at hresult
          · cases hresult
          · rename_i hcar
            cases hresult
            exact ih hcar
          · split at hresult
            · cases hresult
            · rename_i hcdr
              cases hresult
              exact ih hcdr
            · cases hresult
      | symbol name =>
          simp only [sanitize, hnode] at hresult
          split at hresult
          · cases hresult
          · cases hresult
            exact ⟨_, rfl⟩
      | other printed =>
          simp only [sanitize, hnode, Option.map_eq_some_iff] at hresult
          obtain ⟨text, -, hresult⟩ := hresult
          cases hresult
          exact ⟨_, rfl⟩
      | _ =>
          simp only [sanitize, hnode] at hresult
          cases hresult

/-- What is entered takes less fuel. -/
theorem sanitize_enters {fuel : ℕ} {i j : Fin form.size}
    {result : LispResult Datum} (hresult : form.sanitize fuel i = some result)
    (henters : form.Enters i j) :
    ∃ less < fuel, ∃ result', form.sanitize less j = some result' := by
  obtain ⟨car, cdr, hnode, hnext⟩ := henters
  cases fuel with
  | zero => cases hresult
  | succ fuel =>
      refine ⟨fuel, Nat.lt_succ_self fuel, ?_⟩
      simp only [sanitize, hnode] at hresult
      cases hcar : form.sanitize fuel car with
      | none =>
          rw [hcar] at hresult
          cases hresult
      | some first =>
          rcases hnext with rfl | ⟨rfl, datum, hdatum⟩
          · exact ⟨first, hcar⟩
          · obtain ⟨fuel', hok⟩ := sanitize_eq_ok_iff.mpr hdatum
            obtain rfl := sanitize_unique hcar hok
            rw [hcar] at hresult
            cases hcdr : form.sanitize fuel j with
            | none =>
                rw [hcdr] at hresult
                cases hresult
            | some rest => exact ⟨rest, rfl⟩

theorem sanitize_reaches {i j : Fin form.size}
    (hreaches : Relation.ReflTransGen form.Enters i j) {fuel : ℕ}
    {result : LispResult Datum} (hresult : form.sanitize fuel i = some result) :
    ∃ fuel' result', form.sanitize fuel' j = some result' := by
  induction hreaches with
  | refl => exact ⟨fuel, result, hresult⟩
  | tail _ hstep ih =>
      obtain ⟨fuel', result', hresult'⟩ := ih
      obtain ⟨less, -, last, hlast⟩ := sanitize_enters hresult' hstep
      exact ⟨less, last, hlast⟩

theorem not_circle_of_sanitize {fuel : ℕ} {j : Fin form.size}
    {result : LispResult Datum} (hresult : form.sanitize fuel j = some result) :
    ¬Relation.TransGen form.Enters j j := by
  induction fuel using Nat.strong_induction_on generalizing j result with
  | _ fuel ih =>
      intro hcircle
      obtain ⟨k, hstep, hback⟩ := Relation.TransGen.head'_iff.mp hcircle
      obtain ⟨less, hless, last, hlast⟩ := sanitize_enters hresult hstep
      -- the same circle, entered one step later
      exact ih less hless hlast (Relation.TransGen.tail' hback hstep)

/-- `%sanitize` comes to an end on a form that settles, and only there. -/
theorem sanitize_ends_iff :
    (∃ fuel result, form.sanitize fuel form.root = some result) ↔
      form.Settles := by
  constructor
  · rintro ⟨fuel, result, hresult⟩
    constructor
    · intro j hreaches
      obtain ⟨fuel', result', hresult'⟩ := sanitize_reaches hreaches hresult
      exact not_circle_of_sanitize hresult'
    · intro j hreaches hnode
      obtain ⟨fuel', result', hresult'⟩ := sanitize_reaches hreaches hresult
      cases fuel' with
      | zero => cases hresult'
      | succ fuel' =>
          simp only [sanitize, hnode] at hresult'
          cases hresult'
  · intro hsettles
    let Below : Fin form.size → Fin form.size → Prop := fun j i =>
      Relation.ReflTransGen form.Enters form.root i ∧
        Relation.TransGen form.Enters i j
    have htrans : IsTrans (Fin form.size) Below :=
      ⟨fun _ _ _ hfirst hsecond => ⟨hsecond.1, hsecond.2.trans hfirst.2⟩⟩
    have hirrefl : Std.Irrefl Below :=
      ⟨fun j hcircle => hsettles.no_circle j hcircle.1 hcircle.2⟩
    have hbelow : WellFounded Below := Finite.wellFounded_of_trans_of_irrefl _
    have hends : ∀ i, Relation.ReflTransGen form.Enters form.root i →
        ∃ fuel result, form.sanitize fuel i = some result := by
      intro i
      induction i using hbelow.induction with
      | _ i ih =>
          intro hreaches
          have hnext : ∀ {j}, form.Enters i j →
              ∃ fuel result, form.sanitize fuel j = some result :=
            fun hstep => ih _ ⟨hreaches, .single hstep⟩ (hreaches.tail hstep)
          cases hnode : form.node i with
          | cons car cdr =>
              obtain ⟨fuel, first, hcar⟩ := hnext ⟨car, cdr, hnode, .inl rfl⟩
              cases first with
              | error e =>
                  exact ⟨fuel + 1, .error e,
                    by simp only [sanitize, hnode, hcar]⟩
              | ok first =>
                  have hunfolds := sanitize_eq_ok_iff.mp ⟨fuel, hcar⟩
                  obtain ⟨fuel', rest, hcdr⟩ :=
                    hnext ⟨car, cdr, hnode, .inr ⟨rfl, first, hunfolds⟩⟩
                  have hcar' := sanitize_mono hcar (le_max_left fuel fuel')
                  have hcdr' := sanitize_mono hcdr (le_max_right fuel fuel')
                  refine ⟨max fuel fuel' + 1, rest.map (.cons first), ?_⟩
                  simp only [sanitize, hnode, hcar', hcdr']
                  cases rest <;> rfl
          | symbol name =>
              refine ⟨1, if name = "NIL" then .ok .nil else manifestError
                [.text ("unexpected symbol " ++ name ++ " in manifest")], ?_⟩
              simp only [sanitize, hnode]
              split <;> rfl
          | other printed =>
              cases printed with
              | none => exact absurd hnode (hsettles.prints i hreaches)
              | some text =>
                  exact ⟨1, _, by simp only [sanitize, hnode]; rfl⟩
          | null => exact ⟨1, _, by simp only [sanitize, hnode]; rfl⟩
          | keyword name => exact ⟨1, _, by simp only [sanitize, hnode]; rfl⟩
          | string value => exact ⟨1, _, by simp only [sanitize, hnode]; rfl⟩
          | integer value => exact ⟨1, _, by simp only [sanitize, hnode]; rfl⟩
    exact hends form.root .refl

/-! ## Forms without labels -/

/-- The form below `i` is the object that `LispReader` builds. -/
inductive Shows (form : ReadForm) : Fin form.size → LispObject → Prop
  | null {i} (hnode : form.node i = .null) : Shows form i .null
  | cons {i car cdr first rest} (hnode : form.node i = .cons car cdr)
      (hfirst : Shows form car first) (hrest : Shows form cdr rest) :
      Shows form i (.cons first rest)
  | keyword {i name} (hnode : form.node i = .keyword name) :
      Shows form i (.keyword name)
  | symbol {i name} (hnode : form.node i = .symbol name) :
      Shows form i (.symbol name)
  | string {i value} (hnode : form.node i = .string value) :
      Shows form i (.string value)
  | integer {i value} (hnode : form.node i = .integer value) :
      Shows form i (.integer value)
  | other {i printed} (hnode : form.node i = .other (some printed)) :
      Shows form i (.other printed)

/-- Where the parts of the form are found in another one, so is what it
shows. -/
theorem Shows.map {other : ReadForm} {i : Fin form.size} {object : LispObject}
    (hshows : form.Shows i object) (place : Fin form.size → Fin other.size)
    (hplace : ∀ j, other.node (place j) = (form.node j).map place) :
    other.Shows (place i) object := by
  induction hshows with
  | @cons i car cdr first rest hnode _ _ ihfirst ihrest =>
      exact .cons (by rw [hplace, hnode]; rfl) ihfirst ihrest
  | @null i hnode => exact .null (by rw [hplace, hnode]; rfl)
  | @keyword i name hnode => exact .keyword (by rw [hplace, hnode]; rfl)
  | @symbol i name hnode => exact .symbol (by rw [hplace, hnode]; rfl)
  | @string i value hnode => exact .string (by rw [hplace, hnode]; rfl)
  | @integer i value hnode => exact .integer (by rw [hplace, hnode]; rfl)
  | @other i printed hnode => exact .other (by rw [hplace, hnode]; rfl)

/-- A form of one object without parts. -/
def leaf (node : ReadNode 1) : ReadForm := ⟨1, fun _ => node, Fin.last 0⟩

/-- A cons of two forms that share nothing. -/
def pair (first rest : ReadForm) : ReadForm where
  size := first.size + rest.size + 1
  node :=
    Fin.lastCases
      (.cons (Fin.castAdd rest.size first.root).castSucc
        (Fin.natAdd first.size rest.root).castSucc)
      (Fin.addCases
        (fun i => (first.node i).map fun j => (Fin.castAdd rest.size j).castSucc)
        fun i => (rest.node i).map fun j => (Fin.natAdd first.size j).castSucc)
  root := Fin.last _

theorem pair_shows {first rest : ReadForm} {car cdr : LispObject}
    (hfirst : first.Shows first.root car) (hrest : rest.Shows rest.root cdr) :
    (pair first rest).Shows (pair first rest).root (.cons car cdr) := by
  have hcar : (pair first rest).Shows _ car :=
    hfirst.map (fun j => (Fin.castAdd rest.size j).castSucc) fun j => by
      simp only [pair, Fin.lastCases_castSucc, Fin.addCases_left]
  have hcdr : (pair first rest).Shows _ cdr :=
    hrest.map (fun j => (Fin.natAdd first.size j).castSucc) fun j => by
      simp only [pair, Fin.lastCases_castSucc, Fin.addCases_right]
  refine .cons ?_ hcar hcdr
  simp only [pair, Fin.lastCases_last]

/-- The object as a form, no part of it shared. -/
def ofObject : LispObject → ReadForm
  | .null => leaf .null
  | .cons car cdr => pair (ofObject car) (ofObject cdr)
  | .keyword name => leaf (.keyword name)
  | .symbol name => leaf (.symbol name)
  | .string value => leaf (.string value)
  | .integer value => leaf (.integer value)
  | .other printed => leaf (.other (some printed))

theorem ofObject_shows (object : LispObject) :
    (ofObject object).Shows (ofObject object).root object := by
  induction object with
  | cons car cdr ihcar ihcdr => exact pair_shows ihcar ihcdr
  | null => exact .null rfl
  | keyword name => exact .keyword rfl
  | symbol name => exact .symbol rfl
  | string value => exact .string rfl
  | integer value => exact .integer rfl
  | other printed => exact .other rfl

/-- On a tree `%sanitize` ends, with what it makes of the object. -/
theorem sanitize_of_shows {i : Fin form.size} {object : LispObject}
    (hshows : form.Shows i object) :
    ∃ fuel, form.sanitize fuel i = some (Rulisp.sanitize object) := by
  induction hshows with
  | null hnode => exact ⟨1, by simp only [sanitize, hnode, Rulisp.sanitize]⟩
  | @cons i car cdr first rest hnode _ _ ihfirst ihrest =>
      obtain ⟨fuel, hfirst⟩ := ihfirst
      obtain ⟨fuel', hrest⟩ := ihrest
      have hfirst := sanitize_mono hfirst (le_max_left fuel fuel')
      have hrest := sanitize_mono hrest (le_max_right fuel fuel')
      refine ⟨max fuel fuel' + 1, ?_⟩
      simp only [sanitize, hnode, hfirst, hrest, Rulisp.sanitize]
      cases Rulisp.sanitize first with
      | error e => rfl
      | ok datum => cases Rulisp.sanitize rest <;> rfl
  | keyword hnode => exact ⟨1, by simp only [sanitize, hnode, Rulisp.sanitize]⟩
  | @symbol i name hnode =>
      refine ⟨1, ?_⟩
      simp only [sanitize, hnode, Rulisp.sanitize]
      split <;> rfl
  | string hnode => exact ⟨1, by simp only [sanitize, hnode, Rulisp.sanitize]⟩
  | integer hnode => exact ⟨1, by simp only [sanitize, hnode, Rulisp.sanitize]⟩
  | other hnode =>
      refine ⟨1, ?_⟩
      simp only [sanitize, hnode, Rulisp.sanitize, Option.map_some]

end ReadForm

/-- The reader of `LispReader`, which knows no labels. -/
def treeReader (host : ReadHost) : FormReader := fun text =>
  (readFromString host text).map ReadForm.ofObject

end Rulisp

import Rulisp.LispData

/-!
# The manifest

`manifest.lisp` from the sanitized form on: the structural validation of
`parse-manifest`.  Parameter and result types stay data here, as in the
source; `wrapper-form` is what reads them.
-/

namespace Rulisp

structure Param where
  name : String
  type : Datum
  deriving DecidableEq, Repr

structure FnSpec where
  rustName : String
  lispName : String
  symbol : String
  params : List Param
  result : Datum
  error : Option String
  doc : Option String
  deriving DecidableEq, Repr

structure HandleSpec where
  rustName : String
  lispName : String
  free : String
  doc : Option String
  deriving DecidableEq, Repr

structure Manifest where
  schema : ℤ
  abi : ℤ
  crate : String
  crateVersion : Option String
  target : Option String
  pfx : String
  /-- A sequence that `every` accepts, so a list of strings or `""`. -/
  errors : Datum
  handles : List HandleSpec
  functions : List FnSpec
  onDump : Option String
  rulispVersion : Option String
  deriving DecidableEq, Repr

def badString (key : String) (value : Datum) : LoadCondition :=
  .manifestError
    [.printed (.keyword key), .text " must be a string, got ", .printed value]

def Datum.stringOr (value : Datum) (e : LoadCondition) : LispResult String :=
  match value with
  | .string s => .ok s
  | _ => .error e

def Datum.optionalStringOr (value : Datum) (e : LoadCondition) :
    LispResult (Option String) :=
  match value with
  | .string s => .ok (some s)
  | .nil => .ok none
  | _ => .error e

def Datum.integerOr (value : Datum) (e : LoadCondition) : LispResult ℤ :=
  match value with
  | .integer n => .ok n
  | _ => .error e

/-- `%getf-string`. -/
def getfString (plist : Datum) (key : String) : LispResult String := do
  let value ← plist.getf key
  value.stringOr (badString key value)

/-- `%getf-string` with `:optional t`. -/
def getfOptionalString (plist : Datum) (key : String) :
    LispResult (Option String) := do
  let value ← plist.getf key
  value.optionalStringOr (badString key value)

def getfInt (plist : Datum) (key : String) : LispResult ℤ := do
  let value ← plist.getf key
  value.integerOr (.manifestError [.printed (.keyword key),
    .text " must be an integer, got ", .printed value])

def parseParam (form : Datum) : LispResult Param := do
  let bad : LoadCondition :=
    .manifestError [.text "bad param form: ", .printed form]
  errorUnless (form.isCons = true) bad
  let name ← (← form.getf "NAME").stringOr bad
  let type ← form.getf "TYPE"
  errorUnless (type ≠ .nil)
    (.manifestError [.text "param ", .printed (.string name),
      .text " has no :type"])
  return { name, type }

def parseFn : Datum → LispResult FnSpec
  | .cons (.keyword "FN") plist => do
      let rustName ← getfString plist "RUST-NAME"
      let lispName ← getfString plist "LISP-NAME"
      let symbol ← getfString plist "SYMBOL"
      let params ← (← plist.getf "PARAMS").mapcar parseParam
      let result ← plist.getf "RESULT"
      errorUnless (result ≠ .nil)
        (.manifestError [.text "fn ", .printed (.string lispName),
          .text " has no :result"])
      let error ← getfOptionalString plist "ERROR"
      let doc ← getfOptionalString plist "DOC"
      return { rustName, lispName, symbol, params, result, error, doc }
  | form => manifestError [.text "bad :fn form: ", .printed form]

def parseHandle : Datum → LispResult HandleSpec
  | .cons (.keyword "HANDLE") plist => do
      let rustName ← getfString plist "RUST-NAME"
      let lispName ← getfString plist "LISP-NAME"
      let free ← getfString plist "FREE"
      let doc ← getfOptionalString plist "DOC"
      return { rustName, lispName, free, doc }
  | form => manifestError [.text "bad :handle form: ", .printed form]

def everyStringpList : Datum → LispResult Bool
  | .nil => .ok true
  | .cons (.string _) rest => everyStringpList rest
  | .cons _ _ => .ok false
  | _ => hostError .typeError

/-- `(every #'stringp errs)`; a string is a sequence too, of characters. -/
def everyStringp : Datum → LispResult Bool
  | .string value => .ok (value == "")
  | datum => everyStringpList datum

/-- The loop of `%check-unique-lisp-names`; `seen` is its hash table. -/
def checkUniqueFrom {α : Type} (lispNameOf rustNameOf : α → String)
    (what : String) (seen : List (String × String)) :
    List α → LispResult Unit
  | [] => .ok ()
  | spec :: rest =>
      match seen.lookup (lispNameOf spec) with
      | some prior =>
          manifestError [.text ("duplicate " ++ what ++ " lisp name "),
            .printed (.string (lispNameOf spec)),
            .text (" (" ++ prior ++ " and " ++ rustNameOf spec ++ ")")]
      | none =>
          checkUniqueFrom lispNameOf rustNameOf what
            ((lispNameOf spec, rustNameOf spec) :: seen) rest

def checkUniqueLispNames {α : Type} (specs : List α)
    (lispNameOf rustNameOf : α → String) (what : String) :
    LispResult (List α) := do
  checkUniqueFrom lispNameOf rustNameOf what [] specs
  return specs

def validateOnDump (manifest : Manifest) : LispResult Manifest :=
  match manifest.onDump with
  | none => .ok manifest
  | some symbol =>
      match manifest.functions.find? (fun spec => spec.symbol == symbol) with
      | none =>
          manifestError [.text ":on-dump ", .printed (.string symbol),
            .text " names no declared function"]
      | some spec =>
          if spec.params = [] ∧ spec.result = .keyword "UNIT" then
            .ok manifest
          else
            manifestError [.text ":on-dump ", .printed (.string symbol),
              .text " must take no parameters and return :unit"]

/-- `parse-manifest` of a sanitized form.  `%check-rulisp-version`, which
only warns, is left out. -/
def parseManifest : Datum → LispResult Manifest
  | .cons (.keyword "RULISP-MANIFEST") plist => do
      let schema ← getfInt plist "SCHEMA"
      errorUnless (schema ≤ 1)
        (.manifestError [.text "manifest schema ",
          .printed (.integer schema), .text " is newer than supported (1)"])
      let abi ← getfInt plist "ABI"
      let crate ← getfString plist "CRATE"
      let crateVersion ← getfOptionalString plist "CRATE-VERSION"
      let target ← getfOptionalString plist "TARGET"
      let pfx ← getfString plist "PREFIX"
      let errors ← plist.getf "ERRORS"
      let strings ← everyStringp errors
      errorUnless (strings = true)
        (.manifestError [.text ":errors must be a list of strings"])
      let handles ← checkUniqueLispNames
        (← (← plist.getf "HANDLES").mapcar parseHandle)
        HandleSpec.lispName HandleSpec.rustName "handle"
      let functions ← checkUniqueLispNames
        (← (← plist.getf "FUNCTIONS").mapcar parseFn)
        FnSpec.lispName FnSpec.rustName "function"
      let onDump ← getfOptionalString plist "ON-DUMP"
      let rulispVersion ← getfOptionalString plist "RULISP-VERSION"
      validateOnDump
        { schema, abi, crate, crateVersion, target, pfx, errors, handles,
          functions, onDump, rulispVersion }
  | _ => manifestError [.text "not a rulisp manifest"]

end Rulisp

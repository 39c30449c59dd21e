import Mathlib.Data.List.Basic

/-!
# Errors of the examples as their veneers see them

Each example has one error type, displayed as `kind: message`; `http.lisp` and
`web.lisp` split the kind off again.
-/

namespace Rulisp

namespace Veneer

/-- `Display` of `HttpError`. -/
def display (kind msg : String) : String := kind ++ ": " ++ msg

/-- `(string-left-trim " " text)`. -/
def leftTrim (text : List Char) : List Char := text.dropWhile (· = ' ')

/-- `%split-kind` of `http.lisp` and `%kind` of `web.lisp`. -/
def splitKind (message : String) : String × String :=
  let chars := message.toList
  if ':' ∈ chars then
    (.ofList (chars.take (chars.idxOf ':')),
      .ofList (leftTrim (chars.drop (chars.idxOf ':' + 1))))
  else ("error", message)

end Veneer

end Rulisp

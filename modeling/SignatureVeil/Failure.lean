import SignatureVeil.Text.Located

/-!
# Failures

An operation fails because a file cannot be read or written, because a text is
not the JSON that it should be, or because the editor refuses a request.
-/

namespace SignatureVeil

/-- Why an operation failed, with the words of whoever found out. -/
inductive Failure where
  | io (message : String)
  | json (problem : LocatedText)
  | host (message : String)
  deriving DecidableEq, Repr

def Failure.message : Failure → String
  | .io message => "IO error: " ++ message
  | .json problem => "JSON error: " ++ problem.text
  | .host message => "Host error: " ++ message

/-- The end of an operation that has nothing to return. -/
abbrev Outcome := Except Failure Unit

end SignatureVeil

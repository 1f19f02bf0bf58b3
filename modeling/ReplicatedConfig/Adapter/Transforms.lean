import ReplicatedConfig.Adapter

/-!
# Common transforms

What an adapter may do with a setting.  A missing value counts as the empty text.
-/

namespace ReplicatedConfig.Adapter

/-- A setting's value, or the empty text. -/
def valueOf (s : Setting) : String := s.value.getD ""

/-- One pair, with the ASCII letters of the value in upper case. -/
def upper (s : Setting) : Except String (List Pair) :=
  .ok [(s.key, String.ofList ((valueOf s).toList.map Char.toUpper))]

/-- One piece of a list of assignments: what stands before and behind its first equals
sign. -/
def assignment (key piece : String) : Except String Pair :=
  let cs := piece.toList
  if '=' ∈ cs then
    .ok (key ++ ":" ++ String.ofList (cs.takeWhile (· != '=')),
      String.ofList ((cs.dropWhile (· != '=')).drop 1))
  else .error ("bad pair '" ++ piece ++ "'")

/-- One pair for each assignment in the value, with semicolons between them. -/
def assignments (s : Setting) : Except String (List Pair) :=
  if valueOf s = "" then .ok [] else ((valueOf s).splitOn ";").mapM (assignment s.key)

/-- Always fails. -/
def refuse (message : String) (_ : Setting) : Except String (List Pair) := .error message

/-- No pair. -/
def discard (_ : Setting) : Except String (List Pair) := .ok []

/-- The value under the key and under a second one. -/
def double (s : Setting) : Except String (List Pair) :=
  .ok [(s.key, valueOf s), (s.key ++ "#2", valueOf s)]

end ReplicatedConfig.Adapter

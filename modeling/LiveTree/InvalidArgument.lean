import LiveTree.Text.Layout
import LiveTree.Text.Quoted

/-! Arguments outside the range that an operation admits. -/
namespace LiveTree

/-- An argument that was refused, with the range that would have been admitted. -/
structure InvalidArgument where
  name : String
  value : Nat
  expected : String
deriving DecidableEq, Repr

/-- The message of a refused argument. -/
def InvalidArgument.message (refused : InvalidArgument) : String :=
  "invalid argument " ++ refused.name ++ "=" ++ toString refused.value
    ++ " (expected " ++ refused.expected ++ ")"

/-- The full text of a refused argument. -/
def InvalidArgument.describe (refused : InvalidArgument) : String :=
  Text.record "InvalidArgument"
    [("name", Text.quoted refused.name), ("value", toString refused.value),
      ("expected", Text.quoted refused.expected)]

end LiveTree

/-! Panics. A call that does not return carries the reason out; most reasons are texts. -/
namespace LiveTree

/-- Why a call did not return. -/
inductive Panic where
  | message (text : String)
  | wordless
deriving DecidableEq, Repr

end LiveTree

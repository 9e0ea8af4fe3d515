import LiveTree.Descriptor
import LiveTree.Lifecycle.Registry
import LiveTree.Position.Hash

/-! Placed content. An entry is one occurrence of a descriptor's content in the tree, with the
host's handle for it and the objects it retains. A request asks for a place to be filled. -/
namespace LiveTree.Relocation

open Lifecycle (ObjectId)

/-- One occurrence of content: a handle of type `η`, a parameter of type `π`, its place, and the
objects it retains in structural order. -/
structure Entry (η π : Type) where
  descriptor : DescriptorId
  handle : η
  parameter : π
  position : Position.Hash
  objects : List ObjectId
  active : Bool

/-- The number of a placement request, in the order of the requests that got one. -/
abbrev PlacementTicket := Nat

/-- A place that is to be filled with content of a descriptor. -/
structure Request (π : Type) where
  ticket : PlacementTicket
  descriptor : DescriptorId
  parameter : π
  position : Position.Hash

/-- The answer to a request: content that moves there, the request to insert new content at once,
or a ticket under which the pass will answer. -/
inductive Placement (η π : Type) where
  | moved (entry : Entry η π)
  | insertNow (request : Request π)
  | deferred (ticket : PlacementTicket)

variable {η π : Type}

/-- The full text of an entry, given how handles and parameters are written. -/
def Entry.describe (handle : η → String) (parameter : π → String) (entry : Entry η π) : String :=
  Text.record "RelocationEntry"
    [("descriptor", entry.descriptor.describe), ("handle", handle entry.handle),
      ("parameter", parameter entry.parameter), ("position", entry.position.describe),
      ("objects", toString entry.objects.length), ("active", Text.truth entry.active)]

/-- The full text of a ticket. -/
def PlacementTicket.describe (ticket : PlacementTicket) : String :=
  Text.tagged "PlacementTicket" [toString ticket]

/-- The full text of a request. -/
def Request.describe (parameter : π → String) (request : Request π) : String :=
  Text.record "PlacementRequest"
    [("ticket", PlacementTicket.describe request.ticket),
      ("descriptor", request.descriptor.describe), ("parameter", parameter request.parameter),
      ("position", request.position.describe)]

/-- The full text of an answer. -/
def Placement.describe (handle : η → String) (parameter : π → String) :
    Placement η π → String
  | moved entry => Text.tagged "Moved" [entry.describe handle parameter]
  | insertNow request => Text.tagged "InsertNow" [request.describe parameter]
  | deferred ticket => Text.tagged "Deferred" [PlacementTicket.describe ticket]

end LiveTree.Relocation

import LiveTree.Text.Layout
import LiveTree.Text.Quoted

/-! Descriptors of content that can be placed in a tree: an identity, a name, the shape of the
parameters, and the content itself. An arena hands out identities in the order of registration. -/
namespace LiveTree

/-- The identity of a descriptor. -/
structure DescriptorId where
  raw : Nat
deriving DecidableEq, Repr, Inhabited

namespace DescriptorId

/-- The short text of an identity. -/
def text (id : DescriptorId) : String := "#" ++ toString id.raw

/-- The full text of an identity. -/
def describe (id : DescriptorId) : String := Text.tagged "DescriptorId" [toString id.raw]

end DescriptorId

/-- How the parameters of content travel together. -/
inductive Packing where
  | unit | direct | pair | triple | boxed
deriving DecidableEq, Repr

namespace Packing

/-- Up to three parameters travel unboxed. -/
def ofArity : Nat → Packing
  | 0 => unit
  | 1 => direct
  | 2 => pair
  | 3 => triple
  | _ => boxed

/-- The full text of a packing. -/
def describe : Packing → String
  | unit => "Unit"
  | direct => "Direct"
  | pair => "Pair"
  | triple => "Triple"
  | boxed => "Boxed"

end Packing

/-- The shape of the parameters of content. -/
structure ParamShape where
  arity : Nat
deriving DecidableEq, Repr

namespace ParamShape

def packing (shape : ParamShape) : Packing := .ofArity shape.arity

/-- The full text of a shape. -/
def describe (shape : ParamShape) : String :=
  Text.record "ParamShape" [("arity", toString shape.arity), ("packing", shape.packing.describe)]

end ParamShape

/-- Content that can be placed in a tree. -/
structure Descriptor (γ : Type) where
  id : DescriptorId
  name : String
  shape : ParamShape
  content : γ

/-- The full text of a descriptor; its content has none. -/
def Descriptor.describe {γ : Type} (descriptor : Descriptor γ) : String :=
  Text.openRecord "ContentDescriptor"
    [("id", descriptor.id.describe), ("name", Text.quoted descriptor.name),
      ("shape", descriptor.shape.describe)]

/-- Registered descriptors, the earliest first. -/
structure Arena (γ : Type) where
  descriptors : Array (Descriptor γ) := #[]

namespace Arena

variable {γ : Type}

def size (arena : Arena γ) : Nat := arena.descriptors.size

def isEmpty (arena : Arena γ) : Bool := arena.descriptors.isEmpty

/-- Registers content under the next identity. -/
def register (arena : Arena γ) (name : String) (shape : ParamShape) (content : γ) :
    DescriptorId × Arena γ :=
  (⟨arena.size⟩, ⟨arena.descriptors.push ⟨⟨arena.size⟩, name, shape, content⟩⟩)

def get? (arena : Arena γ) (id : DescriptorId) : Option (Descriptor γ) := arena.descriptors[id.raw]?

def contains (arena : Arena γ) (id : DescriptorId) : Bool := id.raw < arena.size

def toList (arena : Arena γ) : List (Descriptor γ) := arena.descriptors.toList

/-- The full text of an arena. -/
def describe (arena : Arena γ) : String := Text.listed (arena.toList.map Descriptor.describe)

/-- An identity is known exactly when it leads to a descriptor. -/
theorem contains_eq_isSome_get? (arena : Arena γ) (id : DescriptorId) :
    arena.contains id = (arena.get? id).isSome := by
  rw [Bool.eq_iff_iff, contains, decide_eq_true_iff]
  simp [get?, size]

theorem get?_register (arena : Arena γ) (name : String) (shape : ParamShape) (content : γ) :
    (arena.register name shape content).2.get? (arena.register name shape content).1 =
      some ⟨(arena.register name shape content).1, name, shape, content⟩ := by
  simp [register, get?, size]

end Arena

end LiveTree

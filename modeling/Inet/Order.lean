/-
Inet/Order.lean

Comparing two values and sorting several, by the order of their type.
-/

namespace Inet

/-- A type whose values may compare to each other, or not. -/
class PartialOrd (α : Type) where
  /-- How `a` compares to `b`, if it does. -/
  partialCompare : α → α → Option Ordering

export PartialOrd (partialCompare)

instance : PartialOrd UInt8 := ⟨fun a b => some (compare a b)⟩

/-- What the first parts of two values say, unless they are equal; then it is what comes next. -/
def partialThen : Option Ordering → Option Ordering → Option Ordering
  | some .eq, next => next
  | first, _ => first

/-- All that the order says about `a` and `b`. -/
structure Comparison (α : Type) where
  /-- How `a` compares to `b`. -/
  order : Ordering
  /-- How `b` compares to `a`. -/
  reverse : Ordering
  /-- How `a` compares to `b` in the partial order. -/
  partialOrder : Option Ordering
  eq : Bool
  lt : Bool
  le : Bool
  gt : Bool
  ge : Bool
  min : α
  max : α

/-- The order between two values.  The relations are those of the partial order. -/
def Comparison.of {α : Type} [Ord α] [PartialOrd α] [DecidableEq α] [Min α] [Max α] (a b : α) :
    Comparison α where
  order := compare a b
  reverse := compare b a
  partialOrder := partialCompare a b
  eq := a = b
  lt := (partialCompare a b).any Ordering.isLT
  le := (partialCompare a b).any Ordering.isLE
  gt := (partialCompare a b).any Ordering.isGT
  ge := (partialCompare a b).any Ordering.isGE
  min := Min.min a b
  max := Max.max a b

/-- Values in order. -/
structure Sorted (α : Type) where
  /-- All values, ascending; equal ones are kept. -/
  values : List α
  /-- The number of different values. -/
  distinct : Nat
  min : Option α
  max : Option α

/-- The values of a list in order. -/
def Sorted.ofList {α : Type} [Ord α] [BEq α] [Min α] [Max α] (values : List α) : Sorted α where
  values := values.mergeSort fun a b => (compare a b).isLE
  distinct := values.eraseDups.length
  min := values.min?
  max := values.max?

end Inet

import SparseDevice.Table

/-!
# Pools

A pool finds its items by numbers, and gives every new item a number of its own. No number is given
out twice, so whoever holds the number of an item finds that item or nothing, however many others
come and go.

## Main definitions

* `Pool.add`: a new item and its number.
* `Pool.get?`, `Pool.set`, `Pool.erase`: access by number.

## Main results

* `Pool.get?_add`, `Pool.get?_set`, `Pool.get?_erase`: what each operation does to what is found.
-/

namespace SparseDevice

/-- Items found by numbers that the pool gives out. -/
structure Pool (β : Type) where
  /-- The items, by their numbers. -/
  items : Table Nat β
  /-- How many items were ever added, and the number of the next one. -/
  added : Nat
deriving DecidableEq

namespace Pool

variable {β : Type}

/-- A pool to which nothing was added. -/
def empty : Pool β := ⟨[], 0⟩

/-- The item under a number. -/
def get? (p : Pool β) (id : Nat) : Option β := p.items.get? id

/-- Adds an item under the next number. -/
def add (p : Pool β) (b : β) : Pool β × Nat := (⟨p.items.insert p.added b, p.added + 1⟩, p.added)

/-- Puts an item in place of the one under a number. -/
def set (p : Pool β) (id : Nat) (b : β) : Pool β := { p with items := p.items.insert id b }

/-- Takes the item under a number out. -/
def erase (p : Pool β) (id : Nat) : Pool β := { p with items := p.items.erase id }

/-- The items. -/
def vals (p : Pool β) : List β := p.items.vals

@[simp] theorem get?_empty (id : Nat) : (empty : Pool β).get? id = none := rfl

theorem get?_add (p : Pool β) (b : β) (id : Nat) :
    (p.add b).1.get? id = if id = (p.add b).2 then some b else p.get? id :=
  Table.get?_insert ..

theorem get?_set (p : Pool β) (id : Nat) (b : β) (id' : Nat) :
    (p.set id b).get? id' = if id' = id then some b else p.get? id' :=
  Table.get?_insert ..

theorem get?_erase (p : Pool β) (id id' : Nat) :
    (p.erase id).get? id' = if id' = id then none else p.get? id' :=
  Table.get?_erase ..

end Pool

end SparseDevice

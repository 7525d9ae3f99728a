/-!
# Tables

A table finds values by a key. It is a list of pairs in which a key has its first pair only; the
operations never make a second pair for a key, and none of the lemmas needs that.

## Main definitions

* `Table.get?`, `Table.insert`, `Table.erase`, `Table.keys`.
* `Table.pick`: the pairs of some keys, and the table without them.

## Main results

* `Table.get?_insert`, `Table.get?_erase`: what each operation does to what is found.
-/

namespace SparseDevice

/-- Values found by a key. -/
abbrev Table (κ β : Type) := List (κ × β)

namespace Table

variable {κ β : Type} [DecidableEq κ]

/-- The value under a key. -/
def get? : Table κ β → κ → Option β
  | [], _ => none
  | p :: t, k => if k = p.1 then some p.2 else get? t k

/-- Takes a key out of a table. -/
def erase (t : Table κ β) (k : κ) : Table κ β := t.filter fun p => decide (p.1 ≠ k)

/-- Puts a value under a key, in place of the value that was there. -/
def insert (t : Table κ β) (k : κ) (v : β) : Table κ β := (k, v) :: t.erase k

/-- The keys of a table. -/
def keys (t : Table κ β) : List κ := t.map (·.1)

/-- The values of a table. -/
def vals (t : Table κ β) : List β := t.map (·.2)

/-- The pairs of some keys, in the order of the keys, and the table without them. -/
def pick (t : Table κ β) : List κ → Table κ β × Table κ β
  | [] => ([], t)
  | k :: ks =>
    match t.get? k with
    | none => t.pick ks
    | some v => ((k, v) :: ((t.erase k).pick ks).1, ((t.erase k).pick ks).2)

@[simp] theorem get?_nil (k : κ) : get? ([] : Table κ β) k = none := rfl

theorem get?_cons (p : κ × β) (t : Table κ β) (k : κ) :
    get? (p :: t) k = if k = p.1 then some p.2 else get? t k := rfl

theorem get?_erase (t : Table κ β) (k k' : κ) :
    (t.erase k).get? k' = if k' = k then none else t.get? k' := by
  induction t with
  | nil => simp [erase]
  | cons p t ih =>
    rw [erase] at ih ⊢
    by_cases hp : p.1 = k
    · rw [List.filter_cons_of_neg (by simp [hp]), ih, get?_cons, hp]
      split <;> rfl
    · rw [List.filter_cons_of_pos (by simp [hp]), get?_cons, ih, get?_cons]
      by_cases hk : k' = p.1
      · rw [if_pos hk, if_pos hk, if_neg (fun h => hp (hk ▸ h))]
      · rw [if_neg hk, if_neg hk]

theorem get?_insert (t : Table κ β) (k : κ) (v : β) (k' : κ) :
    (t.insert k v).get? k' = if k' = k then some v else t.get? k' := by
  rw [insert, get?_cons, get?_erase]
  split <;> rfl

@[simp] theorem get?_insert_self (t : Table κ β) (k : κ) (v : β) :
    (t.insert k v).get? k = some v := by
  simp [get?_insert]

theorem get?_insert_of_ne (t : Table κ β) {k k' : κ} (v : β) (h : k' ≠ k) :
    (t.insert k v).get? k' = t.get? k' := by
  simp [get?_insert, h]

@[simp] theorem get?_erase_self (t : Table κ β) (k : κ) : (t.erase k).get? k = none := by
  simp [get?_erase]

theorem get?_erase_of_ne (t : Table κ β) {k k' : κ} (h : k' ≠ k) :
    (t.erase k).get? k' = t.get? k' := by
  simp [get?_erase, h]

end Table

end SparseDevice

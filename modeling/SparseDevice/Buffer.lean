import SparseDevice.Failure

/-!
# Operands in memory

A routine works on plain cells. Index arrays hold signed 32-bit numbers, and an index is turned
into a position by widening it to an unsigned 64-bit word, so that a negative index becomes a
position far beyond every operand. Every access is checked: a position outside the operand is a
trap, never a default value.

A routine that collects its results first asks for room for all of them. Room is counted in bytes
and limited by the largest signed 64-bit number, and a request beyond that is a trap of its own.

## Main definitions

* `position`: the cell an index points at.
* `InRange`: whether an index points at one of the first cells.
* `advance`: addition of 32-bit counters, trapping where it leaves the range.
* `Buffer.read`, `Buffer.update`: access to one cell.
* `Buffer.window`, `Buffer.segment`, `Buffer.overwrite`, `Buffer.fill`: access to a range of cells.
* `Buffer.reserve`: the request for room.
* `sweep`: a loop over consecutive numbers that ends at its first error.

## Main results

* `bind_eq_ok_iff`: what a success of a longer computation says about its steps.
* `Buffer.getElem?_splice_add` and its neighbours: the cells after a range was overwritten.
-/

namespace SparseDevice

/-- A computation succeeds exactly if both of its steps do. -/
theorem bind_eq_ok_iff {ε α β : Type} {x : Except ε α} {f : α → Except ε β} {b : β} :
    x >>= f = .ok b ↔ ∃ a, x = .ok a ∧ f a = .ok b := by
  cases x with
  | error e => exact ⟨fun h => (nomatch h), fun ⟨_, h, _⟩ => (nomatch h)⟩
  | ok a =>
    refine ⟨fun h => ⟨a, rfl, h⟩, ?_⟩
    rintro ⟨_, ha, h⟩
    cases ha
    exact h

/-! ### Indices and counters -/

/-- The cell an index points at. A negative index is read as an unsigned 64-bit word. -/
def position (i : Int32) : Nat := (i.toInt % 18446744073709551616).toNat

theorem position_of_nonneg {i : Int32} (h : 0 ≤ i.toInt) : position i = i.toInt.toNat := by
  have := i.toInt_lt
  unfold position
  omega

theorem position_of_neg {i : Int32} (h : i.toInt < 0) :
    (position i : Int) = 18446744073709551616 + i.toInt := by
  have := i.le_toInt
  unfold position
  omega

/-- Whether an index points at one of the first `n` cells. -/
def InRange (i : Int32) (n : Nat) : Prop := 0 ≤ i ∧ position i < n

instance (i : Int32) (n : Nat) : Decidable (InRange i n) :=
  inferInstanceAs (Decidable (0 ≤ i ∧ position i < n))

/-- The sum of two counters, if it is a 32-bit number. -/
def advance (i j : Int32) : Except Trap Int32 :=
  let sum := i.toInt + j.toInt
  if -2147483648 ≤ sum ∧ sum ≤ 2147483647 then .ok (Int32.ofInt sum) else .error .counterOverflow

theorem advance_eq_ok {i j : Int32} (hlo : -2147483648 ≤ i.toInt + j.toInt)
    (hhi : i.toInt + j.toInt ≤ 2147483647) :
    advance i j = .ok (Int32.ofInt (i.toInt + j.toInt)) := by
  simp [advance, hlo, hhi]

/-- Whether neighbouring indices never decrease. -/
def ascending : List Int32 → Bool
  | i :: j :: rest => decide (i ≤ j) && ascending (j :: rest)
  | _ => true

@[simp] theorem ascending_nil : ascending [] = true := rfl

@[simp] theorem ascending_singleton (i : Int32) : ascending [i] = true := rfl

theorem ascending_cons_cons {i j : Int32} {rest : List Int32} :
    ascending (i :: j :: rest) = true ↔ i ≤ j ∧ ascending (j :: rest) = true := by
  simp [ascending]

/-! ### Loops -/

/-- Runs `body` for `count` numbers from `start` on, passing a state along. The loop ends at the
first error, so a count far beyond the operands costs nothing. -/
def sweep {ε σ : Type} (body : Nat → σ → Except ε σ) (start : Nat) : Nat → σ → Except ε σ
  | 0, s => .ok s
  | count + 1, s =>
    match body start s with
    | .ok s => sweep body (start + 1) count s
    | .error e => .error e

section Sweep

variable {ε σ : Type} {body : Nat → σ → Except ε σ}

@[simp] theorem sweep_zero (start : Nat) (s : σ) : sweep body start 0 s = .ok s := rfl

theorem sweep_succ (start count : Nat) (s : σ) :
    sweep body start (count + 1) s = body start s >>= sweep body (start + 1) count := by
  rw [sweep]
  cases body start s <;> rfl

end Sweep

/-! ### Cells and ranges of cells -/

namespace Buffer

variable {α : Type}

/-- The content of a cell. -/
def read (xs : List α) (i : Nat) : Except Trap α :=
  match xs[i]? with
  | some a => .ok a
  | none => .error .outOfBounds

theorem read_eq_ok {xs : List α} {i : Nat} (h : i < xs.length) : read xs i = .ok xs[i] := by
  simp [read, h]

/-- Computes a cell anew from its content. -/
def update (xs : List α) (i : Nat) (f : α → Except Trap α) : Except Trap (List α) := do
  let a ← read xs i
  let b ← f a
  return xs.set i b

/-- Overwrites a cell. -/
def write (xs : List α) (i : Nat) (a : α) : Except Trap (List α) :=
  if i < xs.length then .ok (xs.set i a) else .error .outOfBounds

theorem write_eq_ok {xs : List α} {i : Nat} (h : i < xs.length) (a : α) :
    write xs i a = .ok (xs.set i a) := by
  simp [write, h]

/-- The `count` cells from `start` on. -/
def window (xs : List α) (start count : Nat) : Except Trap (List α) :=
  if start + count ≤ xs.length then .ok ((xs.drop start).take count) else .error .outOfBounds

theorem window_eq_ok {xs : List α} {start count : Nat} (h : start + count ≤ xs.length) :
    window xs start count = .ok ((xs.drop start).take count) := by
  simp [window, h]

/-- The cells from `start` up to `stop`; none if the range runs backwards, wherever its ends
are. -/
def segment (xs : List α) (start stop : Nat) : Except Trap (List α) :=
  if stop ≤ start then .ok [] else window xs start (stop - start)

/-- Replaces the cells from `start` on by `ys`, one for one. -/
def splice (xs : List α) (start : Nat) (ys : List α) : List α :=
  xs.take start ++ ys ++ xs.drop (start + ys.length)

theorem getElem?_splice_of_lt {xs ys : List α} {start i : Nat} (h : i < start)
    (hs : start ≤ xs.length) : (splice xs start ys)[i]? = xs[i]? := by
  have hi : i < (xs.take start).length := by rw [List.length_take]; omega
  rw [splice, List.append_assoc, List.getElem?_append_left hi, List.getElem?_take_of_lt h]

theorem getElem?_splice_of_le {xs ys : List α} {start i : Nat} (h : start + ys.length ≤ i)
    (hs : start + ys.length ≤ xs.length) : (splice xs start ys)[i]? = xs[i]? := by
  have ht : (xs.take start).length = start := by rw [List.length_take]; omega
  have hi : (xs.take start ++ ys).length ≤ i := by rw [List.length_append, ht]; exact h
  rw [splice, List.getElem?_append_right hi, List.getElem?_drop, List.length_append, ht]
  congr 1
  omega

/-- The cells written are the cells of `ys`. -/
theorem getElem?_splice_add {xs ys : List α} {start i : Nat} (h : i < ys.length)
    (hs : start ≤ xs.length) : (splice xs start ys)[start + i]? = ys[i]? := by
  have ht : (xs.take start).length = start := by rw [List.length_take]; omega
  rw [splice, List.append_assoc, List.getElem?_append_right (by omega), ht,
    List.getElem?_append_left (by omega), Nat.add_sub_cancel_left]

theorem length_splice {xs ys : List α} {start : Nat} (h : start + ys.length ≤ xs.length) :
    (splice xs start ys).length = xs.length := by
  simp [splice]
  omega

/-- Overwrites the cells from `start` on; overwriting none is always possible. -/
def overwrite (xs : List α) (start : Nat) (ys : List α) : Except Trap (List α) :=
  if ys.isEmpty ∨ start + ys.length ≤ xs.length then .ok (splice xs start ys)
  else .error .outOfBounds

/-- Overwrites `count` cells from `start` on by one value; no cell is always possible. -/
def fill (xs : List α) (start count : Nat) (a : α) : Except Trap (List α) :=
  if count = 0 then .ok xs
  else if start + count ≤ xs.length then .ok (splice xs start (List.replicate count a))
  else .error .outOfBounds

/-- The most bytes that one request may ask for. -/
def maxBytes : Nat := 9223372036854775807

/-- The bytes that hold a list, apart from its cells: where they are, how many there are and how
many there is room for, each a 64-bit word. -/
def listBytes : Nat := 24

/-- Asks for room for `count` items of `size` bytes each. -/
def reserve (count size : Nat) : Except Trap Unit :=
  if count * size ≤ maxBytes then .ok () else .error .capacityOverflow

theorem reserve_eq_ok {count size : Nat} (h : count * size ≤ maxBytes) :
    reserve count size = .ok () := by
  simp [reserve, h]

theorem reserve_eq_error {count size : Nat} (h : maxBytes < count * size) :
    reserve count size = .error .capacityOverflow := by
  simp [reserve, Nat.not_le.2 h]

@[simp] theorem splice_nil (xs : List α) (start : Nat) : splice xs start [] = xs := by
  simp [splice]

end Buffer

end SparseDevice

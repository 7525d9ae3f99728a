import SparseDevice.Proofs.Kernel.Reading
import SparseDevice.Proofs.Kernel.Refusal
import SparseDevice.Proofs.Kernel.Requests
import SparseDevice.Proofs.Kernel.Tridiagonal

/-!
# Checked requests are safe

A request that passes its check runs to its end: no access leaves an operand and no counter
overflows. Two things are left that the check cannot know. A counter can only hold so many entries,
and the routines that count entries of their own are given that many at most. And the solvers ask
for room for their solutions, which is refused if there are too many; each system has a cell of its
own, so there are fewer systems than cells.

A safe request may still be answered with a status. The offsets of a sum are the caller's and need
not fit the rows, and a system may have no solution. Nothing else is left.

## Main definitions

* `Request.counted`: how many entries a routine has to count.
* `Request.systems`: for how many solutions a routine asks for room.
* `Request.sizes`: the buffers that a routine writes, by their lengths.
* `Request.doubts`: the statuses that no check rules out.

## Main results

* `Request.perform_ok`: a checked request runs to its end.
* `Request.perform_noRoom`: the one trap that is left.
-/

namespace SparseDevice

namespace Request

variable {α : Type}

/-- How many entries a routine counts that nobody has counted before. -/
def counted : Request α → Nat
  | offsetsOfRows rowInd .. => rowInd.length
  | sumOffsets a b _ => a.nnz + b.nnz
  | rowsOfOffsets .. | product .. | productColumns .. | columns .. | sum .. | solve ..
  | solveBatch .. => 0

/-- For how many solutions a routine asks for room. -/
def systems : Request α → Nat
  | solve m n .. => if m = 0 then 0 else n
  | solveBatch m _ _ _ _ count _ => if m = 0 then 0 else count
  | offsetsOfRows .. | rowsOfOffsets .. | product .. | productColumns .. | columns ..
  | sumOffsets .. | sum .. => 0

/-- How many cells the right hand sides of a solver take. -/
def cells : Request α → Nat
  | solve _ _ _ _ _ b _ => b.length
  | solveBatch _ _ _ _ x _ _ => x.length
  | offsetsOfRows .. | rowsOfOffsets .. | product .. | productColumns .. | columns ..
  | sumOffsets .. | sum .. => 0

/-- How many cells each buffer has that the routine writes. -/
def sizes : Request α → List Nat
  | offsetsOfRows _ _ rowPtr => [rowPtr.length]
  | rowsOfOffsets _ _ rowInd => [rowInd.length]
  | product _ _ _ _ _ y => [y.length]
  | productColumns _ _ _ _ _ _ _ c _ => [c.length]
  | columns _ out => [out.values.length, out.rowInd.length, out.colPtr.length]
  | sumOffsets _ _ rowPtr => [rowPtr.length]
  | sum _ _ _ _ c => [c.rowPtr.length, c.colInd.length, c.values.length]
  | solve _ _ _ _ _ b _ => [b.length]
  | solveBatch _ _ _ _ x _ _ => [x.length]

/-- The statuses that a routine may answer although its operands fit together. -/
def doubts : Request α → List Status
  | sum .. => [.invalidValue]
  | solve .. | solveBatch .. => [.executionFailed]
  | offsetsOfRows .. | rowsOfOffsets .. | product .. | productColumns .. | columns ..
  | sumOffsets .. => []

/-! ### Room for solutions -/

/-- Each system has a cell of its own. -/
theorem le_denseLength_self {m n stride : Nat} (hm : m ≠ 0) (hle : m ≤ stride) :
    n ≤ denseLength m n stride := by
  cases n with
  | zero => exact Nat.zero_le _
  | succ n =>
    rw [denseLength_succ hm]
    have hstride : n ≤ stride * n := Nat.le_mul_of_pos_left n (by omega)
    omega

/-- A checked request asks for room for no more solutions than it has cells. -/
theorem systems_le {r : Request α} (h : r.check = .ok ()) : r.systems ≤ r.cells := by
  cases r with
  | solve m n lower diagonal upper b ldb =>
    rw [systems]
    split
    · exact Nat.zero_le _
    · next hm =>
      obtain ⟨-, hle, hb⟩ := check_solve_iff.mp h
      exact Nat.le_trans (le_denseLength_self hm hle) hb
  | solveBatch m lower diagonal upper x count stride =>
    rw [systems]
    split
    · exact Nat.zero_le _
    · next hm =>
      obtain ⟨hle, -, -, -, hx⟩ := check_solveBatch_iff.mp h
      exact Nat.le_trans (le_denseLength_self hm hle) hx
  | offsetsOfRows rowInd m rowPtr => exact Nat.le_refl 0
  | rowsOfOffsets rowPtr m rowInd => exact Nat.le_refl 0
  | product op alpha a x beta y => exact Nat.le_refl 0
  | productColumns op alpha a b ldb n beta c ldc => exact Nat.le_refl 0
  | columns a out => exact Nat.le_refl 0
  | sumOffsets a b rowPtr => exact Nat.le_refl 0
  | sum alpha a beta b c => exact Nat.le_refl 0

/-! ### What a routine does then -/

section Perform

variable [Zero α] [One α] [Add α] [Sub α] [Mul α] [Div α] [Scalar α]

/-- A request runs to its end, writes its buffers in place and answers no status but its
doubts. -/
def Concludes (r : Request α) : Prop :=
  ∃ status r', r.perform = .ok (status, r') ∧ r'.sizes = r.sizes ∧
    ∀ t, status = .error t → t ∈ r.doubts

theorem concludes_of_reply {r r' : Request α} {reply : Reply}
    (h : r.perform = .ok (.ok reply, r')) (hsizes : r'.sizes = r.sizes) : r.Concludes :=
  ⟨.ok reply, r', h, hsizes, fun _ ht => nomatch ht⟩

/-- A routine with a status of its own, whose refusals are all in doubt. -/
theorem concluded_concludes {r : Request α} {β : Type} {request : β → Request α}
    {after : Except Trap (Except Status Unit × β)} {status : Except Status Unit} {out : β}
    (hr : r.perform = concluded after request) (h : after = .ok (status, out))
    (hsizes : (request out).sizes = r.sizes) (hsub : r.refusals ⊆ r.doubts) : r.Concludes := by
  have hperform : r.perform = .ok (status.map fun _ => .done, request out) := by
    rw [hr, h]
    rfl
  refine ⟨_, _, hperform, hsizes, fun t ht => hsub ?_⟩
  rw [ht] at hperform
  exact perform_refusal hperform

/-- Either no system has an equation or there is room for all solutions. -/
theorem room_of_systems {m count : Nat}
    (h : (if m = 0 then 0 else count) * Buffer.listBytes ≤ Buffer.maxBytes) :
    m = 0 ∨ count * Buffer.listBytes ≤ Buffer.maxBytes := by
  by_cases hm : m = 0
  · exact .inl hm
  · rw [if_neg hm] at h
    exact .inr h

/-- **A checked request runs to its end,** if its entries can be counted and there is room for its
solutions. -/
theorem perform_ok {r : Request α} (h : r.check = .ok ()) (hcount : r.counted ≤ maxCount)
    (hroom : r.systems * Buffer.listBytes ≤ Buffer.maxBytes) : r.Concludes := by
  cases r with
  | offsetsOfRows rowInd m rowPtr =>
    obtain ⟨hlength, hrange, -⟩ := check_offsetsOfRows_iff.mp h
    refine concludes_of_reply (perform_offsetsOfRows hlength hrange hcount) ?_
    rw [sizes, sizes, Offsets.length_ranks, hlength]
  | rowsOfOffsets rowPtr m rowInd =>
    have hoffsets := check_rowsOfOffsets_iff.mp h
    refine concludes_of_reply (perform_rowsOfOffsets hoffsets) ?_
    rw [sizes, sizes, Offsets.length_expand hoffsets (Nat.le_refl m), hoffsets.last]
  | product op alpha a x beta y =>
    obtain ⟨ha, hx, hy⟩ := check_product_iff.mp h
    refine concludes_of_reply (perform_product ha hx hy) ?_
    rw [sizes, sizes, Product.length_written]
  | productColumns op alpha a b ldb n beta c ldc =>
    obtain ⟨ha, ⟨-, hb⟩, hstride, hc⟩ := check_productColumns_iff.mp h
    refine concludes_of_reply (perform_productColumns ha hb hstride hc) ?_
    rw [sizes, sizes, Product.length_writtenColumns]
  | columns a out =>
    obtain ⟨ha, hout⟩ := check_columns_iff.mp h
    refine concludes_of_reply (perform_columns ha hout) ?_
    rw [sizes, sizes, Csc.length_values_transposed ha, Csc.length_rowInd_transposed ha,
      Csc.length_colPtr_transposed, hout.values, hout.rowInd, hout.colPtr]
  | sumOffsets a b rowPtr =>
    obtain ⟨⟨ha, hb, hrows, hcols⟩, hlength⟩ := check_sumOffsets_iff.mp h
    refine concludes_of_reply (perform_sumOffsets ⟨ha, hb, hrows, hcols, hcount⟩ hlength) ?_
    rw [sizes, sizes, Addition.length_starts, hlength]
  | sum alpha a beta b c =>
    obtain ⟨⟨ha, hb, hrows, -⟩, -, -, hc⟩ := check_sum_iff.mp h
    obtain ⟨row, hrow⟩ := Addition.exists_fitsUpTo a b c.rowPtr
    refine concluded_concludes rfl (Addition.entries_eq_stored ha hb hrows hc alpha beta hrow) ?_
      (List.Subset.refl _)
    rw [sizes, sizes, Addition.length_colInd_stored hc hrow.le hrow.before,
      Addition.length_values_stored hc hrow.le hrow.before]
    rfl
  | solve m n lower diagonal upper b ldb =>
    obtain ⟨⟨hl, hd, hu⟩, -, hb⟩ := check_solve_iff.mp h
    obtain ⟨status, out, hout, hout'⟩ :=
      Tridiagonal.solveColumns_ok hl hd hu hb (room_of_systems hroom)
    have hsizes : (solve m n lower diagonal upper out ldb).sizes =
        (solve m n lower diagonal upper b ldb).sizes := congrArg (fun size => [size]) hout'
    exact concluded_concludes (by rw [perform]) hout hsizes (List.Subset.refl _)
  | solveBatch m lower diagonal upper x count stride =>
    obtain ⟨-, hl, hd, hu, hx⟩ := check_solveBatch_iff.mp h
    obtain ⟨status, out, hout, hout'⟩ :=
      Tridiagonal.solveBatch_ok hl hd hu hx (room_of_systems hroom)
    have hsizes : (solveBatch m lower diagonal upper out count stride).sizes =
        (solveBatch m lower diagonal upper x count stride).sizes :=
      congrArg (fun size => [size]) hout'
    exact concluded_concludes (by rw [perform]) hout hsizes (List.Subset.refl _)

/-- Too many solutions are refused before any system is looked at. -/
theorem perform_noRoom {r : Request α}
    (h : Buffer.maxBytes < r.systems * Buffer.listBytes) :
    r.perform = .error .capacityOverflow := by
  have hzero : ¬Buffer.maxBytes < 0 * Buffer.listBytes := by decide
  cases r with
  | solve m n lower diagonal upper b ldb =>
    rw [systems] at h
    split at h
    · exact absurd h hzero
    · next hm =>
      rw [perform, Tridiagonal.solveColumns, if_neg hm, Tridiagonal.solveAll_noRoom h]
      rfl
  | solveBatch m lower diagonal upper x count stride =>
    rw [systems] at h
    split at h
    · exact absurd h hzero
    · next hm =>
      rw [perform, Tridiagonal.solveBatch, if_neg hm, Tridiagonal.solveAll_noRoom h]
      rfl
  | offsetsOfRows rowInd m rowPtr => exact absurd h hzero
  | rowsOfOffsets rowPtr m rowInd => exact absurd h hzero
  | product op alpha a x beta y => exact absurd h hzero
  | productColumns op alpha a b ldb n beta c ldc => exact absurd h hzero
  | columns a out => exact absurd h hzero
  | sumOffsets a b rowPtr => exact absurd h hzero
  | sum alpha a beta b c => exact absurd h hzero

end Perform

end Request

/-! ### Jobs -/

namespace Job

/-- How many entries a routine counts that nobody has counted before. -/
def counted : Job → Nat
  | single r => r.counted
  | double r => r.counted
  | complexSingle r => r.counted
  | complexDouble r => r.counted

/-- For how many solutions a routine asks for room. -/
def systems : Job → Nat
  | single r => r.systems
  | double r => r.systems
  | complexSingle r => r.systems
  | complexDouble r => r.systems

/-- How many cells the right hand sides of a solver take. -/
def cells : Job → Nat
  | single r => r.cells
  | double r => r.cells
  | complexSingle r => r.cells
  | complexDouble r => r.cells

/-- How many cells each buffer has that the routine writes. -/
def sizes : Job → List Nat
  | single r => r.sizes
  | double r => r.sizes
  | complexSingle r => r.sizes
  | complexDouble r => r.sizes

/-- The statuses that a routine may answer although its operands fit together. -/
def doubts : Job → List Status
  | single r => r.doubts
  | double r => r.doubts
  | complexSingle r => r.doubts
  | complexDouble r => r.doubts

theorem systems_le {j : Job} (h : j.check = .ok ()) : j.systems ≤ j.cells := by
  cases j with
  | single r => exact Request.systems_le h
  | double r => exact Request.systems_le h
  | complexSingle r => exact Request.systems_le h
  | complexDouble r => exact Request.systems_le h

/-- A job runs to its end, writes its buffers in place and answers no status but its doubts. -/
def Concludes (j : Job) : Prop :=
  ∃ status j', j.perform = .ok (status, j') ∧ j'.sizes = j.sizes ∧
    ∀ t, status = .error t → t ∈ j.doubts

/-- A checked job runs to its end. -/
theorem perform_ok {j : Job} (h : j.check = .ok ()) (hcount : j.counted ≤ maxCount)
    (hroom : j.systems * Buffer.listBytes ≤ Buffer.maxBytes) : j.Concludes := by
  cases j with
  | single r =>
    obtain ⟨status, r', hr, hends⟩ := Request.perform_ok h hcount hroom
    exact ⟨status, single r', by rw [perform, hr]; rfl, hends⟩
  | double r =>
    obtain ⟨status, r', hr, hends⟩ := Request.perform_ok h hcount hroom
    exact ⟨status, double r', by rw [perform, hr]; rfl, hends⟩
  | complexSingle r =>
    obtain ⟨status, r', hr, hends⟩ := Request.perform_ok h hcount hroom
    exact ⟨status, complexSingle r', by rw [perform, hr]; rfl, hends⟩
  | complexDouble r =>
    obtain ⟨status, r', hr, hends⟩ := Request.perform_ok h hcount hroom
    exact ⟨status, complexDouble r', by rw [perform, hr]; rfl, hends⟩

theorem perform_noRoom {j : Job} (h : Buffer.maxBytes < j.systems * Buffer.listBytes) :
    j.perform = .error .capacityOverflow := by
  cases j with
  | single r => rw [perform, Request.perform_noRoom h]; rfl
  | double r => rw [perform, Request.perform_noRoom h]; rfl
  | complexSingle r => rw [perform, Request.perform_noRoom h]; rfl
  | complexDouble r => rw [perform, Request.perform_noRoom h]; rfl

end Job

end SparseDevice

import SparseDevice.Proofs.Kernel.Totals
import SparseDevice.Proofs.Acceptance

/-!
# The values of a sum, through a context

A cell of a sum that has been stored is the sum of its terms from left to right, the terms of the
first matrix before those of the second, and each matrix in the order in which its row holds them.
This is said of every call that succeeds, in every world and for every arithmetic. Over a commutative
ring the sum denotes the sum of the matrices, and the same call with the matrices in each other's
places leaves the same arrays.

Offsets that a first call has written are such that the second call does succeed.

## Main results

* `Context.sum_denotes`: what a sum holds.
-/

namespace SparseDevice

open Addition

namespace Context

section Order

variable {α : Type} [Zero α] [One α] [Add α] [Sub α] [Mul α] [Div α] [Scalar α]
variable {ctx : Context} {w : World} {device : Nat} {alpha beta : α} {a b c : Csr α}

/-- A sum that succeeds has stored all rows. -/
theorem stored_of_execute {reply : Reply} {r' : Request α}
    (hcall : (ctx.execute w device (Request.sum alpha a beta b c)).2 = .ok (.ok reply, r')) :
    (∀ row, row < a.rows → Fits a b c.rowPtr row) ∧ reply = .done ∧
      r' = .sum alpha a beta b (stored alpha a beta b c a.rows) := by
  obtain ⟨hcheck, hperform⟩ := done_of_execute hcall
  obtain ⟨⟨ha, hb, hrows, -⟩, -, -, hroom⟩ := Request.check_sum_iff.mp hcheck
  obtain ⟨hreply, out, hentries, rfl⟩ := Request.concluded_done hperform
  obtain ⟨hfits, rfl⟩ := (entries_eq_ok_iff ha hb hrows hroom).mp hentries
  exact ⟨hfits, hreply, rfl⟩

theorem totals_of_execute {reply : Reply} {r' : Request α}
    (hcall : (ctx.execute w device (Request.sum alpha a beta b c)).2 = .ok (.ok reply, r')) :
    ∃ c', r' = .sum alpha a beta b c' ∧ c'.rowPtr = c.rowPtr ∧ Totals alpha a beta b c' := by
  obtain ⟨⟨ha, hb, hrows, -⟩, hcrows, hccols, hroom⟩ :=
    Request.check_sum_iff.mp (done_of_execute hcall).1
  obtain ⟨hfits, -, rfl⟩ := stored_of_execute hcall
  exact ⟨_, rfl, rfl, totals_stored ha hb hrows hcrows hccols hroom hfits alpha beta⟩

/-- A sum into the offsets of its first call succeeds. -/
theorem Ready.sum_of_offsets (h : ctx.Ready w device) {rowPtr : List Int32} {n : Nat}
    (hcount : a.nnz + b.nnz ≤ maxCount)
    (hoffsets : (ctx.execute w device (Request.sumOffsets a b rowPtr)).2 =
      .ok (.ok (.count n), .sumOffsets a b c.rowPtr))
    (hcheck : (Request.sum alpha a beta b c).check = .ok ()) :
    ∃ c', (ctx.execute w device (Request.sum alpha a beta b c)).2 =
      .ok (.ok .done, .sum alpha a beta b c') := by
  obtain ⟨⟨ha, hb, hrows, hcols⟩, -⟩ := Request.check_sum_iff.mp hcheck
  have hterms : Addable a b := ⟨ha, hb, hrows, hcols, hcount⟩
  refine (h.sumVerdict hterms hcheck).accepted_iff.mpr ?_
  obtain ⟨hcheck', hperform⟩ := done_of_execute hoffsets
  obtain ⟨-, hlength⟩ := Request.check_sumOffsets_iff.mp hcheck'
  rw [Request.perform_sumOffsets hterms hlength] at hperform
  simp only [Except.ok.injEq, Prod.mk.injEq, Request.sumOffsets.injEq] at hperform
  exact hperform.2.2.2.symm

end Order

section Ring

variable {K : Type} [CommRing K] [Div K] [Scalar K]
variable {ctx : Context} {w : World} {device : Nat} {alpha beta : K} {a b c : Csr K}

/-- A cell of a sum that has been stored, over a commutative ring. -/
theorem denseEntry_of_execute {reply : Reply} {c' : Csr K}
    (hcall : (ctx.execute w device (Request.sum alpha a beta b c)).2 =
      .ok (.ok reply, .sum alpha a beta b c')) {row : Nat} (hrow : row < a.rows) (column : Nat) :
    c'.denseEntry id row column =
      alpha * a.denseEntry id row column + beta * b.denseEntry id row column := by
  obtain ⟨⟨ha, hb, hrows, -⟩, -, -, hroom⟩ := Request.check_sum_iff.mp (done_of_execute hcall).1
  obtain ⟨hfits, -, hout⟩ := stored_of_execute hcall
  cases hout
  exact denseEntry_stored ha hb hrows hroom hfits alpha beta hrow column

/-- The same call with the two matrices in each other's places. -/
theorem swap_of_execute {reply : Reply} {c' : Csr K}
    (hcall : (ctx.execute w device (Request.sum alpha a beta b c)).2 =
      .ok (.ok reply, .sum alpha a beta b c')) :
    (ctx.execute w device (Request.sum beta b alpha a c)).2 =
      .ok (.ok reply, .sum beta b alpha a c') := by
  obtain ⟨hadmits, hcheck, -⟩ := admits_of_execute hcall
  obtain ⟨⟨ha, hb, hrows, hcols⟩, hcrows, hccols, hroom⟩ := Request.check_sum_iff.mp hcheck
  obtain ⟨hfits, rfl, hout⟩ := stored_of_execute hcall
  cases hout
  have hcheck' : (Request.sum beta b alpha a c).check = .ok () :=
    Request.check_sum_iff.mpr ⟨⟨hb, ha, hrows.symm, hcols.symm⟩, hcrows.trans hrows,
      hccols.trans hcols, hrows ▸ hroom⟩
  have hentries : entries beta b alpha a c = .ok (.ok (), stored alpha a beta b c a.rows) := by
    refine (entries_eq_ok_iff hb ha hrows.symm (hrows ▸ hroom)).mpr ⟨fun row hrow => ?_, ?_⟩
    · exact (fits_comm a b c.rowPtr row).mp (hfits row (hrows ▸ hrow))
    · rw [stored_swap, hrows]
  rw [hadmits.execute_eq hcheck', Request.perform, hentries]
  rfl

end Ring

/-- **A sum that succeeds holds the sums of its terms, in their order.** Over a commutative ring it
denotes the sum of the matrices, which may change places. After every run, the second call succeeds
on what the first one writes. -/
theorem sum_denotes (ctx : Context) (device : Nat) :
    (∀ (α : Type) [Zero α] [One α] [Add α] [Sub α] [Mul α] [Div α] [Scalar α] (w : World)
        (alpha beta : α) (a b c : Csr α) (reply : Reply) (r' : Request α),
      (ctx.execute w device (Request.sum alpha a beta b c)).2 = .ok (.ok reply, r') →
        ∃ c', r' = .sum alpha a beta b c' ∧ c'.rowPtr = c.rowPtr ∧ Totals alpha a beta b c') ∧
    (∀ (K : Type) [CommRing K] [Div K] [Scalar K] (w : World) (alpha beta : K) (a b c c' : Csr K)
        (reply : Reply),
      (ctx.execute w device (Request.sum alpha a beta b c)).2 =
          .ok (.ok reply, .sum alpha a beta b c') →
        (∀ row, row < a.rows → ∀ column, c'.denseEntry id row column =
          alpha * a.denseEntry id row column + beta * b.denseEntry id row column) ∧
        (ctx.execute w device (Request.sum beta b alpha a c)).2 =
          .ok (.ok reply, .sum beta b alpha a c')) ∧
    (∀ (α : Type) [Zero α] [One α] [Add α] [Sub α] [Mul α] [Div α] [Scalar α]
        (steps : List Step), (Session.empty.after steps).Serves ctx device →
      ∀ (alpha beta : α) (a b c : Csr α) (rowPtr : List Int32) (n : Nat),
        a.nnz + b.nnz ≤ maxCount → (Request.sum alpha a beta b c).check = .ok () →
        (ctx.execute (Session.empty.after steps).world device (Request.sumOffsets a b rowPtr)).2 =
          .ok (.ok (.count n), .sumOffsets a b c.rowPtr) →
        ∃ c', (ctx.execute (Session.empty.after steps).world device
          (Request.sum alpha a beta b c)).2 = .ok (.ok .done, .sum alpha a beta b c')) := by
  refine ⟨?_, ?_, ?_⟩
  · intro α _ _ _ _ _ _ _ w alpha beta a b c reply r' hcall
    exact totals_of_execute hcall
  · intro K _ _ _ w alpha beta a b c c' reply hcall
    exact ⟨fun row hrow column => denseEntry_of_execute hcall hrow column, swap_of_execute hcall⟩
  · intro α _ _ _ _ _ _ _ steps hserves alpha beta a b c rowPtr n hcount hcheck hoffsets
    exact hserves.ready.sum_of_offsets hcount hoffsets hcheck

/-- Unsorted rows, a column that comes up twice in the one matrix and once in the other, and buffers
with room to spare. -/
theorem onePrepared_totals :
    let ctx : Context := ⟨0, ⟨7⟩, some 0⟩
    let w := (Session.empty.after Session.onePrepared).world
    let a : Csr Int := ⟨2, 3, [0, 3, 4], [2, 0, 2, 1], [1, 2, 3, 5]⟩
    let b : Csr Int := ⟨2, 3, [0, 1, 2], [2, 0], [4, 7]⟩
    let c : Csr Int := ⟨2, 3, [0, 2, 4], [9, 9, 9, 9, 9], [8, 8, 8, 8, 8]⟩
    let c' : Csr Int := ⟨2, 3, [0, 2, 4], [0, 2, 0, 1, 9], [20, 44, 7, 50, 8]⟩
    ((Session.empty.after Session.onePrepared).Serves ctx 0 ∧ a.nnz + b.nnz ≤ maxCount ∧
        (Request.sum 10 a 1 b c).check = .ok () ∧
        (ctx.execute w 0 (Request.sumOffsets a b [0, 0, 0])).2 =
          .ok (.ok (.count 4), .sumOffsets a b c.rowPtr) ∧
        (ctx.execute w 0 (Request.sum 10 a 1 b c)).2 = .ok (.ok .done, .sum 10 a 1 b c')) ∧
      Totals 10 a 1 b c' ∧
      c'.denseEntry id 0 2 = 10 * a.denseEntry id 0 2 + 1 * b.denseEntry id 0 2 ∧
      (ctx.execute w 0 (Request.sum 1 b 10 a c)).2 = .ok (.ok .done, .sum 1 b 10 a c') ∧
      ∃ out, (ctx.execute w 0 (Request.sum 10 a 1 b c)).2 = .ok (.ok .done, .sum 10 a 1 b out) := by
  intro ctx w a b c c'
  have hcount : a.nnz + b.nnz ≤ maxCount := by decide
  have hcheck : (Request.sum 10 a 1 b c).check = .ok () := rfl
  have hoffsets : (ctx.execute w 0 (Request.sumOffsets a b [0, 0, 0])).2 =
      .ok (.ok (.count 4), .sumOffsets a b c.rowPtr) := by
    decide +kernel
  have hcall : (ctx.execute w 0 (Request.sum 10 a 1 b c)).2 =
      .ok (.ok .done, .sum 10 a 1 b c') := by
    decide +kernel
  obtain ⟨htotals, hring, hanswer⟩ := sum_denotes ctx 0
  obtain ⟨out, hout, -, hc'⟩ := htotals Int w 10 1 a b c .done _ hcall
  obtain ⟨hcells, hswap⟩ := hring Int w 10 1 a b c c' .done hcall
  cases hout
  exact ⟨⟨Session.onePrepared_serves, hcount, hcheck, hoffsets, hcall⟩, hc', hcells 0 (by decide) 2,
    hswap, hanswer Int Session.onePrepared Session.onePrepared_serves 10 1 a b c [0, 0, 0] 4 hcount
      hcheck hoffsets⟩

end Context

end SparseDevice

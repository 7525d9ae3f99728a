import SparseDevice.Proofs.Calls
import SparseDevice.Proofs.Kernel.Unread

/-!
# What a call does not look at

Two calls of a product or of a solver may differ in cells that the routine has no use for, and then
nobody can tell them apart: they leave the same world behind, they answer the same, and they compute
the same cells. So what a caller leaves uninitialised in such cells, NaN and infinities included, has
no way into a result.

What stops a call before the routine runs looks at no cell at all, but neither does it write any: a
call that is stopped comes back as it was.

## Main definitions

* `Request.Alike`: calls that differ in cells without a meaning only.
* `Request.results`: the cells that a product or a solver computes.
* `Context.Indistinct`: calls that cannot be told apart.

## Main results

* `Request.perform_observed`: routines on calls that are alike.
* `Context.unread_unnoticed`: such calls through a context, in every world and every arithmetic.
-/

namespace SparseDevice

variable {α : Type}

namespace Request

/-- Two calls of one routine with the same operands, except for cells that the routine has no use
for. -/
inductive Alike [Scalar α] : Request α → Request α → Prop
  /-- The vector may differ behind the columns of the product, and the output behind its rows; the
  whole output may differ if `beta` is zero. -/
  | product {op : Operation} {alpha beta : α} {a : Csr α} {x x₂ y y₂ : List α}
    (hx : x.take (a.shape op).2 = x₂.take (a.shape op).2)
    (hy : Scalar.isZero beta = false → y.take (a.shape op).1 = y₂.take (a.shape op).1) :
    Alike (product op alpha a x beta y) (product op alpha a x₂ beta y₂)
  /-- The dense matrices may differ between and behind their columns; the whole output may differ if
  `beta` is zero. -/
  | productColumns {op : Operation} {alpha beta : α} {a : Csr α} {b b₂ c c₂ : List α}
    {ldb n ldc : Nat}
    (hb : ∀ j, j < n → denseColumn (a.shape op).2 ldb b j = denseColumn (a.shape op).2 ldb b₂ j)
    (hc : Scalar.isZero beta = false → ∀ j, j < n →
      denseColumn (a.shape op).1 ldc c j = denseColumn (a.shape op).1 ldc c₂ j) :
    Alike (productColumns op alpha a b ldb n beta c ldc)
      (productColumns op alpha a b₂ ldb n beta c₂ ldc)
  /-- The diagonals may differ at the ends that belong to no equation, and the right hand sides
  between and behind them. -/
  | solve {m n : Nat} {lower lower₂ diagonal upper upper₂ b b₂ : List α} {ldb : Nat}
    (hlower : lower.tail = lower₂.tail) (hupper : upper.dropLast = upper₂.dropLast)
    (hb : ∀ j, j < n → denseColumn m ldb b j = denseColumn m ldb b₂ j) :
    Alike (solve m n lower diagonal upper b ldb) (solve m n lower₂ diagonal upper₂ b₂ ldb)
  /-- The same for each system, and all operands may differ between and behind the systems. -/
  | solveBatch {m count stride : Nat} {lower lower₂ diagonal diagonal₂ upper upper₂ x x₂ : List α}
    (hlower : ∀ i, i < count →
      (denseColumn m stride lower i).tail = (denseColumn m stride lower₂ i).tail)
    (hdiagonal : ∀ i, i < count →
      denseColumn m stride diagonal i = denseColumn m stride diagonal₂ i)
    (hupper : ∀ i, i < count →
      (denseColumn m stride upper i).dropLast = (denseColumn m stride upper₂ i).dropLast)
    (hx : ∀ i, i < count → denseColumn m stride x i = denseColumn m stride x₂ i) :
    Alike (solveBatch m lower diagonal upper x count stride)
      (solveBatch m lower₂ diagonal₂ upper₂ x₂ count stride)

/-- The cells that a product or a solver computes, as a call leaves them: the first cells of a
vector, or the columns of a dense matrix. -/
def results : Request α → List (List α)
  | product op _ a _ _ y => [y.take (a.shape op).1]
  | productColumns op _ a _ _ n _ c ldc => denseColumns (a.shape op).1 n ldc c
  | solve m n _ _ _ b ldb => denseColumns m n ldb b
  | solveBatch m _ _ _ x count stride => denseColumns m count stride x
  | offsetsOfRows .. | rowsOfOffsets .. | columns .. | sumOffsets .. | sum .. => []

/-- What a caller gets to see of a call: how it ended, and what it computed. -/
def observed {ε : Type} (answer : Except ε Reply × Request α) : Except ε Reply × List (List α) :=
  (answer.1, answer.2.results)

/-- How a call ended is part of what it shows. -/
theorem map_fst_of_observed {κ ε : Type} {answer answer₂ : Except κ (Except ε Reply × Request α)}
    (h : answer.map observed = answer₂.map observed) :
    answer.map Prod.fst = answer₂.map Prod.fst := by
  have hfirst : ∀ answer : Except κ (Except ε Reply × Request α),
      answer.map Prod.fst = (answer.map observed).map Prod.fst := by
    rintro (e | ⟨reply, r⟩) <;> rfl
  rw [hfirst, hfirst, h]

theorem Alike.entryPoint_eq [Scalar α] {r r₂ : Request α} (h : r.Alike r₂) :
    r.entryPoint = r₂.entryPoint := by
  cases h <;> rfl

/-- A status of its own, and the columns of the operand that the routine writes. -/
theorem observed_concluded {m count stride : Nat} {request : List α → Request α}
    (hresults : ∀ out, (request out).results = denseColumns m count stride out)
    (after : Except Trap (Except Status Unit × List α)) :
    (concluded after request).map observed =
      (after.map (Tridiagonal.shown m count stride)).map
        fun (status, cells) => (status.map fun _ => .done, cells) := by
  rcases after with t | ⟨status, out⟩
  · rfl
  · exact congrArg (fun cells => Except.ok (status.map fun _ => Reply.done, cells))
      (hresults out)

variable [Zero α] [One α] [Add α] [Sub α] [Mul α] [Div α] [Scalar α]

/-- **Routines on calls that are alike** end in the same way, traps included, and compute the same
cells. -/
theorem perform_observed {r r₂ : Request α} (h : r.Alike r₂) (hcheck : r.check = .ok ())
    (hcheck₂ : r₂.check = .ok ()) : r.perform.map observed = r₂.perform.map observed := by
  cases h with
  | product hx hy =>
    obtain ⟨ha, hcols, hrows⟩ := check_product_iff.mp hcheck
    obtain ⟨-, hcols₂, hrows₂⟩ := check_product_iff.mp hcheck₂
    rw [perform_product ha hcols hrows, perform_product ha hcols₂ hrows₂]
    exact congrArg (fun cells => Except.ok (Except.ok Reply.done, [cells]))
      (Product.take_written_congr ha hx hrows hrows₂ hy _)
  | productColumns hb hc =>
    obtain ⟨ha, ⟨-, hinner⟩, hstride, hrows⟩ := check_productColumns_iff.mp hcheck
    obtain ⟨-, ⟨-, hinner₂⟩, -, hrows₂⟩ := check_productColumns_iff.mp hcheck₂
    rw [perform_productColumns ha hinner hstride hrows,
      perform_productColumns ha hinner₂ hstride hrows₂]
    exact congrArg (fun cells => Except.ok (Except.ok Reply.done, cells))
      (Product.denseColumns_written_congr ha hstride hb hrows hrows₂ hc)
  | solve hlower hupper hb =>
    obtain ⟨⟨hl, hd, hu⟩, hm, hlength⟩ := check_solve_iff.mp hcheck
    obtain ⟨⟨hl₂, -, hu₂⟩, -, hlength₂⟩ := check_solve_iff.mp hcheck₂
    rw [perform, perform, observed_concluded fun _ => rfl, observed_concluded fun _ => rfl,
      Tridiagonal.solveColumns_congr hm hl hl₂ hd hu hu₂ hlength hlength₂ hlower hupper hb]
  | solveBatch hlower hdiagonal hupper hx =>
    obtain ⟨hm, hl, hd, hu, hlength⟩ := check_solveBatch_iff.mp hcheck
    obtain ⟨-, hl₂, hd₂, hu₂, hlength₂⟩ := check_solveBatch_iff.mp hcheck₂
    rw [perform, perform, observed_concluded fun _ => rfl, observed_concluded fun _ => rfl,
      Tridiagonal.solveBatch_congr hm hl hl₂ hd hd₂ hu hu₂ hlength hlength₂ hlower hdiagonal hupper
        hx]

end Request

/-! ### Calls through a context -/

namespace Context

open Request (observed)

/-- A context adds nothing to what a routine shows but its name. -/
theorem passOn_observed (name : String) (outcome : Except Trap (Except Status Reply × Request α)) :
    (passOn name outcome).map observed = passOn name (outcome.map observed) := by
  rcases outcome with t | ⟨status | reply, r⟩ <;> rfl

variable [Zero α] [One α] [Add α] [Sub α] [Mul α] [Div α] [Scalar α] {ctx : Context} {w : World}
  {device : Nat} {r r₂ : Request α}

/-- Two calls that nobody can tell apart. -/
structure Indistinct (ctx : Context) (w : World) (device : Nat) (r r₂ : Request α) : Prop where
  /-- They leave the same world behind. -/
  world : (ctx.execute w device r).1 = (ctx.execute w device r₂).1
  /-- They answer the same: a fault, an error or a reply. -/
  answer : (ctx.execute w device r).2.map Prod.fst = (ctx.execute w device r₂).2.map Prod.fst
  /-- Where the routine runs, they compute the same cells. -/
  results : ctx.Admits w device →
    (ctx.execute w device r).2.map observed = (ctx.execute w device r₂).2.map observed
  /-- Where it does not, they write nothing. -/
  untouched : ¬ctx.Admits w device → ∀ answer r',
    ((ctx.execute w device r).2 = .ok (answer, r') → r' = r) ∧
      ((ctx.execute w device r₂).2 = .ok (answer, r') → r' = r₂)

/-- A call that is stopped comes back as it was. -/
theorem untouched_of_not_admits (hstopped : ¬ctx.Admits w device) {answer : Except ContextError Reply}
    {r' : Request α} (hcall : (ctx.execute w device r).2 = .ok (answer, r')) : r' = r := by
  rcases ctx.execute_cases w device r with ⟨f, hf⟩ | ⟨e, he⟩ | ⟨hadmits, -⟩
  · cases hf.symm.trans hcall
  · cases he.symm.trans hcall
    rfl
  · exact absurd hadmits hstopped

/-- **What a call has no use for is not noticed.** -/
theorem unread_unnoticed (h : r.Alike r₂) (hcheck : r.check = .ok ()) (hcheck₂ : r₂.check = .ok ())
    (ctx : Context) (w : World) (device : Nat) : ctx.Indistinct w device r r₂ := by
  have hname := h.entryPoint_eq
  have hshown : (passOn r.entryPoint r.perform).map observed =
      (passOn r.entryPoint r₂.perform).map observed := by
    rw [passOn_observed, passOn_observed, Request.perform_observed h hcheck hcheck₂]
  have hcases := execute_stopped_or_ran (α := α) ctx w device r.entryPoint
  refine ⟨?_, ?_, fun hadmits => ?_, fun hstopped answer r' =>
    ⟨untouched_of_not_admits hstopped, untouched_of_not_admits hstopped⟩⟩
  · rcases hcases with ⟨w', stop, hstop⟩ | ⟨-, w', hran⟩
    · rw [hstop r hcheck rfl, hstop r₂ hcheck₂ hname.symm]
    · rw [hran r hcheck rfl, hran r₂ hcheck₂ hname.symm]
  · rcases hcases with ⟨w', stop, hstop⟩ | ⟨-, w', hran⟩
    · rw [hstop r hcheck rfl, hstop r₂ hcheck₂ hname.symm]
      cases stop <;> rfl
    · rw [hran r hcheck rfl, hran r₂ hcheck₂ hname.symm]
      exact Request.map_fst_of_observed hshown
  · rw [hadmits.execute_eq hcheck, hadmits.execute_eq hcheck₂, ← hname, hshown]

/-- Not a number in cells that are not read: in the output of a product whose complex `beta` is a
zero of any sign, and behind its vector; in all of `c`, where `beta` is the negative zero, and in the
padding of `b`; at the ends of the diagonals of a system; and between the systems of a batch. -/
theorem onePrepared_unread :
    let ctx : Context := ⟨0, ⟨7⟩, some 0⟩
    let w := (Session.empty.after Session.onePrepared).world
    let nan : Float := 0 / 0
    let complex : Csr (Cartesian Float) := ⟨1, 2, [0, 2], [0, 1], [⟨1, 2⟩, ⟨3, 4⟩]⟩
    let product (beta last y : Cartesian Float) : Request (Cartesian Float) :=
      .product .nonTranspose 1 complex [1, 1, last] beta [y]
    let a : Csr Float := ⟨1, 2, [0, 2], [0, 1], [3, 4]⟩
    let columns (v : Float) : Request Float :=
      .productColumns .nonTranspose 1 a [1, 2, v, 3, 4, v] 3 2 (-0) [v, v] 1
    let solve (v : Float) : Request Float := .solve 2 2 [v, 2] [1, 1] [0, v] [3, 7, v, 4, 9] 3
    let batch (v : Float) : Request Float :=
      .solveBatch 2 [v, 2, v, v, 2] [1, 1, v, 1, 1] [0, v, v, 0, v] [3, 7, v, 4, 9] 2 3
    (∀ beta ∈ [⟨0, 0⟩, ⟨0, -0⟩, ⟨-0, 0⟩, (⟨-0, -0⟩ : Cartesian Float)],
      ctx.Indistinct w 0 (product beta ⟨nan, nan⟩ ⟨nan, 0⟩) (product beta 0 0)) ∧
      ctx.Indistinct w 0 (columns nan) (columns 0) ∧ ctx.Indistinct w 0 (solve nan) (solve 0) ∧
        ctx.Indistinct w 0 (batch nan) (batch 0) ∧ ctx.Admits w 0 := by
  intro ctx w nan complex product a columns solve batch
  have hproduct : ∀ beta last y, (product beta last y).check = .ok () := fun _ _ _ => rfl
  have hcolumns : ∀ v, (columns v).check = .ok () := fun _ => rfl
  have hsolve : ∀ v, (solve v).check = .ok () := fun _ => rfl
  have hbatch : ∀ v, (batch v).check = .ok () := fun _ => rfl
  have htwo : ∀ {p : Nat → Prop}, p 0 → p 1 → ∀ j, j < 2 → p j := by
    intro p hzero hone j hj
    obtain rfl | rfl : j = 0 ∨ j = 1 := by omega
    · exact hzero
    · exact hone
  refine ⟨fun beta hbeta => ?_, ?_, ?_, ?_, ?_⟩
  · have hzero : ∀ beta ∈ [⟨0, 0⟩, ⟨0, -0⟩, ⟨-0, 0⟩, (⟨-0, -0⟩ : Cartesian Float)],
        Scalar.isZero beta = true := by
      decide +kernel
    have halike : (product beta ⟨nan, nan⟩ ⟨nan, 0⟩).Alike (product beta 0 0) := by
      refine .product rfl fun hnonzero => ?_
      cases (hzero beta hbeta).symm.trans hnonzero
    exact unread_unnoticed halike (hproduct ..) (hproduct ..) ctx w 0
  · have hzero : Scalar.isZero (-0 : Float) = true := by decide +kernel
    have halike : (columns nan).Alike (columns 0) := by
      refine .productColumns (htwo rfl rfl) fun hnonzero => ?_
      cases hzero.symm.trans hnonzero
    exact unread_unnoticed halike (hcolumns nan) (hcolumns 0) ctx w 0
  · have halike : (solve nan).Alike (solve 0) := .solve rfl rfl (htwo rfl rfl)
    exact unread_unnoticed halike (hsolve nan) (hsolve 0) ctx w 0
  · have halike : (batch nan).Alike (batch 0) :=
      .solveBatch (htwo rfl rfl) (htwo rfl rfl) (htwo rfl rfl) (htwo rfl rfl)
    exact unread_unnoticed halike (hbatch nan) (hbatch 0) ctx w 0
  · exact ⟨⟨0, 0, some ⟨7⟩⟩, ⟨7⟩, by decide +kernel, rfl, by decide +kernel⟩

end Context

end SparseDevice

import SparseDevice.Proofs.Calls
import SparseDevice.Proofs.Kernel.Denotation
import SparseDevice.Proofs.Kernel.Requests
import SparseDevice.Proofs.Scalars

/-!
# Products, through a context

A product with a vector is `alpha * op(A) * x + beta * y` for the matrix `A` that the arrays denote,
if arithmetic is exact. This is said of every call that succeeds, and a checked call through a
context that serves does succeed.

A product with a dense matrix is a product with a vector for each of its columns. No law is asked of
the arithmetic here: both do the same operations in the same order, so a call for each column through
the same context gives the same cells. Hence the columns may be gone through in any order, and neither
the distance between them nor what stands in the padding has a part in the result.

## Main definitions

* `Context.Columnwise`: the output of a product with a dense matrix, by calls for its columns.

## Main results

* `Session.product_denotes`: what a product with a vector writes.
* `Session.productColumns_columnwise`: what a product with a dense matrix writes, after every run.
-/

namespace SparseDevice

variable {α : Type}

/-! ### Exact arithmetic -/

namespace Session

/-- **A product with a vector is the product with the matrix that the arrays denote.** -/
theorem product_denotes [CommRing α] [Div α] [Scalar α] (hexact : Scalar.Exact α) (op : Operation)
    (alpha : α) (a : Csr α) (x : List α) (beta : α) (y : List α) :
    (∀ (ctx : Context) (w : World) (device : Nat) (reply : Reply) (r' : Request α),
      (ctx.execute w device (Request.product op alpha a x beta y)).2 = .ok (.ok reply, r') →
        ∃ y', r' = .product op alpha a x beta y' ∧ Product.Computed op alpha a x beta y y') ∧
    ∀ (steps : List Step) (ctx : Context) (device : Nat), (empty.after steps).Serves ctx device →
      (Request.product op alpha a x beta y).check = .ok () →
        ∃ y', (ctx.execute (empty.after steps).world device
          (Request.product op alpha a x beta y)).2 = .ok (.ok .done, .product op alpha a x beta y') := by
  constructor
  · intro ctx w device reply r' hcall
    obtain ⟨hcheck, hperform⟩ := Context.done_of_execute hcall
    obtain ⟨ha, hx, hy⟩ := Request.check_product_iff.mp hcheck
    rw [Request.perform_product ha hx hy] at hperform
    cases hperform
    exact ⟨_, rfl, Product.computed_written hexact ha hy alpha beta x⟩
  · intro steps ctx device h hcheck
    obtain ⟨ha, hx, hy⟩ := Request.check_product_iff.mp hcheck
    exact ⟨_, (h.ready.execute hcheck (Request.perform_product ha hx hy)).1⟩

/-- Unsorted and repeated columns, a row without entries, and a cell of the output below the rows. -/
theorem onePrepared_product :
    let ctx : Context := ⟨0, ⟨7⟩, some 0⟩
    let w := (empty.after onePrepared).world
    let i : GaussianInt := ⟨0, 1⟩
    let a : Csr GaussianInt := ⟨3, 4, [0, 3, 3, 5], [2, 0, 2, 3, 1], [1, i, 3, 4 * i, 5]⟩
    let request (y : List GaussianInt) : Request GaussianInt :=
      .product .conjugateTranspose i a [1, 2, i] 2 y
    let y' : List GaussianInt := [3, -3, ⟨2, 4⟩, ⟨2, 4⟩, 8]
    (Scalar.Exact GaussianInt ∧
        (ctx.execute w 0 (request [1, 1, 1, 1, 8])).2 = .ok (.ok .done, request y')) ∧
      Product.Computed .conjugateTranspose i a [1, 2, i] 2 [1, 1, 1, 1, 8] y' := by
  intro ctx w i a request y'
  have hcall : (ctx.execute w 0 (request [1, 1, 1, 1, 8])).2 = .ok (.ok .done, request y') := by
    decide +kernel
  obtain ⟨hproduct, -⟩ := product_denotes Scalar.exact_gaussianInt .conjugateTranspose i a [1, 2, i]
    2 [1, 1, 1, 1, 8]
  obtain ⟨out, hout, hcomputed⟩ := hproduct ctx w 0 _ _ hcall
  cases hout
  exact ⟨⟨Scalar.exact_gaussianInt, hcall⟩, hcomputed⟩

end Session

/-! ### Columns -/

section Columns

variable [Zero α] [One α] [Add α] [Sub α] [Mul α] [Div α] [Scalar α]

namespace Context

/-- A product with a dense matrix turns `c` into `c'`, and so do products with its columns. -/
structure Columnwise (ctx : Context) (w : World) (device : Nat) (op : Operation) (alpha : α)
    (a : Csr α) (b : List α) (ldb n : Nat) (beta : α) (c : List α) (ldc : Nat) (c' : List α) :
    Prop where
  answer : (ctx.execute w device (Request.productColumns op alpha a b ldb n beta c ldc)).2 =
    .ok (.ok .done, .productColumns op alpha a b ldb n beta c' ldc)
  length : c'.length = c.length
  /-- A column ends up as a call with this column alone leaves it. -/
  column : ∀ j, j < n →
    (ctx.execute w device (Request.product op alpha a (denseColumn (a.shape op).2 ldb b j) beta
      (denseColumn (a.shape op).1 ldc c j))).2 =
    .ok (.ok .done, .product op alpha a (denseColumn (a.shape op).2 ldb b j) beta
      (denseColumn (a.shape op).1 ldc c' j))
  /-- A cell that belongs to no column is left as it is. -/
  padding : ∀ i, (∀ j, j < n → ¬(j * ldc ≤ i ∧ i < j * ldc + (a.shape op).1)) → c'[i]? = (c)[i]?
  /-- The columns may be gone through in any order. -/
  order : ∀ order : List Nat, order.Perm (List.range n) →
    Product.columnsIn op alpha a b ldb order beta c ldc = .ok c'

variable {ctx : Context} {w : World} {device : Nat} {op : Operation} {alpha beta : α} {a : Csr α}
  {b c : List α} {ldb n ldc : Nat}

theorem Ready.columnwise (h : ctx.Ready w device)
    (hcheck : (Request.productColumns op alpha a b ldb n beta c ldc).check = .ok ()) :
    ctx.Columnwise w device op alpha a b ldb n beta c ldc
      (Product.writtenColumns op alpha a b ldb (List.range n) beta c ldc) := by
  obtain ⟨ha, ⟨-, hb⟩, hstride, hc⟩ := Request.check_productColumns_iff.mp hcheck
  refine ⟨(h.execute hcheck (Request.perform_productColumns ha hb hstride hc)).1,
    Product.length_writtenColumns, ?_, ?_, ?_⟩
  · intro j hj
    have hx := Nat.le_of_eq (length_denseColumn_of_lt hb hj).symm
    have hy := Nat.le_of_eq (length_denseColumn_of_lt hc hj).symm
    rw [Product.denseColumn_writtenColumns hstride (List.mem_range.mpr hj)]
    exact (h.execute (Request.check_product_iff.mpr ⟨ha, hx, hy⟩)
      (Request.perform_product ha hx hy)).1
  · intro i hi
    refine Product.getElem?_writtenColumns fun hrow hmem => ?_
    exact hi (i / ldc) (List.mem_range.mp hmem) ((mem_column_iff hstride).mpr ⟨hrow, rfl⟩)
  · intro order hperm
    have hmem : ∀ j, j ∈ order ↔ j ∈ List.range n := fun j => hperm.mem_iff
    rw [Product.columnsIn_eq ha hb hstride hc (hperm.nodup_iff.mpr List.nodup_range)
      fun j hj => List.mem_range.mp ((hmem j).mp hj), Product.writtenColumns_congr hmem]

/-- Columns with the same cells before a product have the same cells after it. -/
theorem Columnwise.denseColumn_eq {b₂ c₂ c' c₂' : List α} {ldb₂ ldc₂ : Nat}
    (h : ctx.Columnwise w device op alpha a b ldb n beta c ldc c')
    (h₂ : ctx.Columnwise w device op alpha a b₂ ldb₂ n beta c₂ ldc₂ c₂') {j : Nat} (hj : j < n)
    (hb : denseColumn (a.shape op).2 ldb₂ b₂ j = denseColumn (a.shape op).2 ldb b j)
    (hc : denseColumn (a.shape op).1 ldc₂ c₂ j = denseColumn (a.shape op).1 ldc c j) :
    denseColumn (a.shape op).1 ldc₂ c₂' j = denseColumn (a.shape op).1 ldc c' j := by
  have hcolumn := h₂.column j hj
  rw [hb, hc, h.column j hj] at hcolumn
  simp only [Except.ok.injEq, Prod.mk.injEq, Request.product.injEq, true_and] at hcolumn
  exact hcolumn.symm

end Context

namespace Session

/-- **A product with a dense matrix is a product with each of its columns, after every run,** and its
result does not depend on how the matrices are laid out. -/
theorem productColumns_columnwise {steps : List Step} {ctx : Context} {device : Nat}
    (h : (empty.after steps).Serves ctx device) {op : Operation} {alpha beta : α} {a : Csr α}
    {b c : List α} {ldb n ldc : Nat}
    (hcheck : (Request.productColumns op alpha a b ldb n beta c ldc).check = .ok ()) :
    ∃ c', ctx.Columnwise (empty.after steps).world device op alpha a b ldb n beta c ldc c' ∧
      ∀ (b₂ : List α) (ldb₂ : Nat) (c₂ : List α) (ldc₂ : Nat),
        (Request.productColumns op alpha a b₂ ldb₂ n beta c₂ ldc₂).check = .ok () →
        (∀ j, j < n → denseColumn (a.shape op).2 ldb₂ b₂ j = denseColumn (a.shape op).2 ldb b j ∧
          denseColumn (a.shape op).1 ldc₂ c₂ j = denseColumn (a.shape op).1 ldc c j) →
        ∃ c₂', ctx.Columnwise (empty.after steps).world device op alpha a b₂ ldb₂ n beta c₂ ldc₂ c₂' ∧
          ∀ j, j < n →
            denseColumn (a.shape op).1 ldc₂ c₂' j = denseColumn (a.shape op).1 ldc c' j := by
  have hfirst := h.ready.columnwise hcheck
  refine ⟨_, hfirst, ?_⟩
  intro b₂ ldb₂ c₂ ldc₂ hcheck₂ hsame
  have hsecond := h.ready.columnwise hcheck₂
  refine ⟨_, hsecond, ?_⟩
  intro j hj
  obtain ⟨hb, hc⟩ := hsame j hj
  exact hfirst.denseColumn_eq hsecond hj hb hc

/-- Two columns with padding between and after them, and the same columns side by side. -/
theorem onePrepared_columnwise :
    let ctx : Context := ⟨0, ⟨7⟩, some 0⟩
    let w := (empty.after onePrepared).world
    let a : Csr GaussianInt := ⟨2, 3, [0, 2, 3], [2, 0, 1], [1, 2, 3]⟩
    let b : List GaussianInt := [1, 2, 3, 77, 4, 5, 6]
    let c : List GaussianInt := [1, 1, 88, 2, 2, 99]
    let c' : List GaussianInt := [6, 7, 88, 16, 17, 99]
    ((empty.after onePrepared).Serves ctx 0 ∧
        (Request.productColumns .nonTranspose 1 a b 4 2 1 c 3).check = .ok ()) ∧
      ctx.Columnwise w 0 .nonTranspose 1 a b 4 2 1 c 3 c' ∧
        ∃ c₂', ctx.Columnwise w 0 .nonTranspose 1 a [1, 2, 3, 4, 5, 6] 3 2 1 [1, 1, 2, 2] 2 c₂' ∧
          denseColumn 2 2 c₂' 1 = denseColumn 2 3 c' 1 := by
  intro ctx w a b c c'
  have hcheck : (Request.productColumns .nonTranspose 1 a b 4 2 1 c 3).check = .ok () := rfl
  obtain ⟨out, hcolumns, hlayout⟩ := productColumns_columnwise onePrepared_serves hcheck
  have hanswer : (ctx.execute w 0 (Request.productColumns .nonTranspose 1 a b 4 2 1 c 3)).2 =
      .ok (.ok .done, .productColumns .nonTranspose 1 a b 4 2 1 c' 3) := by
    decide +kernel
  cases hanswer.symm.trans hcolumns.answer
  obtain ⟨c₂', hcolumns₂, hsame⟩ := hlayout [1, 2, 3, 4, 5, 6] 3 [1, 1, 2, 2] 2 rfl (by decide)
  exact ⟨⟨onePrepared_serves, hcheck⟩, hcolumns, c₂', hcolumns₂, hsame 1 (by decide)⟩

end Session

end Columns

end SparseDevice

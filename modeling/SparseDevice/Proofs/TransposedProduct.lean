import SparseDevice.Proofs.Kernel.Exchange
import SparseDevice.Proofs.Scalars
import SparseDevice.Proofs.Transposition

/-!
# Products with a transpose, through a context

There are two ways to multiply by a transpose: to ask for a transposed product, and to store the
matrix by columns, read the arrays by rows and ask for the plain product. Over a commutative ring
they write the same cells, and the same is true with rows and columns exchanged. The matrix may have
unsorted and repeated columns, and no law is asked of division, of the zero test or of the
conjugate.

## Main results

* `Session.transposed_product`: the products, after every run.
-/

namespace SparseDevice

variable {α : Type}

namespace Context

variable {ctx : Context} {w : World} {device : Nat} {op op' : Operation} {a b : Csr α}
  {alpha beta : α} {x y : List α}

/-- Two products through a context that write the same cells. -/
theorem Ready.products_eq [Zero α] [One α] [Add α] [Sub α] [Mul α] [Div α] [Scalar α]
    (h : ctx.Ready w device) (ha : a.Valid) (hb : b.Valid) (hshape : a.shape op = b.shape op')
    (hx : (a.shape op).2 ≤ x.length) (hy : (a.shape op).1 ≤ y.length)
    (hsame : Product.written op alpha a x beta y = Product.written op' alpha b x beta y) :
    ∃ y', ctx.executeBoth w device (.product op alpha a x beta y) (.product op' alpha b x beta y) =
      (.ok (.ok .done, .product op alpha a x beta y'),
        .ok (.ok .done, .product op' alpha b x beta y')) := by
  have hsecond : (Request.product op' alpha b x beta y).perform = .ok (.ok .done,
      Request.product op' alpha b x beta (Product.written op alpha a x beta y)) := by
    rw [hsame]
    exact Request.perform_product hb (hshape ▸ hx) (hshape ▸ hy)
  exact ⟨_, h.executeBoth (Request.check_product_iff.mpr ⟨ha, hx, hy⟩)
    (Request.perform_product ha hx hy)
    (Request.check_product_iff.mpr ⟨hb, hshape ▸ hx, hshape ▸ hy⟩) hsecond⟩

end Context

namespace Session

/-- **A product with a transpose is a product with the matrix stored by columns, after every
run.** -/
theorem transposed_product [CommRing α] [Div α] [Scalar α] {steps : List Step} {ctx : Context}
    {device : Nat} {a : Csr α} (h : (empty.after steps).Serves ctx device)
    (ha : a.validate = .ok ()) (hrows : a.rows ≤ maxCount + 1) :
    ∃ c : Csc α, (c.toCsr a.rows a.cols).validate = .ok () ∧
      (∀ out : Csc α, out.Fits a →
        (ctx.execute (empty.after steps).world device (Request.columns a out)).2 =
          .ok (.ok .done, .columns a c)) ∧
      ∀ (alpha beta : α) (x y : List α),
        (a.rows ≤ x.length → a.cols ≤ y.length →
          (∃ y', ctx.executeBoth (empty.after steps).world device
              (.product .transpose alpha a x beta y)
              (.product .nonTranspose alpha (c.toCsr a.rows a.cols) x beta y) =
            (.ok (.ok .done, .product .transpose alpha a x beta y'),
              .ok (.ok .done, .product .nonTranspose alpha (c.toCsr a.rows a.cols) x beta y'))) ∧
          (∃ y', ctx.executeBoth (empty.after steps).world device
              (.product .conjugateTranspose alpha a x beta y)
              (.product .nonTranspose alpha ((c.toCsr a.rows a.cols).mapValues Scalar.conj)
                x beta y) =
            (.ok (.ok .done, .product .conjugateTranspose alpha a x beta y'),
              .ok (.ok .done, .product .nonTranspose alpha
                ((c.toCsr a.rows a.cols).mapValues Scalar.conj) x beta y')))) ∧
        (a.cols ≤ x.length → a.rows ≤ y.length →
          ∃ y', ctx.executeBoth (empty.after steps).world device
              (.product .nonTranspose alpha a x beta y)
              (.product .transpose alpha (c.toCsr a.rows a.cols) x beta y) =
            (.ok (.ok .done, .product .nonTranspose alpha a x beta y'),
              .ok (.ok .done, .product .transpose alpha (c.toCsr a.rows a.cols) x beta y'))) := by
  have ha : a.Valid := Csr.valid_of_validate ha
  have hvalid : (Csc.transpose a).Valid :=
    Csc.valid_transpose ha fun t => Csr.inRange_of_mem_triples hrows
  refine ⟨Csc.transposed a, Csr.validate_eq_ok_iff_valid.mpr hvalid, ?_, ?_⟩
  · intro out hout
    exact (h.ready.execute (Request.check_columns ha hout) (Request.perform_columns ha hout)).1
  · intro alpha beta x y
    refine ⟨fun hx hy => ⟨?_, ?_⟩, fun hx hy => ?_⟩
    · exact h.ready.products_eq ha hvalid rfl hx hy
        (Product.written_transpose ha hrows alpha beta x y)
    · exact h.ready.products_eq ha (hvalid.mapValues Scalar.conj) rfl hx hy
        (Product.written_conjugateTranspose ha hrows alpha beta x y)
    · exact h.ready.products_eq ha hvalid rfl hx hy
        (Product.written_nonTranspose ha hrows alpha beta x y)

/-- Two rows with unsorted and repeated columns over the Gaussian integers, and an empty one. -/
theorem onePrepared_transposedProduct :
    let ctx : Context := ⟨0, ⟨7⟩, some 0⟩
    let w := (empty.after onePrepared).world
    let i : GaussianInt := ⟨0, 1⟩
    let a : Csr GaussianInt := ⟨3, 4, [0, 3, 3, 5], [2, 0, 2, 3, 1], [1, i, 3, 4 * i, 5]⟩
    ((empty.after onePrepared).Serves ctx 0 ∧ a.validate = .ok () ∧ a.rows ≤ maxCount + 1) ∧
      ∃ c : Csc GaussianInt,
        (ctx.execute w 0 (Request.columns a ⟨[0, 0, 0, 0, 0], [9, 9, 9, 9, 9], [9, 9, 9, 9, 9]⟩)).2 =
          .ok (.ok .done, .columns a c) ∧
        ∃ y', ctx.executeBoth w 0 (.product .conjugateTranspose i a [1, 2, i] 2 [1, 1, 1, 1, 8])
            (.product .nonTranspose i ((c.toCsr 3 4).mapValues star) [1, 2, i] 2 [1, 1, 1, 1, 8]) =
          (.ok (.ok .done, .product .conjugateTranspose i a [1, 2, i] 2 y'),
            .ok (.ok .done, .product .nonTranspose i ((c.toCsr 3 4).mapValues star) [1, 2, i] 2
              y')) := by
  intro ctx w i a
  have ha : a.validate = .ok () := rfl
  have hrows : a.rows ≤ maxCount + 1 := by decide
  obtain ⟨c, -, hcolumns, hproducts⟩ := transposed_product onePrepared_serves ha hrows
  obtain ⟨hfirst, -⟩ := hproducts i 2 [1, 2, i] [1, 1, 1, 1, 8]
  obtain ⟨-, hconj⟩ := hfirst (by decide) (by decide)
  exact ⟨⟨onePrepared_serves, ha, hrows⟩, c, hcolumns _ ⟨rfl, rfl, rfl⟩, hconj⟩

end Session

end SparseDevice

import SparseDevice.Proofs.Calls
import SparseDevice.Proofs.Kernel.Elimination
import SparseDevice.Proofs.Kernel.Safety
import SparseDevice.Proofs.Scalars

/-!
# Solutions of tridiagonal systems, through a context

Over a field with exact arithmetic a solver that succeeds has solved its systems: the cells that it
writes satisfy the equations whose right hand sides it read there, and nothing else does. This is
said of every world, since a call that succeeds has met no obstacle.

Whether a solver succeeds is known beforehand. It fails exactly on account of a leading minor that
vanishes, be the system regular or not, and the right hand sides have no part in it. Apart from that
there is only the room for the solutions, for which more cells of `b` would be needed than fit into
any memory.

## Main definitions

* `Context.Verdict`: an answer that is a failure or a success, by a condition.

## Main results

* `Context.solved_uniquely`: what the solvers write, in every world.
* `Session.fails_iff_minor_vanishes`: when the solvers fail, after every run.
-/

namespace SparseDevice

/-! ### Verdicts -/

namespace Context

section Verdict

variable {K : Type} [Scalar K]

/-- An answer to systems with their right hand sides in `b`. It is a failure that writes nothing if
the systems are `stuck`, and otherwise they are solved. Only if there is no room for the solutions,
and `b` has at least as many cells as there would be solutions, the call traps. -/
structure Verdict (answer : Except Fault (Except ContextError Reply × Request K))
    (request : List K → Request K) (b : List K) (stuck : Prop) : Prop where
  failed_iff : (request b).systems * Buffer.listBytes ≤ Buffer.maxBytes →
    (answer = .ok (.error (.native (request b).entryPoint .executionFailed), request b) ↔ stuck)
  solved_iff : (request b).systems * Buffer.listBytes ≤ Buffer.maxBytes →
    ((∃ out, answer = .ok (.ok .done, request out)) ↔ ¬stuck)
  noRoom : Buffer.maxBytes < (request b).systems * Buffer.listBytes →
    (request b).systems ≤ (request b).cells ∧ answer = .error (.trap .capacityOverflow)

variable {answer : Except Fault (Except ContextError Reply × Request K)}
  {request : List K → Request K} {b : List K} {stuck : Prop}

theorem verdict_failed (hroom : (request b).systems * Buffer.listBytes ≤ Buffer.maxBytes)
    (hstuck : stuck)
    (hanswer : answer = .ok (.error (.native (request b).entryPoint .executionFailed), request b)) :
    Verdict answer request b stuck where
  failed_iff _ := iff_of_true hanswer hstuck
  solved_iff _ := by
    refine iff_of_false ?_ (not_not_intro hstuck)
    rw [hanswer]
    rintro ⟨out, hout⟩
    cases hout
  noRoom hmany := absurd hroom (Nat.not_le.mpr hmany)

theorem verdict_solved (hroom : (request b).systems * Buffer.listBytes ≤ Buffer.maxBytes)
    (hfree : ¬stuck) {out : List K} (hanswer : answer = .ok (.ok .done, request out)) :
    Verdict answer request b stuck where
  failed_iff _ := by
    refine iff_of_false ?_ hfree
    rw [hanswer]
    intro hfailed
    cases hfailed
  solved_iff _ := iff_of_true ⟨out, hanswer⟩ hfree
  noRoom hmany := absurd hroom (Nat.not_le.mpr hmany)

theorem verdict_noRoom (hmany : Buffer.maxBytes < (request b).systems * Buffer.listBytes)
    (hcells : (request b).systems ≤ (request b).cells)
    (hanswer : answer = .error (.trap .capacityOverflow)) : Verdict answer request b stuck where
  failed_iff hroom := absurd hroom (Nat.not_le.mpr hmany)
  solved_iff hroom := absurd hroom (Nat.not_le.mpr hmany)
  noRoom _ := ⟨hcells, hanswer⟩

end Verdict

end Context

/-! ### The solvers -/

variable {K : Type} [Field K] [Scalar K]

namespace Context

variable {ctx : Context} {w : World} {device m n ldb count stride : Nat}
  {lower diagonal upper b x : List K} {reply : Reply} {r' : Request K}

theorem solve_onlySolution (hexact : Scalar.Exact K)
    (hcall : (ctx.execute w device (Request.solve m n lower diagonal upper b ldb)).2 =
      .ok (.ok reply, r')) :
    ∃ out, r' = .solve m n lower diagonal upper out ldb ∧ out.length = b.length ∧
      ∀ j, j < n → (Band.read lower diagonal upper 0).OnlySolution m
        (Buffer.cells b (j * ldb)) (Buffer.cells out (j * ldb)) := by
  obtain ⟨hcheck, hperform⟩ := done_of_execute hcall
  obtain ⟨⟨hlower, hdiagonal, hupper⟩, hm, hb⟩ := Request.check_solve_iff.mp hcheck
  rw [Request.perform] at hperform
  obtain ⟨-, out, hsolve, rfl⟩ := Request.concluded_done hperform
  exact ⟨out, rfl,
    Tridiagonal.solveColumns_onlySolution hexact hm hlower hdiagonal hupper hb hsolve⟩

theorem solveBatch_onlySolution (hexact : Scalar.Exact K)
    (hcall : (ctx.execute w device (Request.solveBatch m lower diagonal upper x count stride)).2 =
      .ok (.ok reply, r')) :
    ∃ out, r' = .solveBatch m lower diagonal upper out count stride ∧ out.length = x.length ∧
      ∀ i, i < count → (Band.read lower diagonal upper (i * stride)).OnlySolution m
        (Buffer.cells x (i * stride)) (Buffer.cells out (i * stride)) := by
  obtain ⟨hcheck, hperform⟩ := done_of_execute hcall
  obtain ⟨hm, hlower, hdiagonal, hupper, hx⟩ := Request.check_solveBatch_iff.mp hcheck
  rw [Request.perform] at hperform
  obtain ⟨-, out, hsolve, rfl⟩ := Request.concluded_done hperform
  exact ⟨out, rfl,
    Tridiagonal.solveBatch_onlySolution hexact hm hlower hdiagonal hupper hx hsolve⟩

/-- **A solver that succeeds has written the only solution of each system.** -/
theorem solved_uniquely (hexact : Scalar.Exact K) (ctx : Context) (w : World) (device : Nat) :
    (∀ (m n ldb : Nat) (lower diagonal upper b : List K) (reply : Reply) (r' : Request K),
      (ctx.execute w device (Request.solve m n lower diagonal upper b ldb)).2 =
          .ok (.ok reply, r') →
        ∃ out, r' = .solve m n lower diagonal upper out ldb ∧ out.length = b.length ∧
          ∀ j, j < n → (Band.read lower diagonal upper 0).OnlySolution m
            (Buffer.cells b (j * ldb)) (Buffer.cells out (j * ldb))) ∧
    (∀ (m count stride : Nat) (lower diagonal upper x : List K) (reply : Reply) (r' : Request K),
      (ctx.execute w device (Request.solveBatch m lower diagonal upper x count stride)).2 =
          .ok (.ok reply, r') →
        ∃ out, r' = .solveBatch m lower diagonal upper out count stride ∧
          out.length = x.length ∧
            ∀ i, i < count → (Band.read lower diagonal upper (i * stride)).OnlySolution m
              (Buffer.cells x (i * stride)) (Buffer.cells out (i * stride))) := by
  constructor
  · intro m n ldb lower diagonal upper b reply r' hcall
    exact solve_onlySolution hexact hcall
  · intro m count stride lower diagonal upper x reply r' hcall
    exact solveBatch_onlySolution hexact hcall

/-- Two right hand sides for one system of three equations, with a cell of padding between them and
coefficients beside the matrix that are not looked at. -/
theorem onePrepared_solved :
    let ctx : Context := ⟨0, ⟨7⟩, some 0⟩
    let w := (Session.empty.after Session.onePrepared).world
    let request (b : List Rat) : Request Rat := .solve 3 2 [9, 1, 1] [2, 2, 2] [1, 1, 9] b 4
    (Scalar.Exact Rat ∧ (ctx.execute w 0 (request [3, 4, 3, 7, 1, 0, 0])).2 =
        .ok (.ok .done, request [1, 1, 1, 7, 3 / 4, -1 / 2, 1 / 4])) ∧
      (Band.read [9, 1, 1] [2, 2, 2] [1, 1, (9 : Rat)] 0).OnlySolution 3
        (Buffer.cells [3, 4, 3, 7, 1, 0, 0] 4)
        (Buffer.cells [1, 1, 1, 7, 3 / 4, -1 / 2, 1 / 4] 4) := by
  intro ctx w request
  have hcall : (ctx.execute w 0 (request [3, 4, 3, 7, 1, 0, 0])).2 =
      .ok (.ok .done, request [1, 1, 1, 7, 3 / 4, -1 / 2, 1 / 4]) := by
    decide +kernel
  obtain ⟨hsolve, -⟩ := solved_uniquely Scalar.exact_rat ctx w 0
  obtain ⟨out, hout, -, hsolved⟩ := hsolve 3 2 4 _ _ _ _ _ _ hcall
  cases hout
  exact ⟨⟨Scalar.exact_rat, hcall⟩, hsolved 1 (by decide)⟩

/-- A checked request whose routine fails exactly if the systems are stuck. -/
theorem Ready.verdict (h : ctx.Ready w device) (request : List K → Request K) {stuck : Prop}
    (hcheck : (request b).check = .ok ())
    (hroutine : (request b).systems * Buffer.listBytes ≤ Buffer.maxBytes →
      ∃ status out, (request b).perform = Request.concluded (.ok (status, out)) request ∧
        (status = .error .executionFailed ↔ stuck) ∧
          ∀ s, status = .error s → s = .executionFailed ∧ out = b) :
    Verdict (ctx.execute w device (request b)).2 request b stuck := by
  rw [(h.execute_eq hcheck).1]
  rcases Nat.lt_or_ge Buffer.maxBytes ((request b).systems * Buffer.listBytes) with hmany | hroom
  · rw [Request.perform_noRoom hmany]
    exact verdict_noRoom hmany (Request.systems_le hcheck) rfl
  · obtain ⟨status, out, hperform, hstuck, hrefused⟩ := hroutine hroom
    rw [hperform]
    rcases status with s | ⟨⟩
    · obtain ⟨rfl, rfl⟩ := hrefused s rfl
      exact verdict_failed hroom (hstuck.mp rfl) rfl
    · refine verdict_solved hroom ?_ rfl
      intro h
      cases hstuck.mpr h

theorem Ready.solve_verdict (h : ctx.Ready w device) (hexact : Scalar.Exact K)
    (hcheck : (Request.solve m n lower diagonal upper b ldb).check = .ok ()) :
    Verdict (ctx.execute w device (Request.solve m n lower diagonal upper b ldb)).2
      (.solve m n lower diagonal upper · ldb) b
      (0 < n ∧ ∃ k, 1 ≤ k ∧ k ≤ m ∧ (Band.read lower diagonal upper 0).minor k = 0) := by
  refine h.verdict (.solve m n lower diagonal upper · ldb) hcheck fun hroom => ?_
  obtain ⟨⟨hlower, hdiagonal, hupper⟩, -, hb⟩ := Request.check_solve_iff.mp hcheck
  obtain ⟨status, out, hsolve, -⟩ :=
    Tridiagonal.solveColumns_ok hlower hdiagonal hupper hb (Request.room_of_systems hroom)
  refine ⟨status, out, by rw [Request.perform, hsolve],
    Tridiagonal.solveColumns_failed_iff hexact hlower hdiagonal hupper hb hsolve, fun s hs => ?_⟩
  exact Tridiagonal.solveColumns_refused (hs ▸ hsolve)

theorem Ready.solveBatch_verdict (h : ctx.Ready w device) (hexact : Scalar.Exact K)
    (hcheck : (Request.solveBatch m lower diagonal upper x count stride).check = .ok ()) :
    Verdict (ctx.execute w device (Request.solveBatch m lower diagonal upper x count stride)).2
      (.solveBatch m lower diagonal upper · count stride) x
      (∃ i, i < count ∧ ∃ k, 1 ≤ k ∧ k ≤ m ∧
        (Band.read lower diagonal upper (i * stride)).minor k = 0) := by
  refine h.verdict (.solveBatch m lower diagonal upper · count stride) hcheck fun hroom => ?_
  obtain ⟨-, hlower, hdiagonal, hupper, hx⟩ := Request.check_solveBatch_iff.mp hcheck
  obtain ⟨status, out, hsolve, -⟩ :=
    Tridiagonal.solveBatch_ok hlower hdiagonal hupper hx (Request.room_of_systems hroom)
  refine ⟨status, out, by rw [Request.perform, hsolve],
    Tridiagonal.solveBatch_failed_iff hexact hlower hdiagonal hupper hx hsolve, fun s hs => ?_⟩
  exact Tridiagonal.solveBatch_refused (hs ▸ hsolve)

end Context

namespace Session

/-- **The solvers fail exactly on account of a leading minor that vanishes, after every run.** -/
theorem fails_iff_minor_vanishes (hexact : Scalar.Exact K) {steps : List Step} {ctx : Context}
    {device : Nat} (h : (empty.after steps).Serves ctx device) :
    (∀ (m n ldb : Nat) (lower diagonal upper b : List K),
      (Request.solve m n lower diagonal upper b ldb).check = .ok () →
        Context.Verdict (ctx.execute (empty.after steps).world device
            (Request.solve m n lower diagonal upper b ldb)).2
          (.solve m n lower diagonal upper · ldb) b
          (0 < n ∧ ∃ k, 1 ≤ k ∧ k ≤ m ∧ (Band.read lower diagonal upper 0).minor k = 0)) ∧
    (∀ (m count stride : Nat) (lower diagonal upper x : List K),
      (Request.solveBatch m lower diagonal upper x count stride).check = .ok () →
        Context.Verdict (ctx.execute (empty.after steps).world device
            (Request.solveBatch m lower diagonal upper x count stride)).2
          (.solveBatch m lower diagonal upper · count stride) x
          (∃ i, i < count ∧ ∃ k, 1 ≤ k ∧ k ≤ m ∧
            (Band.read lower diagonal upper (i * stride)).minor k = 0)) := by
  constructor
  · intro m n ldb lower diagonal upper b hcheck
    exact h.ready.solve_verdict hexact hcheck
  · intro m count stride lower diagonal upper x hcheck
    exact h.ready.solveBatch_verdict hexact hcheck

/-- A regular matrix whose first leading minor vanishes, and a batch of two systems without such a
minor. -/
theorem onePrepared_verdicts :
    let ctx : Context := ⟨0, ⟨7⟩, some 0⟩
    let w := (empty.after onePrepared).world
    let request (b : List Rat) : Request Rat := .solve 2 1 [9, 1] [0, 0] [1, 9] b 2
    let batch (x : List Rat) : Request Rat :=
      .solveBatch 2 [0, 1, 0, 1] [1, 2, 3, 1] [1, 0, 2, 0] x 2 2
    (Scalar.Exact Rat ∧ (empty.after onePrepared).Serves ctx 0 ∧
        (request [3, 4]).check = .ok () ∧ (batch [1, 2, 3, 4]).check = .ok ()) ∧
      (ctx.execute w 0 (request [3, 4])).2 =
        .ok (.error (.native (request [3, 4]).entryPoint .executionFailed), request [3, 4]) ∧
      ∃ out, (ctx.execute w 0 (batch [1, 2, 3, 4])).2 = .ok (.ok .done, batch out) := by
  intro ctx w request batch
  obtain ⟨hsolve, hbatch⟩ := fails_iff_minor_vanishes Scalar.exact_rat onePrepared_serves
  refine ⟨⟨Scalar.exact_rat, onePrepared_serves, rfl, rfl⟩, ?_, ?_⟩
  · exact ((hsolve 2 1 2 [9, 1] [0, 0] [1, 9] [3, 4] rfl).failed_iff (by decide)).mpr
      ⟨by decide, 1, by decide, by decide, rfl⟩
  · refine ((hbatch 2 2 2 [0, 1, 0, 1] [1, 2, 3, 1] [1, 0, 2, 0] [1, 2, 3, 4] rfl).solved_iff
      (by decide)).mpr ?_
    rintro ⟨i, hi, k, hk, hle, hminor⟩
    obtain rfl | rfl : i = 0 ∨ i = 1 := by omega
    all_goals
      obtain rfl | rfl : k = 1 ∨ k = 2 := by omega
      all_goals exact absurd hminor (by decide +kernel)

end Session

end SparseDevice

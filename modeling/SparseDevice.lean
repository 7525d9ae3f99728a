import SparseDevice.Session.Report
import SparseDevice.Proofs.Table
import SparseDevice.Proofs.Ownership.World
import SparseDevice.Proofs.Ownership.Entry
import SparseDevice.Proofs.Ownership.Books
import SparseDevice.Proofs.Ownership.Collect
import SparseDevice.Proofs.Ownership.Acquire
import SparseDevice.Proofs.Ownership.Step
import SparseDevice.Proofs.Ownership.Run
import SparseDevice.Proofs.Ownership.Ruins
import SparseDevice.Proofs.Conservation
import SparseDevice.Proofs.Kernel.Refusal
import SparseDevice.Proofs.Routing
import SparseDevice.Proofs.Race.Machine
import SparseDevice.Proofs.Race.Interleaving
import SparseDevice.Proofs.Kernel.Blocks
import SparseDevice.Proofs.Kernel.Cells
import SparseDevice.Proofs.Kernel.Rows
import SparseDevice.Proofs.Kernel.Columns
import SparseDevice.Proofs.Kernel.Product
import SparseDevice.Proofs.Kernel.Addition
import SparseDevice.Proofs.Kernel.Tridiagonal
import SparseDevice.Proofs.Kernel.Reading
import SparseDevice.Proofs.Kernel.Requests
import SparseDevice.Proofs.Kernel.Sizes
import SparseDevice.Proofs.Kernel.Safety
import SparseDevice.Proofs.Safety
import SparseDevice.Proofs.Calls
import SparseDevice.Proofs.Kernel.Conversion
import SparseDevice.Proofs.Indices
import SparseDevice.Proofs.Kernel.Transpose
import SparseDevice.Proofs.Transposition
import SparseDevice.Proofs.Kernel.Pattern
import SparseDevice.Proofs.Sum
import SparseDevice.Proofs.Kernel.Systems
import SparseDevice.Proofs.Scalars
import SparseDevice.Proofs.Solvers
import SparseDevice.Proofs.Kernel.Exchange
import SparseDevice.Proofs.TransposedProduct
import SparseDevice.Proofs.Lifetimes
import SparseDevice.Proofs.Accounts
import SparseDevice.Proofs.Kernel.Elimination
import SparseDevice.Proofs.Solutions
import SparseDevice.Proofs.Kernel.Acceptance
import SparseDevice.Proofs.Acceptance
import SparseDevice.Proofs.Kernel.Totals
import SparseDevice.Proofs.Totals
import SparseDevice.Proofs.Sorting
import SparseDevice.Proofs.Confinement
import SparseDevice.Proofs.Encoding
import SparseDevice.Proofs.Unread
import SparseDevice.Proofs.Attempts
import SparseDevice.Proofs.Products

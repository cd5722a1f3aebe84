import MachineFacts.Main
import MachineFacts.Release
import MachineFacts.Tree
import MachineFacts.Proofs.Seam
import MachineFacts.Proofs.Reading
import MachineFacts.Proofs.Declarations
import MachineFacts.Proofs.Concatenation
import MachineFacts.Proofs.Balance
import MachineFacts.Proofs.Comments
import MachineFacts.Proofs.Plan
import MachineFacts.Proofs.Query
import MachineFacts.Proofs.Decoding
import MachineFacts.Proofs.Nesting
import MachineFacts.Proofs.Batches
import MachineFacts.Proofs.AllOrNothing
import MachineFacts.Proofs.JsonForms
import MachineFacts.Proofs.Rendering
import MachineFacts.Proofs.Assignment
import MachineFacts.Proofs.Layout
import MachineFacts.Proofs.Enclosed
import MachineFacts.Proofs.Pieces
import MachineFacts.Proofs.ByteOrder
import MachineFacts.Proofs.Canonical
import MachineFacts.Proofs.References
import MachineFacts.Proofs.Accounting
import MachineFacts.Proofs.Candidates
import MachineFacts.Proofs.Following
import MachineFacts.Proofs.Offered
import MachineFacts.Proofs.Targets
import MachineFacts.Proofs.Defaults
import MachineFacts.Proofs.Offset
import MachineFacts.Proofs.Turns
import MachineFacts.Proofs.ByteScan
import MachineFacts.Proofs.Cursor
import MachineFacts.Proofs.Places
import MachineFacts.Proofs.Progress
import MachineFacts.Proofs.Slicing
import MachineFacts.Proofs.ListClosing
import MachineFacts.Proofs.NameSearch

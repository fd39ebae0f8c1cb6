import Confine.Allocator.Request
import Confine.Settings
import Confine.Heap.Request
import Confine.Sandbox.Startup
import Confine.Proofs.HeaderCell
import Confine.Proofs.ByteStore
import Confine.Proofs.Layout
import Confine.Proofs.Layout.Operations
import Confine.Proofs.Layout.Accounting
import Confine.Proofs.Linked
import Confine.Proofs.Rearranging
import Confine.Proofs.Taking
import Confine.Proofs.Payload
import Confine.Proofs.Allocating
import Confine.Proofs.Atomicity
import Confine.Proofs.Pointers
import Confine.Proofs.Client
import Confine.Proofs.Client.Books
import Confine.Proofs.Client.Sound
import Confine.Proofs.Client.Runs
import Confine.Proofs.Client.BlockList
import Confine.Proofs.Causes
import Confine.Proofs.Client.Isolation
import Confine.Proofs.Client.Refusal
import Confine.Proofs.Client.Progress
import Confine.Proofs.Client.Freeing
import Confine.Proofs.Layout.Freeing
import Confine.Proofs.Layout.Cutting
import Confine.Proofs.Layout.Placing
import Confine.Proofs.Layout.Undoing
import Confine.Proofs.Layout.Tiling
import Confine.Proofs.Client.Ledger
import Confine.Proofs.Client.Blindness
import Confine.Proofs.Sandbox.Contract
import Confine.Proofs.Sandbox.Triple
import Confine.Proofs.Sandbox.Steps
import Confine.Proofs.Sandbox.Stages
import Confine.Proofs.Sandbox.Wrappers
import Confine.Proofs.Sandbox.StartupOrder
import Confine.Proofs.Sandbox.Nesting
import Confine.Proofs.Sandbox.Steady
import Confine.Proofs.Sandbox.Going
import Confine.Proofs.Sandbox.Endings
import Confine.Proofs.Sandbox.SetupFailure
import Confine.Proofs.Sandbox.Account
import Confine.Proofs.Sandbox.Course
import Confine.Proofs.Sandbox.Honesty
import Confine.Proofs.Sandbox.MainExit
import Confine.Proofs.Sandbox.CImage
import Confine.Proofs.Sandbox.Composition
import Confine.Proofs.Sandbox.HeapUse
import Confine.Proofs.Sandbox.Timeline
import Confine.Proofs.Client.Lending
import Confine.Proofs.Client.FirstFit
import Confine.Proofs.Client.Aligning
import Confine.Proofs.Client.Moving
import Confine.Proofs.Client.Undoing
import Confine.Proofs.Sandbox.Verbosity
import Confine.Proofs.Sandbox.HeapSurvival
import Confine.Proofs.Accesses
import Confine.Proofs.Client.Break
import Confine.Proofs.Client.Zeroing
import Confine.Proofs.Constructors
import Confine.Proofs.Sandbox.Replay
import Confine.Proofs.Settings
import Confine.Proofs.Sandbox.Priming
import Confine.Proofs.Journal
import Confine.Proofs.Sandbox.Transcript

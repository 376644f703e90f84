import CoroutineVM.Diagnostics
import CoroutineVM.Main
import CoroutineVM.Session
import CoroutineVM.Proofs.Number.ExactNaturals
import CoroutineVM.Proofs.Processor.Frames
import CoroutineVM.Proofs.Store.Instructions
import CoroutineVM.Proofs.Machine.Marks
import CoroutineVM.Proofs.Machine.Moves
import CoroutineVM.Proofs.Machine.Entries
import CoroutineVM.Proofs.Machine.Steps
import CoroutineVM.Proofs.Machine.Handles
import CoroutineVM.Proofs.Machine.Supplies
import CoroutineVM.Proofs.Layout.Segments
import CoroutineVM.Proofs.Layout.Stacks
import CoroutineVM.Proofs.Layout.Upkeep
import CoroutineVM.Proofs.Machine.Soundness
import CoroutineVM.Proofs.Machine.Runs
import CoroutineVM.Proofs.Layout.Dispatch
import CoroutineVM.Proofs.Machine.Calls
import CoroutineVM.Proofs.Layout.Levels
import CoroutineVM.Proofs.Machine.Statuses
import CoroutineVM.Proofs.Machine.Agreement
import CoroutineVM.Proofs.Machine.Resumes
import CoroutineVM.Proofs.Machine.Chain
import CoroutineVM.Proofs.Machine.Boundaries
import CoroutineVM.Proofs.Machine.Suspension
import CoroutineVM.Proofs.Layout.Brackets
import CoroutineVM.Proofs.Layout.Below
import CoroutineVM.Proofs.Machine.Traces
import CoroutineVM.Proofs.Contents.Values
import CoroutineVM.Proofs.Contents.Processors
import CoroutineVM.Proofs.Contents.Instructions
import CoroutineVM.Proofs.Contents.Machines
import CoroutineVM.Proofs.Contents.Names
import CoroutineVM.Proofs.Layout.Blocks
import CoroutineVM.Proofs.Contents.Tuples
import CoroutineVM.Proofs.Cells.Sharing
import CoroutineVM.Proofs.Guard
import CoroutineVM.Proofs.Layout.Convention
import CoroutineVM.Proofs.Twins.Runs
import CoroutineVM.Proofs.Chunk.Layouts
import CoroutineVM.Proofs.Machine.Bypasses
import CoroutineVM.Proofs.Termination.Bounds
import CoroutineVM.Proofs.Room.Runs
import CoroutineVM.Proofs.Accounts.Runs
import CoroutineVM.Proofs.Machine.Callees
import CoroutineVM.Proofs.Machine.Reports
import CoroutineVM.Proofs.Machine.Transport
import CoroutineVM.Proofs.Settings.Resolution
import CoroutineVM.Proofs.Room.Heights
import CoroutineVM.Proofs.Machine.Globals

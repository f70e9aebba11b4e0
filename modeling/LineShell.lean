import LineShell.Blank
import LineShell.Builtin
import LineShell.Bytes
import LineShell.Command
import LineShell.Dispatch
import LineShell.Entry
import LineShell.Environment
import LineShell.Errno
import LineShell.Host.Action
import LineShell.Host.Bench
import LineShell.Host.Concatenate
import LineShell.Host.Console
import LineShell.Host.Descriptors
import LineShell.Host.Execution
import LineShell.Host.Kernel
import LineShell.Host.Service
import LineShell.Host.State
import LineShell.Host.Store
import LineShell.Host.Tree
import LineShell.Host.Walk
import LineShell.Image
import LineShell.Jobs
import LineShell.Launch
import LineShell.Line
import LineShell.Main
import LineShell.Marker
import LineShell.Path
import LineShell.Program
import LineShell.Request
import LineShell.Script.Arithmetic
import LineShell.Script.Bindings
import LineShell.Script.Builtins
import LineShell.Script.Condition
import LineShell.Script.Expansion
import LineShell.Script.Format
import LineShell.Script.Interpreter
import LineShell.Script.Lexeme
import LineShell.Script.Pattern
import LineShell.Script.Reader
import LineShell.Script.Redirecting
import LineShell.Script.Run
import LineShell.Script.Text
import LineShell.Script.Tree
import LineShell.Script.Work
import LineShell.SearchPath
import LineShell.Session
import LineShell.Settings
import LineShell.Token
import LineShell.WaitStatus
import LineShell.Proofs.Assurance
import LineShell.Proofs.Family
import LineShell.Proofs.Except
import LineShell.Proofs.Tending
import LineShell.Proofs.Life
import LineShell.Proofs.Accounts
import LineShell.Proofs.Layout
import LineShell.Proofs.Trimming
import LineShell.Proofs.Reading
import LineShell.Proofs.Rendering
import LineShell.Proofs.Faults
import LineShell.Proofs.Draining
import LineShell.Proofs.Tracing
import LineShell.Proofs.Preparing
import LineShell.Proofs.Entering
import LineShell.Proofs.Tables
import LineShell.Proofs.Asking
import LineShell.Proofs.Plumbing
import LineShell.Proofs.Assigning
import LineShell.Proofs.Moving
import LineShell.Proofs.Collecting
import LineShell.Proofs.Grounding
import LineShell.Proofs.Rebinding
import LineShell.Proofs.Checking
import LineShell.Proofs.Refusing
import LineShell.Proofs.Errands
import LineShell.Proofs.Turns
import LineShell.Proofs.Undisturbed
import LineShell.Proofs.Waiting
import LineShell.Proofs.Classifying
import LineShell.Proofs.Marking
import LineShell.Proofs.Recognising
import LineShell.Proofs.Padding
import LineShell.Proofs.Reviewing
import LineShell.Proofs.Sweeping
import LineShell.Proofs.Racing
import LineShell.Proofs.Bounding
import LineShell.Proofs.Interrupting
import LineShell.Proofs.Joining
import LineShell.Proofs.Resolving
import LineShell.Proofs.Ordering
import LineShell.Proofs.Relocating
import LineShell.Proofs.Pairing
import LineShell.Proofs.Siblings
import LineShell.Proofs.Reporting
import LineShell.Proofs.Inheriting

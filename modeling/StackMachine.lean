import StackMachine.Assembly.Code
import StackMachine.Assembly.Draft
import StackMachine.Assembly.Listing
import StackMachine.Assembly.Literal
import StackMachine.Assembly.Source
import StackMachine.Assembly.Statement
import StackMachine.Assembly.Token
import StackMachine.Binary64.Basic
import StackMachine.Binary64.Literal
import StackMachine.Binary64.Shortest
import StackMachine.Bytes
import StackMachine.Command.Arguments
import StackMachine.Command.Directory
import StackMachine.Command.Path
import StackMachine.Command.Plan
import StackMachine.Command.Sample
import StackMachine.Decimal.Basic
import StackMachine.Decimal.Literal
import StackMachine.Image.Reader
import StackMachine.Image.Writer
import StackMachine.Instruction
import StackMachine.Machine.Event
import StackMachine.Machine.Fault
import StackMachine.Machine.Host
import StackMachine.Machine.Run
import StackMachine.Machine.Stack
import StackMachine.Machine.State
import StackMachine.Machine.Step
import StackMachine.Main
import StackMachine.Opcode
import StackMachine.Program
import StackMachine.Tens
import StackMachine.Text.Blank
import StackMachine.Text.Hidden
import StackMachine.Text.Letters
import StackMachine.Text.Quoted
import StackMachine.Text.Utf8
import StackMachine.Value
import StackMachine.Verification.Bounds
import StackMachine.Verification.Defect
import StackMachine.Verification.Reach
import StackMachine.Verification.Structure
import StackMachine.Verification.Verify
import StackMachine.Proofs.Assembly.Assembled
import StackMachine.Proofs.Assembly.Rebuild
import StackMachine.Proofs.Assembly.RoundTrip
import StackMachine.Proofs.Assembly.Scanning
import StackMachine.Proofs.Assembly.Writing
import StackMachine.Proofs.Command.Agreement
import StackMachine.Proofs.Command.Files
import StackMachine.Proofs.Decimal.Canonical
import StackMachine.Proofs.Decimal.Quotient
import StackMachine.Proofs.Decimal.Rational
import StackMachine.Proofs.Decimal.Refusal
import StackMachine.Proofs.Image.Fields
import StackMachine.Proofs.Image.Reads
import StackMachine.Proofs.Image.Records
import StackMachine.Proofs.Image.RoundTrip
import StackMachine.Proofs.Machine.Ensures
import StackMachine.Proofs.Machine.Hosts
import StackMachine.Proofs.Machine.Move
import StackMachine.Proofs.Machine.Placed
import StackMachine.Proofs.Machine.Reaches
import StackMachine.Proofs.Machine.Session
import StackMachine.Proofs.Text.Numerals
import StackMachine.Proofs.Verification.Findings
import StackMachine.Proofs.Verification.Slots
import StackMachine.Proofs.Verification.Soundness
import StackMachine.Proofs.Image.Delimited
import StackMachine.Proofs.Image.Accepts
import StackMachine.Proofs.Image.Canonical
import StackMachine.Proofs.Machine.CallDiscipline
import StackMachine.Proofs.Machine.Alike
import StackMachine.Proofs.Machine.Resumption
import StackMachine.Proofs.Machine.Simulation
import StackMachine.Proofs.Verification.Marks
import StackMachine.Proofs.Machine.Limits
import StackMachine.Proofs.Machine.Log
import StackMachine.Proofs.Machine.RunLog
import StackMachine.Proofs.Verification.Coverage
import StackMachine.Proofs.Machine.Moments
import StackMachine.Proofs.Machine.Resources
import StackMachine.Proofs.Decimal.NormalForm
import StackMachine.Proofs.Decimal.Exactness
import StackMachine.Proofs.Decimal.Order
import StackMachine.Proofs.Decimal.Grammar
import StackMachine.Proofs.Assembly.Names
import StackMachine.Proofs.Assembly.References
import StackMachine.Proofs.Assembly.Labels
import StackMachine.Proofs.Assembly.History
import StackMachine.Proofs.Assembly.Linking
import StackMachine.Proofs.Verification.Reachability
import StackMachine.Proofs.Verification.Foretelling
import StackMachine.Proofs.Assembly.Complaints
import StackMachine.Proofs.Assembly.Stated
import StackMachine.Proofs.Assembly.ErrorLines
import StackMachine.Proofs.Image.Streams
import StackMachine.Proofs.Value.Integers
import StackMachine.Proofs.Machine.Aftermath
import StackMachine.Proofs.Machine.Postorder
import StackMachine.Proofs.Assembly.Literals
import StackMachine.Proofs.Assembly.Layout

import ByteMachine.Assembly.Emit
import ByteMachine.Assembly.Error
import ByteMachine.Assembly.Listing
import ByteMachine.Assembly.Operand
import ByteMachine.Assembly.Span
import ByteMachine.Assembly.Token
import ByteMachine.Clock
import ByteMachine.Isa.Instruction
import ByteMachine.Isa.Lookup
import ByteMachine.Isa.Opcode
import ByteMachine.Isa.Operand
import ByteMachine.Machine.Basic
import ByteMachine.Machine.Fault
import ByteMachine.Machine.Flags
import ByteMachine.Machine.Memory
import ByteMachine.Machine.Register
import ByteMachine.Machine.Run
import ByteMachine.Machine.Step
import ByteMachine.Main
import ByteMachine.Program
import ByteMachine.Proofs.Clock.Rate
import ByteMachine.Proofs.Isa.Codec
import ByteMachine.Proofs.Machine.Load
import ByteMachine.Text.Basic
import ByteMachine.Text.Hex
import ByteMachine.Proofs.Machine.Effects
import ByteMachine.Proofs.Machine.Embedding
import ByteMachine.Proofs.Assembly.Layout
import ByteMachine.Proofs.Machine.Control
import ByteMachine.Proofs.Assembly.Agreement
import ByteMachine.Proofs.Machine.Stopping
import ByteMachine.Proofs.Machine.Reachable
import ByteMachine.Proofs.Program.RoundTrip
import ByteMachine.Proofs.Assembly.SourceLines
import ByteMachine.Proofs.Assembly.Positions
import ByteMachine.Proofs.Machine.Finished
import ByteMachine.Proofs.Machine.Frame
import ByteMachine.Proofs.Machine.Conditions
import ByteMachine.Proofs.Machine.Arithmetic
import ByteMachine.Proofs.Assembly.Slices
import ByteMachine.Proofs.Assembly.Offsets
import ByteMachine.Proofs.Machine.Decoding
import ByteMachine.Proofs.Assembly.Resolution
import ByteMachine.Proofs.Assembly.OperandText
import ByteMachine.Proofs.Isa.Lookup
import ByteMachine.Proofs.Assembly.Erasure
import ByteMachine.Proofs.Assembly.Lookahead
import ByteMachine.Proofs.Assembly.Spacing
import ByteMachine.Proofs.Assembly.Tiling

import ByteMachine.Text.Unicode
import ByteMachine.Text.Bytes
import ByteMachine.Numeral
import ByteMachine.Isa.Register
import ByteMachine.Isa.Kind
import ByteMachine.Isa.Instruction
import ByteMachine.Isa.Operation
import ByteMachine.Assembly.Source
import ByteMachine.Assembly.Assembler
import ByteMachine.Listing
import ByteMachine.Machine.Flags
import ByteMachine.Machine.Alu
import ByteMachine.Machine.Memory
import ByteMachine.Machine.RegisterFile
import ByteMachine.Machine.State
import ByteMachine.Machine.Execute
import ByteMachine.Text.Similarity
import ByteMachine.Console.Workspace
import ByteMachine.Console.FileTree
import ByteMachine.Console.Options
import ByteMachine.Console.Session
import ByteMachine.Console.Host
import ByteMachine.Console.Programs
import ByteMachine.Main
import ByteMachine.Proofs.Execute
import ByteMachine.Proofs.Operation
import ByteMachine.Proofs.Listing
import ByteMachine.Proofs.Step
import ByteMachine.Proofs.RomListing
import ByteMachine.Proofs.Invariants
import ByteMachine.Proofs.Stack
import ByteMachine.Proofs.Words
import ByteMachine.Proofs.Assembly
import ByteMachine.Proofs.Run
import ByteMachine.Proofs.Literal
import ByteMachine.Proofs.Console
import ByteMachine.Proofs.OperandRoles
import ByteMachine.Proofs.Storage
import ByteMachine.Proofs.PrintedListing
import ByteMachine.Proofs.Constants

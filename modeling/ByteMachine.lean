import ByteMachine.Files.Directory
import ByteMachine.Machine.Command
import ByteMachine.Main
import ByteMachine.Simulator.Command
import ByteMachine.Proofs.Machine.Accounting
import ByteMachine.Proofs.Machine.Faults
import ByteMachine.Proofs.Machine.Lifecycle
import ByteMachine.Proofs.Machine.Listing
import ByteMachine.Proofs.Machine.Settings
import ByteMachine.Proofs.Machine.Termination
import ByteMachine.Proofs.Machine.Drivers
import ByteMachine.Proofs.Machine.Reset
import ByteMachine.Proofs.Program.Grammar
import ByteMachine.Proofs.Program.Layout
import ByteMachine.Proofs.Number.Notation
import ByteMachine.Proofs.Number.ReadBack
import ByteMachine.Proofs.Isa.Assembly
import ByteMachine.Proofs.Machine.Effect
import ByteMachine.Proofs.Machine.Footprint
import ByteMachine.Proofs.CommandLine.ExitCode
import ByteMachine.Proofs.Machine.Limit
import ByteMachine.Proofs.Simulator.Answers
import ByteMachine.Proofs.Machine.Refusal
import ByteMachine.Proofs.Config.Written
import ByteMachine.Proofs.Program.Rejection
import ByteMachine.Proofs.Program.Joining
import ByteMachine.Proofs.Machine.Contents
import ByteMachine.Proofs.Simulator.Loading

import Bench65.Main
import Bench65.Suite.Pool
import Bench65.Text.Utf8
import Bench65.Proofs.Alu.Chain
import Bench65.Proofs.ArgumentBlock.RoundTrip
import Bench65.Proofs.Call.Footprint
import Bench65.Proofs.Call.Nesting
import Bench65.Proofs.Call.Text
import Bench65.Proofs.Console.Reference
import Bench65.Proofs.Execution.Footprint
import Bench65.Proofs.HardwareStack
import Bench65.Proofs.Image
import Bench65.Proofs.Machine.Arguments
import Bench65.Proofs.Machine.Budget
import Bench65.Proofs.Machine.Compatibility
import Bench65.Proofs.Machine.Failures
import Bench65.Proofs.Machine.Input
import Bench65.Proofs.Machine.LifeCycle
import Bench65.Proofs.Machine.Routines
import Bench65.Proofs.Machine.Status
import Bench65.Proofs.Machine.Subroutine
import Bench65.Proofs.Machine.Trace
import Bench65.Proofs.Machine.Violation
import Bench65.Proofs.Manifest
import Bench65.Proofs.Printf.Append
import Bench65.Proofs.Printf.Integer
import Bench65.Proofs.Program.Loading
import Bench65.Proofs.Suite.Pool
import Bench65.Proofs.Symbols
import Bench65.Proofs.TestCase

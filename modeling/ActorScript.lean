import ActorScript.Opcode
import ActorScript.Host
import ActorScript.Trace
import ActorScript.Program
import ActorScript.Bytes
import ActorScript.Blake3
import ActorScript.Image.Read
import ActorScript.Image.Write
import ActorScript.Assembly.Assemble
import ActorScript.Assembly.Listing
import ActorScript.Verify
import ActorScript.Registry
import ActorScript.Random
import ActorScript.Config
import ActorScript.World.Field
import ActorScript.Machine.Entry
import ActorScript.Simulation
import ActorScript.Command
import ActorScript.Main
import ActorScript.Proofs.Command.Interchange
import ActorScript.Proofs.Machine.Draws
import ActorScript.Proofs.Registry.Memory
import ActorScript.Proofs.World.States
import ActorScript.Proofs.Verify.Soundness
import ActorScript.Proofs.Machine.Pass
import ActorScript.Proofs.Assembly.Assembled
import ActorScript.Proofs.Machine.Limits
import ActorScript.Proofs.Verify.Layout
import ActorScript.Proofs.Command.Atomic
import ActorScript.Proofs.Verify.Data
import ActorScript.Proofs.Machine.Display
import ActorScript.Proofs.Machine.Protection
import ActorScript.Proofs.Trace.Exact
import ActorScript.Proofs.Registry.Forgotten
import ActorScript.Proofs.Verify.Progress
import ActorScript.Proofs.Registry.Validity
import ActorScript.Proofs.World.Identities
import ActorScript.Proofs.World.TickOrder
import ActorScript.Proofs.Machine.Confinement
import ActorScript.Proofs.Machine.Failure
import ActorScript.Proofs.Machine.Depth
import ActorScript.Proofs.Machine.Cascade
import ActorScript.Proofs.Machine.Return
import ActorScript.Proofs.Machine.Branching
import ActorScript.Proofs.Machine.Terminal
import ActorScript.Proofs.Image.PrefixFree
import ActorScript.Proofs.Assembly.Resolution
import ActorScript.Proofs.Assembly.Order
import ActorScript.Proofs.Instruction.Exact
import ActorScript.Proofs.Verify.Strays
import ActorScript.Proofs.Assembly.Number
import ActorScript.Proofs.Machine.Animation

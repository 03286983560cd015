import ScriptMachine.Assembly
import ScriptMachine.Verification
import ScriptMachine.Listing
import ScriptMachine.Profile
import ScriptMachine.Machine.Step
import ScriptMachine.Waking
import ScriptMachine.Main
import ScriptMachine.Proofs.Links
import ScriptMachine.Proofs.Decoding
import ScriptMachine.Proofs.Stopping
import ScriptMachine.Proofs.DueSleepers
import ScriptMachine.Proofs.Pausing
import ScriptMachine.Proofs.Interruption
import ScriptMachine.Proofs.Lockstep
import ScriptMachine.Proofs.Synchrony
import ScriptMachine.Proofs.Unobserved
import ScriptMachine.Proofs.OwnSleep
import ScriptMachine.Proofs.Residues
import ScriptMachine.Proofs.FreshStarts
import ScriptMachine.Proofs.AwaitedResults
import ScriptMachine.Proofs.Acceptance
import ScriptMachine.Proofs.Assembling
import ScriptMachine.Proofs.AbortRequests
import ScriptMachine.Proofs.Callbacks
import ScriptMachine.Proofs.HonoredAborts
import ScriptMachine.Proofs.Refusals
import ScriptMachine.Proofs.Reading
import ScriptMachine.Proofs.DepthAborts
import ScriptMachine.Proofs.Limits
import ScriptMachine.Proofs.Termination
import ScriptMachine.Proofs.RunningThreads
import ScriptMachine.Proofs.Armings
import ScriptMachine.Proofs.Repeatability
import ScriptMachine.Proofs.Interleavings
import ScriptMachine.Proofs.Storage
import ScriptMachine.Proofs.Evaluation
import ScriptMachine.Proofs.EncodingChoices
import ScriptMachine.Proofs.Zones
import ScriptMachine.Proofs.Arguments
import ScriptMachine.Proofs.Tracing
import ScriptMachine.Proofs.Brackets
import ScriptMachine.Proofs.FrameScopes
import ScriptMachine.Proofs.FrameAccounts
import ScriptMachine.Proofs.OpenFrames
import ScriptMachine.Proofs.BoundMethods
import ScriptMachine.Proofs.WakingOrder
import ScriptMachine.Proofs.CallerSlots
import ScriptMachine.Proofs.DistinctListings
import ScriptMachine.Proofs.OpcodeTables
import ScriptMachine.Proofs.AlignedTables

import TwinEngine.Normalized.Pattern
import TwinEngine.Workload
import TwinEngine.Main
import TwinEngine.Proofs.BranchTargets
import TwinEngine.Proofs.Command.Words
import TwinEngine.Proofs.Compilation.Fallback
import TwinEngine.Proofs.Machine.Acceptance
import TwinEngine.Proofs.Normal.Paths
import TwinEngine.Proofs.Numeric.Truncation
import TwinEngine.Proofs.Snapshots
import TwinEngine.Proofs.Storage.Bulk
import TwinEngine.Proofs.Storage.Growth
import TwinEngine.Proofs.Typing.WellFormed
import TwinEngine.Proofs.World.BodySafety
import TwinEngine.Proofs.World.Entry
import TwinEngine.Proofs.World.Rollback
import TwinEngine.Proofs.World.UnitSafety

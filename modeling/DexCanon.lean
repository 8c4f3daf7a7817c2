import DexCanon.Reference.Parser
import DexCanon.OrderedSet.Catalogue
import DexCanon.Value.Inspect
import DexCanon.Value.Fingerprint
import DexCanon.Listing
import DexCanon.Workspace.Step
import DexCanon.Proofs.Reference.RoundTrip
import DexCanon.Proofs.OrderedSet.Members
import DexCanon.Proofs.Draft.NormalForm
import DexCanon.Proofs.Draft.Sealing
import DexCanon.Proofs.Value.Order
import DexCanon.Proofs.Listing
import DexCanon.Proofs.Value.Agreement
import DexCanon.Proofs.Draft.NameOrder
import DexCanon.Proofs.Sink.Replay
import DexCanon.Proofs.Draft.FixedPoint
import DexCanon.Proofs.Draft.Rearranged
import DexCanon.Proofs.OrderedSet.Lookup
import DexCanon.Proofs.Text.CodePoints
import DexCanon.Proofs.Sink.Lines
import DexCanon.Proofs.OrderedSet.Incremental
import DexCanon.Proofs.OrderedSet.Natural
import DexCanon.Proofs.Reference.Failure
import DexCanon.Proofs.Workspace.Identity
import DexCanon.Proofs.Reference.Tokens
import DexCanon.Proofs.Workspace.Shared

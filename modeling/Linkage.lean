import Linkage.Main
import Linkage.Space.Point
import Linkage.Proofs.Lineage.Descent
import Linkage.Proofs.Lineage.Generations
import Linkage.Proofs.Lineage.Cycle
import Linkage.Proofs.Lineage.Order
import Linkage.Proofs.Lineage.Route
import Linkage.Proofs.Description.Ancestry
import Linkage.Proofs.Registry.Enrolment
import Linkage.Proofs.Registry.Outcome
import Linkage.Proofs.Registry.Representation
import Linkage.Proofs.Markup.Children
import Linkage.Proofs.Description.Filling
import Linkage.Proofs.Description.Elements
import Linkage.Proofs.Body.Segment
import Linkage.Proofs.Registry.Axes
import Linkage.Proofs.Space.Real
import Linkage.Proofs.Space.Rotation
import Linkage.Proofs.Space.Rigid
import Linkage.Proofs.Body.Displacement
import Linkage.Proofs.Body.Exponential
import Linkage.Proofs.Chain.Assembly
import Linkage.Proofs.Chain.Poses
import Linkage.Proofs.Chain.Placement
import Linkage.Proofs.Chain.Increment
import Linkage.Proofs.Chain.Growth
import Linkage.Proofs.Space.Adjoint
import Linkage.Proofs.Chain.Leaves
import Linkage.Proofs.Chain.Parting
import Linkage.Proofs.Description.Links
import Linkage.Proofs.Registry.Pruning
import Linkage.Proofs.Lineage.Reordering
import Linkage.Proofs.Registry.Determinism
import Linkage.Proofs.Lineage.Runs
import Linkage.Proofs.Description.Depth
import Linkage.Proofs.Registry.Acceptance
import Linkage.Proofs.Chain.Transfer
import Linkage.Proofs.Registry.Shuffle
import Linkage.Proofs.Description.Extension
import Linkage.Proofs.Registry.Extension
import Linkage.Proofs.Registry.Notes
import Linkage.Proofs.Command.Outcome
import Linkage.Proofs.Body.Inertia
import Linkage.Proofs.Body.Screw
import Linkage.Proofs.Chain.Rigidity
import Linkage.Proofs.Space.Extended
import Linkage.Proofs.Body.Direction
import Linkage.Proofs.Space.Line
import Linkage.Proofs.Space.RollPitchYaw
import Linkage.Proofs.Command.Readback
import Linkage.Proofs.Lineage.Traversal
import Linkage.Proofs.Command.Lines

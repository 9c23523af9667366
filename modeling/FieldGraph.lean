import FieldGraph.Evaluator.Graph
import FieldGraph.Proofs.Uniform
import FieldGraph.Evaluator.History
import FieldGraph.Proofs.AmbientFlags
import FieldGraph.Proofs.Bytes
import FieldGraph.Proofs.Delivers
import FieldGraph.Proofs.FieldTotality
import FieldGraph.Proofs.Kinds
import FieldGraph.Proofs.Meaning
import FieldGraph.Proofs.NodeLocation
import FieldGraph.Proofs.ShapeTags
import FieldGraph.Proofs.Soundness
import FieldGraph.Proofs.Transparency
import FieldGraph.Proofs.Visits
import FieldGraph.Proofs.StoreContent
import FieldGraph.Proofs.StoreInclusion
import FieldGraph.Proofs.Accounting
import FieldGraph.Proofs.InBounds
import FieldGraph.Proofs.ForeignDescriptors
import FieldGraph.Proofs.SuccessfulCalls
import FieldGraph.Proofs.InnerGuards
import FieldGraph.Proofs.Broadcasting
import FieldGraph.Proofs.PointLocation
import FieldGraph.Proofs.Adjacency
import FieldGraph.Proofs.ElementBoxes
import FieldGraph.Proofs.NodeDifferences
import FieldGraph.Proofs.FaceDerivatives
import FieldGraph.Proofs.ComponentIsolation
import FieldGraph.Proofs.GuardScopes
import FieldGraph.Proofs.SpecializationErrors
import FieldGraph.Proofs.NondegenerateGrids
import FieldGraph.Proofs.BeyondGrids
import FieldGraph.Proofs.ComponentExtraction
import FieldGraph.Proofs.MonotoneLocation
import FieldGraph.Proofs.Counters
import FieldGraph.Proofs.SharedKinds

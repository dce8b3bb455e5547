import Spirv.Barrier
import Spirv.CallGraph.Reaching
import Spirv.Definitions
import Spirv.Proofs.Reachability
import Spirv.Proofs.Search
import Spirv.Validation
import Spirv.Proofs.ReachingModels
import Spirv.Proofs.Registry
import Spirv.Proofs.Resolution
import Spirv.Proofs.Acceptance
import Spirv.Proofs.Judgement
import Spirv.Proofs.Simulation
import Spirv.Proofs.Renaming
import Spirv.Proofs.Reordering
import Spirv.Proofs.Insertion
import Spirv.Proofs.Strictness
import Spirv.Proofs.DeadFunction
import Spirv.Proofs.Independence
import Spirv.Proofs.SemanticsWords
import Spirv.Proofs.AcceptedBarriers
import Spirv.Proofs.RegistryHistory
import Spirv.Proofs.Visits
import Spirv.Proofs.Dispatch
import Spirv.Proofs.ModuleGraph
import Spirv.Proofs.SearchRuns
import Spirv.Proofs.SeparateSearches
import Spirv.Proofs.DecidingRule
import Spirv.Proofs.Evaluation
import Spirv.Proofs.WidthInquiries
import Spirv.Proofs.DiagnosticText
import Spirv.Proofs.ComponentChains

import Packrat.Config.Reader
import Packrat.Proofs.Acceptance
import Packrat.Proofs.AlternativeOrder
import Packrat.Proofs.BuilderInvariant
import Packrat.Proofs.BuilderIsolation
import Packrat.Proofs.CharSets
import Packrat.Proofs.ConfigReading
import Packrat.Proofs.CycleExactness
import Packrat.Proofs.DeepestFailures
import Packrat.Proofs.FarthestFailure
import Packrat.Proofs.Flattening
import Packrat.Proofs.MaximalMunch
import Packrat.Proofs.Memoization
import Packrat.Proofs.ModeAgreement
import Packrat.Proofs.Notation
import Packrat.Proofs.NullableExactness
import Packrat.Proofs.Policies
import Packrat.Proofs.SpecDefects
import Packrat.Proofs.Translation
import Packrat.Proofs.WordOffsets
import Packrat.Workshop

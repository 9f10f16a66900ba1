import Glottis.Main
import Glottis.Proofs.Autocorrelation
import Glottis.Proofs.Checks
import Glottis.Proofs.Comparison
import Glottis.Proofs.ExactArithmetic
import Glottis.Proofs.GainInvariance
import Glottis.Proofs.InstantPairing
import Glottis.Proofs.Lengths
import Glottis.Proofs.MultiProductCycles
import Glottis.Proofs.NormalEquations
import Glottis.Proofs.PredictorScaling
import Glottis.Proofs.Scaling
import Glottis.Proofs.SedreamsCycles
import Glottis.Proofs.SedreamsTraces
import Glottis.Proofs.ShortRecordings
import Glottis.Proofs.ThresholdSearch
import Glottis.Proofs.TurningPoints
import Glottis.Proofs.WhitenedFrames
import Glottis.Proofs.WindowWeights
import Glottis.Proofs.ResidualOnset
import Glottis.Proofs.Binary64Rounding
import Glottis.Proofs.Binary64Values
import Glottis.Proofs.Files
import Glottis.Proofs.IndexRange
import Glottis.Proofs.PulseCodes
import Glottis.Proofs.SavedRecordings
import Glottis.Proofs.AppendedSamples
import Glottis.Proofs.BlockMeans
import Glottis.Proofs.CycleStatistics
import Glottis.Proofs.DetectionFailure
import Glottis.Proofs.GlottisRefinement
import Glottis.Proofs.AlignedMeans
import Glottis.Proofs.RunEffects
import Glottis.Proofs.BinChanges
import Glottis.Proofs.OpeningPlace
import Glottis.Proofs.PredictorOptimality
import Glottis.Proofs.HaltedRecursion
import Glottis.Proofs.LatticeBuffers
import Glottis.Proofs.MinimumPhase
import Glottis.Proofs.BurgDirectForm
import Glottis.Proofs.FilterCascade
import Glottis.Proofs.RecursiveFilters
import Glottis.Proofs.SourceScaling
import Glottis.Proofs.CheckedLattice
import Glottis.Proofs.LatticeEnergy
import Glottis.Proofs.LeadingCoefficient
import Glottis.Proofs.PreEmphasis
import Glottis.Proofs.AlternatingExtrema
import Glottis.Proofs.ZeroCrossings
import Glottis.Proofs.QuantizedSamples
import Glottis.Proofs.AverageSlices
import Glottis.Proofs.CentredAverage
import Glottis.Proofs.Binary64Signs
import Glottis.Proofs.SilentOnset
import Glottis.Proofs.CycleReductions
import Glottis.Proofs.WindowShapes
import Glottis.Proofs.StoredSamples
import Glottis.Proofs.FrameMeans
import Glottis.Proofs.JsonTokens
import Glottis.Proofs.JsonTexts
import Glottis.Proofs.RecordMembers
import Glottis.Proofs.ConfigMembers
import Glottis.Proofs.TrackedSearch
import Glottis.Proofs.AscendingInstants

import MarketRegimeAlpha.Continuous.Proofs.SecondPass
import MarketRegimeAlpha.DecisionSupport.Proofs.RiskTotality
import MarketRegimeAlpha.DecisionSupport.Proofs.WeightGrid
import MarketRegimeAlpha.DecisionSystem.Proofs.ProposalLimits
import MarketRegimeAlpha.DividendT.Proofs.AdjustedCloses
import MarketRegimeAlpha.DividendT.Proofs.Strokes
import MarketRegimeAlpha.Execution.Proofs.AsOfFills
import MarketRegimeAlpha.Execution.Proofs.Idempotency
import MarketRegimeAlpha.Execution.Proofs.StrategySizing
import MarketRegimeAlpha.Historical.Proofs.Drain
import MarketRegimeAlpha.Lifecycle.Proofs.StageSettlement
import MarketRegimeAlpha.Market.Proofs.CaptureWindows
import MarketRegimeAlpha.Market.ProspectiveHealth
import MarketRegimeAlpha.MarketData.Proofs.Codec
import MarketRegimeAlpha.Outcome.Proofs.Ambiguity
import MarketRegimeAlpha.Portfolio.Proofs.AccountRisk
import MarketRegimeAlpha.Position.Proofs.Refinement
import MarketRegimeAlpha.Position.Proofs.Resolution
import MarketRegimeAlpha.ResearchQualification.Proofs.BacktestCompletion
import MarketRegimeAlpha.ResearchQualification.Proofs.BacktestOrder
import MarketRegimeAlpha.ResearchQualification.Proofs.BlockSampling
import MarketRegimeAlpha.ResearchQualification.Proofs.EpisodeFunding
import MarketRegimeAlpha.ResearchQualification.Proofs.ForecastBaskets
import MarketRegimeAlpha.ResearchQualification.Proofs.FormulaTotality
import MarketRegimeAlpha.ResearchQualification.Proofs.IncrementalFeatures
import MarketRegimeAlpha.ResearchQualification.Proofs.MaximumDrawdown
import MarketRegimeAlpha.ResearchQualification.Proofs.NoLookAhead
import MarketRegimeAlpha.ResearchQualification.Proofs.OperationalCapacity
import MarketRegimeAlpha.ResearchQualification.Proofs.PooledErrors
import MarketRegimeAlpha.ResearchQualification.Proofs.SecurityRemoval
import MarketRegimeAlpha.ResearchValidation.Proofs.CalibrationSplit
import MarketRegimeAlpha.ResearchValidation.Proofs.IsotonicFit
import MarketRegimeAlpha.ResearchValidation.Proofs.MovingBlock
import MarketRegimeAlpha.ResearchValidation.Proofs.MultipleTesting
import MarketRegimeAlpha.ResearchValidation.Proofs.PartitionLeakage
import MarketRegimeAlpha.ResearchValidation.Proofs.Reliability
import MarketRegimeAlpha.Runtime.Proofs.Conformance
import MarketRegimeAlpha.Runtime.Proofs.Fencing
import MarketRegimeAlpha.Runtime.Proofs.Progress
import MarketRegimeAlpha.Runtime.Proofs.StepDag
import MarketRegimeAlpha.Selection.Proofs.Dominance
import MarketRegimeAlpha.Selection.Proofs.Faithful
import MarketRegimeAlpha.Shadow.Proofs.Affordability
import MarketRegimeAlpha.Shadow.Proofs.Economics
import MarketRegimeAlpha.Shadow.Proofs.Performance
import MarketRegimeAlpha.Shared.Financial
import MarketRegimeAlpha.Shared.Proofs.Spelling
import MarketRegimeAlpha.Strategies.Proofs.PortfolioLaw
import MarketRegimeAlpha.Strategies.Proofs.SleevesAgree

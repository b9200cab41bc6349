import CodeContext.Main
import CodeContext.Proofs.CacheOverlap
import CodeContext.Proofs.CacheRefresh
import CodeContext.Proofs.CacheTrace
import CodeContext.Proofs.CachedPaths
import CodeContext.Proofs.ContextConsistency
import CodeContext.Proofs.Cuts
import CodeContext.Proofs.Derivations
import CodeContext.Proofs.DocumentReading
import CodeContext.Proofs.Extraction
import CodeContext.Proofs.FetchConfinement
import CodeContext.Proofs.FetchedMethods
import CodeContext.Proofs.HonouredIgnoreFiles
import CodeContext.Proofs.IndexCounts
import CodeContext.Proofs.IndexedFiles
import CodeContext.Proofs.InputLines
import CodeContext.Proofs.LineLayout
import CodeContext.Proofs.LineSlices
import CodeContext.Proofs.LoweredSources
import CodeContext.Proofs.MethodLines
import CodeContext.Proofs.MethodOrder
import CodeContext.Proofs.ModelTexts
import CodeContext.Proofs.NormalPaths
import CodeContext.Proofs.ParsedTexts
import CodeContext.Proofs.ParserFacts
import CodeContext.Proofs.PassedScalars
import CodeContext.Proofs.PassedValues
import CodeContext.Proofs.PathReadings
import CodeContext.Proofs.Paths
import CodeContext.Proofs.RealOrder
import CodeContext.Proofs.RequestLines
import CodeContext.Proofs.Resolution
import CodeContext.Proofs.ResubmittedIds
import CodeContext.Proofs.RuleOrder
import CodeContext.Proofs.ScanCompleteness
import CodeContext.Proofs.ScannedFiles
import CodeContext.Proofs.SectionMarkers
import CodeContext.Proofs.ServerSchedule
import CodeContext.Proofs.ServiceHistory
import CodeContext.Proofs.Spellings
import CodeContext.Proofs.TargetPlaces
import CodeContext.Proofs.TokenPlaces
import CodeContext.Proofs.TreeLeaves
import CodeContext.Proofs.VerbatimTargets
import CodeContext.Proofs.WrittenReals
import CodeContext.Proofs.WrittenRecords
import CodeContext.Proofs.WrittenScalars

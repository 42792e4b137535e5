import PagePrep.Main
import PagePrep.Options.Builder
import PagePrep.Proofs.Furigana.Repetition
import PagePrep.Raster.Faulty
import PagePrep.Proofs.Furigana.Representation
import PagePrep.Proofs.Furigana.Defects
import PagePrep.Proofs.Furigana.Exact
import PagePrep.Proofs.Pipeline.Outcome
import PagePrep.Proofs.Command.ExitCode
import PagePrep.Proofs.Command.Legacy
import PagePrep.Proofs.Command.Resolution
import PagePrep.Proofs.Files.Page
import PagePrep.Proofs.Gray.Binarize
import PagePrep.Proofs.Raster.Sheet
import PagePrep.Proofs.Furigana.MaximalRuns
import PagePrep.Proofs.Options.Json
import PagePrep.Proofs.Options.Toml
import PagePrep.Proofs.Furigana.MainText
import PagePrep.Proofs.Furigana.Geometry
import PagePrep.Proofs.Furigana.KeepRatio
import PagePrep.Proofs.Gray.Tiling
import PagePrep.Proofs.Gray.ExactSums
import PagePrep.Proofs.Gray.Unsharp
import PagePrep.Proofs.Raster.Line

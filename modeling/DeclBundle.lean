import DeclBundle.Config.Data
import DeclBundle.Main
import DeclBundle.Proofs.Pass.Abort
import DeclBundle.Proofs.Pass.Cleaning
import DeclBundle.Proofs.Pass.Failure
import DeclBundle.Proofs.Pass.Repetition
import DeclBundle.Proofs.Pass.Protocol
import DeclBundle.Proofs.Forecast
import DeclBundle.Proofs.Pass.Collection
import DeclBundle.Proofs.FileSystem.Alike
import DeclBundle.Proofs.FileSystem.Obstacle
import DeclBundle.Proofs.FileSystem.Furnishing
import DeclBundle.Proofs.FileSystem.AlikeReading
import DeclBundle.Proofs.FileSystem.AlikeWriting
import DeclBundle.Proofs.Pass.Twins
import DeclBundle.Proofs.Pass.Confinement
import DeclBundle.Proofs.Pass.Interleaving
import DeclBundle.Proofs.Pass.Obstruction
import DeclBundle.Proofs.Manifest
import DeclBundle.Proofs.Report
import DeclBundle.Proofs.FileSystem.Writing
import DeclBundle.Proofs.Pass.Pruning
import DeclBundle.Proofs.PathSet.Collapse
import DeclBundle.Proofs.Declaration.Lines
import DeclBundle.Proofs.Declaration.Merge
import DeclBundle.Proofs.Path.Absolute
import DeclBundle.Proofs.Config.FixedPoint
import DeclBundle.Proofs.FileSystem.Outcome
import DeclBundle.Proofs.FileSystem.Enumeration
import DeclBundle.Proofs.FileSystem.Tolerance
import DeclBundle.Proofs.PathSet.Reference
import DeclBundle.Proofs.Label
import DeclBundle.Proofs.Pass.Reading
import DeclBundle.Proofs.Toml.Tree
import DeclBundle.Proofs.Toml.Reading
import DeclBundle.Proofs.Manifest.Written
import DeclBundle.Proofs.Manifest.Label

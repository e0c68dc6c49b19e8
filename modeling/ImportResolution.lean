import ImportResolution.Main
import ImportResolution.Proofs.Path.Names
import ImportResolution.Proofs.Path.Relative
import ImportResolution.Proofs.Path.Ancestors
import ImportResolution.Proofs.Specifier
import ImportResolution.Proofs.FileTree.Walk
import ImportResolution.Proofs.Resolution.Chain
import ImportResolution.Proofs.Locator.Files
import ImportResolution.Proofs.Resolution.Importer
import ImportResolution.Proofs.Resolution.LostExtension
import ImportResolution.Proofs.Resolution.RoundTrip
import ImportResolution.Proofs.Resolution.AliasTarget
import ImportResolution.Proofs.Resolution.Decision
import ImportResolution.Proofs.Resolution.Warnings
import ImportResolution.Proofs.Resolution.Later
import ImportResolution.Proofs.Resolution.ScaledImage
import ImportResolution.Proofs.Host.WorkingDirectory
import ImportResolution.Proofs.Options.WorkingDirectory
import ImportResolution.Proofs.CommandLine.WorkingDirectory
import ImportResolution.Proofs.Resolution.Shape
import ImportResolution.Proofs.CommandLine.Ways
import ImportResolution.Proofs.CommandLine.Agreement
import ImportResolution.Proofs.FileTree.Growth
import ImportResolution.Proofs.FileTree.Names
import ImportResolution.Proofs.Host.Names
import ImportResolution.Proofs.Glob.Pattern
import ImportResolution.Proofs.Glob.Expansion
import ImportResolution.Proofs.Locator.Guards
import ImportResolution.Proofs.Locator.Growth
import ImportResolution.Proofs.Locator.Inside
import ImportResolution.Proofs.Locator.Packages
import ImportResolution.Proofs.Locator.Candidates
import ImportResolution.Proofs.Locator.Upward
import ImportResolution.Proofs.Options.Aliases
import ImportResolution.Proofs.Options.Roots
import ImportResolution.Proofs.Options.Faults
import ImportResolution.Proofs.Json.Strings
import ImportResolution.Proofs.Json.Objects
import ImportResolution.Proofs.Settings.Documents
import ImportResolution.Proofs.Options.Declarations
import ImportResolution.Proofs.Resolution.SetAlias
import ImportResolution.Proofs.Path.Shortest
import ImportResolution.Proofs.Regex.Search
import ImportResolution.Proofs.Regex.Groups
import ImportResolution.Proofs.Alias.Template
import ImportResolution.Proofs.Alias.Spellings
import ImportResolution.Proofs.Alias.Below
import ImportResolution.Proofs.Resolution.Effects
import ImportResolution.Proofs.Resolution.Collecting
import ImportResolution.Proofs.Options.PackageDirectory
import ImportResolution.Proofs.Path.LastPiece
import ImportResolution.Proofs.Resolution.KeptExtension

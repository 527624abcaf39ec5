import ModuleBundler.Bundler
import ModuleBundler.Cache.Rate
import ModuleBundler.Files.Disk
import ModuleBundler.Files.Store
import ModuleBundler.LogLevel
import ModuleBundler.Options.Load
import ModuleBundler.Proofs.Minify.Idempotence
import ModuleBundler.Proofs.Record.RoundTrip
import ModuleBundler.Proofs.Relocation.Bundle
import ModuleBundler.Proofs.Session.Snapshot
import ModuleBundler.Proofs.Walk.Confluence
import ModuleBundler.Proofs.Walk.Depth
import ModuleBundler.Proofs.Cache.Order
import ModuleBundler.Proofs.Cache.Recency
import ModuleBundler.Proofs.Bundle.Outcome
import ModuleBundler.Proofs.Minify.Seam
import ModuleBundler.Proofs.Bundle.Minified
import ModuleBundler.Proofs.Session.Failure
import ModuleBundler.Proofs.Bundle.Names
import ModuleBundler.Proofs.Disk.Mirror
import ModuleBundler.Proofs.Reference.Occurrence
import ModuleBundler.Proofs.Walk.Account
import ModuleBundler.Proofs.Walk.Resolution
import ModuleBundler.Proofs.Bundle.Markers
import ModuleBundler.Proofs.Bundle.Lines
import ModuleBundler.Proofs.Minify.Template
import ModuleBundler.Proofs.Minify.Forgery
import ModuleBundler.Proofs.Minify.Fusion
import ModuleBundler.Proofs.Cache.Conservation
import ModuleBundler.Proofs.Cache.Retention
import ModuleBundler.Proofs.Reference.Declaration
import ModuleBundler.Proofs.Session.Healing
import ModuleBundler.Proofs.Bundle.Anchoring
import ModuleBundler.Proofs.Files.History
import ModuleBundler.Proofs.Options.Layers
import ModuleBundler.Proofs.Minify.Lockstep

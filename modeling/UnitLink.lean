import UnitLink.Main
import UnitLink.Proofs.ArgumentGroups
import UnitLink.Proofs.CursorRequests
import UnitLink.Proofs.DirectiveGrammar
import UnitLink.Proofs.DiscoveredClasses
import UnitLink.Proofs.FailedOperations
import UnitLink.Proofs.FaultAccounting
import UnitLink.Proofs.FieldDeclarations
import UnitLink.Proofs.Finalizations
import UnitLink.Proofs.FirstDeclarations
import UnitLink.Proofs.InternalFailures
import UnitLink.Proofs.LineByLine
import UnitLink.Proofs.LineLists
import UnitLink.Proofs.LinePasses
import UnitLink.Proofs.MethodDescriptors
import UnitLink.Proofs.OneByOne
import UnitLink.Proofs.Passages
import UnitLink.Proofs.PlainOutputs
import UnitLink.Proofs.QualifiedSearch
import UnitLink.Proofs.SearchBounds
import UnitLink.Proofs.ShadowedLibraries
import UnitLink.Proofs.SourceOrder
import UnitLink.Proofs.SourceRuns
import UnitLink.Proofs.Spelling
import UnitLink.Proofs.TidyingUp
import UnitLink.Proofs.UnqualifiedSearch

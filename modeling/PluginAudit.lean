import PluginAudit.Lines.Expressions
import PluginAudit.Main
import PluginAudit.Proofs.ConstantCallees
import PluginAudit.Proofs.DirectCalls
import PluginAudit.Proofs.DiscoveredFiles
import PluginAudit.Proofs.FirstDefinitions
import PluginAudit.Proofs.Inheritance
import PluginAudit.Proofs.KeptFlags
import PluginAudit.Proofs.ReportedReturns
import PluginAudit.Proofs.Resolution
import PluginAudit.Proofs.RunFaults
import PluginAudit.Proofs.StringBuilding
import PluginAudit.Proofs.TrackedWrites
import PluginAudit.Proofs.InsideAssignments
import PluginAudit.Proofs.TrackedValues
import PluginAudit.Proofs.Separators
import PluginAudit.Proofs.UseDeclarations
import PluginAudit.Proofs.ImportItems
import PluginAudit.Proofs.ImportClauses
import PluginAudit.Proofs.MethodPrecedence
import PluginAudit.Proofs.ConstantIncludes
import PluginAudit.Proofs.EscapeSequences
import PluginAudit.Proofs.RespelledCalls
import PluginAudit.Proofs.AliasedNames
import PluginAudit.Proofs.AliasedGraphs
import PluginAudit.Proofs.AliasedFacts
import PluginAudit.Proofs.AliasedCalls
import PluginAudit.Proofs.RepeatedNames
import PluginAudit.Proofs.ConfiguredNames
import PluginAudit.Proofs.ReceiverCalls
import PluginAudit.Proofs.OwnCalls
import PluginAudit.Proofs.Merging
import PluginAudit.Proofs.GatedPaths
import PluginAudit.Proofs.NormalForm
import PluginAudit.Proofs.JoinedCallees
import PluginAudit.Proofs.NamespaceRegions
import PluginAudit.Proofs.TokenSegments
import PluginAudit.Proofs.BareCalls
import PluginAudit.Proofs.ImportedNames
import PluginAudit.Proofs.OpeningTags
import PluginAudit.Proofs.HostConfigs
import PluginAudit.Proofs.CodecPermissions
import PluginAudit.Proofs.RouteIds
import PluginAudit.Proofs.Descriptions
import PluginAudit.Proofs.OwnReturns

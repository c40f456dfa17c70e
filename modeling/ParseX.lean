import ParseX.Cpp.Integer
import ParseX.Cpp.Map
import ParseX.Cpp.Double
import ParseX.Cpp.ToChars
import ParseX.Raw.RawNode
import ParseX.Model.Domain
import ParseX.Diff.DiffReport
import ParseX.Diff.DiffFields
import ParseX.Diff.DiffNested
import ParseX.Diff.DiffMatch
import ParseX.Diff.DiffMoves
import ParseX.Diff.DiffEngine
import ParseX.Diff.MoveSpec
import ParseX.Diff.TypePass
import ParseX.Diff.Conservation
import ParseX.Diff.Mirror
import ParseX.Diff.Diagnostics
import ParseX.Diff.Canonical
import ParseX.Diff.DiffEmpty
import ParseX.Diff.Reorder
import ParseX.Diff.Missed
import ParseX.Base.ClaimArray
import ParseX.Base.MsbFirst
import ParseX.Validator.ValidationResult
import ParseX.Validator.ValidatorCan
import ParseX.Validator.OverlapSpec
import ParseX.Parser.ModelBuilder
import ParseX.Parser.Literals
import ParseX.Parser.Parser
import ParseX.Parser.BareTree
import ParseX.Write.WriteElements
import ParseX.Write.WriteEngine
import ParseX.Write.RawTree
import ParseX.Write.Reread
import ParseX.Write.PlainOutput
import ParseX.Write.Fidelity
import ParseX.Write.StableSort
import ParseX.Write.Determinism
import ParseX.Write.Idempotence
import ParseX.Validator.ValidatorUniqueness
import ParseX.Write.WrittenNames
import ParseX.Parser.Resolve
import ParseX.Parser.WantedRefs
import ParseX.Cpp.Bytes
import ParseX.Parser.Prefilter
import ParseX.Parser.LazyDiscovery
import ParseX.Schema.AtomicWrite
import ParseX.Schema.SchemaRegistry
import ParseX.Schema.CacheRuns
import ParseX.Schema.FailedResolution
import ParseX.Base.Saturation
import ParseX.Base.Disk
import ParseX.Base.Replace
import ParseX.Base.Json
import ParseX.Base.JsonText
import ParseX.Mcp.Protocol
import ParseX.Mcp.ToolRegistry
import ParseX.Mcp.Dispatch
import ParseX.Mcp.Server
import ParseX.Mcp.AnswersOnce
import ParseX.Mcp.OverDeep
import ParseX.Base.JsonPrint
import ParseX.Validator.ValidatorReferences
import ParseX.Write.WrittenPaths
import ParseX.Write.WrittenReferences
import ParseX.Write.WriteFile
import ParseX.Write.ConcurrentWrite
import ParseX.Export.CanDb
import ParseX.Base.Account
import ParseX.Export.Accounting
import ParseX.Base.Csv
import ParseX.Export.CsvWriter
import ParseX.Export.DbcWriter
import ParseX.Export.Lookup
import ParseX.Export.Identifier
import ParseX.Export.Literal
import ParseX.Export.Provenance
import ParseX.Export.Numbers
import ParseX.Export.Agreement
import ParseX.Export.Layout
import ParseX.Base.DbcTokens
import ParseX.Base.DbcReader
import ParseX.Base.DbcLines
import ParseX.Base.DbcText
import ParseX.Base.DbcNames
import ParseX.Export.DbcRoundTrip
import ParseX.Validator.ReferenceFindings
import ParseX.Validator.PathCollisions
import ParseX.Base.Words
import ParseX.Parser.ResolvedSites
import ParseX.Diff.MoveInference
import ParseX.Diff.SecondaryKeys
import ParseX.Validator.OverlapReports
import ParseX.Parser.IntegerTexts
import ParseX.Base.Coefficients
import ParseX.Cpp.ExactDouble
import ParseX.Export.LinearScaling
import ParseX.Base.KeepFirst
import ParseX.Export.Parties
import ParseX.Export.SanitisedNames
import ParseX.Export.ListCells
import ParseX.Validator.MotorolaWalk
import ParseX.Base.JsonRead
import ParseX.JsonContract.Reports
import ParseX.Telemetry.Forest
import ParseX.Validator.ValidatorSchema
import ParseX.Raw.Encoding
import ParseX.Raw.Doctype
import ParseX.Raw.EncodingDetection
import ParseX.Write.CleanWrite
import ParseX.Raw.Reads
import ParseX.Raw.Markup
import ParseX.Raw.MarkupScan
import ParseX.Raw.Loader
import ParseX.Raw.Spans
import ParseX.Base.JsonSchema
import ParseX.JsonContract.Conformance
import ParseX.Parser.ParseBytes
import ParseX.Parser.ParseProject
import ParseX.Raw.LoaderRuns
import ParseX.Telemetry.Threads
import ParseX.Telemetry.TraceJson
import ParseX.Validator.LineOrder
import ParseX.Cli.Commands
import ParseX.Write.RewriteDiff

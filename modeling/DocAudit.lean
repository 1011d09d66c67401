import DocAudit.Main
import DocAudit.Service.Routes
import DocAudit.Proofs.Php.Run
import DocAudit.Proofs.Php.CheckedReading
import DocAudit.Proofs.Php.Conservation
import DocAudit.Proofs.Php.LineCount
import DocAudit.Proofs.Php.Position
import DocAudit.Proofs.Pass
import DocAudit.Proofs.Php.Scanning
import DocAudit.Proofs.Php.AnonymousClass
import DocAudit.Proofs.Php.Resemblance
import DocAudit.Proofs.Php.Literal
import DocAudit.Proofs.Php.LineEndingInvariance
import DocAudit.Proofs.Php.DocblockInsertion
import DocAudit.Proofs.ReportValidity
import DocAudit.Proofs.Skipping
import DocAudit.Proofs.File.Tree
import DocAudit.Proofs.File.Discovery
import DocAudit.Proofs.Batch
import DocAudit.Proofs.Php.Lookahead
import DocAudit.Proofs.Php.Locality
import DocAudit.Proofs.Php.Exchange
import DocAudit.Proofs.Php.Markup
import DocAudit.Proofs.Php.Relocation
import DocAudit.Proofs.Php.Layout
import DocAudit.Proofs.Php.TopLevel
import DocAudit.Proofs.Php.LineShift
import DocAudit.Proofs.Php.Charge
import DocAudit.Proofs.Json.Equality
import DocAudit.Proofs.Json.Reading
import DocAudit.Proofs.Json.RoundTrip
import DocAudit.Proofs.ReportLanguage
import DocAudit.Proofs.CommandLine.Arguments
import DocAudit.Proofs.Json.Halves
import DocAudit.Proofs.PlainLog
import DocAudit.Proofs.Service.ScanRequest
import DocAudit.Proofs.Agreement
import DocAudit.Proofs.Php.DocblockSegments
import DocAudit.Proofs.Text.Decoding
import DocAudit.Proofs.Php.QualifiedName
import DocAudit.Proofs.Php.Heredoc
import DocAudit.Proofs.Php.LexicalClass
import DocAudit.Proofs.Php.NameContext
import DocAudit.Proofs.File.ExcludeForm
import DocAudit.Proofs.File.ExcludedPath
import DocAudit.Proofs.Aggregation
import DocAudit.Proofs.Php.BracketMatching
import DocAudit.Proofs.Php.TrailingData
import DocAudit.Proofs.Text.LetterCase
import DocAudit.Proofs.Php.KeywordCase
import DocAudit.Proofs.Php.Respelling

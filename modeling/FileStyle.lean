import FileStyle.Main
import FileStyle.Proofs.Layout
import FileStyle.Proofs.LineRules
import FileStyle.Proofs.LineCheck
import FileStyle.Proofs.FindingsAbout
import FileStyle.Proofs.FindingPlace
import FileStyle.Proofs.FindingOrder
import FileStyle.Proofs.RuleIndependence
import FileStyle.Proofs.LineEndings
import FileStyle.Proofs.Utf8Sequence
import FileStyle.Proofs.Written
import FileStyle.Proofs.Delivery
import FileStyle.Proofs.KeptBytes
import FileStyle.Proofs.CharacterTokens
import FileStyle.Proofs.Transcoding
import FileStyle.Proofs.Outcome
import FileStyle.Proofs.Slices
import FileStyle.Proofs.PatternText
import FileStyle.Proofs.SectionMatch
import FileStyle.Proofs.Groups
import FileStyle.Proofs.IntegerRange
import FileStyle.Proofs.Expansion
import FileStyle.Proofs.CharacterClass
import FileStyle.Proofs.LowerCase
import FileStyle.Proofs.SheetKeys
import FileStyle.Proofs.Merging
import FileStyle.Proofs.PathStyle
import FileStyle.Proofs.WellFormedUtf8
import FileStyle.Proofs.WellFormedUtf16
import FileStyle.Proofs.RootBarrier
import FileStyle.Proofs.ReadableNames
import FileStyle.Proofs.Expandable
import FileStyle.Proofs.ForeseenErrors
import FileStyle.Proofs.ExitCodes
import FileStyle.Proofs.AgreeingReports
import FileStyle.Proofs.LineGrammar
import FileStyle.Proofs.StoppedChecks
import FileStyle.Proofs.SheetGrammar
import FileStyle.Proofs.DecimalReading
import FileStyle.Proofs.PlainLines
import FileStyle.Proofs.ShownStyle
import FileStyle.Proofs.NormalForm
import FileStyle.Proofs.BaseName
import FileStyle.Proofs.Anchoring
import FileStyle.Proofs.EscapedNames
import FileStyle.Proofs.ByteOrderMark
import FileStyle.Proofs.Preamble
import FileStyle.Proofs.EffectiveValues
import FileStyle.Proofs.ManyFiles
import FileStyle.Proofs.RuleReferences
import FileStyle.Proofs.ReportLines
import FileStyle.Proofs.CursorScripts
import FileStyle.Proofs.ExpansionCalls

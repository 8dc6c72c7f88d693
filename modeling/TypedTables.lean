import TypedTables.OrderedMap
import TypedTables.Text.Blank
import TypedTables.Text.Digit
import TypedTables.Text.Hidden
import TypedTables.Text.Quoted
import TypedTables.Text.Split
import TypedTables.Text.Escape
import TypedTables.Text.Control
import TypedTables.Decimal.Numeral
import TypedTables.Decimal.Shortest
import TypedTables.Decimal.Precision
import TypedTables.Decimal.Given
import TypedTables.Decimal.Whole
import TypedTables.Units.Quantity
import TypedTables.Units.Expression
import TypedTables.Units.Registry
import TypedTables.Units.Converter
import TypedTables.Table.Format
import TypedTables.Table.FieldType
import TypedTables.Table.StringPool
import TypedTables.Table.Raw
import TypedTables.Table.Line
import TypedTables.Table.Draft
import TypedTables.Table.Fault
import TypedTables.Table.Outline
import TypedTables.Log
import TypedTables.Table.Records
import TypedTables.Table.Grid
import TypedTables.Table.Parse
import TypedTables.Dataset.Value
import TypedTables.Dataset.Resolve
import TypedTables.Dataset.Store
import TypedTables.Dataset.Error
import TypedTables.Dataset.Entities
import TypedTables.Dataset.Assembly
import TypedTables.Dataset.Link
import TypedTables.Dataset.Query
import TypedTables.Text.Case
import TypedTables.Files.Path
import TypedTables.Files.Disk
import TypedTables.Files.Home
import TypedTables.Files.Tree
import TypedTables.Table.File
import TypedTables.Yaml.Date
import TypedTables.Yaml.Moment
import TypedTables.Yaml.Scalar
import TypedTables.Yaml.Node
import TypedTables.Yaml.Break
import TypedTables.Yaml.Plain
import TypedTables.Yaml.Quoted
import TypedTables.Yaml.Token
import TypedTables.Yaml.Document
import TypedTables.Units.Overrides
import TypedTables.Yaml.Read
import TypedTables.Settings.Basic
import TypedTables.Settings.EnvFile
import TypedTables.Settings.Load
import TypedTables.Session
import TypedTables.Dataset.Print
import TypedTables.CommandLine.Words
import TypedTables.CommandLine.Command
import TypedTables.CommandLine.Failure
import TypedTables.CommandLine.Run
import TypedTables.Main
import TypedTables.Proofs.Outcome
import TypedTables.Proofs.SoundDraft
import TypedTables.Proofs.GivenCells
import TypedTables.Proofs.LastWriter
import TypedTables.Proofs.Linkable
import TypedTables.Proofs.NameSpace
import TypedTables.Proofs.NumberText
import TypedTables.Proofs.UnitGrammar
import TypedTables.Proofs.KeptCells
import TypedTables.Proofs.ParsedDraft
import TypedTables.Proofs.ParseOutcome
import TypedTables.Proofs.Locality
import TypedTables.Proofs.Agreement
import TypedTables.Proofs.OrderIndependence
import TypedTables.Proofs.Rerun
import TypedTables.Proofs.AcceptedUnits
import TypedTables.Proofs.SheetShape
import TypedTables.Proofs.StoreShape
import TypedTables.Proofs.ResolvedCells
import TypedTables.Proofs.TableOutcome
import TypedTables.Proofs.LinkOutcome
import TypedTables.Proofs.GridCells
import TypedTables.Proofs.References
import TypedTables.Proofs.MoreNames
import TypedTables.Proofs.Conservative
import TypedTables.Proofs.RecordedDigits
import TypedTables.Proofs.ForeignDigits
import TypedTables.Proofs.DigitSteps
import TypedTables.Proofs.DigitObserver
import TypedTables.Proofs.OutlineText
import TypedTables.Proofs.LineNumbers
import TypedTables.Proofs.LineText
import TypedTables.Proofs.LayoutEdits
import TypedTables.Proofs.TextTable
import TypedTables.Proofs.KeptTexts
import TypedTables.Proofs.WrittenTable
import TypedTables.Proofs.ModSteps
import TypedTables.Proofs.RepeatedMod
import TypedTables.Proofs.Titles
import TypedTables.Proofs.TitleFields
import TypedTables.Proofs.UnitVerdicts
import TypedTables.Proofs.RefusedUnits
import TypedTables.Proofs.ReadableStore
import TypedTables.Proofs.Getters
import TypedTables.Proofs.RowNames
import TypedTables.Proofs.NamelessRows
import TypedTables.Proofs.SessionSteps
import TypedTables.Proofs.EnclosedOperands
import TypedTables.Proofs.CompoundUnits
import TypedTables.Proofs.RememberedUnits
import TypedTables.Proofs.NormalNumbers
import TypedTables.Proofs.SignificantDigits
import TypedTables.Proofs.EscapedText
import TypedTables.Proofs.ArrayCells
import TypedTables.Proofs.ExchangedGrids
import TypedTables.Proofs.RereadCells
import TypedTables.Proofs.FilledDefaults
import TypedTables.Proofs.InternedTexts
import TypedTables.Proofs.UnitLayers

import ScriptBridge.Bridge.Invoke
import ScriptBridge.Bridge.Iterator
import ScriptBridge.Bridge.Registry
import ScriptBridge.Bridge.Roots
import ScriptBridge.Bridge.StandIn
import ScriptBridge.Bridge.ToHost
import ScriptBridge.Calendar
import ScriptBridge.Collection.Arena
import ScriptBridge.Collection.Entries
import ScriptBridge.CommandLine
import ScriptBridge.Config
import ScriptBridge.Cursor
import ScriptBridge.Double.Basic
import ScriptBridge.Double.Decimal
import ScriptBridge.Error
import ScriptBridge.Host.Document
import ScriptBridge.Host.Eval
import ScriptBridge.Host.Expr
import ScriptBridge.Json.Basic
import ScriptBridge.Json.Reader
import ScriptBridge.Json.Writer
import ScriptBridge.Locale.Error
import ScriptBridge.Locale.NumberFormat
import ScriptBridge.Locale.Symbols
import ScriptBridge.Locale.Tag
import ScriptBridge.Main
import ScriptBridge.Number.Index
import ScriptBridge.Number.Literal
import ScriptBridge.Number.Text
import ScriptBridge.Picture
import ScriptBridge.Picture.OfValue
import ScriptBridge.Proofs.Answers
import ScriptBridge.Proofs.ArrayCopies
import ScriptBridge.Proofs.Atomicity
import ScriptBridge.Proofs.CallChains
import ScriptBridge.Proofs.CallbackMethods
import ScriptBridge.Proofs.CallingBack
import ScriptBridge.Proofs.Conversions
import ScriptBridge.Proofs.Copies
import ScriptBridge.Proofs.Copying
import ScriptBridge.Proofs.Crossings
import ScriptBridge.Proofs.CursorRuns
import ScriptBridge.Proofs.Data
import ScriptBridge.Proofs.DataReads
import ScriptBridge.Proofs.DigitGroups
import ScriptBridge.Proofs.DocumentMethods
import ScriptBridge.Proofs.DocumentTexts
import ScriptBridge.Proofs.DocumentUniqueness
import ScriptBridge.Proofs.DocumentValues
import ScriptBridge.Proofs.DrivenIteration
import ScriptBridge.Proofs.Effects
import ScriptBridge.Proofs.ErrorShapes
import ScriptBridge.Proofs.ErrorTags
import ScriptBridge.Proofs.Exposure
import ScriptBridge.Proofs.FewestDigits
import ScriptBridge.Proofs.FlatDepths
import ScriptBridge.Proofs.FlatMapping
import ScriptBridge.Proofs.Flattening
import ScriptBridge.Proofs.Folding
import ScriptBridge.Proofs.ForeignKeys
import ScriptBridge.Proofs.FormattedNumbers
import ScriptBridge.Proofs.GrowthLimits
import ScriptBridge.Proofs.HostCalls
import ScriptBridge.Proofs.HostDocuments
import ScriptBridge.Proofs.HostKeys
import ScriptBridge.Proofs.Identity
import ScriptBridge.Proofs.IndexView
import ScriptBridge.Proofs.IteratedSequences
import ScriptBridge.Proofs.Jobs
import ScriptBridge.Proofs.Joining
import ScriptBridge.Proofs.KeySpellings
import ScriptBridge.Proofs.Keys
import ScriptBridge.Proofs.LanguageTags
import ScriptBridge.Proofs.LanguageTexts
import ScriptBridge.Proofs.LiveMap
import ScriptBridge.Proofs.MapView
import ScriptBridge.Proofs.Nesting
import ScriptBridge.Proofs.NumberRoundTrip
import ScriptBridge.Proofs.NumberTexts
import ScriptBridge.Proofs.Numbers
import ScriptBridge.Proofs.NumericTexts
import ScriptBridge.Proofs.OwnKeys
import ScriptBridge.Proofs.PlainRuns
import ScriptBridge.Proofs.Positions
import ScriptBridge.Proofs.Ranges
import ScriptBridge.Proofs.Reading
import ScriptBridge.Proofs.RecordDocuments
import ScriptBridge.Proofs.Recovery
import ScriptBridge.Proofs.Rounding
import ScriptBridge.Proofs.RoundingReach
import ScriptBridge.Proofs.Runs
import ScriptBridge.Proofs.ScriptDocuments
import ScriptBridge.Proofs.ScriptIteration
import ScriptBridge.Proofs.Searches
import ScriptBridge.Proofs.Searching
import ScriptBridge.Proofs.SequenceMethods
import ScriptBridge.Proofs.ShortestDigits
import ScriptBridge.Proofs.SettingsDocuments
import ScriptBridge.Proofs.SortInPlace
import ScriptBridge.Proofs.Sorting
import ScriptBridge.Proofs.Splicing
import ScriptBridge.Proofs.StableSorting
import ScriptBridge.Proofs.StackFrames
import ScriptBridge.Proofs.StandIns
import ScriptBridge.Proofs.StrictEquality
import ScriptBridge.Proofs.Teardown
import ScriptBridge.Proofs.Walks
import ScriptBridge.Proofs.WholeNumberTexts
import ScriptBridge.Proofs.WrittenDocuments
import ScriptBridge.Script.Advance
import ScriptBridge.Script.Array
import ScriptBridge.Script.ArrayMethod
import ScriptBridge.Script.Attributes
import ScriptBridge.Script.Builtins
import ScriptBridge.Script.Call
import ScriptBridge.Script.Convert
import ScriptBridge.Script.Document
import ScriptBridge.Script.Eval
import ScriptBridge.Script.Exception
import ScriptBridge.Script.Expr
import ScriptBridge.Script.Get
import ScriptBridge.Script.Intrinsics
import ScriptBridge.Script.Iteration
import ScriptBridge.Script.Object
import ScriptBridge.Script.Operators
import ScriptBridge.Script.Properties
import ScriptBridge.Script.Stringify
import ScriptBridge.Sequence.Flatten
import ScriptBridge.Sequence.Growth
import ScriptBridge.Sequence.Method
import ScriptBridge.Sequence.MethodName
import ScriptBridge.Sequence.Range
import ScriptBridge.Sequence.Search
import ScriptBridge.Sequence.Sort
import ScriptBridge.Sequence.Walk
import ScriptBridge.Session
import ScriptBridge.Settings
import ScriptBridge.Text.Blank
import ScriptBridge.Text.Literal
import ScriptBridge.Text.Utf16
import ScriptBridge.Value
import ScriptBridge.Value.Equality
import ScriptBridge.Value.Inspect
import ScriptBridge.Value.Json
import ScriptBridge.Value.Text
import ScriptBridge.World
import ScriptBridge.World.Act
import ScriptBridge.World.Step

import GlslCompose.Text.Blank
import GlslCompose.Text.Lines
import GlslCompose.Text.Word
import GlslCompose.Text.Digits
import GlslCompose.Text.Printable
import GlslCompose.Text.LowerCase
import GlslCompose.Text.Quoted
import GlslCompose.Text.Utf8
import GlslCompose.Text.Identifier
import GlslCompose.Text.Escaped
import GlslCompose.Text.Decomposed
import GlslCompose.OrderedMap
import GlslCompose.Number.Shortest
import GlslCompose.Path
import GlslCompose.FileName
import GlslCompose.Digest
import GlslCompose.Value.Json
import GlslCompose.Value.Sorted
import GlslCompose.Fault
import GlslCompose.Callable
import GlslCompose.Notice
import GlslCompose.Token.Basic
import GlslCompose.Token.Stream
import GlslCompose.Directive
import GlslCompose.FragmentStore.Bundled
import GlslCompose.MacroTable
import GlslCompose.MacroTables
import GlslCompose.Composer
import GlslCompose.Library
import GlslCompose.Template.Basic
import GlslCompose.Template.Nesting
import GlslCompose.Template.Render
import GlslCompose.ShaderSource
import GlslCompose.Memo
import GlslCompose.ShaderPair
import GlslCompose.Scene
import GlslCompose.Settings
import GlslCompose.CommandLine.Arguments
import GlslCompose.CommandLine.Run
import GlslCompose.Main
import GlslCompose.Proofs.Revision
import GlslCompose.Proofs.IncludeGraph
import GlslCompose.Proofs.JsonReading
import GlslCompose.Proofs.KeyText
import GlslCompose.Proofs.LibraryRun
import GlslCompose.Proofs.CacheTransparency
import GlslCompose.Proofs.UpdateCourse
import GlslCompose.Proofs.PairRun
import GlslCompose.Proofs.ProgramCoherence
import GlslCompose.Proofs.CompileReasons
import GlslCompose.Proofs.UpdateFailure
import GlslCompose.Proofs.ProgramMemo
import GlslCompose.Proofs.CompiledOver
import GlslCompose.Proofs.Snapshot
import GlslCompose.Proofs.Reading
import GlslCompose.Proofs.DirectiveExtent
import GlslCompose.Proofs.Lexemes
import GlslCompose.Proofs.CommentRemoval
import GlslCompose.Proofs.Splicing
import GlslCompose.Proofs.DirectiveText
import GlslCompose.Proofs.TextualInclude
import GlslCompose.Proofs.IncludeCycles
import GlslCompose.Proofs.RenamedWalk
import GlslCompose.Proofs.EntryEdits
import GlslCompose.Proofs.Registrations
import GlslCompose.Proofs.CountedChanges
import GlslCompose.Proofs.CachePrediction
import GlslCompose.Proofs.RememberedTexts
import GlslCompose.Proofs.SceneRun
import GlslCompose.Proofs.DefineChanges
import GlslCompose.Proofs.VisibleLines
import GlslCompose.Proofs.LogicalLines
import GlslCompose.Proofs.IncludePlaces
import GlslCompose.Proofs.WalkedText
import GlslCompose.Proofs.DroppedText
import GlslCompose.Proofs.IncludeFree
import GlslCompose.Proofs.Returned
import GlslCompose.Proofs.ReturnedDirective
import GlslCompose.Proofs.ReturnedTokens
import GlslCompose.Proofs.ReturnedAssembly
import GlslCompose.Proofs.ReturnedWalk
import GlslCompose.Proofs.LineEndings
import GlslCompose.Proofs.IncludeChain
import GlslCompose.Proofs.PathComponents
import GlslCompose.Proofs.RegisteredPaths
import GlslCompose.Proofs.KeptLines
import GlslCompose.Proofs.DefineBlock
import GlslCompose.Proofs.AlikeDrawings
import GlslCompose.Proofs.Noninterference
import GlslCompose.Proofs.Stretches
import GlslCompose.Proofs.CompiledShape
import GlslCompose.Proofs.ProloguePlace
import GlslCompose.Proofs.Symbols
import GlslCompose.Proofs.PrecisionHeader
import GlslCompose.Proofs.KeyParts
import GlslCompose.Proofs.PathWalk
import GlslCompose.Proofs.LoadedFiles
import GlslCompose.Proofs.NestedFragments
import GlslCompose.Proofs.IncludeGrammar
import GlslCompose.Proofs.DefineValues
import GlslCompose.Proofs.TemplateEnvironment
import GlslCompose.Proofs.TemplateState
import GlslCompose.Proofs.MemoWindow
import GlslCompose.Proofs.TokenPlaces
import GlslCompose.Proofs.LayeredDefines
import GlslCompose.Proofs.ListedLines

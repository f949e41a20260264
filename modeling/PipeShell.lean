import PipeShell.Binding
import PipeShell.Catalog
import PipeShell.Channel.Reader
import PipeShell.Channel.Writer
import PipeShell.CommandLine
import PipeShell.Config.Loader
import PipeShell.Execution
import PipeShell.FileTree
import PipeShell.Json.Reader
import PipeShell.Json.Writer
import PipeShell.Machine
import PipeShell.Main
import PipeShell.Pattern.Reader
import PipeShell.Pattern.Search
import PipeShell.Pipeline
import PipeShell.Proofs.AcceptedCandidates
import PipeShell.Proofs.Action
import PipeShell.Proofs.Answers
import PipeShell.Proofs.AppendedFiles
import PipeShell.Proofs.Arguments
import PipeShell.Proofs.BuiltinBinding
import PipeShell.Proofs.Cancellation
import PipeShell.Proofs.CandidateOrder
import PipeShell.Proofs.CdCommand
import PipeShell.Proofs.ClosedOutputs
import PipeShell.Proofs.CommandNames
import PipeShell.Proofs.Commands
import PipeShell.Proofs.CompletionAnalysis
import PipeShell.Proofs.CompletionResults
import PipeShell.Proofs.Composition
import PipeShell.Proofs.ConfigData
import PipeShell.Proofs.ConfigFiles
import PipeShell.Proofs.Directories
import PipeShell.Proofs.DirectoryTree
import PipeShell.Proofs.Effects
import PipeShell.Proofs.Endings
import PipeShell.Proofs.FileCandidates
import PipeShell.Proofs.FileCopies
import PipeShell.Proofs.FileReaders
import PipeShell.Proofs.Files
import PipeShell.Proofs.Flags
import PipeShell.Proofs.Grammar
import PipeShell.Proofs.HistoryIndependence
import PipeShell.Proofs.HistoryNumbers
import PipeShell.Proofs.HistoryWindow
import PipeShell.Proofs.HomeDirectory
import PipeShell.Proofs.HostDirectory
import PipeShell.Proofs.JournalContents
import PipeShell.Proofs.JournalRecords
import PipeShell.Proofs.Lines
import PipeShell.Proofs.LinkedSessions
import PipeShell.Proofs.ListOptions
import PipeShell.Proofs.Numerals
import PipeShell.Proofs.OptionNames
import PipeShell.Proofs.OptionSlots
import PipeShell.Proofs.OptionWords
import PipeShell.Proofs.OuterSpaces
import PipeShell.Proofs.ParserSteps
import PipeShell.Proofs.PathRoutes
import PipeShell.Proofs.Paths
import PipeShell.Proofs.Postconditions
import PipeShell.Proofs.PreviousDirectory
import PipeShell.Proofs.PrintedPipelines
import PipeShell.Proofs.PromptSession
import PipeShell.Proofs.Refusals
import PipeShell.Proofs.RegistryLog
import PipeShell.Proofs.Scripts
import PipeShell.Proofs.Settings
import PipeShell.Proofs.StageFaults
import PipeShell.Proofs.Stages
import PipeShell.Proofs.TerminalDirectory
import PipeShell.Proofs.TextPieces
import PipeShell.Proofs.TokenErrors
import PipeShell.Proofs.TokenLayout
import PipeShell.Proofs.TokenLocality
import PipeShell.Proofs.TokenSpans
import PipeShell.Proofs.TokenizerStates
import PipeShell.Proofs.TokenizerSteps
import PipeShell.Proofs.TypedLines
import PipeShell.Proofs.Utf8Pieces
import PipeShell.Proofs.Values
import PipeShell.Proofs.VerbatimWords
import PipeShell.Proofs.WrittenLines
import PipeShell.Schema.Conversion
import PipeShell.Session
import PipeShell.Terminal
import PipeShell.Text.Blank
import PipeShell.Text.Case
import PipeShell.Text.Digit
import PipeShell.Text.Letter
import PipeShell.Text.Utf8
import PipeShell.Token

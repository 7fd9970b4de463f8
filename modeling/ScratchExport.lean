import ScratchExport.Archive.Blocks
import ScratchExport.Archive.Entries
import ScratchExport.Archive.Heading
import ScratchExport.Archive.Project
import ScratchExport.Assoc
import ScratchExport.Binary64.Basic
import ScratchExport.Binary64.Decimal
import ScratchExport.Command.Arguments
import ScratchExport.Command.Run
import ScratchExport.Compile.Block
import ScratchExport.Compile.Context
import ScratchExport.Compile.Control
import ScratchExport.Compile.Data
import ScratchExport.Compile.Literal
import ScratchExport.Compile.Looks
import ScratchExport.Compile.Method
import ScratchExport.Compile.Motion
import ScratchExport.Compile.Operator
import ScratchExport.Compile.Phrase
import ScratchExport.Compile.Plan
import ScratchExport.Compile.Procedure
import ScratchExport.Compile.Sensing
import ScratchExport.Compile.Slots
import ScratchExport.Export.Files
import ScratchExport.Export.Job
import ScratchExport.Export.Options
import ScratchExport.Export.Output
import ScratchExport.Export.Page
import ScratchExport.Export.TargetFile
import ScratchExport.Export.Watcher
import ScratchExport.Fault
import ScratchExport.Json.Reader
import ScratchExport.Layout.Format
import ScratchExport.Layout.Indent
import ScratchExport.Layout.Scan
import ScratchExport.Literal.Color
import ScratchExport.Literal.Number
import ScratchExport.Literal.Source
import ScratchExport.Main
import ScratchExport.Name.Identifier
import ScratchExport.Name.Reserved
import ScratchExport.Name.Space
import ScratchExport.Name.Table
import ScratchExport.Noted
import ScratchExport.Opcode.Basic
import ScratchExport.Opcode.Traits
import ScratchExport.Path
import ScratchExport.Project.Basic
import ScratchExport.Project.Block
import ScratchExport.Project.Calls
import ScratchExport.Project.Script
import ScratchExport.Shape
import ScratchExport.Text.Blank
import ScratchExport.Text.Case
import ScratchExport.Text.CaseTable
import ScratchExport.Text.CharSet
import ScratchExport.Text.Digit
import ScratchExport.Text.Lines
import ScratchExport.Text.Literal
import ScratchExport.Text.Numeral
import ScratchExport.Text.Printable
import ScratchExport.Text.Quoted
import ScratchExport.Url.Host
import ScratchExport.Url.Join
import ScratchExport.Url.Parts
import ScratchExport.Url.Relative
import ScratchExport.Value.Basic
import ScratchExport.Value.Text
import ScratchExport.Zip.Archive
import ScratchExport.Zip.Bits
import ScratchExport.Zip.Checksum
import ScratchExport.Zip.Code
import ScratchExport.Zip.Inflate
import ScratchExport.Proofs.Identifier
import ScratchExport.Proofs.Outcome
import ScratchExport.Proofs.Assoc
import ScratchExport.Proofs.Calls
import ScratchExport.Proofs.NameTable
import ScratchExport.Proofs.CallsInBodies
import ScratchExport.Proofs.Numerals
import ScratchExport.Proofs.YieldScan
import ScratchExport.Proofs.Texts
import ScratchExport.Proofs.YieldValues
import ScratchExport.Proofs.Plans
import ScratchExport.Proofs.Fits
import ScratchExport.Proofs.Opcodes
import ScratchExport.Proofs.PlanLaw
import ScratchExport.Proofs.Fragments
import ScratchExport.Proofs.WarpMode
import ScratchExport.Proofs.Integers
import ScratchExport.Proofs.Spelling
import ScratchExport.Proofs.Reading
import ScratchExport.Proofs.Arithmetic
import ScratchExport.Proofs.Trees
import ScratchExport.Proofs.Faults
import ScratchExport.Proofs.Totality
import ScratchExport.Proofs.Brackets
import ScratchExport.Proofs.ClosedSource
import ScratchExport.Proofs.ClosedPlans
import ScratchExport.Proofs.Grouping
import ScratchExport.Proofs.References
import ScratchExport.Proofs.Constructor
import ScratchExport.Proofs.Bindings
import ScratchExport.Proofs.Watchers
import ScratchExport.Proofs.Assets
import ScratchExport.Proofs.LexicalScan
import ScratchExport.Proofs.CommentMarks
import ScratchExport.Proofs.LexicalClosure
import ScratchExport.Proofs.MarkerCount
import ScratchExport.Proofs.Degradation
import ScratchExport.Proofs.BlockReading
import ScratchExport.Proofs.LoadedScripts
import ScratchExport.Proofs.LiteralLines
import ScratchExport.Proofs.LocalJoin
import ScratchExport.Proofs.OutputRoot
import ScratchExport.Proofs.ExportTotality
import ScratchExport.Proofs.GeneratedFiles
import ScratchExport.Proofs.Decimals
import ScratchExport.Proofs.Execution
import ScratchExport.Proofs.Increments
import ScratchExport.Proofs.NameAccounts
import ScratchExport.Proofs.RelativeUrl
import ScratchExport.Proofs.CallArguments
import ScratchExport.Proofs.LoopNames
import ScratchExport.Proofs.Scopes
import ScratchExport.Proofs.CallClosure
import ScratchExport.Proofs.Pieces
import ScratchExport.Proofs.TidyLines
import ScratchExport.Proofs.FormattedLines
import ScratchExport.Proofs.NumericTexts
import ScratchExport.Proofs.BracketLevels
import ScratchExport.Proofs.InitialValues
import ScratchExport.Proofs.Headings
import ScratchExport.Proofs.NumericSource
import ScratchExport.Proofs.NaNOrigins
import ScratchExport.Proofs.ColorTexts
import ScratchExport.Proofs.DataFaults
import ScratchExport.Proofs.AcyclicTables

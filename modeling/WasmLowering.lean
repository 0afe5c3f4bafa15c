import WasmLowering.Binary.Code
import WasmLowering.Binary.Decode
import WasmLowering.Binary.DecodeError
import WasmLowering.Binary.Encode
import WasmLowering.Binary.Leb128
import WasmLowering.Binary.NameSection
import WasmLowering.Binary.Reader
import WasmLowering.Binary.Sections
import WasmLowering.Bindings
import WasmLowering.Browser
import WasmLowering.C.Comment
import WasmLowering.C.FunctionText
import WasmLowering.C.Literal
import WasmLowering.C.Operator
import WasmLowering.C.Preamble
import WasmLowering.C.Printer
import WasmLowering.C.Program
import WasmLowering.C.ProgramText
import WasmLowering.C.Spelling
import WasmLowering.C.Statement
import WasmLowering.C.Support
import WasmLowering.Command.FileTree
import WasmLowering.Command.Plan
import WasmLowering.Compile
import WasmLowering.Constant
import WasmLowering.Decimal.FloatBits
import WasmLowering.Decimal.Rounding
import WasmLowering.Emission.Emit
import WasmLowering.Emission.EmitError
import WasmLowering.Emission.EntitySymbols
import WasmLowering.Emission.Lowering
import WasmLowering.Failure
import WasmLowering.Instr
import WasmLowering.Instr.Traversal
import WasmLowering.Listing
import WasmLowering.Main
import WasmLowering.Module
import WasmLowering.Naming.Apply
import WasmLowering.Naming.Fresh
import WasmLowering.Naming.Resolve
import WasmLowering.Opcode
import WasmLowering.Proofs.Decoding.Assembly
import WasmLowering.Proofs.Decoding.CustomSections
import WasmLowering.Proofs.Decoding.Entries
import WasmLowering.Proofs.Decoding.Erasure
import WasmLowering.Proofs.Decoding.ExportNames
import WasmLowering.Proofs.Decoding.Framing
import WasmLowering.Proofs.Decoding.Grounded
import WasmLowering.Proofs.Decoding.Indexed
import WasmLowering.Proofs.Decoding.InstructionForms
import WasmLowering.Proofs.Decoding.InstructionReading
import WasmLowering.Proofs.Decoding.ModuleStructure
import WasmLowering.Proofs.Decoding.InstructionFacts
import WasmLowering.Proofs.Decoding.NumberReading
import WasmLowering.Proofs.Decoding.Numbers
import WasmLowering.Proofs.Decoding.Postcondition
import WasmLowering.Proofs.Decoding.Reading
import WasmLowering.Proofs.Decoding.SectionContents
import WasmLowering.Proofs.Decoding.Steadiness
import WasmLowering.Proofs.Decoding.Unlabelled
import WasmLowering.Proofs.Decoding.WellFormed
import WasmLowering.Proofs.Lowering.Body
import WasmLowering.Proofs.Lowering.BranchTargets
import WasmLowering.Proofs.Lowering.Emitted
import WasmLowering.Proofs.Lowering.Frame
import WasmLowering.Proofs.Lowering.Function
import WasmLowering.Proofs.Lowering.IndirectCalls
import WasmLowering.Proofs.Lowering.Labels
import WasmLowering.Proofs.Lowering.OperandStack
import WasmLowering.Proofs.Lowering.Operations
import WasmLowering.Proofs.Lowering.Parts
import WasmLowering.Proofs.Lowering.Points
import WasmLowering.Proofs.Lowering.Postcondition
import WasmLowering.Proofs.Lowering.Program
import WasmLowering.Proofs.Lowering.Symbols
import WasmLowering.Proofs.Lowering.TypeChecks
import WasmLowering.Proofs.Naming.BlockLabels
import WasmLowering.Proofs.Naming.EntityNames
import WasmLowering.Proofs.Naming.Exactness
import WasmLowering.Proofs.Naming.Freshness
import WasmLowering.Proofs.Naming.NamedCode
import WasmLowering.Proofs.Naming.References
import WasmLowering.Proofs.Naming.ReverseView
import WasmLowering.Proofs.Naming.SlotNames
import WasmLowering.Proofs.Results
import WasmLowering.Proofs.Semantics.Machine
import WasmLowering.Proofs.Semantics.Source
import WasmLowering.Proofs.Semantics.Statements
import WasmLowering.Proofs.Simulation.Agreement
import WasmLowering.Proofs.Simulation.Code
import WasmLowering.Proofs.Simulation.Function
import WasmLowering.Proofs.Simulation.Runs
import WasmLowering.Proofs.Simulation.Slots
import WasmLowering.Proofs.Symbols.HeaderDeclarations
import WasmLowering.Proofs.Symbols.Hygiene
import WasmLowering.Proofs.Symbols.Identifiers
import WasmLowering.Proofs.Symbols.Mangling
import WasmLowering.Proofs.Symbols.Overloads
import WasmLowering.Proofs.Typing.InstrTypes
import WasmLowering.Proofs.Typing.Rules
import WasmLowering.Reference
import WasmLowering.Symbol.Choice
import WasmLowering.Symbol.Mangle
import WasmLowering.Symbol.Reserved
import WasmLowering.Text.Hex
import WasmLowering.Text.LowerCase
import WasmLowering.Text.Path
import WasmLowering.Text.Pattern
import WasmLowering.Text.Printable
import WasmLowering.Text.Quoted
import WasmLowering.Text.Space
import WasmLowering.Text.Utf8
import WasmLowering.TextFormat
import WasmLowering.ValueType
import WasmLowering.Proofs.Naming.Reapplication
import WasmLowering.Proofs.Naming.Stability
import WasmLowering.Proofs.Lowering.Recompilation
import WasmLowering.Proofs.Lowering.Accesses
import WasmLowering.Proofs.Lowering.Reports
import WasmLowering.Proofs.Lowering.Totality
import WasmLowering.Proofs.Decoding.Extension
import WasmLowering.Proofs.Decoding.Sketches
import WasmLowering.Proofs.Decoding.SketchNames
import WasmLowering.Proofs.Decoding.SketchSections
import WasmLowering.Proofs.Decoding.RoundTrip
import WasmLowering.Proofs.Lowering.LabelLayout
import WasmLowering.Proofs.Lowering.JumpLabels
import WasmLowering.Proofs.Naming.ScopeNames
import WasmLowering.Proofs.Symbols.HelperNames
import WasmLowering.Proofs.Semantics.Setup
import WasmLowering.Proofs.Lowering.SegmentChecks
import WasmLowering.Proofs.Decoding.BlockTypes
import WasmLowering.Proofs.Decoding.LeadBytes
import WasmLowering.Proofs.Semantics.NamedSource
import WasmLowering.Proofs.Lowering.DeadCode
import WasmLowering.Proofs.Lowering.OperandSteps
import WasmLowering.Proofs.Lowering.Mentions
import WasmLowering.Proofs.Lowering.LoweredStatements
import WasmLowering.Proofs.Lowering.EffectiveAddresses
import WasmLowering.Proofs.Symbols.ExportSymbols
import WasmLowering.Proofs.Symbols.FunctionLayout
import WasmLowering.Proofs.Symbols.VariableDeclarations
import WasmLowering.Proofs.Constants.DecimalReading
import WasmLowering.Proofs.Constants.DecimalRounding
import WasmLowering.Proofs.Constants.FloatValues
import WasmLowering.Proofs.Constants.LiteralTexts
import WasmLowering.Proofs.Decoding.ShortestForms
import WasmLowering.Proofs.Text.EscapedNames
import WasmLowering.Proofs.Text.PrintedLines
import WasmLowering.Proofs.Text.CommentLines
import WasmLowering.Proofs.Text.Hexadecimal
import WasmLowering.Proofs.Text.IncludeGuards
import WasmLowering.Proofs.Browser.Consistency
import WasmLowering.Proofs.Simulation.ParallelMoves
import WasmLowering.Proofs.Naming.LeastSuffixes
import WasmLowering.Proofs.Instr.Traversals
import WasmLowering.Proofs.Text.ByteOrder
import WasmLowering.Proofs.Naming.LastBindings
import WasmLowering.Proofs.Decoding.NestedReaders

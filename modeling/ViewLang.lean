import ViewLang.Main
import ViewLang.Proofs.Go.NodeScopes
import ViewLang.Proofs.Gpu.HostImage
import ViewLang.Proofs.Gpu.ShaderLayout
import ViewLang.Proofs.Analysis.Lexical
import ViewLang.Proofs.Analysis.Findings
import ViewLang.Proofs.Go.Moments
import ViewLang.Proofs.Go.KnownTargets
import ViewLang.Proofs.Go.DeferredUpdates
import ViewLang.Proofs.Go.Marked
import ViewLang.Proofs.Go.MarkedLowering
import ViewLang.Proofs.Go.MarkedText
import ViewLang.Proofs.Go.GeneratorCalls
import ViewLang.Proofs.Go.Alias
import ViewLang.Proofs.Go.CollectedUses
import ViewLang.Proofs.Go.Hygiene
import ViewLang.Proofs.Gpu.Containment
import ViewLang.Proofs.Token.Lexing
import ViewLang.Proofs.Token.Nesting
import ViewLang.Proofs.Token.Partition
import ViewLang.Proofs.Grammar.Canonical
import ViewLang.Proofs.Grammar.Reading
import ViewLang.Proofs.Grammar.Types
import ViewLang.Proofs.Grammar.Exprs
import ViewLang.Proofs.Grammar.Operands
import ViewLang.Proofs.Grammar.Statements
import ViewLang.Proofs.Grammar.Loops
import ViewLang.Proofs.Grammar.RoundTrip
import ViewLang.Proofs.Grammar.Descent
import ViewLang.Proofs.Grammar.Termination
import ViewLang.Proofs.Grammar.Placing
import ViewLang.Proofs.Grammar.PlacedExprs
import ViewLang.Proofs.Grammar.PlacedStatements
import ViewLang.Proofs.Grammar.Signatures
import ViewLang.Proofs.Grammar.BodyItems
import ViewLang.Proofs.Grammar.SpanSoundness
import ViewLang.Proofs.Grammar.Agreement
import ViewLang.Proofs.Grammar.AgreedTrees
import ViewLang.Proofs.Token.Respelling
import ViewLang.Proofs.Syntax.Phrases
import ViewLang.Proofs.Gpu.Subset
import ViewLang.Proofs.Gpu.Acceptance
import ViewLang.Proofs.Gpu.SupportedUnits
import ViewLang.Proofs.Gpu.KeyedLiterals
import ViewLang.Proofs.Gpu.FlatValues
import ViewLang.Proofs.Go.ChannelFields
import ViewLang.Proofs.Syntax.Templates
import ViewLang.Proofs.Go.Mirrors
import ViewLang.Proofs.Grammar.Consumed
import ViewLang.Proofs.Go.Pieces
import ViewLang.Proofs.Go.Joints
import ViewLang.Proofs.Go.Chains
import ViewLang.Proofs.Go.Rereading
import ViewLang.Proofs.Compile.Options
import ViewLang.Proofs.Cli.FileTree
import ViewLang.Proofs.Cli.Run
import ViewLang.Proofs.Go.FieldNames
import ViewLang.Proofs.Go.Arguments
import ViewLang.Proofs.Go.ImportBlock
import ViewLang.Proofs.Gpu.WordLayout
import ViewLang.Proofs.Token.Lines
import ViewLang.Proofs.Syntax.Traversal
import ViewLang.Proofs.Syntax.Throughout
import ViewLang.Proofs.Syntax.Words
import ViewLang.Proofs.Syntax.Forms
import ViewLang.Proofs.Grammar.FormedExprs
import ViewLang.Proofs.Grammar.FormedTrees
import ViewLang.Proofs.Go.Delimiters
import ViewLang.Proofs.Go.BalancedText
import ViewLang.Proofs.Go.BalancedFile
import ViewLang.Proofs.Go.Quoting
import ViewLang.Proofs.Go.Formatting
import ViewLang.Proofs.Go.TypeRereading
import ViewLang.Proofs.Go.TypeDirections
import ViewLang.Proofs.Grammar.Parameters
import ViewLang.Proofs.Go.RangeMarks
import ViewLang.Proofs.Go.HeaderReading
import ViewLang.Proofs.Go.HeaderBlocks
import ViewLang.Proofs.Gpu.ShaderText
import ViewLang.Proofs.Gpu.Blocks
import ViewLang.Proofs.Gpu.Conditionals
import ViewLang.Proofs.Gpu.Decorators
import ViewLang.Proofs.LineIndex
import ViewLang.Proofs.Token.Faults
import ViewLang.Proofs.Token.MaximalMunch
import ViewLang.Proofs.Go.TypeSpelling
import ViewLang.Proofs.Syntax.Outline
import ViewLang.Proofs.Grammar.OutlineLines

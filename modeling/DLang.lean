import DLang.Parsing.Session
import DLang.Main
import DLang.Proofs.Lowering.Acceptance
import DLang.Proofs.Execution.Preservation
import DLang.Proofs.Module.Linkage
import DLang.Proofs.Module.Registers
import DLang.Proofs.Module.Spelling
import DLang.Proofs.Lexing.Layout
import DLang.Proofs.Lexing.Numerals
import DLang.Proofs.Source.Printable
import DLang.Proofs.Source.Writing
import DLang.Proofs.Static.Reuse
import DLang.Proofs.Static.Annotations
import DLang.Proofs.Static.Interleaving
import DLang.Proofs.Source.Blanking
import DLang.Proofs.Static.PlainTrees
import DLang.Proofs.Source.Typing
import DLang.Proofs.Execution.Comparisons
import DLang.Proofs.Module.PointerStyles
import DLang.Proofs.Module.FinalReturn
import DLang.Proofs.Grammar.EarliestError
import DLang.Proofs.Symbol.History
import DLang.Proofs.Lowering.Defects
import DLang.Proofs.Source.Leftmost
import DLang.Proofs.Renaming.Texts
import DLang.Proofs.Tree.Unambiguity
import DLang.Proofs.Command.Delivery
import DLang.Proofs.Module.Renumbering
import DLang.Proofs.Module.WrittenNumbers
import DLang.Proofs.Lexing.Concatenation
import DLang.Proofs.Source.Respacing
import DLang.Proofs.Grammar.Sessions
import DLang.Proofs.Command.SourceFile

import BorrowChecker.File.Memory
import BorrowChecker.Main
import BorrowChecker.Mir.Builder
import BorrowChecker.Ownership.Breach
import BorrowChecker.Proofs.Flow
import BorrowChecker.Proofs.Lattice
import BorrowChecker.Session.Log
import BorrowChecker.Proofs.Step
import BorrowChecker.Proofs.Effect
import BorrowChecker.Proofs.Site
import BorrowChecker.Proofs.Worklist
import BorrowChecker.Proofs.Analysis
import BorrowChecker.Proofs.Liveness
import BorrowChecker.Proofs.Release
import BorrowChecker.Proofs.Alias
import BorrowChecker.Proofs.Provenance
import BorrowChecker.Proofs.DoubleDrop
import BorrowChecker.Proofs.Exactness
import BorrowChecker.Proofs.Fixpoint
import BorrowChecker.Proofs.Verdict
import BorrowChecker.Proofs.CaseOrder
import BorrowChecker.Proofs.DeadBlock
import BorrowChecker.Proofs.Guarded
import BorrowChecker.Proofs.Quotation
import BorrowChecker.Proofs.Spelling
import BorrowChecker.Proofs.Numerals
import BorrowChecker.Proofs.Printed
import BorrowChecker.Proofs.Rounding
import BorrowChecker.Proofs.Decimals
import BorrowChecker.Proofs.Lines
import BorrowChecker.Proofs.Reading
import BorrowChecker.Proofs.ReadingLines
import BorrowChecker.Proofs.RoundTrip
import BorrowChecker.Proofs.Composed
import BorrowChecker.Proofs.Accepted
import BorrowChecker.Proofs.ReadAhead
import BorrowChecker.Proofs.Sweep
import BorrowChecker.Proofs.Codecs
import BorrowChecker.Proofs.Lossless
import BorrowChecker.Proofs.Conduct
import BorrowChecker.Proofs.Account
import BorrowChecker.Proofs.Files
import BorrowChecker.Proofs.Recall
import BorrowChecker.Proofs.Joins
import BorrowChecker.Proofs.Reports
import BorrowChecker.Proofs.Repeats
import BorrowChecker.Proofs.Grammar
import BorrowChecker.Proofs.Search
import BorrowChecker.Proofs.Bags
import BorrowChecker.Proofs.Elision
import BorrowChecker.Proofs.Decomposition
import BorrowChecker.Proofs.Strays
import BorrowChecker.Proofs.Canonical
import BorrowChecker.Proofs.ModuleNames
import BorrowChecker.Proofs.Rows
import BorrowChecker.Proofs.References
import BorrowChecker.Proofs.Frame
import BorrowChecker.Proofs.Lexeme
import BorrowChecker.Proofs.Tiling
import BorrowChecker.Proofs.Walk
import BorrowChecker.Proofs.WalkLines

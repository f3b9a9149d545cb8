import WordMachine.Listing
import WordMachine.Main
import WordMachine.Proofs.Reassembly
import WordMachine.Proofs.Runs
import WordMachine.Proofs.Concatenation
import WordMachine.Proofs.ControlFlow
import WordMachine.Proofs.EvaluationWidth
import WordMachine.Proofs.Grammar
import WordMachine.Proofs.LiftingDomain
import WordMachine.Proofs.Relocation
import WordMachine.Proofs.Rereading
import WordMachine.Proofs.Resuming
import WordMachine.Proofs.DistinctTexts
import WordMachine.Proofs.LiftedText
import WordMachine.Proofs.Patching
import WordMachine.Proofs.LineLayout
import WordMachine.Proofs.ListingLayout
import WordMachine.Proofs.CharacterOperand
import WordMachine.Proofs.NumeralOperand
import WordMachine.Proofs.OperationName
import WordMachine.Proofs.ArithmeticBounds
import WordMachine.Proofs.WordAccess
import WordMachine.Proofs.ReportLines
import WordMachine.Proofs.FaithfulReports
import WordMachine.Proofs.AssemblyRuns

import Calculator.Cursor
import Calculator.Grammar
import Calculator.Json.Grammar
import Calculator.Machine
import Calculator.Main
import Calculator.Proofs.Production
import Calculator.Proofs.Evaluation
import Calculator.Proofs.Simulation
import Calculator.Proofs.FirstProblem
import Calculator.Proofs.NestingLimit
import Calculator.Proofs.Numerals
import Calculator.Proofs.Composition
import Calculator.Proofs.Printing
import Calculator.Proofs.Relocation
import Calculator.Proofs.Replacement
import Calculator.Proofs.Diagnosis
import Calculator.Proofs.Cuts
import Calculator.Proofs.Insertion
import Calculator.Proofs.Splitting
import Calculator.Proofs.Rendering
import Calculator.Proofs.Rounding
import Calculator.Proofs.ReadBack
import Calculator.Proofs.DoubleBits
import Calculator.Proofs.NumberRange
import Calculator.Proofs.JsonText
import Calculator.Proofs.ReplyText
import Calculator.Proofs.FrontEnds
import Calculator.Proofs.Answers
import Calculator.Proofs.Dotted
import Calculator.Proofs.Lookahead
import Calculator.Proofs.Consumption
import Calculator.Proofs.Control
import Calculator.Proofs.Results
import Calculator.Proofs.Literals
import Calculator.Proofs.JsonGrammar
import Calculator.Proofs.Bodies
import Calculator.Proofs.Files
import Calculator.Proofs.Progress
import Calculator.Proofs.Depth
import Calculator.Proofs.Absorption

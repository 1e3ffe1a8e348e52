import BoolTensor.Algebra.Point
import BoolTensor.Algebra.Written
import BoolTensor.Main
import BoolTensor.Number.Reading
import BoolTensor.Program.Memory
import BoolTensor.Proofs.Circuit.Arithmetic
import BoolTensor.Proofs.Circuit.Clauses
import BoolTensor.Proofs.Circuit.FirstAxis
import BoolTensor.Proofs.Circuit.Reindexing
import BoolTensor.Proofs.Circuit.Unfit
import BoolTensor.Proofs.Program.Capacity
import BoolTensor.Proofs.Program.Cell
import BoolTensor.Proofs.Program.CellCount
import BoolTensor.Proofs.Program.Clearing
import BoolTensor.Proofs.Program.Constants
import BoolTensor.Proofs.Program.DryRun
import BoolTensor.Proofs.Program.Evaluation
import BoolTensor.Proofs.Program.Inherited
import BoolTensor.Proofs.Program.Join
import BoolTensor.Proofs.Program.Reach
import BoolTensor.Proofs.Program.Tensor
import BoolTensor.Proofs.Program.Unfit
import BoolTensor.Proofs.Program.Valuation
import BoolTensor.Proofs.Program.Vector
import BoolTensor.Proofs.Puzzle.Addends
import BoolTensor.Proofs.Puzzle.Derangement
import BoolTensor.Proofs.Puzzle.Extension
import BoolTensor.Proofs.Puzzle.Size
import BoolTensor.Proofs.Shape.Indexing
import BoolTensor.Proofs.Shape.Strides
import BoolTensor.Proofs.Solver.Answers
import BoolTensor.Proofs.Solver.Dimacs
import BoolTensor.Proofs.Solver.Folding
import BoolTensor.Proofs.Storage.Chunks
import BoolTensor.Proofs.Tensor.Exchange
import BoolTensor.Proofs.Tensor.Mapping
import BoolTensor.Solver.TruthTable

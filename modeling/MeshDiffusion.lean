import MeshDiffusion.Arith.Scalar
import MeshDiffusion.Index.Axis
import MeshDiffusion.Index.Point
import MeshDiffusion.Index.Box
import MeshDiffusion.Index.Layout
import MeshDiffusion.Index.Periods
import MeshDiffusion.Field.Block
import MeshDiffusion.Field.Basic
import MeshDiffusion.Field.Arithmetic
import MeshDiffusion.Field.Reduction
import MeshDiffusion.Field.Exchange
import MeshDiffusion.Field.Levels
import MeshDiffusion.Text.Shortest
import MeshDiffusion.Text.Decimal
import MeshDiffusion.Text.Blank
import MeshDiffusion.Text.Numeral
import MeshDiffusion.Arith.Double
import MeshDiffusion.Mesh.Geometry
import MeshDiffusion.Mesh.Hierarchy
import MeshDiffusion.Mesh.Obstacle
import MeshDiffusion.Operator.Boundary
import MeshDiffusion.Operator.Basic
import MeshDiffusion.Operator.FiniteVolume
import MeshDiffusion.Notice
import MeshDiffusion.Solver.Basic
import MeshDiffusion.Solver.Inner
import MeshDiffusion.Solver.LinearSolver
import MeshDiffusion.Solver.ResidualCorrection
import MeshDiffusion.Setup.Tags
import MeshDiffusion.Setup.Options
import MeshDiffusion.Equation.LevelSystem
import MeshDiffusion.Equation.Failure
import MeshDiffusion.Equation.WallVelocity
import MeshDiffusion.Mesh.LevelFields
import MeshDiffusion.Equation.Basic
import MeshDiffusion.Recorder
import MeshDiffusion.Proofs.Index.PointSets
import MeshDiffusion.Proofs.Index.Images
import MeshDiffusion.Proofs.Index.Tiling
import MeshDiffusion.Proofs.Field.Exchange
import MeshDiffusion.Proofs.Arith.Comparison
import MeshDiffusion.Proofs.Arith.DoubleOrder
import MeshDiffusion.Proofs.Arith.Exact
import MeshDiffusion.Proofs.Operator.Filling
import MeshDiffusion.Proofs.Solver.ResidualCorrection
import MeshDiffusion.Proofs.Equation.Assembly
import MeshDiffusion.Proofs.Equation.Step
import MeshDiffusion.Proofs.Operator.Flux
import MeshDiffusion.Proofs.Equation.Balance
import MeshDiffusion.Proofs.Equation.Extrema
import MeshDiffusion.Proofs.Mesh.Hierarchy
import MeshDiffusion.Proofs.Setup.Tags
import MeshDiffusion.Proofs.Index.Adjacency
import MeshDiffusion.Proofs.Operator.Body
import MeshDiffusion.Proofs.Equation.Conservation
import MeshDiffusion.Proofs.Index.Cutting
import MeshDiffusion.Proofs.Operator.Partition
import MeshDiffusion.Proofs.Equation.Writing
import MeshDiffusion.Proofs.Equation.History
import MeshDiffusion.Proofs.Operator.Coverage
import MeshDiffusion.Proofs.Operator.Presence
import MeshDiffusion.Proofs.Operator.Decoupling
import MeshDiffusion.Proofs.Solver.Failure
import MeshDiffusion.Proofs.Solver.Acceptance
import MeshDiffusion.Proofs.Equation.Steady
import MeshDiffusion.Proofs.Equation.Uniqueness
import MeshDiffusion.Proofs.Equation.Protocol
import MeshDiffusion.Proofs.Operator.Linearity
import MeshDiffusion.Proofs.Solver.Superposition
import MeshDiffusion.Proofs.Solver.Krylov
import MeshDiffusion.Proofs.Operator.Symmetry
import MeshDiffusion.Proofs.Operator.Diagonal
import MeshDiffusion.Proofs.Operator.Ghosts
import MeshDiffusion.Proofs.Arith.Profile
import MeshDiffusion.Proofs.Mesh.Footprint
import MeshDiffusion.Proofs.Mesh.Cylinder
import MeshDiffusion.Proofs.Operator.Exactness
import MeshDiffusion.Proofs.Equation.Coefficients
import MeshDiffusion.Proofs.Equation.WallVelocity
import MeshDiffusion.Proofs.Access.Places
import MeshDiffusion.Proofs.Field.Addressing
import MeshDiffusion.Proofs.Access.Field
import MeshDiffusion.Proofs.Field.Pointwise
import MeshDiffusion.Proofs.Access.Operator
import MeshDiffusion.Proofs.Access.Solver
import MeshDiffusion.Proofs.Access.Step
import MeshDiffusion.Proofs.Access.Equation
import MeshDiffusion.Proofs.Text.Lines
import MeshDiffusion.Proofs.Setup.Outcome
import MeshDiffusion.Proofs.Setup.Params
import MeshDiffusion.Proofs.Setup.Options

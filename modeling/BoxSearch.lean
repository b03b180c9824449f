import BoxSearch.About
import BoxSearch.Archive.Front
import BoxSearch.Archive.Incumbent
import BoxSearch.Archive.Tracker
import BoxSearch.Bounds.Basic
import BoxSearch.Bounds.Tensor
import BoxSearch.Decimal.Binary
import BoxSearch.Decimal.Read
import BoxSearch.Decimal.Shortest
import BoxSearch.Decimal.Significant
import BoxSearch.Decimal.Text
import BoxSearch.Dominance.Basic
import BoxSearch.Dominance.Crowding
import BoxSearch.Dominance.Tensor
import BoxSearch.Error.Arguments
import BoxSearch.Error.Basic
import BoxSearch.Error.Report
import BoxSearch.Evaluation.Backend
import BoxSearch.Evaluation.Chunk
import BoxSearch.Fitness
import BoxSearch.Log.Console
import BoxSearch.Log.Event
import BoxSearch.Problem.Basic
import BoxSearch.Proofs.Dominance
import BoxSearch.Proofs.Dominance.Arrays
import BoxSearch.Proofs.Scalar.Binary
import BoxSearch.Proofs.Scalar.Order
import BoxSearch.Random.Array
import BoxSearch.Random.Draw
import BoxSearch.Random.Generator
import BoxSearch.Random.Listed
import BoxSearch.Random.LogOnePlus
import BoxSearch.Random.Normal
import BoxSearch.Random.Streams
import BoxSearch.Random.Uniform
import BoxSearch.Random.Ziggurat
import BoxSearch.Registry
import BoxSearch.Run.Basic
import BoxSearch.Run.Initial
import BoxSearch.Run.Notes
import BoxSearch.Run.Population
import BoxSearch.Run.Report
import BoxSearch.Run.Search
import BoxSearch.Run.View
import BoxSearch.Scalar.Basic
import BoxSearch.Session
import BoxSearch.Settings.Builder
import BoxSearch.Settings.Check
import BoxSearch.Settings.Differential
import BoxSearch.Settings.Family
import BoxSearch.Settings.Firefly
import BoxSearch.Settings.Genetic
import BoxSearch.Settings.Swarm
import BoxSearch.Settings.Teaching
import BoxSearch.Solver.Observer
import BoxSearch.Solver.Phase
import BoxSearch.Solver.Plan
import BoxSearch.Solver.Result
import BoxSearch.Solver.Solve
import BoxSearch.Stopping.Policy
import BoxSearch.Stopping.Source
import BoxSearch.Stopping.Stall
import BoxSearch.Strategy.Basic
import BoxSearch.Strategy.Differential
import BoxSearch.Strategy.Firefly
import BoxSearch.Strategy.Genetic
import BoxSearch.Strategy.Swarm
import BoxSearch.Strategy.Teaching
import BoxSearch.Tensor.Basic
import BoxSearch.Tensor.Broadcast
import BoxSearch.Text.Blank
import BoxSearch.Text.CloseMatch
import BoxSearch.Text.LowerCase
import BoxSearch.Text.Printable
import BoxSearch.Text.Quoted
import BoxSearch.Value.Arguments
import BoxSearch.Value.Basic
import BoxSearch.Value.Number
import BoxSearch.Value.Same
import BoxSearch.Variation
import BoxSearch.Variation.Named
import BoxSearch.Proofs.Archive.Maximal
import BoxSearch.Proofs.Archive.Front
import BoxSearch.Proofs.Run.Effects
import BoxSearch.Proofs.Archive.Tracker
import BoxSearch.Proofs.Run.Evaluation
import BoxSearch.Proofs.Run.Ledger
import BoxSearch.Proofs.Run.Agreement
import BoxSearch.Proofs.Run.Congruence
import BoxSearch.Proofs.Evaluation.Serial
import BoxSearch.Proofs.Evaluation.Chunks
import BoxSearch.Proofs.Evaluation.Parallel
import BoxSearch.Proofs.Strategy.Agreement
import BoxSearch.Proofs.Solver.Agreement
import BoxSearch.Proofs.Solver.Backends
import BoxSearch.Proofs.Archive.Held
import BoxSearch.Proofs.Archive.Limited
import BoxSearch.Proofs.Run.Fidelity
import BoxSearch.Proofs.Strategy.Fidelity
import BoxSearch.Proofs.Solver.Fidelity
import BoxSearch.Proofs.Scalar.Sign
import BoxSearch.Proofs.Archive.Crowding
import BoxSearch.Proofs.Run.Moves
import BoxSearch.Proofs.Strategy.Moves
import BoxSearch.Proofs.Stopping.Proper
import BoxSearch.Proofs.Solver.Events
import BoxSearch.Proofs.Solver.Rounds
import BoxSearch.Proofs.Solver.Enacting
import BoxSearch.Proofs.Solver.Course
import BoxSearch.Proofs.Solver.LifeCycle
import BoxSearch.Proofs.Solver.Stopping
import BoxSearch.Proofs.Except
import BoxSearch.Proofs.Random
import BoxSearch.Proofs.Run.Improvement
import BoxSearch.Proofs.Settings.Checked
import BoxSearch.Proofs.Strategy.Improvement
import BoxSearch.Proofs.Solver.Elitism
import BoxSearch.Proofs.Run.Outcomes
import BoxSearch.Proofs.Run.Boxed
import BoxSearch.Proofs.Strategy.Boxed
import BoxSearch.Proofs.Evaluation.Inside
import BoxSearch.Proofs.Run.Streams
import BoxSearch.Proofs.Solver.Box
import BoxSearch.Proofs.Draw
import BoxSearch.Proofs.Archive.Lasting
import BoxSearch.Proofs.Run.Underway
import BoxSearch.Proofs.Scalar.Value
import BoxSearch.Proofs.Strategy.Progress
import BoxSearch.Proofs.Solver.Progress
import BoxSearch.Proofs.Run.Together
import BoxSearch.Proofs.Strategy.Pace
import BoxSearch.Proofs.Solver.Pace
import BoxSearch.Proofs.Scalar.Unpack
import BoxSearch.Proofs.Scalar.Akin
import BoxSearch.Proofs.Related
import BoxSearch.Proofs.Run.Alongside
import BoxSearch.Proofs.Kinship.Rows
import BoxSearch.Proofs.Kinship.Archive
import BoxSearch.Proofs.Kinship.Variation
import BoxSearch.Proofs.Kinship.Run
import BoxSearch.Proofs.Kinship.Search
import BoxSearch.Proofs.Kinship.Strategy
import BoxSearch.Proofs.Kinship.Opening
import BoxSearch.Proofs.Kinship.View
import BoxSearch.Proofs.Kinship.Solver
import BoxSearch.Proofs.Solver.WarmStart
import BoxSearch.Proofs.Run.Intact
import BoxSearch.Proofs.Run.Formed
import BoxSearch.Proofs.Run.Replacement
import BoxSearch.Proofs.Evaluation.Stitching
import BoxSearch.Proofs.Evaluation.RowWise
import BoxSearch.Proofs.Strategy.Competition
import BoxSearch.Proofs.Strategy.Budget
import BoxSearch.Proofs.Solver.Budget
import BoxSearch.Proofs.Solver.Selection
import BoxSearch.Proofs.Solver.FirstPopulation
import BoxSearch.Proofs.Archive.Representative
import BoxSearch.Proofs.Strategy.Offers
import BoxSearch.Proofs.Solver.Trail
import BoxSearch.Proofs.Run.Undrawn
import BoxSearch.Proofs.Solver.Descent
import BoxSearch.Proofs.Strategy.Trials
import BoxSearch.Proofs.Scalar.Rounding
import BoxSearch.Proofs.Scalar.Operations
import BoxSearch.Proofs.Scalar.Share
import BoxSearch.Proofs.Scalar.Symmetric
import BoxSearch.Proofs.Archive.Places
import BoxSearch.Proofs.Archive.Losses
import BoxSearch.Proofs.Archive.Remembered
import BoxSearch.Proofs.Archive.Ideal
import BoxSearch.Proofs.Strategy.PersonalBest
import BoxSearch.Proofs.Solver.PersonalBest
import BoxSearch.Proofs.Stopping.Stall
import BoxSearch.Proofs.Strategy.Walks
import BoxSearch.Proofs.Run.Staleness
import BoxSearch.Proofs.Run.Tidy
import BoxSearch.Proofs.Run.Visiting
import BoxSearch.Proofs.Strategy.Visiting
import BoxSearch.Proofs.Random.Range
import BoxSearch.Proofs.Strategy.Crossover
import BoxSearch.Proofs.Scalar.Exact
import BoxSearch.Proofs.Run.LatinHypercube
import BoxSearch.Proofs.Solver.FilteredSample
import BoxSearch.Proofs.Settings.Validated
import BoxSearch.Proofs.Archive.Batches
import BoxSearch.Proofs.Settings.Overriding
import BoxSearch.Proofs.Stopping.Threshold
import BoxSearch.Proofs.Strategy.Lasting
import BoxSearch.Proofs.Solver.Opening
import BoxSearch.Proofs.Solver.Planning
import BoxSearch.Proofs.Solver.Threshold
import BoxSearch.Proofs.Scalar.Quotient
import BoxSearch.Proofs.Evaluation.Sharing
import BoxSearch.Proofs.Random.Distinct
import BoxSearch.Proofs.Run.Acceptance

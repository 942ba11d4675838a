import Proximity.Config.Json
import Proximity.Norm.Standard
import Proximity.Norm.Variants
import Proximity.Proofs.Binary64.Arithmetic
import Proximity.Proofs.Binary64.Inexact
import Proximity.Proofs.Binary64.Ordered
import Proximity.Proofs.Binary64.Packing
import Proximity.Proofs.Binary64.Result
import Proximity.Proofs.Binary64.Rounding
import Proximity.Proofs.Binary64.Value
import Proximity.Proofs.Norm.Finish
import Proximity.Proofs.Norm.Laws
import Proximity.Proofs.Norm.Monotone
import Proximity.Proofs.Norm.NonFinite
import Proximity.Proofs.Norm.Orientation
import Proximity.Proofs.NormMatrix.Column
import Proximity.Proofs.Observations
import Proximity.Proofs.PartialDistance
import Proximity.Proofs.Search.AddedColumn
import Proximity.Proofs.Search.AddedRow
import Proximity.Proofs.Search.Agreement
import Proximity.Proofs.Search.Basic
import Proximity.Proofs.Search.Complete
import Proximity.Proofs.Search.Distances
import Proximity.Proofs.Search.FastNearest
import Proximity.Proofs.Search.FastRun
import Proximity.Proofs.Search.FastTable
import Proximity.Proofs.Search.Lockstep
import Proximity.Proofs.Search.Naive
import Proximity.Proofs.Search.PairTable
import Proximity.Proofs.Search.Reports
import Proximity.Proofs.Search.Selection
import Proximity.Proofs.Search.Work
import Proximity.Search.MinDistances
import Proximity.Session
import Proximity.Proofs.Norm.NaN
import Proximity.Proofs.Norm.Largest
import Proximity.Proofs.Norm.Comparison
import Proximity.Proofs.Binary64.Bounds
import Proximity.Proofs.Binary64.SquareRoot
import Proximity.Proofs.Norm.Range
import Proximity.Proofs.NormMatrix.Variables
import Proximity.Proofs.Guarded.Basic
import Proximity.Proofs.Guarded.Build
import Proximity.Proofs.Guarded.Operation
import Proximity.Proofs.Norm.Accumulators
import Proximity.Proofs.Resumption
import Proximity.Proofs.FirstFault
import Proximity.Proofs.NormMatrix.Accessors
import Proximity.Proofs.NormMatrix.Sentinel
import Proximity.Proofs.Engine.Distance
import Proximity.Proofs.Engine.Product
import Proximity.Proofs.Engine.Tables
import Proximity.Proofs.Config.RoundTrip
import Proximity.Proofs.StoppingPoint
import Proximity.Proofs.Search.Addressing
import Proximity.Proofs.Session.Histories

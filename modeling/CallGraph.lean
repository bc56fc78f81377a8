import CallGraph.Assembly
import CallGraph.Proofs.Adjacency
import CallGraph.Proofs.Admission
import CallGraph.Proofs.Arrival
import CallGraph.Proofs.Calls
import CallGraph.Proofs.ClassListing
import CallGraph.Proofs.ClassReferences
import CallGraph.Proofs.Codec
import CallGraph.Proofs.Dispatch
import CallGraph.Proofs.Edges
import CallGraph.Proofs.Filling
import CallGraph.Proofs.Grammar
import CallGraph.Proofs.Intake
import CallGraph.Proofs.LevelOrder
import CallGraph.Proofs.Levels
import CallGraph.Proofs.Naming
import CallGraph.Proofs.Numerals
import CallGraph.Proofs.Places
import CallGraph.Proofs.Queries
import CallGraph.Proofs.Records
import CallGraph.Proofs.Refusal
import CallGraph.Proofs.Reports
import CallGraph.Proofs.Resolution
import CallGraph.Proofs.Screening
import CallGraph.Proofs.Snapshot
import CallGraph.Proofs.Tables
import CallGraph.Proofs.Text.Trim
import CallGraph.Proofs.Tokens
import CallGraph.Proofs.Walk.Agreement
import CallGraph.Proofs.Walk.Cap
import CallGraph.Proofs.Walk.Deepening
import CallGraph.Proofs.Walk.DepthFirst
import CallGraph.Proofs.Walk.Depths
import CallGraph.Proofs.Walk.Distance
import CallGraph.Proofs.Walk.Enumeration
import CallGraph.Proofs.Walk.Interruption
import CallGraph.Proofs.Walk.Link
import CallGraph.Proofs.Walk.Pairs
import CallGraph.Proofs.Walk.PathsTo
import CallGraph.Proofs.Walk.Ranks
import CallGraph.Proofs.Walk.Reach
import CallGraph.Proofs.Walk.Rounds
import CallGraph.Proofs.Writing
import CallGraph.Service.ClassReferences
import CallGraph.Service.Paths
import CallGraph.Service.Related
import CallGraph.Settings.Session
import CallGraph.Token

import SlabGraph.Pool.Contents
import SlabGraph.Graph.Dump
import SlabGraph.Log.Trail
import SlabGraph.Script.Decode
import SlabGraph.Script.Model
import SlabGraph.Proofs.Adjacency
import SlabGraph.Proofs.Board
import SlabGraph.Proofs.Clearing
import SlabGraph.Proofs.Conservation
import SlabGraph.Proofs.Dump
import SlabGraph.Proofs.Failure
import SlabGraph.Proofs.Handles
import SlabGraph.Proofs.Markers
import SlabGraph.Proofs.Numerations
import SlabGraph.Proofs.Order
import SlabGraph.Proofs.Pool.Guards
import SlabGraph.Proofs.Pool.Undo
import SlabGraph.Proofs.Removal
import SlabGraph.Proofs.Retargeting
import SlabGraph.Proofs.Script.Bytes
import SlabGraph.Proofs.Script.Trial
import SlabGraph.Proofs.Structure
import SlabGraph.Proofs.Subdivision
import SlabGraph.Proofs.Tag.Copies
import SlabGraph.Proofs.Tag.Sweeps
import SlabGraph.Proofs.Tour
import SlabGraph.Proofs.Heads
import SlabGraph.Proofs.Draining

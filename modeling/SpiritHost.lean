import SpiritHost.Bytes
import SpiritHost.Command.Arguments
import SpiritHost.Command.Output
import SpiritHost.Command.Program
import SpiritHost.Command.Session
import SpiritHost.Command.Words
import SpiritHost.Decimal.Binary32
import SpiritHost.Decimal.Binary64
import SpiritHost.Decimal.Overflow
import SpiritHost.Decimal.Shortest
import SpiritHost.Error
import SpiritHost.Files
import SpiritHost.Gene.Field
import SpiritHost.Gene.Layout
import SpiritHost.Json.Reader
import SpiritHost.Json.Value
import SpiritHost.Json.Writer
import SpiritHost.Loa.Basic
import SpiritHost.Loa.Declared
import SpiritHost.Loa.HostCall
import SpiritHost.Loa.Registry
import SpiritHost.Main
import SpiritHost.Manifest
import SpiritHost.Memory.Allocator
import SpiritHost.Memory.Heap
import SpiritHost.Memory.Linear
import SpiritHost.Proofs.Except
import SpiritHost.Proofs.Gene.Layout
import SpiritHost.Proofs.Loa.Debug
import SpiritHost.Proofs.Loa.Deeds
import SpiritHost.Proofs.Loa.History
import SpiritHost.Proofs.Loa.Log
import SpiritHost.Proofs.Loa.Merge
import SpiritHost.Proofs.Loa.Plantings
import SpiritHost.Proofs.Loa.Registry
import SpiritHost.Proofs.Lookup
import SpiritHost.Proofs.Manifest
import SpiritHost.Proofs.Memory.Allocation
import SpiritHost.Proofs.Memory.Bytes
import SpiritHost.Proofs.Memory.History
import SpiritHost.Proofs.Memory.Moves
import SpiritHost.Proofs.Memory.Readings
import SpiritHost.Proofs.Memory.Records
import SpiritHost.Proofs.Memory.Reservation
import SpiritHost.Proofs.Memory.Strings
import SpiritHost.Proofs.Seance.Conservation
import SpiritHost.Proofs.Seance.Entries
import SpiritHost.Proofs.Seance.Isolation
import SpiritHost.Proofs.Seance.Ledger
import SpiritHost.Proofs.Seance.Manifest
import SpiritHost.Proofs.Seance.Standing
import SpiritHost.Proofs.Seance.Values
import SpiritHost.Proofs.Spirit.Allocation
import SpiritHost.Proofs.Spirit.Arguments
import SpiritHost.Proofs.Spirit.Call
import SpiritHost.Proofs.Spirit.Capabilities
import SpiritHost.Proofs.Spirit.Changes
import SpiritHost.Proofs.Spirit.Debug
import SpiritHost.Proofs.Spirit.Deeds
import SpiritHost.Proofs.Spirit.Failure
import SpiritHost.Proofs.Spirit.HighWater
import SpiritHost.Proofs.Spirit.History
import SpiritHost.Proofs.Spirit.Load
import SpiritHost.Proofs.Spirit.Loading
import SpiritHost.Proofs.Spirit.Null
import SpiritHost.Proofs.Spirit.OneMemory
import SpiritHost.Proofs.Spirit.Operation
import SpiritHost.Proofs.Spirit.Plantings
import SpiritHost.Proofs.Spirit.Record
import SpiritHost.Proofs.Spirit.Refusal
import SpiritHost.Proofs.Spirit.Strings
import SpiritHost.Proofs.Spirit.Twins
import SpiritHost.Proofs.Text.Utf8
import SpiritHost.Proofs.Wasm.Debug
import SpiritHost.Proofs.Wasm.Deeds
import SpiritHost.Proofs.Wasm.History
import SpiritHost.Proofs.Wasm.Log
import SpiritHost.Proofs.Wasm.Trace
import SpiritHost.Seance
import SpiritHost.Source
import SpiritHost.Spirit.Basic
import SpiritHost.Spirit.Link
import SpiritHost.Spirit.Loader
import SpiritHost.Spirit.Options
import SpiritHost.Spirit.Store
import SpiritHost.Text.Blank
import SpiritHost.Text.Extending
import SpiritHost.Text.Hidden
import SpiritHost.Text.Quoted
import SpiritHost.Text.Ranges
import SpiritHost.Text.Utf8
import SpiritHost.Toml.Reader
import SpiritHost.Toml.Scalar
import SpiritHost.Toml.Value
import SpiritHost.Wasm.Binary
import SpiritHost.Wasm.Bounds
import SpiritHost.Wasm.Frame
import SpiritHost.Wasm.Liveness
import SpiritHost.Wasm.Machine
import SpiritHost.Wasm.Module
import SpiritHost.Wasm.Numeric
import SpiritHost.Wasm.Table
import SpiritHost.Wasm.Trap
import SpiritHost.Wasm.Types
import SpiritHost.Wasm.Typing
import SpiritHost.Proofs.Memory.Storing
import SpiritHost.Proofs.Spirit.Storing
import SpiritHost.Proofs.Gene.Least
import SpiritHost.Proofs.Memory.Untrusted
import SpiritHost.Proofs.Spirit.Room
import SpiritHost.Proofs.Memory.Requests
import SpiritHost.Proofs.Spirit.Replay
import SpiritHost.Proofs.Decimal.Widening
import SpiritHost.Proofs.Json.Integers
import SpiritHost.Proofs.Spirit.Marshalling
import SpiritHost.Proofs.Command.Words
import SpiritHost.Proofs.Command.Targets
import SpiritHost.Proofs.Toml.Keys
import SpiritHost.Proofs.Toml.Settings
import SpiritHost.Proofs.Manifest.Table
import SpiritHost.Proofs.Manifest.Loading
import SpiritHost.Proofs.Manifest.Locations
import SpiritHost.Proofs.Memory.Rounding
import SpiritHost.Proofs.Loa.Honest
import SpiritHost.Proofs.Wasm.Judgement
import SpiritHost.Proofs.Wasm.Preservation
import SpiritHost.Proofs.Spirit.Soundness
import SpiritHost.Proofs.Spirit.Introspection

import Ps2Unpacker.Framework.Outcome
import Ps2Unpacker.Framework.Scan
import Ps2Unpacker.Framework.Overlay
import Ps2Unpacker.Framework.View
import Ps2Unpacker.Framework.Stops
import Ps2Unpacker.Framework.Fuel
import Ps2Unpacker.Framework.WhileLoop
import Ps2Unpacker.Framework.Printf
import Ps2Unpacker.Framework.DelaySlot
import Ps2Unpacker.Framework.Lanes
import Ps2Unpacker.Framework.LittleEndian
import Ps2Unpacker.Framework.Merge
import Ps2Unpacker.Framework.SignExtended
import Ps2Unpacker.Framework.Store
import Ps2Unpacker.Framework.Accumulator
import Ps2Unpacker.Framework.Agreement
import Ps2Unpacker.Framework.Saturation
import Ps2Unpacker.Framework.Division
import Ps2Unpacker.Framework.Shuffle
import Ps2Unpacker.Framework.BitFields
import Ps2Unpacker.Framework.LeadingBits
import Ps2Unpacker.Machine.Registers
import Ps2Unpacker.Machine.State
import Ps2Unpacker.Machine.Memory
import Ps2Unpacker.Machine.Interpreter
import Ps2Unpacker.Machine.MMI
import Ps2Unpacker.Machine.InterTables
import Ps2Unpacker.Machine.Disassembler
import Ps2Unpacker.Machine.Operands
import Ps2Unpacker.Machine.Coprocessors
import Ps2Unpacker.Machine.DisR5900asm
import Ps2Unpacker.Machine.Elf
import Ps2Unpacker.Machine.Main
import Ps2Unpacker.Semantics.Access
import Ps2Unpacker.Semantics.Atoms
import Ps2Unpacker.Semantics.ByteStore
import Ps2Unpacker.Semantics.Loads
import Ps2Unpacker.Semantics.PartialStores
import Ps2Unpacker.Semantics.Quiet
import Ps2Unpacker.Semantics.Frame
import Ps2Unpacker.Semantics.Exec
import Ps2Unpacker.Semantics.DelayChain
import Ps2Unpacker.Semantics.Footprint
import Ps2Unpacker.Semantics.Loader
import Ps2Unpacker.Semantics.Lanewise
import Ps2Unpacker.Semantics.Shuffles
import Ps2Unpacker.Semantics.Decode
import Ps2Unpacker.Semantics.HiLo
import Ps2Unpacker.Semantics.Architecture
import Ps2Unpacker.Semantics.Accesses
import Ps2Unpacker.Semantics.AccessTags
import Ps2Unpacker.Semantics.Faults
import Ps2Unpacker.Properties.Runs
import Ps2Unpacker.Properties.Canonical
import Ps2Unpacker.Properties.EntryPoint
import Ps2Unpacker.Properties.FatalPath
import Ps2Unpacker.Properties.Range
import Ps2Unpacker.Properties.RangeSafety
import Ps2Unpacker.Properties.Aliasing
import Ps2Unpacker.Properties.ParallelWords
import Ps2Unpacker.Properties.MultiplyAccumulate
import Ps2Unpacker.Properties.Pipelines
import Ps2Unpacker.Properties.Decoders
import Ps2Unpacker.Properties.Listing
import Ps2Unpacker.Properties.Reading
import Ps2Unpacker.Properties.ByteStore
import Ps2Unpacker.Properties.Quadword
import Ps2Unpacker.Properties.UnalignedLoads
import Ps2Unpacker.Properties.StoreTags
import Ps2Unpacker.Properties.LoaderSafety
import Ps2Unpacker.Properties.ElfRoundTrip
import Ps2Unpacker.Properties.Saturation
import Ps2Unpacker.Properties.FunnelShift
import Ps2Unpacker.Properties.HorizontalProducts
import Ps2Unpacker.Properties.Division
import Ps2Unpacker.Properties.Alignment
import Ps2Unpacker.Properties.InstructionFrame
import Ps2Unpacker.Properties.Termination
import Ps2Unpacker.Properties.UnalignedStores
import Ps2Unpacker.Properties.Packing
import Ps2Unpacker.Properties.LeadingBits
import Ps2Unpacker.Properties.Reproducible
import Ps2Unpacker.Properties.Transcript
import Ps2Unpacker.Properties.Refinement
import Ps2Unpacker.Properties.Output
import Ps2Unpacker.Properties.Ledger
import Ps2Unpacker.Properties.AccessTags
import Ps2Unpacker.Properties.History
import Ps2Unpacker.Properties.Unrolling
import Ps2Unpacker.Properties.CallOutcome
import Ps2Unpacker.Properties.Endings
import Ps2Unpacker.Properties.Endless
import Ps2Unpacker.Properties.Unpacking
import Ps2Unpacker.Properties.ElfFiles
import Ps2Unpacker.Properties.Conversion

import Handheld.Word
import Handheld.Text.Hex
import Handheld.Memory.Basic
import Handheld.Instruction.Basic
import Handheld.Instruction.Opcode
import Handheld.Instruction.Decode
import Handheld.Instruction.Encode
import Handheld.Instruction.Text
import Handheld.Instruction.Listing
import Handheld.Instruction.Assembly
import Handheld.Interrupt
import Handheld.Model
import Handheld.Registers.Basic
import Handheld.Registers.SavedState
import Handheld.Arithmetic
import Handheld.Event
import Handheld.Processor.MicroOp
import Handheld.Processor.Program
import Handheld.Processor.Effect
import Handheld.Processor.Basic
import Handheld.Processor.Tick
import Handheld.Bytes
import Handheld.Text.Utf8
import Handheld.Text.Quoted
import Handheld.Text.Seen
import Handheld.Section.Ram
import Handheld.Section.IoRegisters
import Handheld.Section.Basic
import Handheld.Cartridge.Header
import Handheld.Cartridge.Checksum
import Handheld.Cartridge.Basic
import Handheld.MemoryMap.Basic
import Handheld.MemoryMap.Build
import Handheld.MemoryMap.Console
import Handheld.Console
import Handheld.Run.Basic
import Handheld.Run.Snapshots
import Handheld.Overflow
import Handheld.BankAllocator
import Handheld.Toml.Value
import Handheld.Toml.Strings
import Handheld.Toml.Date
import Handheld.Toml.Number
import Handheld.Toml.Document
import Handheld.Settings.Basic
import Handheld.FileSystem
import Handheld.Cartridge.File
import Handheld.Command.Arguments
import Handheld.Command.Execute
import Handheld.Main
import Handheld.Proofs.Memory.Holds
import Handheld.Proofs.Instruction.OpcodeTable
import Handheld.Proofs.Instruction.Codec
import Handheld.Proofs.Instruction.MachineCode
import Handheld.Proofs.Processor.Passage
import Handheld.Proofs.Instruction.Form
import Handheld.Proofs.Processor.Atomic
import Handheld.Proofs.Processor.Shape
import Handheld.Proofs.Processor.Fetch
import Handheld.Proofs.Processor.Refinement
import Handheld.Proofs.Processor.Footprint
import Handheld.Proofs.Processor.Step
import Handheld.Proofs.Processor.Control
import Handheld.Proofs.Bytes
import Handheld.Proofs.Cartridge.Storage
import Handheld.Proofs.Section.Sound
import Handheld.Proofs.Section.Kept
import Handheld.Proofs.Section.Started
import Handheld.Proofs.MemoryMap.Outline
import Handheld.Proofs.MemoryMap.Coverage
import Handheld.Proofs.MemoryMap.Build
import Handheld.Proofs.MemoryMap.Cells
import Handheld.Proofs.MemoryMap.Ways
import Handheld.Proofs.MemoryMap.Aliases
import Handheld.Proofs.Memory.RandomAccess
import Handheld.Proofs.Processor.Answers
import Handheld.Proofs.MemoryMap.Console
import Handheld.Proofs.Console.Reachable
import Handheld.Proofs.MemoryMap.Layout
import Handheld.Proofs.MemoryMap.Reach
import Handheld.Proofs.MemoryMap.Startup
import Handheld.Proofs.Processor.Modes
import Handheld.Proofs.Processor.Coherence
import Handheld.Proofs.Processor.MasterEnable
import Handheld.Proofs.Processor.Dispatch
import Handheld.Proofs.Console.Requests
import Handheld.Proofs.Allocation.Calls
import Handheld.Proofs.Allocation.History
import Handheld.Proofs.Allocation.Room
import Handheld.Proofs.Allocation.Returns
import Handheld.Proofs.Cartridge.Banking
import Handheld.Proofs.Processor.Duration
import Handheld.Proofs.Processor.Cost
import Handheld.Proofs.Registers.SavedForm
import Handheld.Proofs.Processor.Restored
import Handheld.Proofs.Processor.Lockstep
import Handheld.Proofs.Processor.Repeated
import Handheld.Proofs.Run.Course
import Handheld.Proofs.Run.Slices
import Handheld.Proofs.Arithmetic.LongNumbers
import Handheld.Proofs.Arithmetic.Decimals
import Handheld.Proofs.Arithmetic.Words
import Handheld.Proofs.MemoryMap.StackCells
import Handheld.Proofs.Processor.Stack
import Handheld.Proofs.Instruction.Assembling
import Handheld.Proofs.Memory.Loading
import Handheld.Proofs.Instruction.Listing
import Handheld.Proofs.Instruction.Wording
import Handheld.Proofs.Processor.Accesses
import Handheld.Proofs.Processor.Faults
import Handheld.Proofs.Allocation.BestFit
import Handheld.Proofs.Section.Registers
import Handheld.Proofs.MemoryMap.Stitched
import Handheld.Proofs.Run.Snapshots
import Handheld.Proofs.Cartridge.Checksum
import Handheld.Proofs.Cartridge.Windows
import Handheld.Proofs.Cartridge.Selection
import Handheld.Proofs.FileSystem
import Handheld.Proofs.Cartridge.SaveFile
import Handheld.Proofs.MemoryMap.Alone

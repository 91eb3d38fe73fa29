import Armator.Library.Cells
import Armator.Library.DoWhile
import Armator.Library.Fallible
import Armator.Library.Hex
import Armator.Library.Logged
import Armator.Library.Munch
import Armator.Library.Mutex
import Armator.Library.OrderedTable
import Armator.Library.Placed
import Armator.Library.Shifts
import Armator.Library.SortedTable
import Armator.Simulator.CommandCreator
import Armator.Simulator.Constants
import Armator.Simulator.DataProcessing
import Armator.Simulator.Debug
import Armator.Simulator.Exception
import Armator.Simulator.Flex
import Armator.Simulator.Instruction
import Armator.Simulator.Rio
import Armator.Simulator.Scanner
import Armator.Simulator.Session
import Armator.Simulator.Threads
import Armator.Architecture.AluSpec
import Armator.Architecture.ArchState
import Armator.Architecture.Assembly
import Armator.Architecture.Banks
import Armator.Architecture.BlockHandler
import Armator.Architecture.BlockMove
import Armator.Architecture.BlockTransfer
import Armator.Architecture.BreakpointSet
import Armator.Architecture.BreakpointTable
import Armator.Architecture.Condition
import Armator.Architecture.CoreFrames
import Armator.Architecture.DataWrites
import Armator.Architecture.DebugTable
import Armator.Architecture.Debugger
import Armator.Architecture.Dispatch
import Armator.Architecture.Encoding
import Armator.Architecture.ErrorBuffer
import Armator.Architecture.FlagUpdate
import Armator.Architecture.FlexBuffer
import Armator.Architecture.FlexRefill
import Armator.Architecture.FlexRun
import Armator.Architecture.FlexTables
import Armator.Architecture.FlexTokens
import Armator.Architecture.Footprint
import Armator.Architecture.GeneralRegisters
import Armator.Architecture.Hidden
import Armator.Architecture.Inert
import Armator.Architecture.Interleaving
import Armator.Architecture.MultipleTransfer
import Armator.Architecture.Settled
import Armator.Architecture.ShiftCalls
import Armator.Architecture.Shifter
import Armator.Architecture.ShifterOperand
import Armator.Architecture.SingleTransfer
import Armator.Architecture.StatusWrite
import Armator.Architecture.Tokens
import Armator.Architecture.Transfer
import Armator.Properties.Acknowledgement
import Armator.Properties.ArithmeticFlags
import Armator.Properties.AssembledPrograms
import Armator.Properties.BinaryDownload
import Armator.Properties.BlockAddressing
import Armator.Properties.BlockStack
import Armator.Properties.Branch
import Armator.Properties.BreakpointTableSet
import Armator.Properties.Comparison
import Armator.Properties.Confinement
import Armator.Properties.Continue
import Armator.Properties.DataAbort
import Armator.Properties.DataResult
import Armator.Properties.DebugCommands
import Armator.Properties.DebugSession
import Armator.Properties.DebuggedFiles
import Armator.Properties.Delivery
import Armator.Properties.ExceptionReturn
import Armator.Properties.Exchange
import Armator.Properties.FailedCondition
import Armator.Properties.FetchAbort
import Armator.Properties.Framing
import Armator.Properties.HalfTransfer
import Armator.Properties.ImmediateShift
import Armator.Properties.Interruption
import Armator.Properties.Literal
import Armator.Properties.LogicalFlags
import Armator.Properties.MemoryAccess
import Armator.Properties.MemoryBounds
import Armator.Properties.MsrForms
import Armator.Properties.MsrMask
import Armator.Properties.MultiWord
import Armator.Properties.Noninterference
import Armator.Properties.OwnPayload
import Armator.Properties.PacketCapacity
import Armator.Properties.Predication
import Armator.Properties.Privilege
import Armator.Properties.ProgramDebugging
import Armator.Properties.RegisterDump
import Armator.Properties.RegisterFile
import Armator.Properties.RegisterShift
import Armator.Properties.Resynchronisation
import Armator.Properties.SaveRestore
import Armator.Properties.Segmentation
import Armator.Properties.SetAgain
import Armator.Properties.ShiftPrimitive
import Armator.Properties.SingleRegister
import Armator.Properties.TraceFile
import Armator.Properties.Undefined
import Armator.Properties.UndefinedShift
import Armator.Properties.WordTransfer

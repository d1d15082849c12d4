import CyclonRtes.Avalon.Memory
import CyclonRtes.Storage.ElementwiseMap
import CyclonRtes.Swap.Footprint
import CyclonRtes.Swap.Isolation
import CyclonRtes.Swap.Reset
import CyclonRtes.Swap.BitReshuffling
import CyclonRtes.Swap.Executor
import CyclonRtes.Swap.Registers
import CyclonRtes.Swap.Main
import CyclonRtes.ParallelPort.Contract
import CyclonRtes.ParallelPort.ReadBack
import CyclonRtes.Counter.Timing
import CyclonRtes.Counter.Interrupt
import CyclonRtes.Counter.InterruptLine
import CyclonRtes.Counter.Commands
import CyclonRtes.CounterParallelPort.Reset
import CyclonRtes.Interconnect.SharedComponent
import CyclonRtes.Interconnect.ScFifo
import CyclonRtes.Multiprocessor.MailboxCore
import CyclonRtes.Multiprocessor.Progress
import CyclonRtes.DmaIn.Framing
import CyclonRtes.UcosII.Overflow
import CyclonRtes.Timer.Handshake
import CyclonRtes.Timer.Recovery
import CyclonRtes.ParallelPort.InterruptLoop

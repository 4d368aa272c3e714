import RiscvEmu.MachineInterrupts
import RiscvEmu.Cpu.Confined
import RiscvEmu.Virtio.Doorbells
import RiscvEmu.Mmu.Transparent
import RiscvEmu.Platform.Termination
import RiscvEmu.Platform.Messages
import RiscvEmu.HartMask
import RiscvEmu.Elf
import RiscvEmu.Fdt
import RiscvEmu.Virtio.Announced
import RiscvEmu.Gdb.Breakpoints
import RiscvEmu.Cpu.AtomicFaults
import RiscvEmu.Cpu.CsrAccess
import RiscvEmu.Cpu.TrapReturn
import RiscvEmu.Cpu.OddPc
import RiscvEmu.Mmu.Architecture
import RiscvEmu.Backends
import RiscvEmu.Cpu.FpHidden
import RiscvEmu.LrScCounter
import RiscvEmu.Net.RightEdge
import RiscvEmu.Softfloat.Products
import RiscvEmu.Cpu.FpResults
import RiscvEmu.Softfloat.Conversions
import RiscvEmu.Cpu.Boxed
import RiscvEmu.Cpu.Carryless
import RiscvEmu.Cpu.MulDiv
import RiscvEmu.Platform.External

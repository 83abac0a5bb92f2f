import SisRv.Core.ConstrainedLoops
import SisRv.Core.CsrLegality
import SisRv.Core.DataIsolation
import SisRv.Core.Interrupts
import SisRv.Core.Outstanding
import SisRv.Core.StepEnds
import SisRv.Core.Triggers
import SisRv.Core.UserInterrupts
import SisRv.Csr.Locks
import SisRv.Csr.ReadEffect
import SisRv.Debug.AbstractCommands
import SisRv.Debug.Jtag
import SisRv.Debug.RunControl
import SisRv.Fabric.DevicesAlike
import SisRv.Fabric.LoadsAndStores
import SisRv.Fabric.Overlap
import SisRv.Fabric.Subword
import SisRv.Isa.Compressed
import SisRv.Isa.Harden
import SisRv.Isa.Multiply
import SisRv.Tools.ElfImages
import SisRv.Core.DataPort
import SisRv.Core.Ordinary
import SisRv.Platform.Axil
import SisRv.Platform.Corebus
import SisRv.Platform.Execution
import SisRv.Platform.RunsPrograms
import SisRv.Platform.UserMemory
import SisRv.Sw.PlatformBoots
import SisRv.Lib.MarkLog
import SisRv.Platform.RetireLog
import SisRv.Tools.SpikeLockstep
import SisRv.Tools.Verdicts

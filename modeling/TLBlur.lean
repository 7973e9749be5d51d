import TLBlur.Profiler.PageAccess
import TLBlur.Profiler.Observations
import TLBlur.Profiler.HardwareTLB
import TLBlur.Profiler.Dump
import TLBlur.Profiler.Tracer
import TLBlur.Profiler.PAM
import TLBlur.Profiler.Trap
import TLBlur.Profiler.Interrupts
import TLBlur.Attack.JpegState
import TLBlur.Attack.Reconstruct
import TLBlur.Attack.TraceReplay
import TLBlur.Attack.FaultHandler
import TLBlur.Attack.Bitmap
import TLBlur.Attack.AttackEnclave

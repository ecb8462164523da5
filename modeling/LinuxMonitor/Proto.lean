import Mathlib.Data.UInt
import LinuxMonitor.Library.Text

/-!
# The protobuf messages

The messages of `monitor.proto` as structures.  A `float` or `double` field has
the type `R`: the monitors and the scores compute in an ordered field, and the
database client only prints such a field.

A `repeated` field is a list and a message field that may be absent is an
option; reading an absent message gives the message whose fields are zero.
-/

set_option autoImplicit false

namespace LinuxMonitor.Proto

open Library

/-- Soft interrupt counts of one CPU. -/
structure SoftIrq where
  cpu : Text
  hi : UInt32
  timer : UInt32
  netTx : UInt32
  netRx : UInt32
  block : UInt32
  irqPoll : UInt32
  tasklet : UInt32
  sched : UInt32
  hrtimer : UInt32
  rcu : UInt32
deriving DecidableEq, Repr

structure CpuLoad (R : Type) where
  loadAvg1 : R
  loadAvg3 : R
  loadAvg15 : R
deriving DecidableEq, Repr

/-- Shares of one CPU's time, in percent. -/
structure CpuStat (R : Type) where
  cpuName : Text
  cpuPercent : R
  usrPercent : R
  systemPercent : R
  nicePercent : R
  idlePercent : R
  ioWaitPercent : R
  irqPercent : R
  softIrqPercent : R
deriving DecidableEq, Repr

structure MemInfo (R : Type) where
  total : R
  free : R
  avail : R
  buffers : R
  cached : R
  swapCached : R
  active : R
  inactive : R
  activeAnon : R
  inactiveAnon : R
  activeFile : R
  inactiveFile : R
  dirty : R
  writeback : R
  anonPages : R
  mapped : R
  kReclaimable : R
  sReclaimable : R
  sUnreclaim : R
  usedPercent : R
deriving DecidableEq, Repr

/-- Rates of one interface: bytes in KB/s, the others per second. -/
structure NetInfo (R : Type) where
  name : Text
  sendRate : R
  rcvRate : R
  sendPacketsRate : R
  rcvPacketsRate : R
  errIn : R
  errOut : R
  dropIn : R
  dropOut : R
  errInRate : R
  errOutRate : R
  dropInRate : R
  dropOutRate : R
deriving DecidableEq, Repr

/-- Raw counters and rates of one block device. -/
structure DiskInfo (R : Type) where
  name : Text
  reads : UInt64
  writes : UInt64
  sectorsRead : UInt64
  sectorsWritten : UInt64
  readTimeMs : UInt64
  writeTimeMs : UInt64
  ioInProgress : UInt64
  ioTimeMs : UInt64
  weightedIoTimeMs : UInt64
  readBytesPerSec : R
  writeBytesPerSec : R
  readIops : R
  writeIops : R
  avgReadLatencyMs : R
  avgWriteLatencyMs : R
  utilPercent : R
deriving DecidableEq, Repr

/-- One host's report. -/
structure MonitorInfo (R : Type) where
  name : Text
  softIrq : List SoftIrq
  cpuLoad : Option (CpuLoad R)
  cpuStat : List (CpuStat R)
  memInfo : Option (MemInfo R)
  netInfo : List (NetInfo R)
  diskInfo : List (DiskInfo R)
deriving DecidableEq, Repr

section Defaults

variable {R : Type} [Zero R]

/-- A message whose fields were never set. -/
def CpuLoad.unset : CpuLoad R := ⟨0, 0, 0⟩

def MemInfo.unset : MemInfo R :=
  ⟨0, 0, 0, 0, 0, 0, 0, 0, 0, 0, 0, 0, 0, 0, 0, 0, 0, 0, 0, 0⟩

/-- `info.cpu_load()` -/
def MonitorInfo.cpuLoadOrUnset (info : MonitorInfo R) : CpuLoad R := info.cpuLoad.getD .unset

/-- `info.mem_info()` -/
def MonitorInfo.memInfoOrUnset (info : MonitorInfo R) : MemInfo R := info.memInfo.getD .unset

/-- A report that holds nothing but its name. -/
def MonitorInfo.named (name : Text) : MonitorInfo R := ⟨name, [], none, [], none, [], []⟩

end Defaults

/-! ## Other numbers -/

section Map

variable {R S : Type} (f : R → S)

def CpuLoad.map (load : CpuLoad R) : CpuLoad S where
  loadAvg1 := f load.loadAvg1
  loadAvg3 := f load.loadAvg3
  loadAvg15 := f load.loadAvg15

def CpuStat.map (stat : CpuStat R) : CpuStat S where
  cpuName := stat.cpuName
  cpuPercent := f stat.cpuPercent
  usrPercent := f stat.usrPercent
  systemPercent := f stat.systemPercent
  nicePercent := f stat.nicePercent
  idlePercent := f stat.idlePercent
  ioWaitPercent := f stat.ioWaitPercent
  irqPercent := f stat.irqPercent
  softIrqPercent := f stat.softIrqPercent

def MemInfo.map (info : MemInfo R) : MemInfo S where
  total := f info.total
  free := f info.free
  avail := f info.avail
  buffers := f info.buffers
  cached := f info.cached
  swapCached := f info.swapCached
  active := f info.active
  inactive := f info.inactive
  activeAnon := f info.activeAnon
  inactiveAnon := f info.inactiveAnon
  activeFile := f info.activeFile
  inactiveFile := f info.inactiveFile
  dirty := f info.dirty
  writeback := f info.writeback
  anonPages := f info.anonPages
  mapped := f info.mapped
  kReclaimable := f info.kReclaimable
  sReclaimable := f info.sReclaimable
  sUnreclaim := f info.sUnreclaim
  usedPercent := f info.usedPercent

def NetInfo.map (info : NetInfo R) : NetInfo S where
  name := info.name
  sendRate := f info.sendRate
  rcvRate := f info.rcvRate
  sendPacketsRate := f info.sendPacketsRate
  rcvPacketsRate := f info.rcvPacketsRate
  errIn := f info.errIn
  errOut := f info.errOut
  dropIn := f info.dropIn
  dropOut := f info.dropOut
  errInRate := f info.errInRate
  errOutRate := f info.errOutRate
  dropInRate := f info.dropInRate
  dropOutRate := f info.dropOutRate

def DiskInfo.map (info : DiskInfo R) : DiskInfo S where
  name := info.name
  reads := info.reads
  writes := info.writes
  sectorsRead := info.sectorsRead
  sectorsWritten := info.sectorsWritten
  readTimeMs := info.readTimeMs
  writeTimeMs := info.writeTimeMs
  ioInProgress := info.ioInProgress
  ioTimeMs := info.ioTimeMs
  weightedIoTimeMs := info.weightedIoTimeMs
  readBytesPerSec := f info.readBytesPerSec
  writeBytesPerSec := f info.writeBytesPerSec
  readIops := f info.readIops
  writeIops := f info.writeIops
  avgReadLatencyMs := f info.avgReadLatencyMs
  avgWriteLatencyMs := f info.avgWriteLatencyMs
  utilPercent := f info.utilPercent

/-- The report with the numbers of another type. -/
def MonitorInfo.map (info : MonitorInfo R) : MonitorInfo S where
  name := info.name
  softIrq := info.softIrq
  cpuLoad := info.cpuLoad.map (CpuLoad.map f)
  cpuStat := info.cpuStat.map (CpuStat.map f)
  memInfo := info.memInfo.map (MemInfo.map f)
  netInfo := info.netInfo.map (NetInfo.map f)
  diskInfo := info.diskInfo.map (DiskInfo.map f)

end Map

end LinuxMonitor.Proto

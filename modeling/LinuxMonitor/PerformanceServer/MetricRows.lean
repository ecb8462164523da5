import LinuxMonitor.PerformanceServer.Tables

/-!
# The rows of the metric tables

The columns of the four metric tables that the summary aggregates.  A column may be NULL,
and a sum with a NULL is NULL.  The columns of an inserted row are never NULL.

An INSERT statement adds one row to one table; the host and the time of the row are the
statement's stamp.
-/

set_option autoImplicit false

namespace LinuxMonitor.PerformanceServer

open Library Proto

/-! ## Rows -/

section Rows

variable (R : Type)

/-- A row of `cpu_metrics`. -/
structure CpuRow where
  hostId : Text
  timestamp : ℤ
  cpuPercent : Option R
  loadAvg1 : Option R
deriving DecidableEq, Repr

/-- A row of `memory_metrics`. -/
structure MemoryRow where
  hostId : Text
  timestamp : ℤ
  availableGb : Option R
  usedPercent : Option R
deriving DecidableEq, Repr

/-- A row of `disk_metrics`. -/
structure DiskRow where
  hostId : Text
  timestamp : ℤ
  readMbps : Option R
  writeMbps : Option R
  readIops : Option R
  writeIops : Option R
  utilPercent : Option R
deriving DecidableEq, Repr

/-- A row of `network_metrics`. -/
structure NetworkRow where
  hostId : Text
  timestamp : ℤ
  sendRateMbps : Option R
  rcvRateMbps : Option R
deriving DecidableEq, Repr

end Rows

variable {R : Type}

/-! ## Expressions -/

section Expressions

variable [Add R]

/-- `x + y`, which is NULL when one of the two is. -/
def sqlAdd (x y : Option R) : Option R := do
  let a ← x
  let b ← y
  return a + b

/-- `read_iops + write_iops` -/
def DiskRow.iops (row : DiskRow R) : Option R := sqlAdd row.readIops row.writeIops

/-- `read_mbps + write_mbps` -/
def DiskRow.throughput (row : DiskRow R) : Option R := sqlAdd row.readMbps row.writeMbps

/-- `send_rate_mbps + rcv_rate_mbps` -/
def NetworkRow.throughput (row : NetworkRow R) : Option R :=
  sqlAdd row.sendRateMbps row.rcvRateMbps

end Expressions

/-! ## Inserted rows -/

/-- The row of a CPU. -/
def cpuRow (hostId : Text) (time : ℤ) (cpuStat : CpuStat R) (cpuLoad : CpuLoad R) : CpuRow R where
  hostId := hostId
  timestamp := time
  cpuPercent := some cpuStat.cpuPercent
  loadAvg1 := some cpuLoad.loadAvg1

/-- The row of a host's memory. -/
def memoryRow (hostId : Text) (time : ℤ) (memInfo : MemInfo R) : MemoryRow R where
  hostId := hostId
  timestamp := time
  availableGb := some memInfo.avail
  usedPercent := some memInfo.usedPercent

/-- The row of a disk. -/
def diskRow [Div R] [NatCast R] (hostId : Text) (time : ℤ) (diskInfo : DiskInfo R) :
    DiskRow R where
  hostId := hostId
  timestamp := time
  readMbps := some (perMiB diskInfo.readBytesPerSec)
  writeMbps := some (perMiB diskInfo.writeBytesPerSec)
  readIops := some diskInfo.readIops
  writeIops := some diskInfo.writeIops
  utilPercent := some diskInfo.utilPercent

/-- The row of an interface. -/
def networkRow (hostId : Text) (time : ℤ) (netInfo : NetInfo R) : NetworkRow R where
  hostId := hostId
  timestamp := time
  sendRateMbps := some netInfo.sendRate
  rcvRateMbps := some netInfo.rcvRate

section Statements

/-- The row that a statement adds to `cpu_metrics`. -/
def Statement.asCpuRow : Statement R → Option (CpuRow R)
  | .insertCpu hostId time cpuStat cpuLoad => some (cpuRow hostId time cpuStat cpuLoad)
  | _ => none

/-- The row that a statement adds to `memory_metrics`. -/
def Statement.asMemoryRow : Statement R → Option (MemoryRow R)
  | .insertMemory hostId time memInfo => some (memoryRow hostId time memInfo)
  | _ => none

/-- The row that a statement adds to `disk_metrics`. -/
def Statement.asDiskRow [Div R] [NatCast R] : Statement R → Option (DiskRow R)
  | .insertDisk hostId time diskInfo => some (diskRow hostId time diskInfo)
  | _ => none

/-- The row that a statement adds to `network_metrics`. -/
def Statement.asNetworkRow : Statement R → Option (NetworkRow R)
  | .insertNetwork hostId time netInfo => some (networkRow hostId time netInfo)
  | _ => none

end Statements

end LinuxMonitor.PerformanceServer

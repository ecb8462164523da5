import Mathlib.Algebra.Order.Field.Basic
import Mathlib.Algebra.Order.AbsoluteValue.Basic
import Mathlib.Algebra.BigOperators.Group.List.Basic
import LinuxMonitor.Proto

/-!
# Derived metrics and performance scores

The metrics and the scores that `PerformanceMonitorClient` computes from a report.
Scores are weighted sums of sub-scores between 0 and 100; a section that the report
lacks scores zero.  All are computed in an ordered field.

A field divides by zero without notice.  `overallScoreChecked` computes the overall score with
divisions that do not.
-/

set_option autoImplicit false

namespace LinuxMonitor.PerformanceServer

open Proto

variable {R : Type} [Field R] [LinearOrder R]

/-! ## Metrics -/

def calculateCPUStealPercent (cpuStat : CpuStat R) : R :=
  let used := cpuStat.usrPercent + cpuStat.systemPercent + cpuStat.nicePercent +
    cpuStat.ioWaitPercent + cpuStat.irqPercent + cpuStat.softIrqPercent
  100 - used - cpuStat.idlePercent

def calculateCacheTotalGB (memInfo : MemInfo R) : R :=
  memInfo.cached + memInfo.buffers + memInfo.sReclaimable

def calculateDiskAvgQueueLength (diskInfo : DiskInfo R) : R :=
  if diskInfo.ioTimeMs > 0 then (diskInfo.weightedIoTimeMs.toNat : R) / diskInfo.ioTimeMs.toNat
  else 0

def calculateNetworkAvgPacketSize (netInfo : NetInfo R) : R :=
  let totalPackets := netInfo.sendPacketsRate + netInfo.rcvPacketsRate
  if totalPackets > 0 then (netInfo.sendRate + netInfo.rcvRate) * 1024 / totalPackets else 0

def calculateNetworkTotalThroughput (netInfo : NetInfo R) : R :=
  netInfo.sendRate + netInfo.rcvRate

/-! ## Scores -/

/-- `sum / count` over the entries of a section, zero for none. -/
def average {α : Type} (score : α → R) (entries : List α) : R :=
  if entries = [] then 0 else (entries.map score).sum / entries.length

/-- The score of one CPU.  The load is the host's. -/
def cpuEntryScore (cpuLoad : Option (CpuLoad R)) (cpuStat : CpuStat R) : R :=
  let cpuUsageScore := max 0 (100 - cpuStat.cpuPercent)
  let loadScore :=
    match cpuLoad with
    | some load => min 100 (max 0 (100 - load.loadAvg1 * 10))
    | none => 0
  cpuUsageScore * (7 / 10) + loadScore * (3 / 10)

def calculateCPUScore (info : MonitorInfo R) : R :=
  average (cpuEntryScore info.cpuLoad) info.cpuStat

def calculateMemoryScore (info : MonitorInfo R) : R :=
  match info.memInfo with
  | none => 0
  | some memInfo =>
      let usageScore := max 0 (100 - memInfo.usedPercent)
      let availableScore :=
        if memInfo.total > 0 then min 100 (memInfo.avail / memInfo.total * 100 * 2) else 0
      let cacheScore :=
        if memInfo.total > 0 then
          let cachePercent := calculateCacheTotalGB memInfo / memInfo.total * 100
          if cachePercent ≥ 10 ∧ cachePercent ≤ 30 then 100
          else if cachePercent < 10 then cachePercent * 10
          else max 0 (100 - (cachePercent - 30) * 5)
        else 0
      min 100 (usageScore * (5 / 10) + availableScore * (3 / 10) + cacheScore * (2 / 10))

/-- The score of one disk. -/
def diskEntryScore (diskInfo : DiskInfo R) : R :=
  let utilScore := max 0 (100 - diskInfo.utilPercent)
  let latencyScore :=
    if diskInfo.avgReadLatencyMs > 0 ∨ diskInfo.avgWriteLatencyMs > 0 then
      max 0 (100 - (diskInfo.avgReadLatencyMs + diskInfo.avgWriteLatencyMs) / 2 * 2)
    else 100
  let queueScore := max 0 (100 - calculateDiskAvgQueueLength diskInfo * 20)
  utilScore * (4 / 10) + latencyScore * (3 / 10) + queueScore * (3 / 10)

def calculateDiskScore (info : MonitorInfo R) : R := average diskEntryScore info.diskInfo

/-- The score of one interface. -/
def networkEntryScore (netInfo : NetInfo R) : R :=
  let throughput := calculateNetworkTotalThroughput netInfo
  let throughputScore :=
    if throughput ≤ 100 then throughput else max 0 (100 - (throughput - 100) / 10)
  let avgPacketSize := calculateNetworkAvgPacketSize netInfo
  let packetSizeScore :=
    if avgPacketSize > 0 then max 0 (100 - |avgPacketSize - 1500| / 15) else 0
  throughputScore * (6 / 10) + packetSizeScore * (4 / 10)

def calculateNetworkScore (info : MonitorInfo R) : R := average networkEntryScore info.netInfo

def calculateOverallPerformanceScore (info : MonitorInfo R) : R :=
  let overallScore := calculateCPUScore info * (3 / 10) + calculateMemoryScore info * (25 / 100) +
    calculateDiskScore info * (25 / 100) + calculateNetworkScore info * (2 / 10)
  min 100 (max 0 overallScore)

/-! ## The range of a score -/

/-- The weighted sum before the last clamp. -/
def weightedScore (info : MonitorInfo R) : R :=
  calculateCPUScore info * (3 / 10) + calculateMemoryScore info * (25 / 100) +
    calculateDiskScore info * (25 / 100) + calculateNetworkScore info * (2 / 10)

/-- A number between 0 and 100. -/
def InRange (x : R) : Prop := 0 ≤ x ∧ x ≤ 100

/-! ## The divisions -/

/-- A division that notices a zero divisor. -/
def divide (x y : R) : Option R := if y = 0 then none else some (x / y)

/-- `average` with its division. -/
def averageChecked {α : Type} (score : α → Option R) (entries : List α) : Option R :=
  if entries = [] then some 0
  else do
    let scores ← entries.mapM score
    divide scores.sum entries.length

def diskAvgQueueLengthChecked (diskInfo : DiskInfo R) : Option R :=
  if diskInfo.ioTimeMs > 0 then
    divide (diskInfo.weightedIoTimeMs.toNat : R) diskInfo.ioTimeMs.toNat
  else some 0

def networkAvgPacketSizeChecked (netInfo : NetInfo R) : Option R :=
  let totalPackets := netInfo.sendPacketsRate + netInfo.rcvPacketsRate
  if totalPackets > 0 then divide ((netInfo.sendRate + netInfo.rcvRate) * 1024) totalPackets
  else some 0

def memoryScoreChecked (info : MonitorInfo R) : Option R :=
  match info.memInfo with
  | none => some 0
  | some memInfo => do
      let usageScore := max 0 (100 - memInfo.usedPercent)
      let availableScore ←
        if memInfo.total > 0 then do
          let share ← divide memInfo.avail memInfo.total
          some (min 100 (share * 100 * 2))
        else some 0
      let cacheScore ←
        if memInfo.total > 0 then do
          let share ← divide (calculateCacheTotalGB memInfo) memInfo.total
          let cachePercent := share * 100
          if cachePercent ≥ 10 ∧ cachePercent ≤ 30 then some 100
          else if cachePercent < 10 then some (cachePercent * 10)
          else some (max 0 (100 - (cachePercent - 30) * 5))
        else some 0
      some (min 100 (usageScore * (5 / 10) + availableScore * (3 / 10) + cacheScore * (2 / 10)))

def diskEntryScoreChecked (diskInfo : DiskInfo R) : Option R := do
  let utilScore := max 0 (100 - diskInfo.utilPercent)
  let latencyScore ←
    if diskInfo.avgReadLatencyMs > 0 ∨ diskInfo.avgWriteLatencyMs > 0 then do
      let avgLatency ← divide (diskInfo.avgReadLatencyMs + diskInfo.avgWriteLatencyMs) 2
      some (max 0 (100 - avgLatency * 2))
    else some 100
  let queueLength ← diskAvgQueueLengthChecked diskInfo
  let queueScore := max 0 (100 - queueLength * 20)
  some (utilScore * (4 / 10) + latencyScore * (3 / 10) + queueScore * (3 / 10))

def networkEntryScoreChecked (netInfo : NetInfo R) : Option R := do
  let throughput := calculateNetworkTotalThroughput netInfo
  let throughputScore ←
    if throughput ≤ 100 then some throughput
    else do
      let excess ← divide (throughput - 100) 10
      some (max 0 (100 - excess))
  let avgPacketSize ← networkAvgPacketSizeChecked netInfo
  let packetSizeScore ←
    if avgPacketSize > 0 then do
      let off ← divide |avgPacketSize - 1500| 15
      some (max 0 (100 - off))
    else some 0
  some (throughputScore * (6 / 10) + packetSizeScore * (4 / 10))

/-- `calculateOverallPerformanceScore` with the divisions of all that it calls. -/
def overallScoreChecked (info : MonitorInfo R) : Option R := do
  let cpuScore ←
    averageChecked (fun cpuStat => some (cpuEntryScore info.cpuLoad cpuStat)) info.cpuStat
  let memoryScore ← memoryScoreChecked info
  let diskScore ← averageChecked diskEntryScoreChecked info.diskInfo
  let networkScore ← averageChecked networkEntryScoreChecked info.netInfo
  let overallScore := cpuScore * (3 / 10) + memoryScore * (25 / 100) + diskScore * (25 / 100) +
    networkScore * (2 / 10)
  some (min 100 (max 0 overallScore))

end LinuxMonitor.PerformanceServer

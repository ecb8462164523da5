import LinuxMonitor.Proto

/-!
# `CpuSoftIrqMonitor`: the soft interrupt counts of each CPU

`updateOnce` maps the kernel module's array of 128 entries and copies the ten counts of
each entry up to the first one without a name.
-/

set_option autoImplicit false

namespace LinuxMonitor.Monitor.CpuSoftIrqMonitor

open Library

/-- `struct softirq_stat` -/
structure SoftirqStat where
  cpuName : Text
  hi : UInt32
  timer : UInt32
  netTx : UInt32
  netRx : UInt32
  block : UInt32
  irqPoll : UInt32
  tasklet : UInt32
  sched : UInt32
  hrtimer : UInt32
  rcu : UInt32
deriving DecidableEq, Repr

/-- The number of entries that are mapped. -/
def statCount : ℕ := 128

/-- The message of one entry. -/
def message (stat : SoftirqStat) : Proto.SoftIrq where
  cpu := stat.cpuName
  hi := stat.hi
  timer := stat.timer
  netTx := stat.netTx
  netRx := stat.netRx
  block := stat.block
  irqPoll := stat.irqPoll
  tasklet := stat.tasklet
  sched := stat.sched
  hrtimer := stat.hrtimer
  rcu := stat.rcu

/-- The entries the loop visits, none when the device does not open or does not map. -/
def visited (mapped : Option (List SoftirqStat)) : List SoftirqStat :=
  match mapped with
  | none => []
  | some stats => (stats.take statCount).takeWhile fun stat => stat.cpuName ≠ []

/-- `CpuSoftIrqMonitor::UpdateOnce` -/
def updateOnce (mapped : Option (List SoftirqStat)) : List Proto.SoftIrq :=
  (visited mapped).map message

/-- The ten counts of an entry. -/
def SoftirqStat.counts (stat : SoftirqStat) : List UInt32 :=
  [stat.hi, stat.timer, stat.netTx, stat.netRx, stat.block, stat.irqPoll, stat.tasklet,
    stat.sched, stat.hrtimer, stat.rcu]

end LinuxMonitor.Monitor.CpuSoftIrqMonitor

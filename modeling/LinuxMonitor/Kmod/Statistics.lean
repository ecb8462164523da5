import LinuxMonitor.Library.CharArray

/-!
# What the kernel modules write

The records in the buffers of the three modules and the functions that fill them.  A record
of a CPU stands at the place of the CPU's number.  The module for CPU times writes the
records of the CPUs that are online and leaves the others as they are; the module for soft
interrupts also empties the names of those that are not.

* `charText_cpuStatName`, `charText_softirqName`: the names are read back as they were
  printed.
-/

set_option autoImplicit false

namespace LinuxMonitor.Kmod

open Library

/-! ## The kernel's statistics -/

/-- The number of a CPU.  The arrays of the modules have `MAX_CPU` records. -/
abbrev Cpu : Type := Fin 128

/-- `cpu_online_mask` -/
abbrev OnlineMask : Type := Cpu → Bool

/-- `struct kernel_cpustat`, by `CPUTIME_…` -/
structure KernelCpustat where
  user : UInt64
  nice : UInt64
  system : UInt64
  softirq : UInt64
  irq : UInt64
  idle : UInt64
  iowait : UInt64
  steal : UInt64
  guest : UInt64
  guestNice : UInt64
deriving DecidableEq, Repr

/-- `kstat_softirqs_cpu`, by `…_SOFTIRQ` -/
structure KstatSoftirqs where
  hi : UInt32
  timer : UInt32
  netTx : UInt32
  netRx : UInt32
  block : UInt32
  irqPoll : UInt32
  tasklet : UInt32
  sched : UInt32
  hrtimer : UInt32
  rcu : UInt32
deriving DecidableEq, Repr

/-- The counts a module reads of the kernel: the times and the soft interrupts of each CPU,
`ktime_get_ns()` when it comes to a CPU, and `avenrun`. -/
structure KernelCounts where
  kcpustat : Cpu → KernelCpustat
  softirqs : Cpu → KstatSoftirqs
  ktimeGetNs : Cpu → UInt64
  avenrun : Fin 3 → UInt64

/-- What a module finds when it is called: the counts and the CPUs that are online. -/
structure KernelStatistics extends KernelCounts where
  online : OnlineMask

/-! ## `cpu_stat_monitor` -/

/-- `struct cpu_stat` -/
structure CpuStat where
  cpuName : Vector UInt8 16
  user : UInt64
  system : UInt64
  idle : UInt64
  nice : UInt64
  ioWait : UInt64
  irq : UInt64
  softIrq : UInt64
  steal : UInt64
  guest : UInt64
  guestNice : UInt64
  total : UInt64
  timestamp : UInt64
deriving DecidableEq, Repr

/-- A record that `memset` has cleared. -/
def CpuStat.zero : CpuStat := ⟨Vector.replicate 16 0, 0, 0, 0, 0, 0, 0, 0, 0, 0, 0, 0, 0⟩

/-- `"CPU%d"` -/
def cpuStatName (cpu : Cpu) : Text := "CPU".toList ++ decimal cpu

/-- The body of the loop in `update_cpu_stats`. -/
def CpuStat.update (cpu : Cpu) (kcs : KernelCpustat) (ktime : UInt64) (stat : CpuStat) :
    CpuStat where
  cpuName := snprintf (cpuStatName cpu) stat.cpuName
  user := kcs.user
  nice := kcs.nice
  system := kcs.system
  idle := kcs.idle
  ioWait := kcs.iowait
  irq := kcs.irq
  softIrq := kcs.softirq
  steal := kcs.steal
  guest := kcs.guest
  guestNice := kcs.guestNice
  total := kcs.user + kcs.nice + kcs.system + kcs.idle + kcs.iowait + kcs.irq + kcs.softirq +
    kcs.steal + kcs.guest + kcs.guestNice
  timestamp := ktime

/-- `update_cpu_stats` -/
def updateCpuStats (kernel : KernelStatistics) (stats : Cpu → CpuStat) : Cpu → CpuStat :=
  fun cpu =>
    if kernel.online cpu then
      (stats cpu).update cpu (kernel.kcpustat cpu) (kernel.ktimeGetNs cpu)
    else stats cpu

/-- What `cpu_stat_monitor_init` does with the buffer before the timer is started: `memset`,
all names, and `update_cpu_stats`. -/
def initCpuStats (kernel : KernelStatistics) : Cpu → CpuStat :=
  updateCpuStats kernel fun cpu =>
    { CpuStat.zero with cpuName := snprintf (cpuStatName cpu) CpuStat.zero.cpuName }

/-! ## `cpu_softirq_monitor` -/

/-- `struct softirq_stat` -/
structure SoftirqStat where
  cpuName : Vector UInt8 16
  hi : UInt32
  timer : UInt32
  netTx : UInt32
  netRx : UInt32
  block : UInt32
  irqPoll : UInt32
  tasklet : UInt32
  sched : UInt32
  hrtimer : UInt32
  rcu : UInt32
deriving DecidableEq, Repr

/-- A record that `memset` has cleared. -/
def SoftirqStat.zero : SoftirqStat := ⟨Vector.replicate 16 0, 0, 0, 0, 0, 0, 0, 0, 0, 0, 0⟩

/-- `"cpu%d"` -/
def softirqName (cpu : Cpu) : Text := "cpu".toList ++ decimal cpu

/-- The loop's body for a CPU that is online. -/
def SoftirqStat.update (cpu : Cpu) (kstat : KstatSoftirqs) (stat : SoftirqStat) : SoftirqStat where
  cpuName := snprintf (softirqName cpu) stat.cpuName
  hi := kstat.hi
  timer := kstat.timer
  netTx := kstat.netTx
  netRx := kstat.netRx
  block := kstat.block
  irqPoll := kstat.irqPoll
  tasklet := kstat.tasklet
  sched := kstat.sched
  hrtimer := kstat.hrtimer
  rcu := kstat.rcu

/-- `update_softirq_stats` -/
def updateSoftirqStats (kernel : KernelStatistics) (stats : Cpu → SoftirqStat) :
    Cpu → SoftirqStat :=
  fun cpu =>
    if kernel.online cpu then (stats cpu).update cpu (kernel.softirqs cpu)
    else { stats cpu with cpuName := (stats cpu).cpuName.set 0 0 }

/-- The loop's body for a CPU that is not online. -/
def SoftirqStat.clearName (stat : SoftirqStat) : SoftirqStat :=
  { stat with cpuName := stat.cpuName.set 0 0 }

/-- What `cpu_softirq_monitor_init` does with the buffer: `memset` and
`update_softirq_stats`. -/
def initSoftirqStats (kernel : KernelStatistics) : Cpu → SoftirqStat :=
  updateSoftirqStats kernel fun _ => SoftirqStat.zero

/-! ## `cpu_load_monitor` -/

/-- `struct cpu_load` -/
structure CpuLoad where
  loadAvg1 : UInt64
  loadAvg3 : UInt64
  loadAvg15 : UInt64
deriving DecidableEq, Repr

/-- `update_cpu_load` -/
def updateCpuLoad (kernel : KernelStatistics) : CpuLoad :=
  ⟨kernel.avenrun 0, kernel.avenrun 1, kernel.avenrun 2⟩

/-! ## Names -/

theorem ascii_cpuStatName (cpu : Cpu) : Ascii (cpuStatName cpu) :=
  Ascii.append (by decide) (ascii_decimal cpu)

theorem ascii_softirqName (cpu : Cpu) : Ascii (softirqName cpu) :=
  Ascii.append (by decide) (ascii_decimal cpu)

theorem length_cpuStatName (cpu : Cpu) : (cpuStatName cpu).length < 16 := by
  revert cpu
  decide +kernel

theorem length_softirqName (cpu : Cpu) : (softirqName cpu).length < 16 := by
  revert cpu
  decide +kernel

/-- **The names are read back as they were printed.** -/
theorem charText_cpuStatName (cpu : Cpu) (buffer : Vector UInt8 16) :
    charText (snprintf (cpuStatName cpu) buffer) = cpuStatName cpu :=
  charText_snprintf (length_cpuStatName cpu) (ascii_cpuStatName cpu) buffer

theorem charText_softirqName (cpu : Cpu) (buffer : Vector UInt8 16) :
    charText (snprintf (softirqName cpu) buffer) = softirqName cpu :=
  charText_snprintf (length_softirqName cpu) (ascii_softirqName cpu) buffer

/-- A name whose first byte is zero is empty. -/
theorem charText_set_zero (buffer : Vector UInt8 16) : charText (buffer.set 0 0) = [] := by
  obtain ⟨b, rest, bytes⟩ := List.exists_cons_of_length_pos (l := buffer.toList) (by simp)
  rw [charText, Vector.toList_set, bytes, List.set_cons_zero]
  rfl

/-- Two CPUs do not share a name. -/
theorem append_decimal_injective (t : Text) :
    Function.Injective fun cpu : Cpu => t ++ decimal cpu := by
  intro a b same
  have digits := congrArg digitsValue (List.append_cancel_left same)
  rw [digitsValue_decimal, digitsValue_decimal] at digits
  exact Fin.ext digits

theorem cpuStatName_injective : Function.Injective cpuStatName :=
  append_decimal_injective _

theorem softirqName_injective : Function.Injective softirqName :=
  append_decimal_injective _

end LinuxMonitor.Kmod

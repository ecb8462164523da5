import LinuxMonitor.Kmod.Contents
import LinuxMonitor.Kmod.Mmap
import LinuxMonitor.Monitor.CpuSoftIrqMonitor
import LinuxMonitor.Monitor.CpuStatMonitor

/-!
# The records that the monitors see

A monitor does not read a module's buffer but what the module's `mmap` has mapped: frames that
follow one another from that of the buffer's first page on.  Where the frames of the buffer do
not, it reads another page of the buffer or foreign memory.

* `Mapping.shown_eq`: the bytes of the buffer are seen as far as the frames of its pages follow
  one another.
* `softirqRecordAt_eq`, `cpuStatRecordAt_eq`: **a record on these pages is read as the module
  has written it.**
* `cpuName_softirqRecordAt`: its first byte is enough for a record without a name.
-/

set_option autoImplicit false

namespace LinuxMonitor.Monitor

open Library Kmod

/-! ## Numbers and blocks of bytes -/

/-- The number of the given bytes, the lowest first. -/
def fromLittleEndian : List UInt8 → ℕ
  | [] => 0
  | b :: bytes => b.toNat + 256 * fromLittleEndian bytes

theorem fromLittleEndian_littleEndian (width n : ℕ) :
    fromLittleEndian (littleEndian width n) = n % 256 ^ width := by
  induction width generalizing n with
  | zero => simp [littleEndian, fromLittleEndian, Nat.mod_one]
  | succ width ih =>
      have first : littleEndian (width + 1) n =
          UInt8.ofNat n :: littleEndian width (n / 256) := by
        simp only [littleEndian, List.range_succ_eq_map, List.map_cons, List.map_map,
          Nat.mul_zero, Nat.shiftRight_zero]
        refine congrArg _ (List.map_congr_left fun i _ => congrArg UInt8.ofNat ?_)
        rw [Nat.mul_succ, Nat.add_comm, Nat.shiftRight_add, Nat.shiftRight_eq_div_pow n]
      have low : (UInt8.ofNat n).toNat = n % 256 := UInt8.toNat_ofNat'
      rw [first, fromLittleEndian, ih, low, Nat.pow_succ', Nat.mod_mul]

/-- A block of bytes in front of and behind others of its length. -/
theorem take_drop_flatMap {α β : Type*} {f : α → List β} {width : ℕ} {items : List α}
    (same : ∀ a ∈ items, (f a).length = width) {i : ℕ} {a : α} (found : items[i]? = some a) :
    ((items.flatMap f).drop (width * i)).take width = f a := by
  induction items generalizing i with
  | nil => cases found
  | cons first items ih =>
      have length := same first List.mem_cons_self
      rw [List.flatMap_cons]
      cases i with
      | zero =>
          cases Option.some.inj found
          rw [Nat.mul_zero, List.drop_zero, ← length, List.take_left]
      | succ i =>
          rw [Nat.mul_succ, Nat.add_comm, ← List.drop_drop, ← length, List.drop_left, length]
          exact ih (fun a member => same a (List.mem_cons_of_mem _ member)) found

/-! ## The bytes of a record -/

/-- A record of the module as the monitor reads it. -/
def softirqRecord (stat : Kmod.SoftirqStat) : CpuSoftIrqMonitor.SoftirqStat where
  cpuName := charText stat.cpuName
  hi := stat.hi
  timer := stat.timer
  netTx := stat.netTx
  netRx := stat.netRx
  block := stat.block
  irqPoll := stat.irqPoll
  tasklet := stat.tasklet
  sched := stat.sched
  hrtimer := stat.hrtimer
  rcu := stat.rcu

def cpuStatRecord (stat : Kmod.CpuStat) : CpuStatMonitor.CpuStat where
  cpuName := charText stat.cpuName
  user := stat.user
  system := stat.system
  idle := stat.idle
  nice := stat.nice
  ioWait := stat.ioWait
  irq := stat.irq
  softIrq := stat.softIrq
  steal := stat.steal

/-- The text in the first 16 bytes of a record, which every record that a module has written
ends with a zero byte. -/
def cpuNameOf (bytes : List UInt8) : Text :=
  ((bytes.take 16).takeWhile fun b => b ≠ 0).map fun b => Char.ofNat b.toNat

/-- The number with the given index behind the name, where each number has `width` bytes. -/
def memberOf (bytes : List UInt8) (width i : ℕ) : ℕ :=
  fromLittleEndian ((bytes.drop (16 + width * i)).take width)

/-- `struct softirq_stat` in the memory. -/
def softirqRecordOf (bytes : List UInt8) : CpuSoftIrqMonitor.SoftirqStat where
  cpuName := cpuNameOf bytes
  hi := .ofNat (memberOf bytes 4 0)
  timer := .ofNat (memberOf bytes 4 1)
  netTx := .ofNat (memberOf bytes 4 2)
  netRx := .ofNat (memberOf bytes 4 3)
  block := .ofNat (memberOf bytes 4 4)
  irqPoll := .ofNat (memberOf bytes 4 5)
  tasklet := .ofNat (memberOf bytes 4 6)
  sched := .ofNat (memberOf bytes 4 7)
  hrtimer := .ofNat (memberOf bytes 4 8)
  rcu := .ofNat (memberOf bytes 4 9)

/-- `struct cpu_stat` in the memory; the members behind `steal` are not read. -/
def cpuStatRecordOf (bytes : List UInt8) : CpuStatMonitor.CpuStat where
  cpuName := cpuNameOf bytes
  user := .ofNat (memberOf bytes 8 0)
  system := .ofNat (memberOf bytes 8 1)
  idle := .ofNat (memberOf bytes 8 2)
  nice := .ofNat (memberOf bytes 8 3)
  ioWait := .ofNat (memberOf bytes 8 4)
  irq := .ofNat (memberOf bytes 8 5)
  softIrq := .ofNat (memberOf bytes 8 6)
  steal := .ofNat (memberOf bytes 8 7)

theorem cpuNameOf_append (cpuName : Vector UInt8 16) (members : List UInt8) :
    cpuNameOf (cpuName.toList ++ members) = charText cpuName := by
  rw [cpuNameOf, List.take_left' cpuName.length_toList, charText]

theorem memberOf_append {α : Type*} (toNat : α → ℕ) (width : ℕ) (cpuName : Vector UInt8 16)
    {members : List α} {i : ℕ} {x : α} (found : members[i]? = some x)
    (small : toNat x < 256 ^ width) :
    memberOf (cpuName.toList ++ members.flatMap fun x => littleEndian width (toNat x)) width i =
      toNat x := by
  rw [memberOf, ← List.drop_drop, List.drop_left' cpuName.length_toList,
    take_drop_flatMap (fun _ _ => length_littleEndian width _) found,
    fromLittleEndian_littleEndian, Nat.mod_eq_of_lt small]

/-- **A record is read as it was written.** -/
theorem softirqRecordOf_bytes (stat : Kmod.SoftirqStat) :
    softirqRecordOf stat.bytes = softirqRecord stat := by
  have member : ∀ {i : ℕ} {x : UInt32},
      [stat.hi, stat.timer, stat.netTx, stat.netRx, stat.block, stat.irqPoll, stat.tasklet,
        stat.sched, stat.hrtimer, stat.rcu][i]? = some x →
        UInt32.ofNat (memberOf stat.bytes 4 i) = x := by
    intro i x found
    rw [Kmod.SoftirqStat.bytes, memberOf_append UInt32.toNat 4 _ found x.toNat_lt,
      UInt32.ofNat_toNat]
  rw [softirqRecordOf, member (i := 0) rfl, member (i := 1) rfl, member (i := 2) rfl,
    member (i := 3) rfl, member (i := 4) rfl, member (i := 5) rfl, member (i := 6) rfl,
    member (i := 7) rfl, member (i := 8) rfl, member (i := 9) rfl, Kmod.SoftirqStat.bytes,
    cpuNameOf_append]
  rfl

theorem cpuStatRecordOf_bytes (stat : Kmod.CpuStat) :
    cpuStatRecordOf stat.bytes = cpuStatRecord stat := by
  have member : ∀ {i : ℕ} {x : UInt64},
      [stat.user, stat.system, stat.idle, stat.nice, stat.ioWait, stat.irq, stat.softIrq,
        stat.steal, stat.guest, stat.guestNice, stat.total, stat.timestamp][i]? = some x →
        UInt64.ofNat (memberOf stat.bytes 8 i) = x := by
    intro i x found
    rw [Kmod.CpuStat.bytes, memberOf_append UInt64.toNat 8 _ found x.toNat_lt,
      UInt64.ofNat_toNat]
  rw [cpuStatRecordOf, member (i := 0) rfl, member (i := 1) rfl, member (i := 2) rfl,
    member (i := 3) rfl, member (i := 4) rfl, member (i := 5) rfl, member (i := 6) rfl,
    member (i := 7) rfl, Kmod.CpuStat.bytes, cpuNameOf_append]
  rfl

/-! ## Mappings -/

/-- A module's device that a user has mapped: the frames of the pages of the module's buffer,
which are different pages of the memory, what the memory holds elsewhere and what the pages of
the buffer held before, and the successful call of `mmap`. -/
structure Mapping (device : Kmod.Device) where
  pageSize : ℕ
  positive : 0 < pageSize
  frames : ℕ → ℕ
  distinct : Set.InjOn frames {page | page < pageCount pageSize device.size.toNat}
  elsewhere : Memory UInt8
  previous : ℕ → UInt8
  ret : Int32
  vma : VmAreaStruct
  table : PageTable
  mapped : device.mmap pageSize frames ret vma = .ok table

namespace Mapping

variable {device : Kmod.Device}

/-- The physical memory with the module's records in it. -/
def memory (v : Mapping device) (records : device.Buffer) : Memory UInt8 :=
  place v.pageSize (pageCount v.pageSize device.size.toNat) v.frames
    (fun k => (device.bytes records)[k]?.getD (v.previous k)) v.elsewhere

/-- The byte that the user sees at an offset into the mapping, if its page is mapped. -/
def shown (v : Mapping device) (records : device.Buffer) (k : ℕ) : Option UInt8 :=
  byteAt v.pageSize (v.memory records) v.table k

/-- The bytes of the record of a CPU in the mapping.  All bytes of the mapped size have a frame,
and no monitor reads behind it. -/
def recordBytes (v : Mapping device) (records : device.Buffer) (width : ℕ) (cpu : Cpu) :
    List UInt8 :=
  (List.range width).map fun j => (v.shown records (width * cpu + j)).getD 0

/-- The pages of the first `reach` bytes are mapped, in frames that follow one another. -/
structure Reaches (v : Mapping device) (reach : ℕ) : Prop where
  mapped : reach ≤ (device.mapSize v.vma).toNat
  inside : reach ≤ device.size.toNat
  follow : Consecutive v.pageSize reach v.frames

variable {v : Mapping device} {reach : ℕ}

theorem Reaches.mono (reaches : v.Reaches reach) {less : ℕ} (le : less ≤ reach) :
    v.Reaches less where
  mapped := le.trans reaches.mapped
  inside := le.trans reaches.inside
  follow page early := reaches.follow page (early.trans_le le)

/-- **The bytes of the buffer are seen as far as the frames of its pages follow one another.** -/
theorem shown_eq (reaches : v.Reaches reach) (records : device.Buffer) {k : ℕ}
    (early : k < reach) : v.shown records k = (device.bytes records)[k]? := by
  have page : k / v.pageSize * v.pageSize ≤ k := Nat.div_mul_le_self _ _
  have frame : v.table (k / v.pageSize) = some (v.frames (k / v.pageSize)) := by
    rw [mapping_of_mmap v.mapped, consecutive,
      if_pos ((page.trans_lt early).trans_le reaches.mapped),
      reaches.follow _ (page.trans_lt early)]
  have own : k / v.pageSize < pageCount v.pageSize device.size.toNat :=
    (lt_pageCount_iff v.positive).mpr ((page.trans_lt early).trans_le reaches.inside)
  have inside : k < (device.bytes records).length := by
    rw [device.length_bytes]
    exact early.trans_le reaches.inside
  rw [shown, byteAt, frame, Option.map_some, memory, place_frame v.distinct own,
    Nat.div_add_mod', List.getElem?_eq_getElem inside, Option.getD_some]

/-- The bytes of a record are those of the buffer. -/
theorem recordBytes_eq (records : device.Buffer) {width : ℕ} {cpu : Cpu}
    (reaches : v.Reaches (width * cpu + width)) :
    v.recordBytes records width cpu = ((device.bytes records).drop (width * cpu)).take width := by
  have enough := reaches.inside
  rw [← device.length_bytes records] at enough
  apply List.ext_getElem
  · rw [recordBytes, List.length_map, List.length_range, List.length_take, List.length_drop]
    omega
  · intro j early _
    rw [recordBytes, List.length_map, List.length_range] at early
    have inside : width * cpu + j < (device.bytes records).length := by omega
    rw [List.getElem_take, List.getElem_drop]
    simp only [recordBytes, List.getElem_map, List.getElem_range]
    rw [v.shown_eq reaches records (by omega), List.getElem?_eq_getElem inside, Option.getD_some]

end Mapping

/-! ## The records of a CPU -/

/-- The record of a CPU as `CpuSoftIrqMonitor` sees it. -/
def softirqRecordAt (v : Mapping .cpuSoftirqMonitor) (stats : Cpu → Kmod.SoftirqStat)
    (cpu : Cpu) : CpuSoftIrqMonitor.SoftirqStat :=
  softirqRecordOf (v.recordBytes stats 56 cpu)

/-- The record of a CPU as `CpuStatMonitor` sees it. -/
def cpuStatRecordAt (v : Mapping .cpuStatMonitor) (stats : Cpu → Kmod.CpuStat) (cpu : Cpu) :
    CpuStatMonitor.CpuStat :=
  cpuStatRecordOf (v.recordBytes stats 112 cpu)

theorem getElem?_finRange (cpu : Cpu) : (List.finRange 128)[cpu.val]? = some cpu := by
  rw [List.getElem?_eq_getElem (by simp), List.getElem_finRange]
  rfl

/-- **A record on pages whose frames follow one another is read as the module has written
it.** -/
theorem softirqRecordAt_eq {v : Mapping .cpuSoftirqMonitor} (stats : Cpu → Kmod.SoftirqStat)
    {cpu : Cpu} (reaches : v.Reaches (56 * cpu + 56)) :
    softirqRecordAt v stats cpu = softirqRecord (stats cpu) := by
  rw [softirqRecordAt, v.recordBytes_eq stats reaches, Kmod.Device.bytes,
    take_drop_flatMap (fun _ _ => Kmod.SoftirqStat.length_bytes _) (getElem?_finRange cpu),
    softirqRecordOf_bytes]

theorem cpuStatRecordAt_eq {v : Mapping .cpuStatMonitor} (stats : Cpu → Kmod.CpuStat)
    {cpu : Cpu} (reaches : v.Reaches (112 * cpu + 112)) :
    cpuStatRecordAt v stats cpu = cpuStatRecord (stats cpu) := by
  rw [cpuStatRecordAt, v.recordBytes_eq stats reaches, Kmod.Device.bytes,
    take_drop_flatMap (fun _ _ => Kmod.CpuStat.length_bytes _) (getElem?_finRange cpu),
    cpuStatRecordOf_bytes]

/-- Its first byte is enough for a record without a name. -/
theorem cpuName_softirqRecordAt {v : Mapping .cpuSoftirqMonitor}
    {stats : Cpu → Kmod.SoftirqStat} {cpu : Cpu} (reaches : v.Reaches (56 * cpu + 1))
    (empty : (softirqRecord (stats cpu)).cpuName = []) :
    (softirqRecordAt v stats cpu).cpuName = [] := by
  have block : ((Kmod.Device.cpuSoftirqMonitor.bytes stats).drop (56 * cpu)).take 56 =
      (stats cpu).bytes :=
    take_drop_flatMap (fun _ _ => Kmod.SoftirqStat.length_bytes _) (getElem?_finRange cpu)
  obtain ⟨b, rest, name⟩ := List.exists_cons_of_length_pos (l := (stats cpu).cpuName.toList)
    (by rw [Vector.length_toList]; decide)
  have zero : b = 0 := by
    by_contra nonzero
    simp [softirqRecord, charText, name, nonzero] at empty
  have byte : (Kmod.Device.cpuSoftirqMonitor.bytes stats)[56 * cpu.val]? = some 0 := by
    have first := congrArg (fun bytes : List UInt8 => bytes[0]?) block
    simp only [List.getElem?_take_of_lt (show 0 < 56 by decide), List.getElem?_drop, Nat.add_zero,
      Kmod.SoftirqStat.bytes, name, zero, List.cons_append, List.getElem?_cons_zero] at first
    exact first
  have seen := v.shown_eq reaches stats (Nat.lt_succ_self (56 * cpu.val))
  rw [byte] at seen
  simp [softirqRecordAt, softirqRecordOf, cpuNameOf, Mapping.recordBytes, List.range_succ_eq_map,
    seen]

end LinuxMonitor.Monitor

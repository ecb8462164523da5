import Mathlib.Data.UInt
import LinuxMonitor.Library.Paging

/-!
# Mapping the buffers of the kernel modules

Each of the three kernel modules keeps its records in a buffer from `vmalloc`, whose pages
lie in any frames, and maps it to the user with one call of `remap_pfn_range`, which maps
consecutive frames from that of the first page on.

* `mmap_shows_buffer_iff`: **a successful mapping shows the buffer exactly when the frames
  of the buffer's pages follow one another.**
* `cpuLoad_shows_buffer`: a buffer of one page is always shown.
-/

set_option autoImplicit false

namespace LinuxMonitor.Kmod

open Library

/-! ## The modules -/

/-- `struct vm_area_struct`: the addresses of the requested mapping. -/
structure VmAreaStruct where
  vmStart : UInt64
  vmEnd : UInt64

/-- The length of the requested mapping. -/
def VmAreaStruct.requestSize (vma : VmAreaStruct) : UInt64 := vma.vmEnd - vma.vmStart

/-- `-EINVAL` -/
def einval : Int32 := -22

/-- `MAX_CPU` -/
def maxCpu : UInt64 := 128

/-- `sizeof(struct cpu_stat)`: the name and twelve 64-bit numbers. -/
def sizeofCpuStat : UInt64 := 16 + 12 * 8

/-- `sizeof(struct softirq_stat)`: the name and ten 32-bit numbers, packed. -/
def sizeofSoftirqStat : UInt64 := 16 + 10 * 4

/-- `sizeof(struct cpu_load)`: three 64-bit numbers. -/
def sizeofCpuLoad : UInt64 := 3 * 8

/-- `remap_pfn_range(vma, vma->vm_start, pfn, size, …)`: an error, or the pages of `size`
bytes in consecutive frames from `pfn` on. -/
def remapPfnRange (pageSize : ℕ) (ret : Int32) (pfn : ℕ) (size : UInt64) : Except Int32 PageTable :=
  if ret = 0 then .ok (consecutive pageSize pfn size.toNat) else .error ret

section Mmap

/- The frames of the buffer's pages, and what `remap_pfn_range` returns.  The frame of the
buffer's first page is `vmalloc_to_pfn` of the buffer. -/
variable (pageSize : ℕ) (frames : ℕ → ℕ) (ret : Int32) (vma : VmAreaStruct)

def cpuStatMonitorMmap : Except Int32 PageTable :=
  let size := sizeofCpuStat * maxCpu
  if vma.requestSize = 0 then .error einval
  else
    let mapSize := if vma.requestSize < size then vma.requestSize else size
    let pfn := frames 0
    if pfn = 0 then .error einval
    else remapPfnRange pageSize ret pfn mapSize

def cpuSoftirqMonitorMmap : Except Int32 PageTable :=
  let size := sizeofSoftirqStat * maxCpu
  if vma.requestSize < size then .error einval
  else
    let pfn := frames 0
    if pfn = 0 then .error einval
    else remapPfnRange pageSize ret pfn size

def cpuLoadMonitorMmap : Except Int32 PageTable :=
  let size := sizeofCpuLoad
  if vma.requestSize < size then .error einval
  else remapPfnRange pageSize ret (frames 0) size

end Mmap

/-- The three devices. -/
inductive Device where
  | cpuStatMonitor
  | cpuSoftirqMonitor
  | cpuLoadMonitor
deriving DecidableEq, Repr

/-- The size of a module's buffer. -/
def Device.size : Device → UInt64
  | .cpuStatMonitor => sizeofCpuStat * maxCpu
  | .cpuSoftirqMonitor => sizeofSoftirqStat * maxCpu
  | .cpuLoadMonitor => sizeofCpuLoad

def Device.mmap : Device → ℕ → (ℕ → ℕ) → Int32 → VmAreaStruct → Except Int32 PageTable
  | .cpuStatMonitor => cpuStatMonitorMmap
  | .cpuSoftirqMonitor => cpuSoftirqMonitorMmap
  | .cpuLoadMonitor => cpuLoadMonitorMmap

/-! ## What a mapping shows -/

instance nontrivialByte : Nontrivial UInt8 := ⟨0, 1, by decide⟩

/-- The buffer of a module: each of its pages has a frame. -/
def buffer (frames : ℕ → ℕ) : PageTable := fun page => some (frames page)

/-- Every byte of the buffer is the byte of the same number in the user's mapping, whatever
the memory contains. -/
def ShowsBuffer (device : Device) (pageSize : ℕ) (frames : ℕ → ℕ) (mapping : PageTable) : Prop :=
  ∀ memory : Memory UInt8, ∀ k < device.size.toNat,
    byteAt pageSize memory mapping k = byteAt pageSize memory (buffer frames) k

/-- The frames of the pages of the first `size` bytes follow one another. -/
def Consecutive (pageSize size : ℕ) (frames : ℕ → ℕ) : Prop :=
  ∀ page, page * pageSize < size → frames page = frames 0 + page

/-- How much of the buffer a module maps: no more than was requested, if it lets a user ask
for less. -/
def Device.mapSize (vma : VmAreaStruct) : Device → UInt64
  | .cpuStatMonitor =>
      if vma.requestSize < Device.cpuStatMonitor.size then vma.requestSize
      else Device.cpuStatMonitor.size
  | device => device.size

theorem mapSize_of_le {device : Device} {vma : VmAreaStruct}
    (whole : device.size ≤ vma.requestSize) : device.mapSize vma = device.size := by
  cases device with
  | cpuStatMonitor => exact if_neg (UInt64.not_lt.mpr whole)
  | cpuSoftirqMonitor => rfl
  | cpuLoadMonitor => rfl

/-- **A mapping is one run of frames**, in all three modules. -/
theorem mapping_of_mmap {device : Device} {pageSize : ℕ} {frames : ℕ → ℕ} {ret : Int32}
    {vma : VmAreaStruct} {mapping : PageTable}
    (mapped : device.mmap pageSize frames ret vma = .ok mapping) :
    mapping = consecutive pageSize (frames 0) (device.mapSize vma).toNat := by
  have remapped : remapPfnRange pageSize ret (frames 0) (device.mapSize vma) = .ok mapping := by
    cases device with
    | cpuStatMonitor =>
        simp only [Device.mmap, cpuStatMonitorMmap] at mapped
        split at mapped
        · cases mapped
        · split at mapped
          · cases mapped
          · exact mapped
    | cpuSoftirqMonitor =>
        simp only [Device.mmap, cpuSoftirqMonitorMmap] at mapped
        split at mapped
        · cases mapped
        · split at mapped
          · cases mapped
          · exact mapped
    | cpuLoadMonitor =>
        simp only [Device.mmap, cpuLoadMonitorMmap] at mapped
        split at mapped
        · cases mapped
        · exact mapped
  rw [remapPfnRange] at remapped
  split at remapped
  · exact (Except.ok.inj remapped).symm
  · cases remapped

/-- **When a mapping shows the buffer.**  Take any frames of the buffer's pages and any
successful `mmap` of at least the buffer's size, on any of the three devices.  Each byte of
the mapping is the byte of the buffer with the same number exactly when the frames of the
buffer's pages follow one another. -/
theorem mmap_shows_buffer_iff (device : Device) {pageSize : ℕ} (positive : 0 < pageSize)
    {frames : ℕ → ℕ} {ret : Int32} {vma : VmAreaStruct} {mapping : PageTable}
    (mapped : device.mmap pageSize frames ret vma = .ok mapping)
    (whole : device.size ≤ vma.requestSize) :
    ShowsBuffer device pageSize frames mapping ↔
      Consecutive pageSize device.size.toNat frames := by
  rw [ShowsBuffer, byteAt_eq_iff positive, mapping_of_mmap mapped, mapSize_of_le whole]
  apply forall₂_congr
  intro page inside
  rw [consecutive, if_pos inside, buffer, Option.some.injEq]
  exact eq_comm

/-- A buffer that fits in one page has no other. -/
theorem page_eq_zero {pageSize size : ℕ} (one : size ≤ pageSize) {page : ℕ}
    (inside : page * pageSize < size) : page = 0 := by
  by_contra later
  have far := Nat.le_mul_of_pos_left pageSize (Nat.pos_of_ne_zero later)
  omega

/-- Such a buffer is always shown. -/
theorem consecutive_of_le {pageSize size : ℕ} (one : size ≤ pageSize) (frames : ℕ → ℕ) :
    Consecutive pageSize size frames := by
  intro page inside
  rw [page_eq_zero one inside, Nat.add_zero]

/-- `/dev/cpu_load_monitor` always shows its buffer, which is smaller than a page. -/
theorem cpuLoad_shows_buffer {pageSize : ℕ} (large : sizeofCpuLoad.toNat ≤ pageSize)
    {frames : ℕ → ℕ} {ret : Int32} {vma : VmAreaStruct} {mapping : PageTable}
    (mapped : cpuLoadMonitorMmap pageSize frames ret vma = .ok mapping)
    (whole : sizeofCpuLoad ≤ vma.requestSize) :
    ShowsBuffer .cpuLoadMonitor pageSize frames mapping := by
  have positive : 0 < pageSize := Nat.lt_of_lt_of_le (by decide) large
  have shows := mmap_shows_buffer_iff .cpuLoadMonitor positive mapped whole
  exact shows.mpr (consecutive_of_le large frames)

/-! ## Frames that follow one another, and frames that do not -/

/-- A request for four pages. -/
def fourPages : VmAreaStruct := ⟨0x10000, 0x14000⟩

/-- With consecutive frames the statistics of all CPUs are shown. -/
theorem mmap_shows_consecutive : ∃ mapping,
    Device.cpuStatMonitor.mmap 4096 (fun page => 7 + page) 0 fourPages = .ok mapping ∧
      ShowsBuffer .cpuStatMonitor 4096 (fun page => 7 + page) mapping := by
  have mapped : Device.cpuStatMonitor.mmap 4096 (fun page => 7 + page) 0 fourPages =
      .ok (consecutive 4096 7 14336) := rfl
  refine ⟨_, mapped, ?_⟩
  apply (mmap_shows_buffer_iff .cpuStatMonitor (by decide) mapped (by decide)).mpr
  intro page _
  rfl

/-- With frames in descending order the mapping shows other memory from the second page on. -/
theorem mmap_misses_scattered : ∃ mapping,
    Device.cpuStatMonitor.mmap 4096 (fun page => 9 - page) 0 fourPages = .ok mapping ∧
      Device.cpuStatMonitor.size ≤ fourPages.requestSize ∧
      ¬ ShowsBuffer .cpuStatMonitor 4096 (fun page => 9 - page) mapping := by
  refine ⟨consecutive 4096 9 14336, rfl, by decide, fun shows => ?_⟩
  have frames := (byteAt_eq_iff (by decide)).mp shows 1 (by decide)
  exact absurd frames (by decide)

end LinuxMonitor.Kmod

import LinuxMonitor.Kmod.Lifecycle
import LinuxMonitor.Kmod.Statistics

/-!
# What the memory of the modules shows

A buffer from `vmalloc` holds whatever its pages held before, until the module has written
it.  A mapping consists of whole pages, so that it reaches beyond the records of a buffer
that does not end with a page.

Two runs are compared that differ only in what the pages of the buffer held before.  They
meet the same events at the same statistics of the kernel, and the memory outside the buffer
is the same.

* `Instance.nonInterfering_iff`: a mapping hides what was there before exactly when each page
  of the buffer that it reaches is filled.
* `Instance.interferes_of_consecutive`: a mapping that shows the whole buffer, page by page,
  also shows what is behind the last record.
* `Instance.cpuLoad_interferes`: the page of the load is never hidden.
* `nonInterfering_run_iff`: **the condition for all runs.**
-/

set_option autoImplicit false

namespace LinuxMonitor.Kmod

open Library

/-! ## The bytes of the records -/

/-- The bytes of a number, the lowest first. -/
def littleEndian (width n : ℕ) : List UInt8 :=
  (List.range width).map fun i => UInt8.ofNat (n >>> (8 * i))

def CpuStat.bytes (stat : CpuStat) : List UInt8 :=
  stat.cpuName.toList ++
    [stat.user, stat.system, stat.idle, stat.nice, stat.ioWait, stat.irq, stat.softIrq,
      stat.steal, stat.guest, stat.guestNice, stat.total, stat.timestamp].flatMap
      fun x => littleEndian 8 x.toNat

def SoftirqStat.bytes (stat : SoftirqStat) : List UInt8 :=
  stat.cpuName.toList ++
    [stat.hi, stat.timer, stat.netTx, stat.netRx, stat.block, stat.irqPoll, stat.tasklet,
      stat.sched, stat.hrtimer, stat.rcu].flatMap
      fun x => littleEndian 4 x.toNat

def CpuLoad.bytes (load : CpuLoad) : List UInt8 :=
  [load.loadAvg1, load.loadAvg3, load.loadAvg15].flatMap fun x => littleEndian 8 x.toNat

/-- The records of a module's buffer. -/
abbrev Device.Buffer : Device → Type
  | .cpuStatMonitor => Cpu → CpuStat
  | .cpuSoftirqMonitor => Cpu → SoftirqStat
  | .cpuLoadMonitor => CpuLoad

def Device.bytes : (device : Device) → device.Buffer → List UInt8
  | .cpuStatMonitor, stats => (List.finRange 128).flatMap fun cpu => (stats cpu).bytes
  | .cpuSoftirqMonitor, stats => (List.finRange 128).flatMap fun cpu => (stats cpu).bytes
  | .cpuLoadMonitor, load => load.bytes

theorem length_littleEndian (width n : ℕ) : (littleEndian width n).length = width := by
  rw [littleEndian, List.length_map, List.length_range]

theorem CpuStat.length_bytes (stat : CpuStat) : stat.bytes.length = 112 := by
  simp [CpuStat.bytes, length_littleEndian]

theorem SoftirqStat.length_bytes (stat : SoftirqStat) : stat.bytes.length = 56 := by
  simp [SoftirqStat.bytes, length_littleEndian]

theorem CpuLoad.length_bytes (load : CpuLoad) : load.bytes.length = 24 := by
  simp [CpuLoad.bytes, length_littleEndian]

/-- The records fill the size that the module allocates. -/
theorem Device.length_bytes (device : Device) (records : device.Buffer) :
    (device.bytes records).length = device.size.toNat := by
  cases device with
  | cpuStatMonitor =>
      have size : Device.cpuStatMonitor.size.toNat = 128 * 112 := by decide
      simp [Device.bytes, List.length_flatMap, CpuStat.length_bytes, size]
  | cpuSoftirqMonitor =>
      have size : Device.cpuSoftirqMonitor.size.toNat = 128 * 56 := by decide
      simp [Device.bytes, List.length_flatMap, SoftirqStat.length_bytes, size]
  | cpuLoadMonitor => exact CpuLoad.length_bytes records

/-! ## Runs -/

/-- The records that the init function writes before it registers the device. -/
def Device.initRecords : (device : Device) → KernelStatistics → Option device.Buffer
  | .cpuStatMonitor, kernel => some (initCpuStats kernel)
  | .cpuSoftirqMonitor, kernel => some (initSoftirqStats kernel)
  -- `cpu_load_monitor_init` neither clears the buffer nor calls `update_cpu_load`.
  | .cpuLoadMonitor, _ => none

/-- What the callback of the timer writes over the records that are there. -/
def Device.timerCallback : (device : Device) → KernelStatistics → Option device.Buffer →
    Option device.Buffer
  | .cpuStatMonitor, kernel, written => written.map (updateCpuStats kernel)
  | .cpuSoftirqMonitor, kernel, written => written.map (updateSoftirqStats kernel)
  | .cpuLoadMonitor, kernel, _ => some (updateCpuLoad kernel)

/-- A module and the records it has written, none as long as there are none. -/
structure Instance (device : Device) where
  life : State
  written : Option device.Buffer

/-- An event, and the statistics the kernel has at that time. -/
abbrev Moment : Type := Event × KernelStatistics

def Device.start (device : Device) (o : InitOutcomes) (kernel : KernelStatistics) :
    Instance device where
  life := load device o
  written := if o.vmalloc then device.initRecords kernel else none

namespace Instance

variable {device : Device}

def step (s : Instance device) (m : Moment) : Instance device where
  life := Kmod.step s.life m.1
  written :=
    if m.1 = .timerExpires ∧ holds .timer s.life.ops then device.timerCallback m.2 s.written
    else s.written

def run (s : Instance device) (moments : List Moment) : Instance device := moments.foldl step s

/-- The device is registered. -/
def Registered (s : Instance device) : Prop := holds .device s.life.ops = true

instance decidableRegistered (s : Instance device) : Decidable s.Registered :=
  inferInstanceAs (Decidable (holds .device s.life.ops = true))

/-! ## What is shown -/

/-- The bytes of the buffer's pages, where `previous` are those they held before. -/
def contents (s : Instance device) (previous : ℕ → UInt8) (k : ℕ) : UInt8 :=
  match s.written with
  | none => previous k
  | some records => (device.bytes records)[k]?.getD (previous k)

/-- The physical memory. -/
def memory (s : Instance device) (pageSize : ℕ) (frames : ℕ → ℕ) (elsewhere : Memory UInt8)
    (previous : ℕ → UInt8) : Memory UInt8 :=
  place pageSize (pageCount pageSize device.size.toNat) frames (s.contents previous) elsewhere

/-- Whatever the pages of the buffer held before, the mapping shows the same bytes. -/
def NonInterfering (s : Instance device) (pageSize : ℕ) (frames : ℕ → ℕ)
    (elsewhere : Memory UInt8) (mapping : PageTable) : Prop :=
  ∀ previous previous' : ℕ → UInt8, ∀ k,
    byteAt pageSize (s.memory pageSize frames elsewhere previous) mapping k =
      byteAt pageSize (s.memory pageSize frames elsewhere previous') mapping k

/-- Each byte of a page of the buffer belongs to a record that has been written. -/
def Filled (s : Instance device) (pageSize page : ℕ) : Prop :=
  (page + 1) * pageSize ≤ device.size.toNat ∧ s.written.isSome = true

/-- A byte does not depend on the past exactly when it belongs to a written record. -/
theorem contents_agree_iff (s : Instance device) (k : ℕ) :
    (∀ previous previous' : ℕ → UInt8, s.contents previous k = s.contents previous' k) ↔
      k < device.size.toNat ∧ s.written.isSome = true := by
  have differ : (0 : UInt8) ≠ 1 := by decide
  unfold contents
  cases s.written with
  | none =>
      constructor
      · intro agree
        exact absurd (agree (fun _ => 0) fun _ => 1) differ
      · rintro ⟨-, missing⟩
        cases missing
  | some records =>
      rw [← device.length_bytes records]
      constructor
      · intro agree
        refine ⟨not_le.mp fun beyond => ?_, rfl⟩
        have shown := agree (fun _ => 0) fun _ => 1
        simp only [List.getElem?_eq_none beyond, Option.getD_none] at shown
        exact differ shown
      · rintro ⟨inside, -⟩ previous previous'
        simp only [List.getElem?_eq_getElem inside, Option.getD_some]

/-- A page does not depend on the past exactly when it is filled. -/
theorem page_agrees_iff (s : Instance device) {pageSize : ℕ} (positive : 0 < pageSize)
    (page : ℕ) :
    (∀ offset < pageSize, ∀ previous previous' : ℕ → UInt8,
        s.contents previous (page * pageSize + offset) =
          s.contents previous' (page * pageSize + offset)) ↔
      s.Filled pageSize page := by
  rw [Filled, Nat.succ_mul]
  constructor
  · intro agree
    obtain ⟨inside, written⟩ := (s.contents_agree_iff _).mp (agree (pageSize - 1) (by omega))
    exact ⟨by omega, written⟩
  · rintro ⟨fits, written⟩ offset small
    exact (s.contents_agree_iff _).mpr ⟨by omega, written⟩

/-- **A mapping hides the past exactly when each page of the buffer that it reaches is
filled.** -/
theorem nonInterfering_iff (s : Instance device) {pageSize : ℕ} (positive : 0 < pageSize)
    {frames : ℕ → ℕ} (injective : Set.InjOn frames {page | page * pageSize < device.size.toNat})
    (elsewhere : Memory UInt8) (mapping : PageTable) :
    s.NonInterfering pageSize frames elsewhere mapping ↔
      ∀ page q, q * pageSize < device.size.toNat → mapping page = some (frames q) →
        s.Filled pageSize q := by
  have pages : {page | page * pageSize < device.size.toNat} =
      {page | page < pageCount pageSize device.size.toNat} :=
    Set.ext fun page => (lt_pageCount_iff positive).symm
  rw [pages] at injective
  simp only [NonInterfering, memory, byteAt_place_eq_iff positive injective,
    ← page_agrees_iff s positive, lt_pageCount_iff positive]
  constructor
  · intro hidden page q inside reached offset small previous previous'
    exact hidden previous previous' page q inside reached offset small
  · intro hidden previous previous' page q inside reached offset small
    exact hidden page q inside reached offset small previous previous'

/-- **A mapping that shows the whole buffer shows more**, unless the buffer ends with a page:
the bytes behind the last record are never written. -/
theorem interferes_of_consecutive (s : Instance device) {pageSize : ℕ} (positive : 0 < pageSize)
    {frames : ℕ → ℕ} (injective : Set.InjOn frames {page | page * pageSize < device.size.toNat})
    (elsewhere : Memory UInt8) {ret : Int32} {vma : VmAreaStruct} {mapping : PageTable}
    (mapped : device.mmap pageSize frames ret vma = .ok mapping)
    (whole : device.mapSize vma = device.size)
    (follow : Consecutive pageSize device.size.toNat frames)
    (split : ¬ pageSize ∣ device.size.toNat) :
    ¬ s.NonInterfering pageSize frames elsewhere mapping := by
  intro hidden
  have last : device.size.toNat / pageSize * pageSize < device.size.toNat := by
    refine lt_of_le_of_ne (Nat.div_mul_le_self _ _) fun same => split ?_
    exact Dvd.intro_left _ same
  have reached : mapping (device.size.toNat / pageSize) =
      some (frames (device.size.toNat / pageSize)) := by
    rw [mapping_of_mmap mapped, whole, consecutive, if_pos last, follow _ last]
  obtain ⟨fits, -⟩ :=
    (s.nonInterfering_iff positive injective elsewhere mapping).mp hidden _ _ last reached
  exact absurd (Nat.lt_mul_of_div_lt (Nat.lt_succ_self _) positive) (not_lt.mpr fits)

/-- `/dev/cpu_load_monitor`, whose buffer is smaller than a page, never hides what was there
before. -/
theorem cpuLoad_interferes (s : Instance .cpuLoadMonitor) {pageSize : ℕ}
    (large : sizeofCpuLoad.toNat < pageSize) (frames : ℕ → ℕ) (elsewhere : Memory UInt8)
    {ret : Int32} {vma : VmAreaStruct} {mapping : PageTable}
    (mapped : cpuLoadMonitorMmap pageSize frames ret vma = .ok mapping) :
    ¬ s.NonInterfering pageSize frames elsewhere mapping := by
  have injective : Set.InjOn frames {page | page * pageSize < sizeofCpuLoad.toNat} := by
    intro page inside page' inside' _
    rw [page_eq_zero large.le inside, page_eq_zero large.le inside']
  refine s.interferes_of_consecutive (Nat.zero_lt_of_lt large) injective elsewhere mapped rfl ?_ ?_
  · exact consecutive_of_le large.le frames
  · exact Nat.not_dvd_of_pos_of_lt (by decide) large

/-! ## Runs to a registered device -/

theorem life_run (s : Instance device) (moments : List Moment) :
    (s.run moments).life = Kmod.run (moments.map Prod.fst) s.life := by
  induction moments generalizing s with
  | nil => rfl
  | cons m moments ih => exact ih (s.step m)

theorem isSome_timerCallback (kernel : KernelStatistics) (written : Option device.Buffer) :
    (device.timerCallback kernel written).isSome = true ↔
      written.isSome = true ∨ device = .cpuLoadMonitor := by
  cases device <;> cases written <;> simp [Device.timerCallback]

/-- As long as its device is registered, a module has written its records if the init
function did, or if the timer has expired and the module for the load is meant. -/
theorem isSome_run {s : Instance device} (running : Running s.life) {moments : List Moment}
    (registered : (s.run moments).Registered) :
    (s.run moments).written.isSome = true ↔
      s.written.isSome = true ∨
        device = .cpuLoadMonitor ∧ ∃ kernel, (.timerExpires, kernel) ∈ moments := by
  induction moments generalizing s with
  | nil => simp [run]
  | cons m moments ih =>
      have loaded : s.life.loaded = true := by
        by_contra removed
        have final := loaded_run (Bool.eq_false_iff.mpr removed) ((m :: moments).map Prod.fst)
        rw [Registered, life_run, (running.run _).holds_eq, final] at registered
        cases registered
      have armed : holds .timer s.life.ops = true := (running.holds_eq .timer).trans loaded
      have later := ih (running.step m.1) registered
      obtain ⟨event, kernel⟩ := m
      apply later.trans
      cases event with
      | timerExpires =>
          simp only [step, armed, and_self, if_true, isSome_timerCallback, List.mem_cons]
          constructor
          · rintro ((written | load) | ⟨load, found, member⟩)
            · exact .inl written
            · exact .inr ⟨load, kernel, .inl rfl⟩
            · exact .inr ⟨load, found, .inr member⟩
          · rintro (written | ⟨load, -⟩)
            · exact .inl (.inl written)
            · exact .inl (.inr load)
      | mmap => simp [step]
      | moduleExit => simp [step]

end Instance

/-- **When what was there before stays hidden.**  Take any run of a module up to a moment at
which its device is registered, any frames of the buffer's pages and any successful `mmap`.
The mapping hides what the pages held before exactly when each page of the buffer that it
reaches ends within the records and, on the device for the load, the timer has expired. -/
theorem nonInterfering_run_iff (device : Device) {pageSize : ℕ} (positive : 0 < pageSize)
    {frames : ℕ → ℕ} (injective : Set.InjOn frames {page | page * pageSize < device.size.toNat})
    (elsewhere : Memory UInt8) (o : InitOutcomes) (kernel : KernelStatistics)
    (moments : List Moment) (registered : ((device.start o kernel).run moments).Registered)
    {ret : Int32} {vma : VmAreaStruct} {mapping : PageTable}
    (mapped : device.mmap pageSize frames ret vma = .ok mapping) :
    ((device.start o kernel).run moments).NonInterfering pageSize frames elsewhere mapping ↔
      ∀ page q, page * pageSize < (device.mapSize vma).toNat →
        q * pageSize < device.size.toNat → frames 0 + page = frames q →
        (q + 1) * pageSize ≤ device.size.toNat ∧
          (device = .cpuLoadMonitor → ∃ kernel, (.timerExpires, kernel) ∈ moments) := by
  have registered' := registered
  rw [Instance.Registered, Instance.life_run] at registered'
  obtain ⟨vmalloc, miscRegister⟩ := complete_of_registered registered'
  have running : Running (device.start o kernel).life := running_load device vmalloc miscRegister
  have written := Instance.isSome_run running registered
  have first : (device.start o kernel).written.isSome = true ↔ device ≠ .cpuLoadMonitor := by
    cases device <;> simp [Device.start, Device.initRecords, vmalloc]
  rw [Instance.nonInterfering_iff _ positive injective, mapping_of_mmap mapped]
  constructor
  · intro filled page q shown inside same
    have reached : consecutive pageSize (frames 0) (device.mapSize vma).toNat page =
        some (frames q) := by
      rw [consecutive, if_pos shown, same]
    obtain ⟨fits, some_written⟩ := filled page q inside reached
    refine ⟨fits, fun load => ?_⟩
    rcases written.mp some_written with early | ⟨-, ticked⟩
    · exact absurd load (first.mp early)
    · exact ticked
  · intro filled page q inside reached
    rw [consecutive] at reached
    split at reached
    · next shown =>
        obtain ⟨fits, ticked⟩ := filled page q shown inside (Option.some.inj reached)
        refine ⟨fits, written.mpr ?_⟩
        by_cases load : device = .cpuLoadMonitor
        · exact .inr ⟨load, ticked load⟩
        · exact .inl (first.mpr load)
    · cases reached

/-! ## A page that is hidden, and one that is not -/

/-- The statistics of a kernel that has counted nothing, with one CPU online. -/
def idleKernel : KernelStatistics where
  kcpustat := fun _ => ⟨0, 0, 0, 0, 0, 0, 0, 0, 0, 0⟩
  softirqs := fun _ => ⟨0, 0, 0, 0, 0, 0, 0, 0, 0, 0⟩
  ktimeGetNs := fun _ => 0
  avenrun := fun _ => 0
  online := fun cpu => cpu = 0

/-- A request for three pages. -/
def threePages : VmAreaStruct := ⟨0x10000, 0x13000⟩

/-- Of the CPU times the first three pages hide what was there before. -/
theorem nonInterfering_threePages : ∃ mapping,
    Device.cpuStatMonitor.mmap 4096 (fun page => 7 + page) 0 threePages = .ok mapping ∧
      (Device.cpuStatMonitor.start ⟨true, true⟩ idleKernel).NonInterfering 4096
        (fun page => 7 + page) (fun _ _ => 0) mapping := by
  have mapped : Device.cpuStatMonitor.mmap 4096 (fun page => 7 + page) 0 threePages =
      .ok (consecutive 4096 7 12288) := rfl
  have injective : Function.Injective fun page => 7 + page := add_right_injective 7
  refine ⟨_, mapped, (nonInterfering_run_iff .cpuStatMonitor (by decide) injective.injOn _
    ⟨true, true⟩ idleKernel [] (by decide) mapped).mpr ?_⟩
  intro page q shown _ same
  have size : (Device.cpuStatMonitor.mapSize threePages).toNat = 12288 := by decide
  have whole : Device.cpuStatMonitor.size.toNat = 14336 := by decide
  rw [size] at shown
  rw [whole]
  exact ⟨by omega, fun load => by cases load⟩

/-- Before the timer expires, the page of the load shows what it held before. -/
theorem interferes_cpuLoad : ∃ mapping,
    Device.cpuLoadMonitor.mmap 4096 (fun page => 7 + page) 0 threePages = .ok mapping ∧
      (Device.cpuLoadMonitor.start ⟨true, true⟩ idleKernel).Registered ∧
      ¬ (Device.cpuLoadMonitor.start ⟨true, true⟩ idleKernel).NonInterfering 4096
        (fun page => 7 + page) (fun _ _ => 0) mapping := by
  refine ⟨consecutive 4096 7 24, rfl, by decide, fun hidden => ?_⟩
  exact absurd (hidden (fun _ => 0) (fun _ => 1) 0) (by decide)

end LinuxMonitor.Kmod

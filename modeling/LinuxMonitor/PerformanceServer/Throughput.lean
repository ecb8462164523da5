import LinuxMonitor.Monitor.DiskMonitor
import LinuxMonitor.Monitor.NetMonitor
import LinuxMonitor.PerformanceServer.MetricRows

/-!
# Throughput from the counters to the tables

The rates of an interface leave the monitor in KB/s and are stored as they are, in columns
whose names say `mbps`.  The rates of a disk leave the monitor in bytes per second and are
stored in units of 2^20 bytes.  The average packet size takes KB/s back to bytes.

* `networkThroughput_eq`: what is stored for an interface is in KB/s.
* `diskThroughput_eq`: what is stored for a disk is in units of 2^20 bytes.
* `avgPacketSize_eq`: the average packet size is the bytes divided by the packets.
* `throughput_agrees_iff`: **the two tables are in one unit exactly for interfaces that have
  moved no bytes.**
-/

set_option autoImplicit false

namespace LinuxMonitor.PerformanceServer

open Library Monitor

/-! ## What is moved between two samples -/

/-- The counters of an interface do not decrease. -/
structure NetCounting (last current : NetMonitor.NetStat) : Prop where
  rcvBytes : last.rcvBytes ≤ current.rcvBytes
  rcvPackets : last.rcvPackets ≤ current.rcvPackets
  sndBytes : last.sndBytes ≤ current.sndBytes
  sndPackets : last.sndPackets ≤ current.sndPackets

/-- The bytes received and sent between two samples. -/
def bytesMoved (last current : NetMonitor.NetStat) : ℕ :=
  (current.rcvBytes.toNat - last.rcvBytes.toNat) + (current.sndBytes.toNat - last.sndBytes.toNat)

/-- The packets received and sent between two samples. -/
def packetsMoved (last current : NetMonitor.NetStat) : ℕ :=
  (current.rcvPackets.toNat - last.rcvPackets.toNat) +
    (current.sndPackets.toNat - last.sndPackets.toNat)

/-- The sector counts of a disk do not decrease. -/
structure DiskCounting (last curr : DiskMonitor.DiskInfo) : Prop where
  sectorsRead : last.sectorsRead ≤ curr.sectorsRead
  sectorsWritten : last.sectorsWritten ≤ curr.sectorsWritten

/-- The bytes read and written between two samples.  A sector has 512 bytes. -/
def diskBytesMoved (last curr : DiskMonitor.DiskInfo) : ℕ :=
  ((curr.sectorsRead.toNat - last.sectorsRead.toNat) +
    (curr.sectorsWritten.toNat - last.sectorsWritten.toNat)) * 512

/-! ## One interface -/

section Interface

variable {last current : NetMonitor.NetInfo} (later : last.timepoint < current.timepoint)
  (counting : NetCounting last.toNetStat current.toNetStat)
include later counting

/-- The traffic rates of the message. -/
theorem trafficRates_message :
    let netInfo := NetMonitor.message (some last) current
    let dt := NetMonitor.seconds last.timepoint current.timepoint
    netInfo.sendRate + netInfo.rcvRate =
        bytesMoved last.toNetStat current.toNetStat / 1024 / dt ∧
      netInfo.sendPacketsRate + netInfo.rcvPacketsRate =
        packetsMoved last.toNetStat current.toNetStat / dt := by
  have rcvBytes := NetMonitor.rate_message later .rcvBytes
  have sndBytes := NetMonitor.rate_message later .sndBytes
  have rcvPackets := NetMonitor.rate_message later .rcvPackets
  have sndPackets := NetMonitor.rate_message later .sndPackets
  simp only [NetMonitor.Counter.rate, NetMonitor.Counter.value, NetMonitor.Counter.unit, div_one,
    UInt64.toNat_sub_of_le _ _ counting.rcvBytes, UInt64.toNat_sub_of_le _ _ counting.sndBytes,
    UInt64.toNat_sub_of_le _ _ counting.rcvPackets,
    UInt64.toNat_sub_of_le _ _ counting.sndPackets] at rcvBytes sndBytes rcvPackets sndPackets
  constructor
  · rw [sndBytes, rcvBytes, bytesMoved, Nat.cast_add]
    ring
  · rw [sndPackets, rcvPackets, packetsMoved, Nat.cast_add]
    ring

/-- **What is stored for an interface is in KB/s.** -/
theorem networkThroughput_eq (hostId : Text) (time : ℤ) :
    (networkRow hostId time (NetMonitor.message (some last) current)).throughput =
      some (bytesMoved last.toNetStat current.toNetStat / 1024 /
        NetMonitor.seconds last.timepoint current.timepoint) :=
  congrArg some (trafficRates_message later counting).1

/-- **The average packet size is the bytes divided by the packets.** -/
theorem avgPacketSize_eq (moved : 0 < packetsMoved last.toNetStat current.toNetStat) :
    calculateNetworkAvgPacketSize (NetMonitor.message (some last) current) =
      bytesMoved last.toNetStat current.toNetStat /
        packetsMoved last.toNetStat current.toNetStat := by
  obtain ⟨bytes, packets⟩ := trafficRates_message later counting
  have passed := NetMonitor.seconds_pos later
  have some_packets : (0 : ℚ) < packetsMoved last.toNetStat current.toNetStat :=
    Nat.cast_pos.mpr moved
  have positive := div_pos some_packets passed
  rw [calculateNetworkAvgPacketSize]
  simp only [packets, bytes, if_pos positive]
  field_simp

/-- What is stored is in units of 2^20 bytes only when nothing was moved. -/
theorem networkThroughput_iff (hostId : Text) (time : ℤ) :
    (networkRow hostId time (NetMonitor.message (some last) current)).throughput =
        some (bytesMoved last.toNetStat current.toNetStat /
          NetMonitor.seconds last.timepoint current.timepoint / 2 ^ 20) ↔
      bytesMoved last.toNetStat current.toNetStat = 0 := by
  have passed := NetMonitor.seconds_pos later
  rw [networkThroughput_eq later counting, Option.some.injEq]
  constructor
  · intro same
    rw [div_right_comm] at same
    have rate : (bytesMoved last.toNetStat current.toNetStat : ℚ) /
        NetMonitor.seconds last.timepoint current.timepoint = 0 := by
      linarith
    rcases div_eq_zero_iff.mp rate with bytes | none
    · exact Nat.cast_eq_zero.mp bytes
    · exact absurd none passed.ne'
  · intro none
    rw [none]
    simp

end Interface

/-! ## One disk -/

/-- **What is stored for a disk is in units of 2^20 bytes.** -/
theorem diskThroughput_eq {now last : ℤ} {state : DiskMonitor.State}
    {previous curr : DiskMonitor.DiskInfo}
    (stored : state.previousDiskStats.lookup curr.name = some previous)
    (read : state.lastTime.lookup curr.name = some last) (passed : last < now)
    (growing : DiskCounting previous curr) (hostId : Text) (time : ℤ) :
    (diskRow hostId time (DiskMonitor.message curr (DiskMonitor.rates now state curr))).throughput =
      some (diskBytesMoved previous curr / ((now - last : ℤ) : ℚ) / 2 ^ 20) := by
  have positive : (now : ℚ) - last > 0 := sub_pos.mpr (Int.cast_lt.mpr passed)
  have rates : DiskMonitor.rates now state curr =
      DiskMonitor.ratesOver (now - last) curr previous := by
    rw [DiskMonitor.rates, stored]
    simp only [read, Option.getD_some, if_pos positive]
  apply congrArg some
  rw [rates]
  simp only [DiskMonitor.message, DiskMonitor.ratesOver, perMiB,
    UInt64.toNat_sub_of_le _ _ growing.sectorsRead,
    UInt64.toNat_sub_of_le _ _ growing.sectorsWritten, diskBytesMoved]
  push_cast
  ring

/-! ## The main result -/

/-- **Take two consecutive samples of an interface in a run, and two of a disk.  What is stored
for the two is in units of 2^20 bytes per second, and the average packet size is the bytes
divided by the packets, exactly when the interface has moved no bytes.** -/
theorem throughput_agrees_iff {ifname : Text} {calls : List NetMonitor.Call} {k : ℕ}
    {last current : NetMonitor.NetInfo} {netInfo : Proto.NetInfo ℚ}
    (first : (NetMonitor.appearances ifname calls)[k]? = some last)
    (second : (NetMonitor.appearances ifname calls)[k + 1]? = some current)
    (reported : (NetMonitor.reported ifname calls)[k + 1]? = some netInfo)
    (later : last.timepoint < current.timepoint)
    (counting : NetCounting last.toNetStat current.toNetStat)
    {now before : ℤ} {state : DiskMonitor.State} {previous curr : DiskMonitor.DiskInfo}
    (stored : state.previousDiskStats.lookup curr.name = some previous)
    (read : state.lastTime.lookup curr.name = some before) (passed : before < now)
    (growing : DiskCounting previous curr) (hostId : Text) (time : ℤ) :
    ((networkRow hostId time netInfo).throughput =
        some (bytesMoved last.toNetStat current.toNetStat /
          NetMonitor.seconds last.timepoint current.timepoint / 2 ^ 20) ∧
      (diskRow hostId time
          (DiskMonitor.message curr (DiskMonitor.rates now state curr))).throughput =
        some (diskBytesMoved previous curr / ((now - before : ℤ) : ℚ) / 2 ^ 20) ∧
      (0 < packetsMoved last.toNetStat current.toNetStat →
        calculateNetworkAvgPacketSize netInfo =
          bytesMoved last.toNetStat current.toNetStat /
            packetsMoved last.toNetStat current.toNetStat)) ↔
      bytesMoved last.toNetStat current.toNetStat = 0 := by
  have message : netInfo = NetMonitor.message (some last) current := by
    rw [NetMonitor.reported_eq_alone, getElem?_alone_succ first second] at reported
    exact (Option.some.inj reported).symm
  subst message
  rw [networkThroughput_iff later counting]
  refine and_iff_left ⟨diskThroughput_eq stored read passed growing hostId time, ?_⟩
  exact avgPacketSize_eq later counting

/-- An interface that moves nothing in a second. -/
def idleCalls : List NetMonitor.Call :=
  [NetMonitor.soleCall 0 ⟨1024, 1, 0, 0⟩, NetMonitor.soleCall 1000000000 ⟨1024, 1, 0, 0⟩]

/-- The sample of such an interface. -/
def idleSample (timepoint : ℤ) : NetMonitor.NetInfo :=
  ⟨{ NetMonitor.NetStat.named "eth0".toList with rcvBytes := 1024, rcvPackets := 1 }, timepoint⟩

/-- The sample of a disk that has read the given number of sectors. -/
def readingDisk (sectorsRead : UInt64) : DiskMonitor.DiskInfo :=
  ⟨"sda".toList, 0, 0, sectorsRead, 0, 0, 0, 0, 0, 0⟩

/-- Such an interface, and a disk that reads 2^20 bytes in a second. -/
theorem throughput_agrees_idle :
    (networkRow [] 0
        (NetMonitor.message (some (idleSample 0)) (idleSample 1000000000))).throughput = some 0 ∧
      (diskRow [] 0 (DiskMonitor.message (readingDisk 2048) (DiskMonitor.rates 1
        (DiskMonitor.store 0 (readingDisk 0) .initial) (readingDisk 2048)))).throughput =
          some 1 := by
  have first : (NetMonitor.appearances "eth0".toList idleCalls)[0]? = some (idleSample 0) := by
    decide
  have second : (NetMonitor.appearances "eth0".toList idleCalls)[0 + 1]? =
      some (idleSample 1000000000) := by
    decide
  have reported : (NetMonitor.reported "eth0".toList idleCalls)[0 + 1]? =
      some (NetMonitor.message (some (idleSample 0)) (idleSample 1000000000)) := by
    rw [NetMonitor.reported_eq_alone, getElem?_alone_succ first second]
  have counting : NetCounting (idleSample 0).toNetStat (idleSample 1000000000).toNetStat :=
    ⟨by decide, by decide, by decide, by decide⟩
  have stored : (DiskMonitor.store 0 (readingDisk 0) .initial).previousDiskStats.lookup
      (readingDisk 2048).name = some (readingDisk 0) := AList.lookup_insert _
  have read : (DiskMonitor.store 0 (readingDisk 0) .initial).lastTime.lookup
      (readingDisk 2048).name = some 0 := AList.lookup_insert _
  have growing : DiskCounting (readingDisk 0) (readingDisk 2048) := ⟨by decide, by decide⟩
  have agrees := throughput_agrees_iff first second reported (by decide) counting stored read
    Int.zero_lt_one growing [] 0
  obtain ⟨network, disk, -⟩ := agrees.mpr (by decide)
  rw [network]
  constructor
  · decide +kernel
  · apply disk.trans
    decide +kernel

/-- An interface that receives 2^20 bytes in a second. -/
def busyCalls : List NetMonitor.Call :=
  [NetMonitor.soleCall 0 .zero, NetMonitor.soleCall 1000000000 ⟨1048576, 1024, 0, 0⟩]

/-- 1024 are stored for one unit of 2^20 bytes per second. -/
theorem busyCalls_in_kilobytes :
    (NetMonitor.reported "eth0".toList busyCalls)[1]?.map
        (fun netInfo => (networkRow [] 0 netInfo).throughput) = some (some 1024) ∧
      ¬ (NetMonitor.reported "eth0".toList busyCalls)[1]?.map
        (fun netInfo => (networkRow [] 0 netInfo).throughput) =
          some (some (1048576 / NetMonitor.seconds 0 1000000000 / 2 ^ 20)) := by
  decide +kernel

end LinuxMonitor.PerformanceServer

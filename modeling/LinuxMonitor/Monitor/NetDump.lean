import LinuxMonitor.Library.KeyedStore
import LinuxMonitor.Monitor.NetLinks

/-!
# Dumps of the links

The kernel answers `RTM_GETLINK` with a dump: one `RTM_NEWLINK` message for each link, spread
over any number of datagrams, and `NLMSG_DONE` behind the last link.

* `attributes_name`: the loop over the attributes of a link stops at its name.
* `messages_links`: the loop over the messages stores the links that are not virtual.
* `getNetworkInterfaces_dump`: of a dump, the links of the first datagram are returned.
* `getNetworkInterfaces_dump_iff`: **these are all links exactly when no later datagram has a
  link whose name is not virtual.**
-/

set_option autoImplicit false

namespace LinuxMonitor.Monitor.NetMonitor

open Library Library.Netlink

/-! ## Links -/

/-- A link as the kernel reports it: the fields of the two headers, the name and the other
attributes, in front of the name and behind it. -/
structure Link where
  flags : UInt16
  seq : UInt32
  pid : UInt32
  family : UInt8
  deviceType : UInt16
  index : Int32
  deviceFlags : UInt32
  change : UInt32
  name : List UInt8
  before : List Attribute
  after : List Attribute
  name_fits : name.length ≤ 15
  name_nonzero : 0 ∉ name
  others : ∀ a ∈ before ++ after, a.type ≠ iflaIfname

namespace Link

variable (link : Link)

def ifname : Text := bytesText link.name

/-- `IFLA_IFNAME` -/
def nameAttribute : Attribute := ⟨iflaIfname, link.name ++ [0]⟩

/-- `struct ifinfomsg` -/
def ifinfomsg : List UInt8 :=
  (numberBytes 1 link.family.toNat ++ numberBytes 1 0 ++ numberBytes 2 link.deviceType.toNat) ++
    (numberBytes 4 link.index.toUInt32.toNat ++
      (numberBytes 4 link.deviceFlags.toNat ++ numberBytes 4 link.change.toNat))

def attributeBytes : List UInt8 :=
  link.before.flatMap Attribute.bytes ++
    (link.nameAttribute.bytes ++ link.after.flatMap Attribute.bytes)

/-- `RTM_NEWLINK` -/
def message : Message :=
  ⟨rtmNewlink, link.flags, link.seq, link.pid, link.ifinfomsg ++ link.attributeBytes⟩

theorem length_ifinfomsg : link.ifinfomsg.length = 16 := by
  simp only [ifinfomsg, List.length_append, length_numberBytes]

end Link

/-- The messages of some links. -/
def linkBytes (links : List Link) : List UInt8 := links.flatMap fun link => link.message.bytes

/-- The links whose names are not virtual. -/
def visibleLinks (links : List Link) : List Link :=
  links.filter fun link => !isVirtualInterface link.ifname

/-- The datagrams of a dump, the last of which has `NLMSG_DONE` behind its links. -/
def datagramBytes (done : Message) : List Link → List (List Link) → List (List UInt8)
  | links, [] => [linkBytes links ++ done.bytes]
  | links, next :: later => linkBytes links :: datagramBytes done next later

/-- A dump of links with indices of their own, in datagrams that fit the buffer. -/
structure Dump where
  first : List Link
  later : List (List Link)
  done : Message
  done_type : done.type = nlmsgDone
  nodup : ((first ++ later.flatten).map Link.index).Nodup
  fits : ∀ datagram ∈ datagramBytes done first later, datagram.length ≤ 4096

namespace Dump

variable (dump : Dump)

def links : List Link := dump.first ++ dump.later.flatten

def datagrams : List (List UInt8) := datagramBytes dump.done dump.first dump.later

end Dump

/-! ## The walk over a link -/

variable {mem : Memory}

/-- The attributes in front of the name are passed over. -/
theorem attributes_before {before : List Attribute} (others : ∀ a ∈ before, a.type ≠ iflaIfname)
    {rest : List UInt8} {rta : ℕ} (held : Holds mem rta (before.flatMap Attribute.bytes ++ rest))
    (short : (before.flatMap Attribute.bytes ++ rest).length ≤ 4096) (accesses : List Access) :
    ∃ accesses',
      (attributes mem).result
          ⟨rta, (before.flatMap Attribute.bytes ++ rest).length, accesses⟩ =
        (attributes mem).result
          ⟨rta + (before.flatMap Attribute.bytes).length, rest.length, accesses'⟩ := by
  induction before generalizing rta accesses with
  | nil => exact ⟨accesses, rfl⟩
  | cons a before ih =>
      rw [List.flatMap_cons, List.append_assoc] at held short ⊢
      obtain ⟨here, behind⟩ := holds_append.mp held
      have whole := a.length_le_bytes
      have total : (a.bytes ++ (before.flatMap Attribute.bytes ++ rest)).length =
          a.bytes.length + (before.flatMap Attribute.bytes ++ rest).length :=
        List.length_append
      have inside : (a.bytes.length : ℤ) ≤
          ((a.bytes ++ (before.flatMap Attribute.bytes ++ rest)).length : ℕ) := by
        omega
      have ok := a.rtaOk_of_holds here (by omega) inside
      have other : rtaType mem rta ≠ iflaIfname := by
        rw [a.rtaType_of_holds here]
        exact others a List.mem_cons_self
      have turn : (attributes mem).body
          ⟨rta, ((a.bytes ++ (before.flatMap Attribute.bytes ++ rest)).length : ℕ), accesses⟩ =
            .next ⟨rta + a.bytes.length, (before.flatMap Attribute.bytes ++ rest).length,
              accesses ++ [.field ⟨rta, 4⟩]⟩ := by
        rw [attributes_body, attributeTurn, if_neg (not_lt.mpr ok.1)]
        dsimp only
        rw [if_neg (not_not.mpr ok), if_neg other, a.rtaNext_of_holds here (by omega) inside
          (by omega)]
        dsimp only
        congr 2
        omega
      obtain ⟨accesses', same⟩ := ih (fun a' member => others a' (List.mem_cons_of_mem _ member))
        behind (by omega) (accesses ++ [.field ⟨rta, 4⟩])
      refine ⟨accesses', ?_⟩
      rw [(attributes mem).result_next turn, same, List.length_append, add_assoc]

/-- **The loop over the attributes of a link stops at its name.** -/
theorem attributes_name (link : Link) {rta : ℕ} (held : Holds mem rta link.attributeBytes)
    (short : link.attributeBytes.length ≤ 4096) (accesses : List Access) :
    ∃ accesses', (attributes mem).result ⟨rta, link.attributeBytes.length, accesses⟩ =
      (some (rta + (link.before.flatMap Attribute.bytes).length), accesses') := by
  have others : ∀ a ∈ link.before, a.type ≠ iflaIfname := fun a member =>
    link.others a (List.mem_append_left _ member)
  obtain ⟨accesses', passed⟩ := attributes_before others held short accesses
  have name := (holds_append.mp (holds_append.mp held).2).1
  have whole := Attribute.length_le_bytes (a := link.nameAttribute)
  rw [Link.attributeBytes, List.length_append, List.length_append] at short
  have inside : (link.nameAttribute.bytes.length : ℤ) ≤
      ((link.nameAttribute.bytes ++ link.after.flatMap Attribute.bytes).length : ℕ) := by
    rw [List.length_append]
    omega
  have ok := link.nameAttribute.rtaOk_of_holds name (by omega) inside
  have type : rtaType mem (rta + (link.before.flatMap Attribute.bytes).length) = iflaIfname :=
    link.nameAttribute.rtaType_of_holds name
  have stop : (attributes mem).body ⟨rta + (link.before.flatMap Attribute.bytes).length,
      (link.nameAttribute.bytes ++ link.after.flatMap Attribute.bytes).length, accesses'⟩ =
        .stop (some (rta + (link.before.flatMap Attribute.bytes).length),
          accesses' ++ [.field ⟨rta + (link.before.flatMap Attribute.bytes).length, 4⟩]) := by
    rw [attributes_body, attributeTurn, if_neg (not_lt.mpr ok.1)]
    dsimp only
    rw [if_neg (not_not.mpr ok), if_pos type]
  rw [Link.attributeBytes, passed, (attributes mem).result_stop stop]
  exact ⟨_, rfl⟩

/-- The map with the link, unless its name is virtual. -/
def storeLink (link : Link) (map : AList (fun _ : Int32 => Text)) :
    AList (fun _ : Int32 => Text) :=
  if isVirtualInterface link.ifname then map else map.insert link.index link.ifname

/-- The index stands where it is read. -/
theorem ifiIndex_of_holds (link : Link) {ifi : ℕ} (held : Holds mem ifi link.ifinfomsg) :
    ifiIndex mem ifi = link.index := by
  have behind := (holds_append.mp held).2
  simp only [List.length_append, length_numberBytes] at behind
  have index := readNumber_of_holds link.index.toUInt32.toNat_lt (holds_append.mp behind).1
  rw [ifiIndex, index, UInt32.ofNat_toNat, Int32.toInt32_toUInt32]

/-- **A link that stands in the memory is stored under its index.** -/
theorem newlink_of_holds (link : Link) {nlh : ℕ} (held : Holds mem nlh link.message.bytes)
    (short : link.message.bytes.length ≤ 4096) (links : Links) :
    (newlink mem nlh links).ifindexMap = storeLink link links.ifindexMap := by
  have payload := link.message.payload_of_holds held
  obtain ⟨ifi, rta⟩ := holds_append.mp payload
  rw [link.length_ifinfomsg] at rta
  have whole := Message.length_le_bytes (m := link.message)
  have length : link.message.length = 32 + link.attributeBytes.length := by
    rw [Message.length, Link.message, List.length_append, link.length_ifinfomsg]
    omega
  have left : iflaPayload mem nlh = link.attributeBytes.length := by
    rw [iflaPayload, link.message.nlmsgLen_of_holds held (by omega), length, Int.bmod]
    split <;> omega
  obtain ⟨accesses', found⟩ := attributes_name link rta (by omega) links.accesses
  have name := (holds_append.mp (holds_append.mp rta).2).1
  have copied : strncpy mem 15
      (rtaData (nlmsgData nlh + 16 + (link.before.flatMap Attribute.bytes).length)) = link.name :=
    strncpy_of_holds link.name_nonzero link.name_fits (link.nameAttribute.payload_of_holds name)
  unfold newlink
  dsimp only
  rw [left, iflaRta, found]
  dsimp only
  rw [copied, ifiIndex_of_holds link ifi, storeLink, Link.ifname]
  split
  · rfl
  · rfl

/-- What the links of a datagram leave behind in the map. -/
theorem foldl_storeLink (links : List Link) (map : AList (fun _ : Int32 => Text)) :
    links.foldl (fun map link => storeLink link map) map =
      storeAll Link.index Link.ifname (visibleLinks links) map := by
  induction links generalizing map with
  | nil => rfl
  | cons link links ih =>
      rw [List.foldl_cons, ih, storeLink, visibleLinks, visibleLinks, List.filter_cons]
      cases isVirtualInterface link.ifname with
      | true => rfl
      | false => rfl

/-! ## The walk over a datagram -/

theorem messageTurn_link (link : Link) {s : MessageState}
    (held : Holds mem s.nlh link.message.bytes)
    (inside : (link.message.bytes.length : ℤ) ≤ s.len) :
    ∃ s', messageTurn mem s = .next s' ∧ s'.nlh = s.nlh + link.message.bytes.length ∧
      s'.len = s.len - link.message.bytes.length ∧
      s'.links.ifindexMap = storeLink link s.links.ifindexMap := by
  have fits := s.fits
  have ok := link.message.nlmsgOk_of_holds held inside (by omega)
  have next := link.message.nlmsgNext_of_holds held inside (by omega)
  have type : nlmsgType mem s.nlh = rtmNewlink := link.message.nlmsgType_of_holds held
  have further : nlmsgType mem s.nlh ≠ nlmsgDone := by
    rw [type]
    decide
  rw [messageTurn, if_neg (not_lt.mpr ok.1)]
  dsimp only
  rw [dif_pos ok, if_neg further]
  refine ⟨_, rfl, ?_, ?_, ?_⟩
  · dsimp only
    rw [next]
  · dsimp only
    rw [next]
  · dsimp only
    rw [if_pos type]
    exact newlink_of_holds link held (by omega) _

/-- **The links of a datagram are stored one after the other.** -/
theorem messages_links {links : List Link} {rest : List UInt8} {s : MessageState}
    (held : Holds mem s.nlh (linkBytes links ++ rest))
    (len : s.len = (linkBytes links ++ rest).length) :
    ∃ s', (messages mem).result s = (messages mem).result s' ∧
      Holds mem s'.nlh rest ∧ s'.len = rest.length ∧
      s'.links.ifindexMap =
        storeAll Link.index Link.ifname (visibleLinks links) s.links.ifindexMap := by
  induction links generalizing s with
  | nil => exact ⟨s, rfl, held, len, rfl⟩
  | cons link links ih =>
      rw [linkBytes, List.flatMap_cons, List.append_assoc] at held len
      obtain ⟨here, behind⟩ := holds_append.mp held
      rw [List.length_append] at len
      obtain ⟨s₁, turn, nlh₁, len₁, map₁⟩ := messageTurn_link link here (by omega)
      have behind₁ : Holds mem s₁.nlh (linkBytes links ++ rest) := by
        rw [nlh₁]
        exact behind
      have left₁ : s₁.len = (linkBytes links ++ rest).length := by
        rw [len₁, len, linkBytes]
        omega
      obtain ⟨s', same, held', len', map'⟩ := ih behind₁ left₁
      refine ⟨s', ?_, held', len', ?_⟩
      · rw [(messages mem).result_next turn, same]
      · rw [map', map₁, ← foldl_storeLink, ← foldl_storeLink, List.foldl_cons]

/-- Behind the last link the loop stops, at the end of the datagram or at `NLMSG_DONE`. -/
theorem messages_rest {done : Message} (done_type : done.type = nlmsgDone) {rest : List UInt8}
    (last : rest = [] ∨ rest = done.bytes) {s : MessageState} (held : Holds mem s.nlh rest)
    (len : s.len = rest.length) :
    ((messages mem).result s).ifindexMap = s.links.ifindexMap := by
  rcases last with rfl | rfl
  · have stop : messageTurn mem s = .stop s.links := by
      rw [messageTurn, if_pos]
      rw [len]
      decide
    rw [(messages mem).result_stop stop]
  · have fits := s.fits
    have ok := done.nlmsgOk_of_holds held (le_of_eq len.symm) (by omega)
    have type : nlmsgType mem s.nlh = nlmsgDone := by
      rw [done.nlmsgType_of_holds held, done_type]
    have stop : messageTurn mem s =
        .stop ⟨s.links.ifindexMap, s.links.accesses ++ [.field ⟨s.nlh, 16⟩]⟩ := by
      rw [messageTurn, if_neg (not_lt.mpr ok.1)]
      dsimp only
      rw [dif_pos ok, if_pos type]
    rw [(messages mem).result_stop stop]

/-! ## The result -/

theorem datagramBytes_cons (done : Message) (links : List Link) (later : List (List Link)) :
    ∃ rest tail, datagramBytes done links later = (linkBytes links ++ rest) :: tail ∧
      (rest = [] ∨ rest = done.bytes) := by
  cases later with
  | nil => exact ⟨done.bytes, [], rfl, .inr rfl⟩
  | cons next later =>
      refine ⟨[], datagramBytes done next later, ?_, .inl rfl⟩
      rw [datagramBytes, List.append_nil]

/-- A datagram that fits is received whole. -/
theorem holds_recv (buf : Memory) {datagram : List UInt8} (fits : datagram.length ≤ 4096) :
    Holds (recv buf datagram).memory 0 datagram ∧ (recv buf datagram).len = datagram.length := by
  have whole : datagram.take 4096 = datagram := List.take_of_length_le fits
  refine ⟨fun i b here => ?_, congrArg List.length whole⟩
  rw [recv]
  dsimp only
  rw [whole, zero_add, Option.mem_def.mp here, Option.getD_some]

/-- **Of a dump the links of the first datagram are returned**, whatever has been in the
buffer. -/
theorem getNetworkInterfaces_dump (buf : Memory) (dump : Dump) :
    getNetworkInterfaces buf (some dump.datagrams) =
      storeAll Link.index Link.ifname (visibleLinks dump.first) ∅ := by
  obtain ⟨rest, tail, split, last⟩ := datagramBytes_cons dump.done dump.first dump.later
  have fits := dump.fits _ (split ▸ List.mem_cons_self)
  obtain ⟨held, len⟩ := holds_recv buf fits
  obtain ⟨s', same, held', len', map⟩ := messages_links
    (s := (recv buf (linkBytes dump.first ++ rest)).start) held (congrArg Nat.cast len)
  rw [Dump.datagrams, split, getNetworkInterfaces_received, same,
    messages_rest dump.done_type last held' len', map]
  rfl

theorem entries_getNetworkInterfaces (buf : Memory) (dump : Dump) :
    (getNetworkInterfaces buf (some dump.datagrams)).entries.Perm
      ((visibleLinks dump.first).map fun link => ⟨link.index, link.ifname⟩) := by
  have nodup := dump.nodup
  rw [List.map_append, List.nodup_append] at nodup
  rw [getNetworkInterfaces_dump]
  exact entries_storeAll_of_nodup _ (nodup.1.sublist (List.filter_sublist.map _))

/-- **All links of a dump whose names are not virtual are returned exactly when they are all
in the first datagram.** -/
theorem getNetworkInterfaces_dump_iff (buf : Memory) (dump : Dump) :
    (getNetworkInterfaces buf (some dump.datagrams)).entries.Perm
        ((visibleLinks dump.links).map fun link => ⟨link.index, link.ifname⟩) ↔
      ∀ links ∈ dump.later, ∀ link ∈ links, isVirtualInterface link.ifname = true := by
  have split : visibleLinks dump.links =
      visibleLinks dump.first ++ visibleLinks dump.later.flatten :=
    List.filter_append _ _
  have complete : visibleLinks dump.later.flatten = [] ↔
      ∀ links ∈ dump.later, ∀ link ∈ links, isVirtualInterface link.ifname = true := by
    rw [visibleLinks, List.filter_eq_nil_iff]
    constructor
    · intro none links part link member
      simpa using none link (List.mem_flatten_of_mem part member)
    · intro virtual link member
      obtain ⟨links, part, inside⟩ := List.mem_flatten.mp member
      simpa using virtual links part link inside
  have first := entries_getNetworkInterfaces buf dump
  rw [← complete, split]
  constructor
  · intro all
    have lengths := (first.symm.trans all).length_eq
    rw [List.length_map, List.length_map, List.length_append] at lengths
    exact List.eq_nil_of_length_eq_zero (by omega)
  · intro none
    rw [none, List.append_nil]
    exact first

/-- A link without attributes other than its name. -/
def plainLink (index : Int32) (name : List UInt8) (name_fits : name.length ≤ 15)
    (name_nonzero : 0 ∉ name) : Link :=
  { flags := 2, seq := 1, pid := 0, family := 0, deviceType := 1, index := index
    deviceFlags := 0, change := 0, name := name, before := [], after := []
    name_fits := name_fits, name_nonzero := name_nonzero
    others := fun _ member => absurd member List.not_mem_nil }

/-- `lo` in the first datagram and `eth0` in the second one. -/
def twoDatagrams : Dump where
  first := [plainLink 1 [108, 111] (by decide) (by decide)]
  later := [[plainLink 2 [101, 116, 104, 48] (by decide) (by decide)]]
  done := ⟨nlmsgDone, 2, 1, 0, [0, 0, 0, 0]⟩
  done_type := rfl
  nodup := by decide
  fits := by decide

/-- Of the two links, none is returned. -/
theorem eth0_not_returned :
    ¬(getNetworkInterfaces (fun _ => 0) (some twoDatagrams.datagrams)).entries.Perm
      ((visibleLinks twoDatagrams.links).map fun link => ⟨link.index, link.ifname⟩) := by
  intro all
  have lengths := ((entries_getNetworkInterfaces _ twoDatagrams).symm.trans all).length_eq
  revert lengths
  decide

end LinuxMonitor.Monitor.NetMonitor

import LinuxMonitor.Library.Loop
import LinuxMonitor.Library.Netlink
import LinuxMonitor.Monitor.NetStats

/-!
# The links of the kernel

`get_network_interfaces` asks for all links over a netlink socket, receives one datagram of
at most 4096 bytes and walks over its messages and, in each `RTM_NEWLINK`, over the
attributes until it comes to the name.  What the two loops read of the buffer is noted.

* `attributes_sound`, `messages_sound`: each loop reads what has been received.
* `getNetworkInterfaces_reads`: **whatever is received, both loops end and read no header
  outside the received bytes**, and no byte of a name that is terminated.
-/

set_option autoImplicit false

namespace LinuxMonitor.Monitor.NetMonitor

open Library Library.Netlink

/-! ## What is read -/

/-- A read access to the buffer. -/
inductive Access where
  /-- a header, or the index in an `ifinfomsg` -/
  | field (bytes : Span)
  /-- the bytes of a name, in the attribute at `rta` -/
  | name (rta : ℕ) (size : ℕ)

/-- The payload of an attribute is a string with its terminator. -/
def Terminated (mem : Memory) (rta : ℕ) : Prop :=
  ∃ k, 4 ≤ k ∧ k < rtaLen mem rta ∧ mem (rta + k) = 0

/-- The access stays inside the bytes received; that to a name does if it is terminated. -/
def Access.Inside (mem : Memory) (received : ℕ) : Access → Prop
  | .field bytes => bytes.start + bytes.size ≤ received
  | .name rta size => Terminated mem rta → rtaData rta + size ≤ received

theorem inside_append {mem : Memory} {received : ℕ} {accesses : List Access} {access : Access}
    (earlier : ∀ a ∈ accesses, a.Inside mem received) (here : access.Inside mem received) :
    ∀ a ∈ accesses ++ [access], a.Inside mem received := by
  intro a member
  rcases List.mem_append.mp member with before | last
  · exact earlier a before
  · rw [List.mem_singleton.mp last]
    exact here

/-! ## The attributes of a message -/

/-- The attribute looked at, the length left and the accesses so far. -/
structure AttributeState where
  rta : ℕ
  rtalen : ℤ
  accesses : List Access

/-- One turn of `for (; RTA_OK(rta, rtalen); rta = RTA_NEXT(rta, rtalen))`, which stops at
`IFLA_IFNAME`. -/
def attributeTurn (mem : Memory) (s : AttributeState) :
    Turn AttributeState (Option ℕ × List Access) :=
  -- `RTA_OK` compares the length left before it reads the header
  if s.rtalen < 4 then .stop (none, s.accesses)
  else
    let accesses := s.accesses ++ [.field ⟨s.rta, 4⟩]
    if ¬RtaOk mem s.rta s.rtalen then .stop (none, accesses)
    else if rtaType mem s.rta = iflaIfname then .stop (some s.rta, accesses)
    else
      let next := rtaNext mem s.rta s.rtalen
      .next ⟨next.1, next.2, accesses⟩

theorem attributeTurn_next {mem : Memory} {s s' : AttributeState}
    (turn : attributeTurn mem s = .next s') :
    RtaOk mem s.rta s.rtalen ∧ rtaType mem s.rta ≠ iflaIfname ∧
      s' = ⟨(rtaNext mem s.rta s.rtalen).1, (rtaNext mem s.rta s.rtalen).2,
        s.accesses ++ [.field ⟨s.rta, 4⟩]⟩ := by
  unfold attributeTurn at turn
  split at turn
  · cases turn
  · dsimp only at turn
    split at turn
    · cases turn
    · next ok =>
        split at turn
        · cases turn
        · next other =>
            cases turn
            exact ⟨not_not.mp ok, other, rfl⟩

theorem attributeTurn_stop {mem : Memory} {s : AttributeState} {r : Option ℕ × List Access}
    (turn : attributeTurn mem s = .stop r) :
    (s.rtalen < 4 ∧ r = (none, s.accesses)) ∨
      (4 ≤ s.rtalen ∧ r = (none, s.accesses ++ [.field ⟨s.rta, 4⟩])) ∨
      (RtaOk mem s.rta s.rtalen ∧ r = (some s.rta, s.accesses ++ [.field ⟨s.rta, 4⟩])) := by
  unfold attributeTurn at turn
  split at turn
  · next short =>
      cases turn
      exact .inl ⟨short, rfl⟩
  · next long =>
      dsimp only at turn
      split at turn
      · cases turn
        exact .inr (.inl ⟨not_lt.mp long, rfl⟩)
      · next ok =>
          split at turn
          · cases turn
            exact .inr (.inr ⟨not_not.mp ok, rfl⟩)
          · cases turn

/-- The loop over the attributes, each of which leaves less of the message. -/
def attributes (mem : Memory) : Loop AttributeState (Option ℕ × List Access) where
  body := attributeTurn mem
  measure s := s.rtalen.toNat
  decreases s s' turn := by
    obtain ⟨ok, -, rfl⟩ := attributeTurn_next turn
    exact rtaNext_toNat_lt ok

theorem attributes_body (mem : Memory) : (attributes mem).body = attributeTurn mem := rfl

/-- What the loop over the attributes of a message keeps: it is behind their beginning and
in front of the end of what has been received. -/
structure AttributeState.Sound (mem : Memory) (received start : ℕ) (s : AttributeState) :
    Prop where
  behind : start ≤ s.rta
  before : s.rta + s.rtalen ≤ received
  int : s.rtalen < 2 ^ 31
  inside : ∀ access ∈ s.accesses, access.Inside mem received

variable {mem : Memory} {received : ℕ}

/-- The header is inside when the length left has room for it. -/
theorem AttributeState.Sound.read {start : ℕ} {s : AttributeState}
    (sound : s.Sound mem received start) (room : 4 ≤ s.rtalen) :
    ∀ access ∈ s.accesses ++ [.field ⟨s.rta, 4⟩], access.Inside mem received := by
  have before := sound.before
  have here : s.rta + 4 ≤ received := by omega
  exact inside_append sound.inside here

theorem AttributeState.Sound.next {start : ℕ} {s s' : AttributeState}
    (sound : s.Sound mem received start) (turn : attributeTurn mem s = .next s') :
    s'.Sound mem received start := by
  obtain ⟨ok, -, rfl⟩ := attributeTurn_next turn
  obtain ⟨same, less, above⟩ := rtaNext_split ok sound.int
  have before := sound.before
  have behind := sound.behind
  have int := sound.int
  have forward : s.rta ≤ (rtaNext mem s.rta s.rtalen).1 := Nat.le_add_right _ _
  exact
    { behind := le_trans behind forward
      before := by dsimp only; omega
      int := by dsimp only; omega
      inside := sound.read ok.1 }

/-- **The loop over the attributes reads what has been received**, and the attribute that it
stops at is one of the message. -/
theorem attributes_sound {start : ℕ} {s : AttributeState} (sound : s.Sound mem received start) :
    (∀ access ∈ ((attributes mem).result s).2, access.Inside mem received) ∧
      ∀ rta ∈ ((attributes mem).result s).1,
        start ≤ rta ∧ 4 ≤ rtaLen mem rta ∧ rta + rtaLen mem rta ≤ received := by
  obtain ⟨last, kept, turn⟩ := loop_invariant
    (fun s => AttributeState.Sound mem received start s) (fun _ _ => AttributeState.Sound.next)
    sound ((attributes mem).ends s)
  rcases attributeTurn_stop turn with ⟨-, ended⟩ | ⟨room, ended⟩ | ⟨ok, ended⟩
  · rw [ended]
    exact ⟨kept.inside, fun rta found => by cases found⟩
  · rw [ended]
    exact ⟨kept.read room, fun rta found => by cases found⟩
  · rw [ended]
    refine ⟨kept.read ok.1, fun rta found => ?_⟩
    cases found
    have before := kept.before
    obtain ⟨-, header, length⟩ := ok
    exact ⟨kept.behind, header, by omega⟩

/-! ## The messages of a datagram -/

/-- The text in bytes without a zero byte. -/
def bytesText (bytes : List UInt8) : Text := bytes.map fun b => Char.ofNat b.toNat

/-- `ifi->ifi_index` -/
def ifiIndex (mem : Memory) (ifi : ℕ) : Int32 :=
  (UInt32.ofNat (readNumber mem 4 (ifi + 4))).toInt32

/-- The map under construction, and the accesses so far. -/
structure Links where
  ifindexMap : AList (fun _ : Int32 => Text)
  accesses : List Access

/-- What is done with an `RTM_NEWLINK` message. -/
def newlink (mem : Memory) (nlh : ℕ) (links : Links) : Links :=
  let ifi := nlmsgData nlh
  let found := (attributes mem).result ⟨iflaRta ifi, iflaPayload mem nlh, links.accesses⟩
  match found.1 with
  | none => ⟨links.ifindexMap, found.2⟩
  | some rta =>
      -- `strncpy(ifname, RTA_DATA(rta), IFNAMSIZ - 1)` reads the zero byte that it stops at
      let name := strncpy mem 15 (rtaData rta)
      let accesses := found.2 ++ [.name rta (min (name.length + 1) 15)]
      let ifname := bytesText name
      if isVirtualInterface ifname then ⟨links.ifindexMap, accesses⟩
      else ⟨links.ifindexMap.insert (ifiIndex mem ifi) ifname, accesses ++ [.field ⟨ifi + 4, 4⟩]⟩

/-- The message looked at, the length left, which is at most that of the buffer, and what has
been found. -/
@[ext]
structure MessageState where
  nlh : ℕ
  len : ℤ
  fits : len ≤ 4096
  links : Links

/-- One turn of `for (; NLMSG_OK(nlh, len); nlh = NLMSG_NEXT(nlh, len))`, which stops at
`NLMSG_DONE`. -/
def messageTurn (mem : Memory) (s : MessageState) : Turn MessageState Links :=
  -- `NLMSG_OK` compares the length left before it reads the header
  if s.len < 16 then .stop s.links
  else
    let links : Links := ⟨s.links.ifindexMap, s.links.accesses ++ [.field ⟨s.nlh, 16⟩]⟩
    if ok : NlmsgOk mem s.nlh s.len then
      if nlmsgType mem s.nlh = nlmsgDone then .stop links
      else
        let next := nlmsgNext mem s.nlh s.len
        .next
          { nlh := next.1
            len := next.2
            fits := by
              have fits := s.fits
              have less := (nlmsgNext_split ok (by omega)).2.1
              exact le_trans (le_of_lt less) fits
            links :=
              if nlmsgType mem s.nlh = rtmNewlink then newlink mem s.nlh links else links }
    else .stop links

theorem messageTurn_next {s s' : MessageState} (turn : messageTurn mem s = .next s') :
    NlmsgOk mem s.nlh s.len ∧ s'.nlh = (nlmsgNext mem s.nlh s.len).1 ∧
      s'.len = (nlmsgNext mem s.nlh s.len).2 ∧
      (s'.links = ⟨s.links.ifindexMap, s.links.accesses ++ [.field ⟨s.nlh, 16⟩]⟩ ∨
        s'.links = newlink mem s.nlh
          ⟨s.links.ifindexMap, s.links.accesses ++ [.field ⟨s.nlh, 16⟩]⟩) := by
  unfold messageTurn at turn
  split at turn
  · cases turn
  · dsimp only at turn
    split at turn
    · next ok =>
        split at turn
        · cases turn
        · cases turn
          refine ⟨ok, rfl, rfl, ?_⟩
          dsimp only
          split
          · exact .inr rfl
          · exact .inl rfl
    · cases turn

theorem messageTurn_stop {s : MessageState} {links : Links}
    (turn : messageTurn mem s = .stop links) :
    links = s.links ∨
      (16 ≤ s.len ∧
        links = ⟨s.links.ifindexMap, s.links.accesses ++ [.field ⟨s.nlh, 16⟩]⟩) := by
  unfold messageTurn at turn
  split at turn
  · cases turn
    exact .inl rfl
  · next long =>
      dsimp only at turn
      split at turn
      · split at turn
        · cases turn
          exact .inr ⟨not_lt.mp long, rfl⟩
        · cases turn
      · cases turn
        exact .inr ⟨not_lt.mp long, rfl⟩

/-- The loop over the messages, each of which leaves less of the datagram. -/
def messages (mem : Memory) : Loop MessageState Links where
  body := messageTurn mem
  measure s := s.len.toNat
  decreases s s' turn := by
    obtain ⟨ok, -, len, -⟩ := messageTurn_next turn
    have fits := s.fits
    have less := (nlmsgNext_split ok (by omega)).2.1
    have room := ok.1
    rw [len]
    omega

/-- A terminated name is copied from inside its attribute. -/
theorem name_inside {rta : ℕ} (inside : rta + rtaLen mem rta ≤ received) :
    Access.Inside mem received
      (.name rta (min ((strncpy mem 15 (rtaData rta)).length + 1) 15)) := by
  rintro ⟨k, header, payload, zero⟩
  have copied : (strncpy mem 15 (rtaData rta)).length ≤ k - 4 := by
    apply length_strncpy_le
    rw [rtaData, add_assoc, Nat.add_sub_cancel' header]
    exact zero
  rw [rtaData] at copied ⊢
  omega

/-- **What is read of an `RTM_NEWLINK` message has been received.** -/
theorem newlink_sound {nlh : ℕ} {len : ℤ} {links : Links} (ok : NlmsgOk mem nlh len)
    (short : len < 2 ^ 31) (here : nlh + len ≤ received)
    (inside : ∀ access ∈ links.accesses, access.Inside mem received) :
    ∀ access ∈ (newlink mem nlh links).accesses, access.Inside mem received := by
  obtain ⟨-, header, length⟩ := ok
  have payload : iflaPayload mem nlh = (nlmsgLen mem nlh : ℤ) - 32 := by
    rw [iflaPayload, Int.bmod]
    split <;> omega
  have start : AttributeState.Sound mem received (nlh + 32)
      ⟨iflaRta (nlmsgData nlh), iflaPayload mem nlh, links.accesses⟩ :=
    { behind := le_refl _
      before := by
        dsimp only
        rw [payload, iflaRta, nlmsgData]
        omega
      int := by
        dsimp only
        omega
      inside := inside }
  obtain ⟨read, stopped⟩ := attributes_sound start
  unfold newlink
  dsimp only
  split
  · exact read
  · next rta found =>
      obtain ⟨behind, size, before⟩ := stopped rta found
      have copied := inside_append read (name_inside before)
      split
      · exact copied
      · have index : nlh + 16 + 4 + 4 ≤ received := by omega
        exact inside_append copied index

/-- What the loop over the messages keeps. -/
structure MessageState.Sound (mem : Memory) (received : ℕ) (s : MessageState) : Prop where
  before : s.nlh + s.len ≤ received
  inside : ∀ access ∈ s.links.accesses, access.Inside mem received

theorem MessageState.Sound.read {s : MessageState} (sound : s.Sound mem received)
    (room : 16 ≤ s.len) :
    ∀ access ∈ s.links.accesses ++ [.field ⟨s.nlh, 16⟩], access.Inside mem received := by
  have before := sound.before
  have here : s.nlh + 16 ≤ received := by omega
  exact inside_append sound.inside here

theorem MessageState.Sound.next {s s' : MessageState} (sound : s.Sound mem received)
    (turn : messageTurn mem s = .next s') : s'.Sound mem received := by
  obtain ⟨ok, nlh, len, links⟩ := messageTurn_next turn
  have fits := s.fits
  obtain ⟨same, less, above⟩ := nlmsgNext_split ok (by omega)
  have before := sound.before
  have read := sound.read ok.1
  constructor
  · rw [nlh, len]
    omega
  · rcases links with kept | found
    · rw [kept]
      exact read
    · rw [found]
      exact newlink_sound ok (by omega) before read

/-- **The loop over the messages reads what has been received.** -/
theorem messages_sound {s : MessageState} (sound : s.Sound mem received) :
    ∀ access ∈ ((messages mem).result s).accesses, access.Inside mem received := by
  obtain ⟨last, kept, turn⟩ := loop_invariant (fun s => MessageState.Sound mem received s)
    (fun _ _ => MessageState.Sound.next) sound ((messages mem).ends s)
  rcases messageTurn_stop turn with ended | ⟨room, ended⟩
  · rw [ended]
    exact kept.inside
  · rw [ended]
    exact kept.read room

/-! ## The function -/

/-- What `recv(sock, buf, sizeof(buf), 0)` leaves: the buffer and the number of bytes
received. -/
structure Received where
  memory : Memory
  len : ℕ
  fits : len ≤ 4096

/-- A datagram is received into a buffer, and what does not fit is lost. -/
def recv (buf : Memory) (datagram : List UInt8) : Received where
  memory i := (datagram.take 4096)[i]?.getD (buf i)
  len := (datagram.take 4096).length
  fits := List.length_take_le 4096 datagram

/-- The state in front of the first message. -/
def Received.start (received : Received) : MessageState where
  nlh := 0
  len := received.len
  fits := Int.ofNat_le.mpr received.fits
  links := ⟨∅, []⟩

/-- `get_network_interfaces`, with what the buffer holds before.  There are no datagrams when
the socket cannot be used, and none is received when the kernel does not answer in time. -/
def getNetworkInterfaces (buf : Memory) (sock : Option (List (List UInt8))) :
    AList (fun _ : Int32 => Text) :=
  match sock with
  | some (datagram :: _) =>
      let received := recv buf datagram
      if 0 < received.len then ((messages received.memory).result received.start).ifindexMap
      else ∅
  | _ => ∅

/-- Without a byte received there is no message. -/
theorem getNetworkInterfaces_received (buf : Memory) (datagram : List UInt8)
    (later : List (List UInt8)) :
    getNetworkInterfaces buf (some (datagram :: later)) =
      ((messages (recv buf datagram).memory).result (recv buf datagram).start).ifindexMap := by
  rw [getNetworkInterfaces]
  split
  · rfl
  · next nothing =>
      have stop : messageTurn (recv buf datagram).memory (recv buf datagram).start =
          .stop (recv buf datagram).start.links := by
        rw [messageTurn, if_pos]
        rw [Received.start]
        dsimp only
        omega
      rw [(messages _).result_stop stop]
      rfl

/-- **Whatever is received into whatever buffer, the loop over the messages and the loop over
the attributes end**, each header that is read and the index lie inside the received bytes,
and so does each byte that is copied of a name, provided that it is terminated. -/
theorem getNetworkInterfaces_reads (buf : Memory) (datagram : List UInt8)
    (later : List (List UInt8)) :
    (∃ turns links,
      loop (messageTurn (recv buf datagram).memory) turns (recv buf datagram).start =
        some links ∧
      links.ifindexMap = getNetworkInterfaces buf (some (datagram :: later)) ∧
      ∀ access ∈ links.accesses,
        access.Inside (recv buf datagram).memory (recv buf datagram).len) ∧
    ∀ s, ∃ turns found, loop (attributeTurn (recv buf datagram).memory) turns s = some found := by
  constructor
  · have sound : MessageState.Sound (recv buf datagram).memory (recv buf datagram).len
        (recv buf datagram).start :=
      { before := by
          rw [Received.start]
          dsimp only
          omega
        inside := fun access member => absurd member List.not_mem_nil }
    exact ⟨_, _, (messages _).ends _, (getNetworkInterfaces_received buf datagram later).symm,
      messages_sound sound⟩
  · intro s
    exact ⟨_, _, (attributes _).ends s⟩

end LinuxMonitor.Monitor.NetMonitor

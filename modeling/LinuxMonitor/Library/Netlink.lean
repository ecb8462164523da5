import Mathlib.Data.List.Basic
import Mathlib.Algebra.Order.Ring.Int

/-!
# Netlink messages

A datagram is a sequence of messages, each a header of 16 bytes and a payload, and the
payload of a routing message is a structure followed by attributes, each a header of four
bytes and a payload of its own.  Lengths count the header; what follows begins at the next
multiple of four.  Numbers have their lowest byte first.

The macros of the kernel's headers are functions of the memory from the buffer's beginning
on.  `nlmsg_len` has 32 bits and `rta_len` 16; the length left of a datagram has 64 bits and
that left of a message 32, with signs.

* `readNumber_of_holds`: a number is read as it was written.
* `strncpy_of_holds`: a terminated string that is not too long is copied whole.
* `rtaOk_of_holds`, `rtaNext_of_holds`: an attribute that stands in the memory is accepted,
  and the next one is found behind it.
* `nlmsgOk_of_holds`, `nlmsgNext_of_holds`: so is a message.
-/

set_option autoImplicit false

namespace LinuxMonitor.Library.Netlink

/-! ## Bytes in the memory -/

/-- The bytes from the beginning of a buffer on, behind its contents as well. -/
abbrev Memory : Type := ℕ → UInt8

/-- Bytes that are read. -/
structure Span where
  start : ℕ
  size : ℕ
deriving DecidableEq, Repr

/-- The number of the given width at an offset. -/
def readNumber (mem : Memory) : ℕ → ℕ → ℕ
  | 0, _ => 0
  | width + 1, offset => (mem offset).toNat + 256 * readNumber mem width (offset + 1)

/-- The bytes of a number. -/
def numberBytes : ℕ → ℕ → List UInt8
  | 0, _ => []
  | width + 1, n => UInt8.ofNat n :: numberBytes width (n / 256)

/-- The memory holds the bytes at the offset. -/
def Holds (mem : Memory) (offset : ℕ) (bytes : List UInt8) : Prop :=
  ∀ i, ∀ b ∈ bytes[i]?, mem (offset + i) = b

variable {mem : Memory}

theorem length_numberBytes (width n : ℕ) : (numberBytes width n).length = width := by
  induction width generalizing n with
  | zero => rfl
  | succ width ih => rw [numberBytes, List.length_cons, ih]

theorem holds_append {offset : ℕ} {first second : List UInt8} :
    Holds mem offset (first ++ second) ↔
      Holds mem offset first ∧ Holds mem (offset + first.length) second := by
  constructor
  · intro held
    constructor
    · intro i b here
      have inside : i < first.length := (List.getElem?_eq_some_iff.mp here).1
      exact held i b (by rwa [List.getElem?_append_left inside])
    · intro i b here
      rw [add_assoc]
      apply held
      rw [List.getElem?_append_right (Nat.le_add_right _ _), Nat.add_sub_cancel_left]
      exact here
  · rintro ⟨before, behind⟩ i b here
    by_cases inside : i < first.length
    · rw [List.getElem?_append_left inside] at here
      exact before i b here
    · rw [List.getElem?_append_right (not_lt.mp inside)] at here
      have found := behind _ b here
      rwa [add_assoc, Nat.add_sub_cancel' (not_lt.mp inside)] at found

theorem holds_cons {offset : ℕ} {b : UInt8} {bytes : List UInt8} :
    Holds mem offset (b :: bytes) ↔ mem offset = b ∧ Holds mem (offset + 1) bytes := by
  have split : Holds mem offset ([b] ++ bytes) ↔
      Holds mem offset [b] ∧ Holds mem (offset + [b].length) bytes := holds_append
  rw [List.singleton_append, List.length_singleton] at split
  rw [split]
  apply and_congr_left
  intro _
  constructor
  · intro held
    exact held 0 b rfl
  · rintro here (_ | i) c found
    · cases found
      exact here
    · cases found

/-- **A number is read as it was written.** -/
theorem readNumber_of_holds {width offset n : ℕ} (small : n < 256 ^ width)
    (held : Holds mem offset (numberBytes width n)) : readNumber mem width offset = n := by
  induction width generalizing offset n with
  | zero =>
      rw [pow_zero] at small
      rw [readNumber]
      omega
  | succ width ih =>
      rw [numberBytes, holds_cons] at held
      have rest : n / 256 < 256 ^ width := by
        rw [pow_succ] at small
        exact Nat.div_lt_of_lt_mul (by rwa [mul_comm])
      rw [readNumber, ih rest held.2, held.1, UInt8.toNat_ofNat']
      omega

theorem readNumber_lt (width offset : ℕ) : readNumber mem width offset < 256 ^ width := by
  induction width generalizing offset with
  | zero => simp [readNumber]
  | succ width ih =>
      have byte := (mem offset).toNat_lt
      have rest := ih (offset + 1)
      rw [readNumber, pow_succ]
      omega

/-- The bytes that `strncpy` copies from `src`: up to the first zero byte, and `size` at
most. -/
def strncpy (mem : Memory) : ℕ → ℕ → List UInt8
  | 0, _ => []
  | size + 1, src => if mem src = 0 then [] else mem src :: strncpy mem size (src + 1)

/-- A string that is terminated and not too long is copied whole. -/
theorem strncpy_of_holds {name : List UInt8} (nonzero : 0 ∉ name) {size src : ℕ}
    (fits : name.length ≤ size) (held : Holds mem src (name ++ [0])) :
    strncpy mem size src = name := by
  induction name generalizing size src with
  | nil =>
      have ended : mem src = 0 := (holds_cons.mp held).1
      cases size with
      | zero => rfl
      | succ size => rw [strncpy, if_pos ended]
  | cons b name ih =>
      obtain ⟨size, rfl⟩ : ∃ size', size = size' + 1 :=
        Nat.exists_eq_succ_of_ne_zero (by rw [List.length_cons] at fits; omega)
      rw [List.mem_cons, not_or] at nonzero
      rw [List.cons_append, holds_cons] at held
      have here : mem src ≠ 0 := by
        rw [held.1]
        exact Ne.symm nonzero.1
      rw [strncpy, if_neg here, ih nonzero.2 (Nat.le_of_succ_le_succ fits) held.2, held.1]

/-- No more is copied than stands before a zero byte. -/
theorem length_strncpy_le {size src k : ℕ} (zero : mem (src + k) = 0) :
    (strncpy mem size src).length ≤ k := by
  induction size generalizing src k with
  | zero => exact Nat.zero_le k
  | succ size ih =>
      rw [strncpy]
      split
      · exact Nat.zero_le k
      · next nonzero =>
          cases k with
          | zero => exact absurd zero nonzero
          | succ k =>
              have behind : mem (src + 1 + k) = 0 := by
                rwa [add_assoc, add_comm 1 k]
              exact Nat.succ_le_succ (ih behind)

/-! ## The macros -/

/-- `NLMSG_DONE` -/
def nlmsgDone : UInt16 := 3

/-- `RTM_NEWLINK` -/
def rtmNewlink : UInt16 := 16

/-- `IFLA_IFNAME` -/
def iflaIfname : UInt16 := 3

/-- `NLMSG_ALIGN(len)` and `RTA_ALIGN(len)`, in 32 bits without a sign. -/
def align (len : ℕ) : ℕ := (len + 3) % 2 ^ 32 / 4 * 4

section Messages

variable (mem : Memory) (nlh : ℕ) (len : ℤ)

def nlmsgLen : ℕ := readNumber mem 4 nlh

def nlmsgType : UInt16 := UInt16.ofNat (readNumber mem 2 (nlh + 4))

/-- `NLMSG_OK(nlh, len)` -/
def NlmsgOk : Prop := 16 ≤ len ∧ 16 ≤ nlmsgLen mem nlh ∧ (nlmsgLen mem nlh : ℤ) ≤ len

instance decidableNlmsgOk : Decidable (NlmsgOk mem nlh len) :=
  inferInstanceAs
    (Decidable (16 ≤ len ∧ 16 ≤ nlmsgLen mem nlh ∧ (nlmsgLen mem nlh : ℤ) ≤ len))

/-- `NLMSG_NEXT(nlh, len)`: the next message, and the length left. -/
def nlmsgNext : ℕ × ℤ := (nlh + align (nlmsgLen mem nlh), len - align (nlmsgLen mem nlh))

/-- `NLMSG_DATA(nlh)` -/
def nlmsgData : ℕ := nlh + 16

/-- `IFLA_PAYLOAD(nlh)`, computed in 64 bits without a sign and kept in an `int`. -/
def iflaPayload : ℤ := ((nlmsgLen mem nlh : ℤ) - 32).bmod (2 ^ 32)

end Messages

section Attributes

variable (mem : Memory) (rta : ℕ) (rtalen : ℤ)

/-- `IFLA_RTA(ifi)` -/
def iflaRta (ifi : ℕ) : ℕ := ifi + 16

def rtaLen : ℕ := readNumber mem 2 rta

def rtaType : UInt16 := UInt16.ofNat (readNumber mem 2 (rta + 2))

/-- `RTA_OK(rta, rtalen)` -/
def RtaOk : Prop := 4 ≤ rtalen ∧ 4 ≤ rtaLen mem rta ∧ (rtaLen mem rta : ℤ) ≤ rtalen

instance decidableRtaOk : Decidable (RtaOk mem rta rtalen) :=
  inferInstanceAs (Decidable (4 ≤ rtalen ∧ 4 ≤ rtaLen mem rta ∧ (rtaLen mem rta : ℤ) ≤ rtalen))

/-- `RTA_NEXT(rta, rtalen)`: the next attribute, and the length left, which is an `int`. -/
def rtaNext : ℕ × ℤ :=
  (rta + align (rtaLen mem rta), (rtalen - align (rtaLen mem rta)).bmod (2 ^ 32))

/-- `RTA_DATA(rta)` -/
def rtaData : ℕ := rta + 4

end Attributes

/-! ## Progress -/

theorem align_bounds {len : ℕ} (small : len + 3 < 2 ^ 32) :
    len ≤ align len ∧ align len < len + 4 := by
  rw [align, Nat.mod_eq_of_lt small]
  omega

/-- A length that fits 31 bits stays one, and may fall below zero by three at most. -/
theorem nlmsgNext_split {nlh : ℕ} {len : ℤ} (ok : NlmsgOk mem nlh len) (small : len < 2 ^ 31) :
    (nlmsgNext mem nlh len).1 + (nlmsgNext mem nlh len).2 = nlh + len ∧
      (nlmsgNext mem nlh len).2 < len ∧ -4 < (nlmsgNext mem nlh len).2 := by
  obtain ⟨-, header, inside⟩ := ok
  have bounds : nlmsgLen mem nlh ≤ align (nlmsgLen mem nlh) ∧
      align (nlmsgLen mem nlh) < nlmsgLen mem nlh + 4 := align_bounds (by omega)
  simp only [nlmsgNext]
  omega

theorem rtaNext_split {rta : ℕ} {rtalen : ℤ} (ok : RtaOk mem rta rtalen)
    (small : rtalen < 2 ^ 31) :
    (rtaNext mem rta rtalen).1 + (rtaNext mem rta rtalen).2 = rta + rtalen ∧
      (rtaNext mem rta rtalen).2 < rtalen ∧ -4 < (rtaNext mem rta rtalen).2 := by
  obtain ⟨-, header, inside⟩ := ok
  have bounds : rtaLen mem rta ≤ align (rtaLen mem rta) ∧
      align (rtaLen mem rta) < rtaLen mem rta + 4 := align_bounds (by omega)
  have kept : (rtalen - align (rtaLen mem rta)).bmod (2 ^ 32) =
      rtalen - align (rtaLen mem rta) := by
    rw [Int.bmod]
    split <;> omega
  simp only [rtaNext, kept]
  omega

/-- **An attribute leaves less of the message**, whatever the length left was. -/
theorem rtaNext_toNat_lt {rta : ℕ} {rtalen : ℤ} (ok : RtaOk mem rta rtalen) :
    (rtaNext mem rta rtalen).2.toNat < rtalen.toNat := by
  obtain ⟨-, header, inside⟩ := ok
  have narrow : rtaLen mem rta < 256 ^ 2 := readNumber_lt 2 rta
  have bounds : rtaLen mem rta ≤ align (rtaLen mem rta) ∧
      align (rtaLen mem rta) < rtaLen mem rta + 4 := align_bounds (by omega)
  simp only [rtaNext, Int.bmod]
  split <;> omega

/-! ## Attributes -/

/-- The zero bytes up to the next multiple of four. -/
def padding (length : ℕ) : List UInt8 := List.replicate (align length - length) 0

structure Attribute where
  type : UInt16
  payload : List UInt8

namespace Attribute

variable (a : Attribute)

def length : ℕ := 4 + a.payload.length

def bytes : List UInt8 :=
  numberBytes 2 a.length ++
    (numberBytes 2 a.type.toNat ++ (a.payload ++ padding a.length))

variable {a}

theorem length_bytes (small : a.length < 2 ^ 16) : a.bytes.length = align a.length := by
  have bounds : a.length ≤ align a.length ∧ align a.length < a.length + 4 :=
    align_bounds (by omega)
  simp only [bytes, List.length_append, length_numberBytes, padding, List.length_replicate]
  rw [length] at bounds ⊢
  omega

/-- No attribute is longer than its bytes. -/
theorem length_le_bytes : a.length ≤ a.bytes.length := by
  simp only [bytes, List.length_append, length_numberBytes]
  rw [length]
  omega

variable {rta : ℕ} {rtalen : ℤ} (held : Holds mem rta a.bytes)

include held

theorem rtaLen_of_holds (small : a.length < 2 ^ 16) : rtaLen mem rta = a.length :=
  readNumber_of_holds small (holds_append.mp held).1

theorem rtaType_of_holds : rtaType mem rta = a.type := by
  have behind := (holds_append.mp held).2
  rw [length_numberBytes] at behind
  rw [rtaType, readNumber_of_holds a.type.toNat_lt (holds_append.mp behind).1,
    UInt16.ofNat_toNat]

theorem payload_of_holds : Holds mem (rtaData rta) a.payload := by
  have behind := (holds_append.mp held).2
  rw [length_numberBytes] at behind
  have payload := (holds_append.mp behind).2
  rw [length_numberBytes] at payload
  exact (holds_append.mp payload).1

/-- An attribute that stands in the memory is accepted. -/
theorem rtaOk_of_holds (small : a.length < 2 ^ 16) (inside : (a.bytes.length : ℤ) ≤ rtalen) :
    RtaOk mem rta rtalen := by
  have whole := length_le_bytes (a := a)
  have header : 4 ≤ a.length := Nat.le_add_right 4 _
  rw [RtaOk, rtaLen_of_holds held small]
  omega

/-- **The next attribute is looked for behind the bytes of this one.** -/
theorem rtaNext_of_holds (small : a.length < 2 ^ 16) (inside : (a.bytes.length : ℤ) ≤ rtalen)
    (int : rtalen < 2 ^ 31) :
    rtaNext mem rta rtalen = (rta + a.bytes.length, rtalen - a.bytes.length) := by
  have split := rtaNext_split (rtaOk_of_holds held small inside) int
  have first : (rtaNext mem rta rtalen).1 = rta + a.bytes.length := by
    rw [rtaNext, rtaLen_of_holds held small, length_bytes small]
  apply Prod.ext first
  dsimp only
  omega

end Attribute

/-! ## Messages -/

structure Message where
  type : UInt16
  flags : UInt16
  seq : UInt32
  pid : UInt32
  payload : List UInt8

namespace Message

variable (m : Message)

def length : ℕ := 16 + m.payload.length

def bytes : List UInt8 :=
  numberBytes 4 m.length ++
    (numberBytes 2 m.type.toNat ++
      (numberBytes 2 m.flags.toNat ++ numberBytes 4 m.seq.toNat ++ numberBytes 4 m.pid.toNat ++
        (m.payload ++ padding m.length)))

variable {m}

theorem length_le_bytes : m.length ≤ m.bytes.length := by
  simp only [bytes, List.length_append, length_numberBytes]
  rw [length]
  omega

theorem length_bytes (small : m.length + 3 < 2 ^ 32) : m.bytes.length = align m.length := by
  have bounds := align_bounds small
  simp only [bytes, List.length_append, length_numberBytes, padding, List.length_replicate]
  rw [length] at bounds ⊢
  omega

variable {nlh : ℕ} {len : ℤ} (held : Holds mem nlh m.bytes)

include held

theorem nlmsgLen_of_holds (small : m.length < 2 ^ 32) : nlmsgLen mem nlh = m.length :=
  readNumber_of_holds small (holds_append.mp held).1

theorem nlmsgType_of_holds : nlmsgType mem nlh = m.type := by
  have behind := (holds_append.mp held).2
  rw [length_numberBytes] at behind
  rw [nlmsgType, readNumber_of_holds m.type.toNat_lt (holds_append.mp behind).1,
    UInt16.ofNat_toNat]

theorem payload_of_holds : Holds mem (nlmsgData nlh) m.payload := by
  have type := (holds_append.mp held).2
  have rest := (holds_append.mp type).2
  have payload := (holds_append.mp rest).2
  simp only [List.length_append, length_numberBytes, add_assoc] at payload
  exact (holds_append.mp payload).1

/-- A message that stands in the memory is accepted. -/
theorem nlmsgOk_of_holds (inside : (m.bytes.length : ℤ) ≤ len) (small : len < 2 ^ 31) :
    NlmsgOk mem nlh len := by
  have whole := length_le_bytes (m := m)
  have header : 16 ≤ m.length := Nat.le_add_right 16 _
  rw [NlmsgOk, nlmsgLen_of_holds held (by omega)]
  omega

/-- **The next message is looked for behind the bytes of this one.** -/
theorem nlmsgNext_of_holds (inside : (m.bytes.length : ℤ) ≤ len) (small : len < 2 ^ 31) :
    nlmsgNext mem nlh len = (nlh + m.bytes.length, len - m.bytes.length) := by
  have whole := length_le_bytes (m := m)
  rw [nlmsgNext, nlmsgLen_of_holds held (by omega), length_bytes (by omega)]

end Message

end LinuxMonitor.Library.Netlink

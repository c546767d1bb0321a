import Rtl8188fu.Include.Wifi

/-! # Receive frame objects

The buffer of a received frame is the memory `[rx_head, rx_end)` with the offsets of
`rx_data` and `rx_tail` in it. The ordering of the three pointers is a field of the
buffer, so the pull and put operations answer `none` where the driver answers `NULL`.
-/
namespace Rtl8188fu
open Bytes

/-- The values of `encrypt` and of the privacy algorithm fields. -/
inductive EncryAlgo
  | noPrivacy
  | wep40
  | tkip
  | tkipWtmic
  | aes
  | wep104
  | sms4
  deriving DecidableEq, Repr

def setIceIvLen : EncryAlgo → ℕ × ℕ
  | .wep40 | .wep104 => (4, 4)
  | .tkip => (8, 4)
  | .aes => (8, 8)
  | .sms4 => (18, 16)
  | .noPrivacy | .tkipWtmic => (0, 0)

/-- `struct rx_pkt_attrib`, the fields that the receive path reads -/
structure RxPktAttrib where
  pktLen : ℕ
  hdrlen : ℕ
  toFrDs : ℕ
  amsdu : Bool
  qos : Bool
  priority : ℕ
  seqNum : ℕ
  fragNum : ℕ
  mfrag : Bool
  order : Bool
  privacy : Bool
  bdecrypted : Bool
  encrypt : EncryAlgo
  ivLen : ℕ
  icvLen : ℕ
  ethType : ℕ
  dst : MacAddr
  src : MacAddr
  ta : MacAddr
  ra : MacAddr
  bssid : MacAddr
  keyIndex : ℕ
  deriving DecidableEq, Repr

/-- The memory `[rx_head, rx_end)` of a frame with `rx_data` and `rx_tail` as offsets -/
structure RxBuf where
  mem : List UInt8
  data : ℕ
  tail : ℕ
  data_le_tail : data ≤ tail
  tail_le_end : tail ≤ mem.length
  deriving DecidableEq

/-- The memory of a frame that fills it -/
def RxBuf.ofBytes (bytes : List UInt8) : RxBuf := ⟨bytes, 0, bytes.length, Nat.zero_le _, le_refl _⟩

/-- `len = (unsigned int)(tail - data)` -/
def RxBuf.len (b : RxBuf) : ℕ := b.tail - b.data

/-- The bytes from `rx_data` to `rx_tail` -/
def RxBuf.payload (b : RxBuf) : List UInt8 := slice b.mem b.data b.len

/-- What a pointer to `rx_data` can be used to read -/
def RxBuf.ptr (b : RxBuf) : List UInt8 := b.mem.drop b.data

def RxBuf.pull (b : RxBuf) (sz : ℕ) : Option RxBuf :=
  if h : b.data + sz ≤ b.tail then some { b with data := b.data + sz, data_le_tail := h } else none

def RxBuf.pullTail (b : RxBuf) (sz : ℕ) : Option RxBuf :=
  if h : b.data + sz ≤ b.tail then
    some { b with
      tail := b.tail - sz
      data_le_tail := by omega
      tail_le_end := (Nat.sub_le _ _).trans b.tail_le_end }
  else none

def RxBuf.put (b : RxBuf) (sz : ℕ) : Option RxBuf :=
  if h : b.tail + sz ≤ b.mem.length then
    some { b with
      tail := b.tail + sz
      data_le_tail := b.data_le_tail.trans (Nat.le_add_right _ _)
      tail_le_end := h }
  else none

/-- A store of `bs` at offset `i` of the buffer -/
def RxBuf.write (b : RxBuf) (i : ℕ) (bs : List UInt8) : RxBuf :=
  { b with mem := patch b.mem i bs, tail_le_end := by simpa using b.tail_le_end }

/-- `union recv_frame`: the object is told apart from the others by `id`. -/
structure RecvFrame where
  id : ℕ
  buf : RxBuf
  attrib : RxPktAttrib
  /-- `preorder_ctrl`: the station's address and the TID -/
  preorderCtrl : MacAddr × Fin 16
  deriving DecidableEq

@[simp] theorem RxBuf.write_data (b : RxBuf) (i : ℕ) (bs : List UInt8) : (b.write i bs).data = b.data := rfl
@[simp] theorem RxBuf.write_tail (b : RxBuf) (i : ℕ) (bs : List UInt8) : (b.write i bs).tail = b.tail := rfl
@[simp] theorem RxBuf.write_mem (b : RxBuf) (i : ℕ) (bs : List UInt8) :
    (b.write i bs).mem = patch b.mem i bs := rfl
@[simp] theorem RxBuf.write_len (b : RxBuf) (i : ℕ) (bs : List UInt8) : (b.write i bs).len = b.len := rfl

theorem RxBuf.length_payload (b : RxBuf) : b.payload.length = b.len := by
  have h0 := b.data_le_tail
  have h1 := b.tail_le_end
  rw [RxBuf.payload, length_slice, RxBuf.len]
  omega

theorem RxBuf.pull_eq_some {b c : RxBuf} {sz : ℕ} (h : b.pull sz = some c) :
    b.data + sz ≤ b.tail ∧ c.mem = b.mem ∧ c.data = b.data + sz ∧ c.tail = b.tail := by
  unfold RxBuf.pull at h
  split at h
  · cases h
    exact ⟨by assumption, rfl, rfl, rfl⟩
  · cases h

theorem RxBuf.pullTail_eq_some {b c : RxBuf} {sz : ℕ} (h : b.pullTail sz = some c) :
    b.data + sz ≤ b.tail ∧ c.mem = b.mem ∧ c.data = b.data ∧ c.tail = b.tail - sz := by
  unfold RxBuf.pullTail at h
  split at h
  · cases h
    exact ⟨by assumption, rfl, rfl, rfl⟩
  · cases h

theorem RxBuf.pull_getD {b : RxBuf} {sz : ℕ} (h : b.data + sz ≤ b.tail) :
    ((b.pull sz).getD b).mem = b.mem ∧ ((b.pull sz).getD b).data = b.data + sz ∧
      ((b.pull sz).getD b).tail = b.tail := by
  rw [RxBuf.pull, dif_pos h]
  exact ⟨rfl, rfl, rfl⟩

theorem RxBuf.pullTail_getD {b : RxBuf} {sz : ℕ} (h : b.data + sz ≤ b.tail) :
    ((b.pullTail sz).getD b).mem = b.mem ∧ ((b.pullTail sz).getD b).data = b.data ∧
      ((b.pullTail sz).getD b).tail = b.tail - sz := by
  rw [RxBuf.pullTail, dif_pos h]
  exact ⟨rfl, rfl, rfl⟩

theorem RxBuf.put_getD {b : RxBuf} {sz : ℕ} (h : b.tail + sz ≤ b.mem.length) :
    ((b.put sz).getD b).mem = b.mem ∧ ((b.put sz).getD b).data = b.data ∧
      ((b.put sz).getD b).tail = b.tail + sz := by
  rw [RxBuf.put, dif_pos h]
  exact ⟨rfl, rfl, rfl⟩

/-- An unencrypted data frame of 64 zero bytes -/
def plainFrame (id seqNum : ℕ) (qos : Bool) : RecvFrame where
  id := id
  buf := ⟨List.replicate 64 0, 0, 64, by decide, by decide⟩
  attrib :=
    { pktLen := 64, hdrlen := 24, toFrDs := 1, amsdu := false, qos := qos, priority := 0
      seqNum := seqNum, fragNum := 0, mfrag := false, order := false, privacy := false
      bdecrypted := false, encrypt := .noPrivacy, ivLen := 0, icvLen := 0, ethType := 0
      dst := [2, 0, 0, 0, 0, 1], src := [2, 0, 0, 0, 0, 2], ta := [2, 0, 0, 0, 0, 2]
      ra := [2, 0, 0, 0, 0, 1], bssid := [2, 0, 0, 0, 0, 2], keyIndex := 0 }
  preorderCtrl := ([2, 0, 0, 0, 0, 2], 0)

end Rtl8188fu

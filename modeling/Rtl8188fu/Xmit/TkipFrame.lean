import Rtl8188fu.Recv.DataHdr
import Rtl8188fu.Recv.Decryptor
import Rtl8188fu.Xmit.FragmentWalk

/-! # A TKIP packet on its way

What `xmitframe_addmic` and `rtw_tkip_encrypt` do to the buffer that was filled before, and
what the receiver makes of the fragments, up to the frame that `recvframe_chkmic` checks.
Behind `rtw_xmitframe_coalesce` no length of a walker is negative.
-/
namespace Rtl8188fu
open Bytes

/-- The Michael key of the sender -/
def txMicKey (sec : SecurityPriv) (a : PktAttrib) : Keytype :=
  if isMcast a.ra then sec.dot118021XGrptxmickey sec.dot118021XGrpKeyid else a.dot11tkiptxmickey

/-- `priority[0]` -/
def micPriority (a : PktAttrib) : UInt8 := if a.qosEn then UInt8.ofNat a.priority else 0

/-- The bytes that `rtw_secmicappend` gets, fragment by fragment -/
def micData (mem : List UInt8) (visits : List FragmentParts) : List UInt8 :=
  visits.flatMap fun v => slice mem v.payload.1.toNat v.payload.2.toNat

/-- `payload` behind the loop -/
def micPlace (hw : ℕ) (visits : List FragmentParts) : ℕ :=
  (visits.getLast?.map fun v => (v.payload.1 + v.payload.2).toNat).getD hw

/-- `xmitframe_addmic` of `nrFrags` fragments in the buffer; `none` for `_FAIL` -/
def xmitframeAddmic (sec : SecurityPriv) (a : PktAttrib) (fragLen lastTxcmdsz : ℤ) (nrFrags hw : ℕ)
    (mem : List UInt8) : Option (List UInt8) :=
  if a.encrypt = .tkip then
    if txMicKey sec a = List.replicate 16 0 then none
    else
      let visits := addmicVisits a fragLen lastTxcmdsz nrFrags hw
      let mic := rtwSeccalctkipmic (txMicKey sec a) (mem.drop hw) (micData mem visits) (micPriority a)
      some (patch mem (micPlace hw visits) mic)
  else some mem

/-- One turn of the loop of `rtw_tkip_encrypt`; the key stream of the payload goes on over its
check value. -/
def tkipEncryptFragment (prwskey ta mem : List UInt8) (v : FragmentParts) : List UInt8 :=
  let payload := slice mem v.payload.1.toNat v.payload.2.toNat
  let rc4key := tkipRc4Key prwskey ta (mem.drop v.iv.1.toNat)
  patch mem v.payload.1.toNat (arcfourEncrypt (arcfourInit rc4key 16) (payload ++ crcBytes payload))

def rtwTkipEncrypt (sec : SecurityPriv) (a : PktAttrib) (fragLen lastTxcmdsz : ℤ) (nrFrags hw : ℕ)
    (mem : List UInt8) : List UInt8 :=
  let prwskey := if isMcast a.ra then sec.dot118021XGrpKey sec.dot118021XGrpKeyid else a.dot118021xUncstKey
  (encryptVisits a mem fragLen lastTxcmdsz nrFrags hw).foldl (tkipEncryptFragment prwskey a.ta) mem

/-- The end of `rtw_xmitframe_coalesce` on a TKIP packet that is encrypted here -/
def tkipProtect (sec : SecurityPriv) (a : PktAttrib) (fragLen hw : ℕ) (frags : List TxFragment) (mem : List UInt8) :
    Option (List UInt8) :=
  (xmitframeAddmic sec a fragLen (lastTxcmdsz a frags) frags.length hw mem).map
    (rtwTkipEncrypt sec a fragLen (lastTxcmdsz a frags + 8) frags.length hw)

/-- The bytes of the fragments that go out, the last one with its MIC -/
def sentFragments (mem : List UInt8) : List TxFragment → List (List UInt8)
  | [] => []
  | [t] => [slice mem t.start (t.bytes.length + 8)]
  | t :: ts => slice mem t.start t.bytes.length :: sentFragments mem ts

/-- The receiver's way of one fragment up to the MIC check: the fragments that wait, and the
frame that is complete -/
def receiveFragment (sec : SecurityPriv) (stapriv : StaPriv) (q : List RecvFrame) (f : RecvFrame) :
    List RecvFrame × Option RecvFrame :=
  match decryptor sec stapriv (parseDataHdr f) with
  | none => (q, none)
  | some d =>
    if d.res = .fail then (q, none)
    else
      let r := chkDefragQueue (some q) d.frame
      (r.queue.getD [], r.out)

/-- The frames that reach `recvframe_chkmic` -/
def receiveFragments (sec : SecurityPriv) (stapriv : StaPriv) : List RecvFrame → List RecvFrame → List RecvFrame
  | _, [] => []
  | q, f :: fs =>
    let r := receiveFragment sec stapriv q f
    r.2.toList ++ receiveFragments sec stapriv r.1 fs

/-- What a Michael MIC is computed from -/
structure MicInput where
  da : MacAddr
  sa : MacAddr
  priority : UInt8
  data : List UInt8
  deriving DecidableEq

/-- The input of `rtw_seccalctkipmic`: the addresses are picked by the direction bits. -/
def micInput (header data : List UInt8) (pri : UInt8) : MicInput where
  da := if byteAt header 1 &&& 1 ≠ 0 then slice header 16 6 else slice header 4 6
  sa :=
    if byteAt header 1 &&& 1 ≠ 0 then if byteAt header 1 &&& 2 ≠ 0 then slice header 24 6 else slice header 10 6
    else if byteAt header 1 &&& 2 ≠ 0 then slice header 16 6 else slice header 10 6
  priority := pri
  data := data

def MicInput.mic (key : Keytype) (m : MicInput) : List UInt8 :=
  rtwSecgetmic (rtwSecmicappend (rtwSecmicappend (rtwSecmicappend (rtwSecmicappend (rtwSecmicsetkey key) m.da) m.sa)
    [m.priority, 0, 0, 0]) m.data)

/-- What `xmitframe_addmic` computes the MIC from -/
def txMicInput (a : PktAttrib) (fragLen : ℤ) (hw : ℕ) (frags : List TxFragment) (mem : List UInt8) : MicInput :=
  micInput (mem.drop hw) (micData mem (addmicVisits a fragLen (lastTxcmdsz a frags) frags.length hw)) (micPriority a)

/-- The payload in front of the MIC -/
def micDatalen (f : RecvFrame) : ℕ :=
  (((f.buf.len : ℤ) - f.attrib.hdrlen - f.attrib.ivLen - f.attrib.icvLen - 8) % 4294967296).toNat

/-- What `recvframe_chkmic` computes the MIC from -/
def rxMicInput (f : RecvFrame) : MicInput :=
  micInput f.buf.ptr ((f.buf.ptr.drop (f.attrib.hdrlen + f.attrib.ivLen)).take (micDatalen f))
    (UInt8.ofNat f.attrib.priority)

theorem rtwSeccalctkipmic_eq (key header data : List UInt8) (pri : UInt8) :
    rtwSeccalctkipmic key header data pri = (micInput header data pri).mic key := by
  rw [rtwSeccalctkipmic, MicInput.mic, micInput]
  dsimp only
  split_ifs <;> rfl

theorem micInput_congr {p q : List UInt8} (h : p.take 30 = q.take 30) (data : List UInt8) (pri : UInt8) :
    micInput p data pri = micInput q data pri := by
  rw [micInput, micInput, byteAt_congr h (by decide), slice_congr h (by decide), slice_congr h (by decide),
    slice_congr h (by decide), slice_congr h (by decide)]

@[simp] theorem length_mic (key : Keytype) (m : MicInput) : (m.mic key).length = 8 := rfl

/-- The receiver has the keys of the sender: under the sender's address, for group addressed
packets under the key index that the IV names. -/
structure KeysShared (tx : SecurityPriv) (a : PktAttrib) (rx : SecurityPriv) (stapriv : StaPriv) : Prop where
  peer : ∃ sta ∈ rtwGetStainfo stapriv a.ta, isMcast a.ra = false →
    sta.dot118021xUncstKey = a.dot118021xUncstKey ∧ sta.dot11tkiprxmickey = a.dot11tkiptxmickey
  group : isMcast a.ra = true → rx.binstallGrpkey = true ∧
    rx.dot118021XGrpKey (a.keyIdx % 4) = tx.dot118021XGrpKey tx.dot118021XGrpKeyid ∧
      rx.dot118021XGrprxmickey (a.keyIdx % 4) = tx.dot118021XGrptxmickey tx.dot118021XGrpKeyid

/-- A frame as it comes from the air: it holds these bytes, and the receiver knows from the
association that they are protected with TKIP and not decrypted yet. -/
structure TkipArrival (bytes : List UInt8) (f : RecvFrame) : Prop where
  payload : f.buf.payload = bytes
  encrypt : f.attrib.encrypt = .tkip
  ivLen : f.attrib.ivLen = 8
  icvLen : f.attrib.icvLen = 4
  bdecrypted : f.attrib.bdecrypted = false

/-- The packet is protected and recovered: the sender's MIC is over the packet, and however
the fragments arrive, one frame comes out of them, its MIC is computed from what the sender
computed it from and is accepted, and the payload in front of MIC and ICV is the packet. -/
structure TkipRecovered (rx : SecurityPriv) (stapriv : StaPriv) (a : PktAttrib) (fragLen hw : ℕ)
    (frags : List TxFragment) (mem sent pkt : List UInt8) : Prop where
  maced : (txMicInput a fragLen hw frags mem).data = rtwPutSnap a.etherType ++ pkt.drop a.pktHdrlen
  received : ∀ fs, List.Forall₂ TkipArrival (sentFragments sent frags) fs →
    ∃ g, receiveFragments rx stapriv [] fs = [g] ∧ g.attrib.privacy = true ∧
      rxMicInput g = txMicInput a fragLen hw frags mem ∧
      (recvframeChkmic (rxMicKey rx stapriv) g).1 = .success ∧
      (dropIcv (recvframeChkmic (rxMicKey rx stapriv) g).2).payload.drop (payloadOffset g) =
        rtwPutSnap a.etherType ++ pkt.drop a.pktHdrlen

end Rtl8188fu

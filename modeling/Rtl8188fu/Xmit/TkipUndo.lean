import Rtl8188fu.Xmit.TkipFrame

/-! # TKIP protection undone

Encryption puts the payload with MIC and check value under the RC4 stream of a key that
depends on the IV and on nothing else of the frame; the receiver computes the same key.
-/
namespace Rtl8188fu
open Bytes

theorem tkipRc4Key_congr {p q : List UInt8} (h : p.take 8 = q.take 8) (tk ta : List UInt8) :
    tkipRc4Key tk ta p = tkipRc4Key tk ta q := by
  have hpn : getTkipPn p = getTkipPn q := by
    simp only [getTkipPn, byteAt_congr h (show 0 < 8 by decide), byteAt_congr h (show 2 < 8 by decide),
      byteAt_congr h (show 4 < 8 by decide), byteAt_congr h (show 5 < 8 by decide),
      byteAt_congr h (show 6 < 8 by decide), byteAt_congr h (show 7 < 8 by decide)]
  rw [tkipRc4Key, tkipRc4Key, hpn]

theorem length_tkipRc4Key (tk ta iv : List UInt8) : (tkipRc4Key tk ta iv).length = 16 := rfl

/-- A part of the payload is overwritten by one of the same length. -/
theorem RxBuf.payload_write {b : RxBuf} {x y z bs : List UInt8} (h : b.payload = x ++ y ++ z)
    (hbs : bs.length = y.length) : (b.write (b.data + x.length) bs).payload = x ++ bs ++ z := by
  have hlen := b.length_payload
  have h0 := b.data_le_tail
  have h1 := b.tail_le_end
  rw [h] at hlen
  simp only [List.length_append, RxBuf.len] at hlen
  change slice (patch b.mem (b.data + x.length) bs) b.data (b.tail - b.data) = _
  have hx : slice b.mem b.data x.length = x := by
    have := RxBuf.slice_mem (b := b) (x := []) (y := x) (z := y ++ z) (by rw [h]; simp) rfl
    exact this
  have hz : slice b.mem (b.data + x.length + bs.length) z.length = z := by
    have := RxBuf.slice_mem (b := b) (x := x ++ y) (y := z) (z := []) (by rw [h]; simp) rfl
    rwa [List.length_append, ← hbs, ← Nat.add_assoc] at this
  have h1' : slice (patch b.mem (b.data + x.length) bs) b.data x.length = x := by
    rw [slice_patch_below (Nat.le_refl _), hx]
  have h2 : slice (patch b.mem (b.data + x.length) bs) (b.data + x.length) bs.length = bs := slice_patch (by omega)
  have h3 : slice (patch b.mem (b.data + x.length) bs) (b.data + (x.length + bs.length)) z.length = z := by
    rw [slice_patch_above (by omega), ← Nat.add_assoc, hz]
  rw [show b.tail - b.data = x.length + bs.length + z.length by omega, ← slice_append_slice,
    ← slice_append_slice, h1', h2, h3]

section Decrypt
variable {f : RecvFrame} {hdr iv plain : List UInt8} {key : List UInt8}

/-- Decryption of a payload that was encrypted under the same key -/
theorem rc4Decrypt_payload
    (h : f.buf.payload = hdr ++ iv ++ arcfourEncrypt (arcfourInit key 16) plain) (hkey : key.length = 16)
    (hhdr : hdr.length = f.attrib.hdrlen) (hiv : iv.length = f.attrib.ivLen) :
    (rc4Decrypt key f).buf.payload = hdr ++ iv ++ plain := by
  have hlen := f.buf.length_payload
  rw [h] at hlen
  simp only [List.length_append, length_arcfourEncrypt] at hlen
  have hoff : (hdr ++ iv).length = payloadOffset f := by rw [List.length_append, hhdr, hiv, payloadOffset]
  have hbody : slice f.buf.ptr (payloadOffset f) (payloadLength f) = arcfourEncrypt (arcfourInit key 16) plain := by
    have hn : payloadLength f = (arcfourEncrypt (arcfourInit key 16) plain).length := by
      rw [payloadLength, payloadOffset, length_arcfourEncrypt]
      omega
    have := RxBuf.slice_ptr (b := f.buf) (x := hdr ++ iv) (y := arcfourEncrypt (arcfourInit key 16) plain) (z := [])
      (by rw [h, List.append_nil]) hoff
    rwa [← hn] at this
  rw [rc4Decrypt, hbody, hkey, arcfourEncrypt_arcfourEncrypt, ← hoff]
  have := @RxBuf.payload_write f.buf (hdr ++ iv) (arcfourEncrypt (arcfourInit key 16) plain) [] plain
    (by rw [h, List.append_nil]) (length_arcfourEncrypt _ _).symm
  rw [List.append_nil] at this
  exact this

/-- The check value of a decrypted payload is found behind it. -/
theorem icvCompare_of_payload {body : List UInt8} (h : f.buf.payload = hdr ++ iv ++ (body ++ crcBytes body))
    (hhdr : hdr.length = f.attrib.hdrlen) (hiv : iv.length = f.attrib.ivLen) : icvCompare f = true := by
  have hlen := f.buf.length_payload
  rw [h] at hlen
  simp only [List.length_append, length_crcBytes] at hlen
  have hoff : (hdr ++ iv).length = payloadOffset f := by rw [List.length_append, hhdr, hiv, payloadOffset]
  have hn : payloadLength f - 4 = body.length := by
    rw [payloadLength, payloadOffset]
    omega
  have hat : (hdr ++ iv ++ body).length = f.buf.len - 4 := by
    simp only [List.length_append]
    omega
  have hbody := RxBuf.slice_ptr (b := f.buf) (x := hdr ++ iv) (y := body) (z := crcBytes body)
    (by rw [h]; simp) hoff
  have hcrc := RxBuf.slice_ptr (b := f.buf) (x := hdr ++ iv ++ body) (y := crcBytes body) (z := [])
    (by rw [h]; simp) hat
  rw [length_crcBytes] at hcrc
  rw [icvCompare, hn, hbody, hcrc]
  simp

theorem take_iv {rest : List UInt8} (h : f.buf.payload = hdr ++ iv ++ rest) (hhdr : hdr.length = f.attrib.hdrlen)
    (hiv : iv.length = 8) : (f.buf.ptr.drop f.attrib.hdrlen).take 8 = iv.take 8 := by
  have := RxBuf.slice_ptr (b := f.buf) (x := hdr) (y := iv) (z := rest) h hhdr
  rw [hiv] at this
  rw [List.take_of_length_le (Nat.le_of_eq hiv)]
  exact this

end Decrypt

section Michael
variable {f : RecvFrame} {hdr iv body icv : List UInt8} {key : Keytype}
  {rxmickey : RecvFrame → Option (Option Keytype)}

theorem rxMicInput_of_payload {mic : List UInt8} (h : f.buf.payload = hdr ++ iv ++ (body ++ mic ++ icv))
    (hhdr : hdr.length = f.attrib.hdrlen) (hiv : iv.length = f.attrib.ivLen) (hmic : mic.length = 8)
    (hicv : icv.length = f.attrib.icvLen) (hsize : body.length < 2 ^ 32) :
    rxMicInput f = micInput f.buf.ptr body (UInt8.ofNat f.attrib.priority) ∧ micDatalen f = body.length ∧
      slice (f.buf.ptr.drop (f.attrib.hdrlen + f.attrib.ivLen)) (micDatalen f) 8 = mic := by
  have hlen := f.buf.length_payload
  rw [h] at hlen
  simp only [List.length_append] at hlen
  have hoff : (hdr ++ iv).length = f.attrib.hdrlen + f.attrib.ivLen := by rw [List.length_append, hhdr, hiv]
  have hdatalen : micDatalen f = body.length := by
    rw [micDatalen]
    omega
  have hbody : (f.buf.ptr.drop (f.attrib.hdrlen + f.attrib.ivLen)).take body.length = body :=
    RxBuf.slice_ptr (b := f.buf) (x := hdr ++ iv) (y := body) (z := mic ++ icv) (by rw [h]; simp) hoff
  refine ⟨?_,hdatalen,?_⟩
  · rw [rxMicInput, hdatalen, hbody]
  · have := RxBuf.slice_ptr (b := f.buf) (x := hdr ++ iv ++ body) (y := mic) (z := icv) (by rw [h]; simp) rfl
    rw [hmic, List.length_append, hoff] at this
    rw [hdatalen, slice, List.drop_drop]
    exact this

/-- A frame with the MIC of its payload is accepted, and what is left of it without the ICV
is the payload. -/
theorem recvframeChkmic_accepts (htkip : f.attrib.encrypt = .tkip) (hkey : rxmickey f = some (some key))
    (h : f.buf.payload =
      hdr ++ iv ++ (body ++ (micInput f.buf.ptr body (UInt8.ofNat f.attrib.priority)).mic key ++ icv))
    (hhdr : hdr.length = f.attrib.hdrlen) (hiv : iv.length = f.attrib.ivLen) (hicv : icv.length = f.attrib.icvLen)
    (hicv8 : icv.length ≤ 8) (hsize : body.length < 2 ^ 32) :
    (recvframeChkmic rxmickey f).1 = .success ∧
      (dropIcv (recvframeChkmic rxmickey f).2).payload.drop (payloadOffset f) = body := by
  obtain ⟨hin,hdatalen,hmic⟩ := rxMicInput_of_payload h hhdr hiv (length_mic _ _) hicv hsize
  have hcheck : recvframeChkmic rxmickey f = (.success,{ f with buf := (f.buf.pullTail 8).getD f.buf }) := by
    rw [recvframeChkmic, if_pos htkip, hkey]
    dsimp only
    rw [← micDatalen, rtwSeccalctkipmic_eq, ← rxMicInput, hin, hmic, if_pos rfl]
  rw [hcheck]
  refine ⟨rfl,?_⟩
  have hlen := f.buf.length_payload
  have hle := f.buf.data_le_tail
  rw [h] at hlen
  simp only [List.length_append, length_mic, RxBuf.len] at hlen
  obtain ⟨hm,hd,ht⟩ := @RxBuf.pullTail_getD f.buf 8 (by omega)
  have hcut : ((f.buf.pullTail 8).getD f.buf).payload =
      hdr ++ iv ++ body ++ ((micInput f.buf.ptr body (UInt8.ofNat f.attrib.priority)).mic key ++ icv).take
        icv.length := by
    have htake : ((f.buf.pullTail 8).getD f.buf).payload = f.buf.payload.take (f.buf.tail - 8 - f.buf.data) := by
      rw [RxBuf.payload, RxBuf.len, hm, hd, ht, RxBuf.payload, RxBuf.len, slice, slice, List.take_take,
        Nat.min_eq_left (by omega)]
    have hn : f.buf.tail - 8 - f.buf.data = (hdr ++ iv ++ body).length + icv.length := by
      simp only [List.length_append]
      omega
    rw [htake, h, hn, ← List.append_assoc, ← List.append_assoc, List.append_assoc (hdr ++ iv ++ body),
      List.take_length_add_append]
  have hfinal := payload_dropIcv (f := { f with buf := (f.buf.pullTail 8).getD f.buf }) hcut (by
    rw [List.length_take, List.length_append, length_mic, htkip, if_pos (by decide)]
    dsimp only
    omega)
  rw [hfinal, payloadOffset, ← hhdr, ← hiv, ← List.length_append, List.drop_left]

end Michael

/-- A part of a fragment, where it lies in the buffer -/
theorem InBuffer.part {mem x y z : List UInt8} {t : TxFragment} (h : InBuffer mem [t]) (ht : t.bytes = x ++ y ++ z) :
    slice mem (t.start + x.length) y.length = y := by
  have hbytes := h t (List.mem_singleton_self t)
  have hlen : x.length + y.length ≤ t.bytes.length := by
    rw [ht]
    simp
  rw [← slice_slice hlen, hbytes, ht]
  exact slice_middle rfl rfl

section Sender
variable {sec : SecurityPriv} {a : PktAttrib} {fragLen hw : ℕ} {mem : List UInt8} {t : TxFragment}

def fragmentKey (sec : SecurityPriv) (a : PktAttrib) (iv : List UInt8) : List UInt8 :=
  tkipRc4Key (if isMcast a.ra then sec.dot118021XGrpKey sec.dot118021XGrpKeyid else a.dot118021xUncstKey) a.ta iv

/-- The only fragment of a packet, with room for the MIC behind it -/
structure OnlyFragment (a : PktAttrib) (hw : ℕ) (mem : List UInt8) (t : TxFragment) : Prop where
  encrypt : a.encrypt = .tkip
  bswenc : a.bswenc = true
  aligned : (hw : ℤ) % 4 = 0
  start : t.start = hw
  hdr : t.hdr.length = a.hdrlen
  hdrMin : 24 ≤ a.hdrlen
  iv : t.iv.length = 8
  ivLen : a.ivLen = 8
  icv : t.icv.length = 4
  icvLen : a.icvLen = 4
  buffer : InBuffer mem [t]
  room : t.start + t.bytes.length + 8 ≤ mem.length

variable (h : OnlyFragment a hw mem t)
include h

theorem OnlyFragment.lastTxcmdsz : (lastTxcmdsz a [t] : ℤ) = a.hdrlen + 8 + 4 + t.body.length := by
  simp [Rtl8188fu.lastTxcmdsz, swIcvLen, h.bswenc, h.ivLen, h.icvLen]

theorem OnlyFragment.addmicVisits :
    addmicVisits a fragLen (Rtl8188fu.lastTxcmdsz a [t]) 1 hw = [fragmentParts hw a.hdrlen 8 t.body.length] := by
  simp only [Rtl8188fu.addmicVisits, ↓reduceIte, rnd4Addr_of_mod h.aligned, h.lastTxcmdsz, h.ivLen,
    swIcvLen, h.bswenc, h.icvLen]
  congr 2
  push_cast
  ring

theorem OnlyFragment.encryptVisits (m : List UInt8) :
    encryptVisits a m fragLen (Rtl8188fu.lastTxcmdsz a [t] + 8) 1 hw =
      [fragmentParts hw a.hdrlen 8 (t.body.length + 8)] := by
  have hparts : ∀ n, cipherParts a m hw n = fragmentParts hw a.hdrlen a.ivLen n := by
    intro n
    rw [cipherParts, h.encrypt]
  simp only [Rtl8188fu.encryptVisits, ↓reduceIte, hparts, h.lastTxcmdsz, h.ivLen, h.icvLen]
  congr 2
  push_cast
  ring

theorem OnlyFragment.parts :
    slice mem hw (a.hdrlen + 8) = t.hdr ++ t.iv ∧ slice mem (hw + (a.hdrlen + 8)) t.body.length = t.body ∧
      slice mem (hw + a.hdrlen) 8 = t.iv ∧ hw + (a.hdrlen + 8) + t.body.length + 12 ≤ mem.length := by
  have hroom := h.room
  simp only [TxFragment.bytes, List.length_append, h.hdr, h.iv, h.icv, h.start] at hroom
  have h1 := h.buffer.part (x := []) (y := t.hdr ++ t.iv) (z := t.body ++ t.icv) (by simp [TxFragment.bytes])
  have h2 := h.buffer.part (x := t.hdr ++ t.iv) (y := t.body) (z := t.icv) (by simp [TxFragment.bytes])
  have h3 := h.buffer.part (x := t.hdr) (y := t.iv) (z := t.body ++ t.icv) (by simp [TxFragment.bytes])
  simp only [List.length_append, h.hdr, h.iv, h.start, List.length_nil, Nat.add_zero] at h1 h2 h3
  exact ⟨h1,h2,h3,by omega⟩

theorem OnlyFragment.txMicInput :
    txMicInput a fragLen hw [t] mem = micInput (t.hdr ++ t.iv) t.body (micPriority a) := by
  obtain ⟨hhead,hbody,-,hroom⟩ := h.parts
  have hdata : micData mem [fragmentParts hw a.hdrlen 8 t.body.length] = t.body := by
    have hat : ((hw : ℤ) + a.hdrlen + 8).toNat = hw + (a.hdrlen + 8) := by omega
    simp [micData, fragmentParts, hat, hbody]
  have hmin := h.hdrMin
  have htake : (mem.drop hw).take 30 = (t.hdr ++ t.iv).take 30 := by
    rw [← hhead, slice, List.take_take, Nat.min_eq_left (by omega)]
  rw [Rtl8188fu.txMicInput, List.length_singleton, h.addmicVisits, hdata]
  exact micInput_congr htake _ _

/-- What goes out: the payload with its MIC and their check value, encrypted -/
theorem OnlyFragment.sent {sent : List UInt8} (hsent : tkipProtect sec a fragLen hw [t] mem = some sent) :
    sentFragments sent [t] = [t.hdr ++ t.iv ++ arcfourEncrypt (arcfourInit (fragmentKey sec a t.iv) 16)
      (t.body ++ (micInput (t.hdr ++ t.iv) t.body (micPriority a)).mic (txMicKey sec a) ++
        crcBytes (t.body ++ (micInput (t.hdr ++ t.iv) t.body (micPriority a)).mic (txMicKey sec a)))] := by
  obtain ⟨hhead,hbody,hiv,hroom⟩ := h.parts
  have htx := @OnlyFragment.txMicInput a fragLen hw mem t h
  rw [Rtl8188fu.txMicInput, List.length_singleton, h.addmicVisits] at htx
  obtain ⟨mic,hmicdef⟩ :
      ∃ m, (micInput (t.hdr ++ t.iv) t.body (micPriority a)).mic (txMicKey sec a) = m := ⟨_,rfl⟩
  have hmic : mic.length = 8 := hmicdef ▸ length_mic _ _
  have hplace : micPlace hw [fragmentParts hw a.hdrlen 8 t.body.length] = hw + (a.hdrlen + 8) + t.body.length := by
    simp only [micPlace, fragmentParts, List.getLast?_singleton, Option.map_some, Option.getD_some]
    omega
  rw [tkipProtect, xmitframeAddmic, if_pos h.encrypt] at hsent
  split at hsent
  · cases hsent
  · dsimp only at hsent
    rw [List.length_singleton, h.addmicVisits, rtwSeccalctkipmic_eq, htx, hmicdef, hplace] at hsent
    obtain ⟨mem1,hmem1⟩ : ∃ m, patch mem (hw + (a.hdrlen + 8) + t.body.length) mic = m := ⟨_,rfl⟩
    rw [hmem1] at hsent
    have hlen1 : mem1.length = mem.length := hmem1 ▸ length_patch _ _ _
    have hhead1 : slice mem1 hw (a.hdrlen + 8) = t.hdr ++ t.iv := by
      rw [← hmem1, slice_patch_below (by omega), hhead]
    have hiv1 : slice mem1 (hw + a.hdrlen) 8 = t.iv := by
      rw [← hmem1, slice_patch_below (by omega), hiv]
    have hpay1 : slice mem1 (hw + (a.hdrlen + 8)) (t.body.length + 8) = t.body ++ mic := by
      have hb : slice mem1 (hw + (a.hdrlen + 8)) t.body.length = t.body := by
        rw [← hmem1, slice_patch_below (Nat.le_refl _), hbody]
      have hm : slice mem1 (hw + (a.hdrlen + 8) + t.body.length) 8 = mic := by
        rw [← hmem1]
        exact slice_patch_of_length hmic (by omega)
      rw [← slice_append_slice, hb, hm]
    have hkey : ∀ tk, tkipRc4Key tk a.ta (mem1.drop (hw + a.hdrlen)) = tkipRc4Key tk a.ta t.iv := by
      intro tk
      apply tkipRc4Key_congr
      rw [List.take_of_length_le (Nat.le_of_eq h.iv)]
      exact hiv1
    have hat : ((hw : ℤ) + a.hdrlen + 8).toNat = hw + (a.hdrlen + 8) := by omega
    have hativ : ((hw : ℤ) + a.hdrlen).toNat = hw + a.hdrlen := by omega
    have hatlen : ((t.body.length : ℤ) + 8).toNat = t.body.length + 8 := by omega
    cases hsent
    rw [rtwTkipEncrypt, h.encryptVisits]
    simp only [List.foldl_cons, List.foldl_nil, tkipEncryptFragment, fragmentParts, hat, hativ, hatlen, hpay1, hkey]
    rw [← fragmentKey, hmicdef]
    obtain ⟨enc,henc⟩ : ∃ e, arcfourEncrypt (arcfourInit (fragmentKey sec a t.iv) 16)
        (t.body ++ mic ++ crcBytes (t.body ++ mic)) = e := ⟨_,rfl⟩
    have henclen : enc.length = t.body.length + 12 := by
      rw [← henc, length_arcfourEncrypt]
      simp [hmic]
    rw [henc, sentFragments]
    congr 1
    have hn : t.bytes.length + 8 = a.hdrlen + 8 + (t.body.length + 12) := by
      simp only [TxFragment.bytes, List.length_append, h.hdr, h.iv, h.icv]
      omega
    rw [h.start, hn, ← slice_append_slice]
    congr 1
    · rw [slice_patch_below (Nat.le_refl _), hhead1]
    · rw [slice_patch_of_length henclen (by omega)]

end Sender

section Receiver
variable {tx rx : SecurityPriv} {stapriv : StaPriv} {a : PktAttrib} (hkeys : KeysShared tx a rx stapriv)
include hkeys

/-- The receiver decrypts with the key of the sender. -/
theorem KeysShared.prwskey {f : RecvFrame} (hra : f.attrib.ra = a.ra) (hta : f.attrib.ta = a.ta)
    (hidx : isMcast a.ra = true → f.attrib.keyIndex = a.keyIdx % 4) :
    prwskey rx stapriv false f =
      some (if isMcast a.ra then tx.dot118021XGrpKey tx.dot118021XGrpKeyid else a.dot118021xUncstKey) := by
  obtain ⟨sta,hsta,huncst⟩ := hkeys.peer
  have hlookup : rtwGetStainfo stapriv a.ta = some sta := hsta
  rw [Rtl8188fu.prwskey, hta, hlookup, hra]
  dsimp only
  cases hmc : isMcast a.ra with
  | false => simp [(huncst hmc).1]
  | true =>
    obtain ⟨hinst,hkey,-⟩ := hkeys.group hmc
    simp [hinst, hidx hmc, hkey]

/-- The receiver checks with the Michael key of the sender. -/
theorem KeysShared.rxMicKey {f : RecvFrame} (hra : f.attrib.ra = a.ra) (hta : f.attrib.ta = a.ta)
    (hidx : isMcast a.ra = true → f.attrib.keyIndex = a.keyIdx % 4) :
    rxMicKey rx stapriv f = some (some (txMicKey tx a)) := by
  obtain ⟨sta,hsta,huncst⟩ := hkeys.peer
  have hlookup : rtwGetStainfo stapriv a.ta = some sta := hsta
  rw [Rtl8188fu.rxMicKey, hta, hlookup, hra, txMicKey]
  cases hmc : isMcast a.ra with
  | false => simp [(huncst hmc).2]
  | true =>
    obtain ⟨hinst,-,hkey⟩ := hkeys.group hmc
    simp [hinst, hidx hmc, hkey]

omit hkeys in
theorem setKeyIndex_tkip {f : RecvFrame} (htkip : f.attrib.encrypt = .tkip) (sec : SecurityPriv) :
    setKeyIndex sec f = { f with
      attrib := { f.attrib with keyIndex := (byteAt f.buf.ptr (f.attrib.hdrlen + 3)).toNat / 64 } } := by
  have hlt := byteAt_lt f.buf.ptr (f.attrib.hdrlen + 3)
  rw [setKeyIndex, if_neg (by rw [htkip]; decide)]
  dsimp only
  rw [if_neg (by rw [WEP_KEYS]; omega)]

/-- The header as the receiver parses it -/
structure ParsedLink (a : PktAttrib) (p : RecvFrame) : Prop where
  hdrlen : p.attrib.hdrlen = a.hdrlen
  ra : p.attrib.ra = a.ra
  ta : p.attrib.ta = a.ta
  mfrag : p.attrib.mfrag = false
  fragNum : p.attrib.fragNum = 0

/-- The fragment is decrypted, its check value is right, and it is a whole packet. -/
theorem receiveFragment_whole {hdr iv plain : List UInt8} {f : RecvFrame}
    (hf : TkipArrival (hdr ++ iv ++ arcfourEncrypt (arcfourInit (fragmentKey tx a iv) 16) (plain ++ crcBytes plain)) f)
    (hp : ParsedLink a (parseDataHdr f)) (hhdr : hdr.length = a.hdrlen) (hiv : iv.length = 8)
    (hidx : (byteAt iv 3).toNat / 64 = if isMcast a.ra then a.keyIdx % 4 else 0) :
    ∃ g, receiveFragments rx stapriv [] [f] = [g] ∧ g.buf.payload = hdr ++ iv ++ (plain ++ crcBytes plain) ∧
      g.attrib = { (parseDataHdr f).attrib with keyIndex := (byteAt iv 3).toNat / 64, bdecrypted := true } := by
  obtain ⟨p,hpdef⟩ : ∃ p, parseDataHdr f = p := ⟨_,rfl⟩
  have hbuf : p.buf = f.buf := by rw [← hpdef]; rfl
  have hdec : p.attrib.bdecrypted = false := by rw [← hpdef]; exact hf.bdecrypted
  have htkip : p.attrib.encrypt = .tkip := by rw [← hpdef]; exact hf.encrypt
  have hivlen : p.attrib.ivLen = 8 := by rw [← hpdef]; exact hf.ivLen
  rw [hpdef] at hp
  have hpay := hf.payload
  rw [← hbuf] at hpay
  have htake := take_iv hpay (hhdr.trans hp.hdrlen.symm) hiv
  have hbyte : byteAt p.buf.ptr (p.attrib.hdrlen + 3) = byteAt iv 3 := by
    rw [← byteAt_drop]
    exact byteAt_congr htake (by decide)
  have hset := setKeyIndex_tkip htkip rx
  rw [hbyte] at hset
  obtain ⟨q,hq⟩ :
      ∃ q, ({ p with attrib := { p.attrib with keyIndex := (byteAt iv 3).toNat / 64 } } : RecvFrame) = q :=
    ⟨_,rfl⟩
  have hqbuf : q.buf = p.buf := by rw [← hq]
  have hqattr : q.attrib = { p.attrib with keyIndex := (byteAt iv 3).toNat / 64 } := by rw [← hq]
  rw [hq] at hset
  have hkey := hkeys.prwskey (f := q) (by rw [hqattr]; exact hp.ra) (by rw [hqattr]; exact hp.ta) (by
    intro hmc
    rw [hqattr]
    simpa [hmc] using hidx)
  have hrc4 : tkipRc4Key (if isMcast a.ra then tx.dot118021XGrpKey tx.dot118021XGrpKeyid else a.dot118021xUncstKey)
      q.attrib.ta (q.buf.ptr.drop q.attrib.hdrlen) = fragmentKey tx a iv := by
    rw [hqbuf, hqattr, fragmentKey]
    dsimp only
    rw [hp.ta]
    exact tkipRc4Key_congr htake _ _
  have hqhdr : hdr.length = q.attrib.hdrlen := by rw [hqattr, hhdr]; exact hp.hdrlen.symm
  have hqiv : iv.length = q.attrib.ivLen := by rw [hqattr, hiv]; exact hivlen.symm
  have hqpay : q.buf.payload = _ := hqbuf ▸ hpay
  have hplain := rc4Decrypt_payload hqpay (length_tkipRc4Key _ _ _) hqhdr hqiv
  have hlong : ¬ q.buf.len < payloadOffset q := by
    have hlen := q.buf.length_payload
    rw [hqpay] at hlen
    simp only [List.length_append] at hlen
    rw [payloadOffset]
    omega
  have hcompare := icvCompare_of_payload (f := rc4Decrypt (fragmentKey tx a iv) q) hplain hqhdr hqiv
  have hdecrypt : decryptor rx stapriv p = some ⟨.success, { rc4Decrypt (fragmentKey tx a iv) q with
      attrib := { q.attrib with bdecrypted := true } },false⟩ := by
    have hsw : p.attrib.encrypt ≠ .noPrivacy ∧ (p.attrib.bdecrypted = false ∨ rx.swDecrypt = true) := by
      rw [htkip]
      exact ⟨nofun,Or.inl hdec⟩
    have hq' : q.attrib.encrypt = .tkip := by rw [hqattr]; exact htkip
    have hsoft : softwareDecrypt rx stapriv q = some (.success,rc4Decrypt (fragmentKey tx a iv) q) := by
      rw [softwareDecrypt, hq']
      dsimp only
      rw [rtwTkipDecrypt, if_pos hq', hkey]
      dsimp only
      rw [if_neg hlong, hrc4, hcompare]
      rfl
    rw [decryptor]
    dsimp only
    rw [if_pos hsw, if_pos hsw, hset, hsoft]
    rfl
  refine ⟨{ rc4Decrypt (fragmentKey tx a iv) q with attrib := { q.attrib with bdecrypted := true } },?_,hplain,?_⟩
  · have hmfrag : q.attrib.mfrag = false := by rw [hqattr]; exact hp.mfrag
    have hfrag : q.attrib.fragNum = 0 := by rw [hqattr]; exact hp.fragNum
    have hqueue : chkDefragQueue (some []) { rc4Decrypt (fragmentKey tx a iv) q with
        attrib := { q.attrib with bdecrypted := true } } =
          ⟨some [],some { rc4Decrypt (fragmentKey tx a iv) q with attrib := { q.attrib with bdecrypted := true }
            },[],[]⟩ := by
      simp only [chkDefragQueue, hmfrag, hfrag]
    rw [receiveFragments, receiveFragments, receiveFragment, hpdef, hdecrypt]
    dsimp only
    rw [if_neg nofun, hqueue]
    rfl
  · rw [hqattr, hpdef]

end Receiver

end Rtl8188fu

import Rtl8188fu.Ieee80211.DelP2pAttr
import Rtl8188fu.P2p.AttrCopies
import Rtl8188fu.Recv.Mgmt

/-! # Looking into received P2P frames

`rtw_p2p_check_frames` with `tx` false and `dump_p2p_attr_ch_list`, with debug messages compiled out. What is
logged are the bytes of the frame that are read, the values taken from attributes, and what is stored in the two
local arrays. What the functions keep is in their result. A place behind the frame reads as zero.
-/
namespace Rtl8188fu
open Bytes Logged

def ACT_PUBLIC_VENDOR : UInt8 := 9
def P2P_GO_NEGO_REQ : UInt8 := 0
def P2P_GO_NEGO_RESP : UInt8 := 1
def P2P_GO_NEGO_CONF : UInt8 := 2
def P2P_INVIT_REQ : UInt8 := 3
def P2P_INVIT_RESP : UInt8 := 4
def P2P_DEVDISC_RESP : UInt8 := 6
def P2P_PROVISION_DISC_REQ : UInt8 := 7
def P2P_ATTR_INVITATION_FLAGS : UInt8 := 0x12
def CH_LIST_SIZE : ℕ := 40
def CH_LIST_BUF_SIZE : ℕ := 128
def INT_MAX : ℕ := 2 ^ 31 - 1

/-- The attribute that `rtw_get_p2p_attr_content` finds -/
structure FoundAttr where
  /-- the place of the content -/
  cont : ℕ
  /-- the length that the header announces -/
  dataLen : ℕ
  /-- how much of the element is behind the header -/
  room : ℕ

inductive P2pLook where
  | read (place : ℕ)
  /-- a value is the byte of the content at this offset -/
  | taken (attr : FoundAttr) (off : ℕ)
  /-- a channel is stored at `ch_list[i]` -/
  | channel (i : ℕ)
  /-- `n` bytes are stored in the text buffer from `pos` on -/
  | text (pos n : ℕ)

/-- It stays inside the frame, the attribute or the array. -/
def P2pLook.Inside (frameLen : ℕ) : P2pLook → Prop
  | .read place => place < frameLen
  | .taken attr off => off < attr.dataLen ∧ attr.dataLen ≤ attr.room
  | .channel i => i < CH_LIST_SIZE
  | .text pos n => n = 0 ∨ pos + n ≤ CH_LIST_BUF_SIZE

structure WdevNegoInfo where
  state : UInt8
  peerMac : List UInt8
  active : UInt8
  token : UInt8
  status : UInt8
  reqIntent : UInt8
  reqOpCh : UInt8
  reqListenCh : UInt8
  rspIntent : UInt8
  rspOpCh : UInt8
  confOpCh : UInt8

def WdevNegoInfo.init : WdevNegoInfo := ⟨0xff,List.replicate 6 0,0xff,0,0xff,0xff,0,0,0xff,0,0⟩

structure WdevInvitInfo where
  state : UInt8
  peerMac : List UInt8
  active : UInt8
  token : UInt8
  flags : UInt8
  status : UInt8
  reqOpCh : UInt8
  rspOpCh : UInt8

def WdevInvitInfo.init : WdevInvitInfo := ⟨0xff,List.replicate 6 0,0xff,0,0,0xff,0,0⟩

/-- What the functions keep in `struct rtw_wdev_priv` -/
structure P2pWdev where
  provdiscReqIssued : Bool
  invitInfo : WdevInvitInfo
  negoInfo : WdevNegoInfo

/-- The attribute at `p` in the element -/
def foundAttr (buf : List UInt8) (p2pIe : ℕ × ℕ) (p : ℕ) : FoundAttr :=
  ⟨p2pIe.1 + p + 3,le16At (buf.drop p2pIe.1) (p + 1),p2pIe.2 - (p + 3)⟩

/-- `rtw_get_p2p_attr_content(p2p_ie, p2p_ielen, id, NULL, &cont_len)` -/
def attrContentIn (buf : List UInt8) (p2pIe : Option (ℕ × ℕ)) (id : UInt8) : Logged P2pLook (Option FoundAttr) :=
  match p2pIe with
  | none => ret none
  | some e => ((p2pAttrFrom buf e.1 e.2 id).mapLog .read).andThen fun p =>
      ret ((p.map (foundAttr buf e)).filter fun a => attrTotal 3 a.dataLen ≠ 0)

/-- `if ((cont = rtw_get_p2p_attr_content(...))) v = *(cont+off)`, for a `v` that the attribute is there for -/
def attrByte (buf : List UInt8) (p2pIe : Option (ℕ × ℕ)) (id : UInt8) (off : ℕ) :
    Logged P2pLook (Option UInt8) :=
  (attrContentIn buf p2pIe id).andThen fun
  | none => ret none
  | some a => ⟨[.read (a.cont + off),.taken a off],some (some (byteAt buf (a.cont + off)))⟩

/-- `flags = *cont` -/
def invitationFlags (buf : List UInt8) (p2pIe : Option (ℕ × ℕ)) : Logged P2pLook (Option UInt8) :=
  (attrContentIn buf p2pIe P2P_ATTR_INVITATION_FLAGS).andThen fun
  | none => ret none
  | some a => ⟨[.read a.cont],some (some (byteAt buf a.cont))⟩

/-- One turn of the loop over the channels of an entry; `ch_cnt` is the length of the list. -/
def chListTake (buf : List UInt8) (chList : List UInt8) (place : ℕ) : Logged P2pLook (List UInt8) :=
  if byteAt buf place ∈ chList then ⟨[.read place],some chList⟩
  else ⟨[.read place,.channel chList.length],some (chList ++ [byteAt buf place])⟩

def chListTakes (buf : List UInt8) : List ℕ → List UInt8 → Logged P2pLook (List UInt8)
  | [], chList => ret chList
  | p :: ps, chList => (chListTake buf chList p).andThen fun chList => chListTakes buf ps chList

/-- The loop over the entries; `attr_contentlen` is an `uint`. -/
def chListEntries (buf : List UInt8) : ℕ → ℕ → ℕ → List UInt8 → Logged P2pLook (List UInt8)
  | 0, _, _, _ => stop
  | fuel + 1, pattr, attrContentlen, chList =>
    if attrContentlen = 0 then ret chList
    else
      let numOfCh := (byteAt buf (pattr + 1)).toNat
      (emit [.read (pattr + 1)]).andThen fun _ =>
        (chListTakes buf (List.range' (pattr + 2) numOfCh) chList).andThen fun chList =>
          chListEntries buf fuel (pattr + (2 + numOfCh)) (uintSub attrContentlen (2 + numOfCh)) chList

/-- `snprintf` of `n` characters: how many bytes it stores and what it returns. That of the kernel refuses a size
above `INT_MAX`, that of ISO C does not. -/
def snprintf (refuses : Bool) (size n : ℕ) : ℕ × ℕ :=
  if refuses = true ∧ INT_MAX < size then (0,0) else (min (n + 1) size,n)

/-- What is formatted for `ch_list[j]`, which is nothing inside a run -/
def chText (chList : List UInt8) (j : ℕ) : Option (List Char) :=
  let ch := (byteAt chList j).toNat
  if j = 0 then some (Nat.toDigits 10 ch)
  else if ch ≠ (byteAt chList (j - 1)).toNat + 1 then some (',' :: ' ' :: Nat.toDigits 10 ch)
  else if j ≠ chList.length - 1 ∧ (byteAt chList (j + 1)).toNat = ch + 1 then none
  else some ('-' :: Nat.toDigits 10 ch)

/-- The loop that formats the channels, over the `j` that are left -/
def chListPrint (refuses : Bool) (chList : List UInt8) : List ℕ → ℕ → Logged P2pLook Unit
  | [], _ => ret ()
  | j :: js, wSz =>
    match chText chList j with
    | none => chListPrint refuses chList js wSz
    | some cs =>
      let r := snprintf refuses (uintSub CH_LIST_BUF_SIZE wSz) cs.length
      (emit [.text wSz r.1]).andThen fun _ => chListPrint refuses chList js (wSz + r.2)

def dumpP2pAttrChList (refuses : Bool) (fuel : ℕ) (buf : List UInt8) (p2pIe : Option (ℕ × ℕ)) :
    Logged P2pLook Unit :=
  (attrContentIn buf p2pIe P2P_ATTR_CH_LIST).andThen fun
  | none => ret ()
  | some a => (chListEntries buf fuel (a.cont + 3) (uintSub (contentLen 3 a.dataLen) 3) []).andThen fun chList =>
      chListPrint refuses chList (List.range chList.length) 0

/-- The `int` as an `u8`, where -1 stands for none -/
def u8OfInt (v : Option UInt8) : UInt8 := v.getD 0xff

def addr2 (buf : List UInt8) : List UInt8 := slice buf 10 6

def addr2Reads : List P2pLook := (List.range' 10 6).map .read

/-- Whether a response fits what is kept of the request -/
def peerReads (known : Bool) : Logged P2pLook Unit := emit (if known then addr2Reads else [])

section Subtypes
variable (refuses : Bool) (fuel : ℕ) (buf : List UInt8) (p2pIe : Option (ℕ × ℕ)) (dialogToken : UInt8)
  (w : P2pWdev)

def rxGoNegoReq : Logged P2pLook P2pWdev :=
  (attrByte buf p2pIe P2P_ATTR_OPERATING_CH 4).andThen fun opCh =>
  (attrByte buf p2pIe P2P_ATTR_LISTEN_CH 4).andThen fun listenCh =>
  (attrByte buf p2pIe P2P_ATTR_GO_INTENT 0).andThen fun intent =>
  let nego := if w.negoInfo.token ≠ dialogToken then WdevNegoInfo.init else w.negoInfo
  (emit addr2Reads).andThen fun _ =>
  (dumpP2pAttrChList refuses fuel buf p2pIe).andThen fun _ =>
  ret { w with
    negoInfo := { nego with
      peerMac := addr2 buf
      active := 0
      token := dialogToken
      reqOpCh := u8OfInt opCh
      reqListenCh := u8OfInt listenCh
      reqIntent := intent.getD 0
      state := 0 } }

def rxGoNegoResp : Logged P2pLook P2pWdev :=
  (attrByte buf p2pIe P2P_ATTR_OPERATING_CH 4).andThen fun opCh =>
  (attrByte buf p2pIe P2P_ATTR_GO_INTENT 0).andThen fun intent =>
  (attrByte buf p2pIe P2P_ATTR_STATUS 0).andThen fun status =>
  let known : Bool := w.negoInfo.token = dialogToken ∧ w.negoInfo.state = 0
  let nego :=
    if known = true ∧ w.negoInfo.peerMac = addr2 buf then
      { w.negoInfo with
        status := u8OfInt status
        rspOpCh := u8OfInt opCh
        rspIntent := intent.getD 0
        state := 1
        token := if status ≠ some 0 then 0 else w.negoInfo.token }
    else w.negoInfo
  (peerReads known).andThen fun _ =>
  (dumpP2pAttrChList refuses fuel buf p2pIe).andThen fun _ =>
  ret { w with negoInfo := nego, provdiscReqIssued := false }

/-- `is_go` is not used. -/
def rxGoNegoConf : Logged P2pLook P2pWdev :=
  (attrByte buf p2pIe P2P_ATTR_OPERATING_CH 4).andThen fun opCh =>
  (attrByte buf p2pIe P2P_ATTR_STATUS 0).andThen fun status =>
  let known : Bool := w.negoInfo.token = dialogToken ∧ w.negoInfo.state = 1
  let nego :=
    if known = true ∧ w.negoInfo.peerMac = addr2 buf then
      { w.negoInfo with status := u8OfInt status, confOpCh := opCh.getD 0, state := 2, token := 0 }
    else w.negoInfo
  (peerReads known).andThen fun _ =>
  (dumpP2pAttrChList refuses fuel buf p2pIe).andThen fun _ =>
  ret { w with negoInfo := nego }

def rxInvitReq : Logged P2pLook P2pWdev :=
  (invitationFlags buf p2pIe).andThen fun flags =>
  (attrByte buf p2pIe P2P_ATTR_OPERATING_CH 4).andThen fun opCh =>
  let invit := if w.invitInfo.token ≠ dialogToken then WdevInvitInfo.init else w.invitInfo
  (emit addr2Reads).andThen fun _ =>
  (dumpP2pAttrChList refuses fuel buf p2pIe).andThen fun _ =>
  ret { w with
    invitInfo := { invit with
      peerMac := addr2 buf
      active := 0
      token := dialogToken
      flags := flags.getD 0
      reqOpCh := u8OfInt opCh
      state := 0 } }

def rxInvitResp : Logged P2pLook P2pWdev :=
  (attrByte buf p2pIe P2P_ATTR_STATUS 0).andThen fun status =>
  (attrByte buf p2pIe P2P_ATTR_OPERATING_CH 4).andThen fun opCh =>
  let known : Bool := w.invitInfo.token = dialogToken ∧ w.invitInfo.state = 0
  let invit :=
    if known = true ∧ w.invitInfo.peerMac = addr2 buf then
      { w.invitInfo with status := u8OfInt status, rspOpCh := u8OfInt opCh, state := 1, token := 0 }
    else w.invitInfo
  (peerReads known).andThen fun _ =>
  (dumpP2pAttrChList refuses fuel buf p2pIe).andThen fun _ =>
  ret { w with invitInfo := invit }

/-- The P2P element is searched for once more. -/
def rxProvisionDiscReq (search : Logged P2pLook (Option (ℕ × ℕ))) : Logged P2pLook P2pWdev :=
  search.andThen fun
  | none => ret { w with provdiscReqIssued := false }
  | some e => (attrContentIn buf (some e) P2P_ATTR_GROUP_ID).andThen fun a =>
      ret { w with provdiscReqIssued := a.isNone }

end Subtypes

/-- `rtw_get_p2p_ie` on what is behind the fixed fields; its length argument is an `int`. -/
def frameP2pIe (buf : List UInt8) : Logged P2pLook (Option (ℕ × ℕ)) :=
  let ies := WLAN_HDR_A3_LEN + _PUBLIC_ACTION_IE_OFFSET_
  (emit (if 2 ^ 31 ≤ buf.length - ies then []
    else (p2pIeFrom buf ies (buf.length - ies)).log.map .read)).andThen fun _ =>
    ret (nextP2pIe buf buf.length ies)

/-- The switch over `OUI_Subtype` -/
def checkPublicFrame (refuses : Bool) (fuel : ℕ) (w : P2pWdev) (buf : List UInt8) (subtype dialogToken : UInt8) :
    Logged P2pLook P2pWdev :=
  (frameP2pIe buf).andThen fun p2pIe =>
  if subtype = P2P_GO_NEGO_REQ then rxGoNegoReq refuses fuel buf p2pIe dialogToken w
  else if subtype = P2P_GO_NEGO_RESP then rxGoNegoResp refuses fuel buf p2pIe dialogToken w
  else if subtype = P2P_GO_NEGO_CONF then rxGoNegoConf refuses fuel buf p2pIe dialogToken w
  else if subtype = P2P_INVIT_REQ then rxInvitReq refuses fuel buf p2pIe dialogToken w
  else if subtype = P2P_INVIT_RESP then rxInvitResp refuses fuel buf p2pIe dialogToken w
  else if subtype = P2P_DEVDISC_RESP then (attrContentIn buf p2pIe P2P_ATTR_STATUS).andThen fun _ => ret w
  else if subtype = P2P_PROVISION_DISC_REQ then rxProvisionDiscReq buf w (frameP2pIe buf)
  else ret w

/-- `rtw_p2p_check_frames(padapter, buf, len, _FALSE)` on all the bytes of a frame: what is kept, and the subtype
when it is a P2P frame -/
def rtwP2pCheckFrames (refuses : Bool) (fuel : ℕ) (w : P2pWdev) (buf : List UInt8) :
    Logged P2pLook (P2pWdev × Option UInt8) :=
  let body := WLAN_HDR_A3_LEN
  (emit [.read body]).andThen fun _ =>
  if byteAt buf body = RTW_WLAN_CATEGORY_PUBLIC then
    (emit [.read (body + 1)]).andThen fun _ =>
    if byteAt buf (body + 1) = ACT_PUBLIC_VENDOR then
      (emit ((List.range' (body + 2) 4).map .read)).andThen fun _ =>
      if slice buf (body + 2) 4 = P2P_OUI then
        let subtype := byteAt buf (body + 6)
        (emit [.read (body + 6),.read (body + 7)]).andThen fun _ =>
        (checkPublicFrame refuses fuel w buf subtype (byteAt buf (body + 7))).andThen fun w => ret (w,some subtype)
      else ret (w,none)
    else ret (w,none)
  else if byteAt buf body = RTW_WLAN_CATEGORY_P2P then
    (emit [.read (body + 5),.read (body + 6)]).andThen fun _ => ret (w,some (byteAt buf (body + 5)))
  else ret (w,none)

/-- A frame that holds the fixed fields of a P2P action frame; those of its own category have no action byte. -/
structure P2pActionFrame where
  bytes : List UInt8
  fixed : 32 ≤ bytes.length ∨ byteAt bytes 24 = RTW_WLAN_CATEGORY_P2P ∧ 31 ≤ bytes.length
  /-- `len` is an `u32`. -/
  short : bytes.length < 2 ^ 32

/-- The inspection returns and stays inside. -/
def InspectionContained (refuses : Bool) (w : P2pWdev) (f : P2pActionFrame) : Prop :=
  ∃ fuel, Completes (P2pLook.Inside f.bytes.length) (rtwP2pCheckFrames refuses fuel w f.bytes)

/-- The attribute that the search finds, unless it announces 65533 bytes -/
def FoundIn (buf : List UInt8) (e : ℕ × ℕ) (id : UInt8) (a : FoundAttr) : Prop :=
  ∃ p, P2pAttrAt ⟨buf.drop e.1,e.2⟩ id p ∧ le16At (buf.drop e.1) (p + 1) ≠ 65533 ∧ a = foundAttr buf e p

/-- Every header that the search comes to is in the frame, and no attribute that it passes over announces 65533
bytes. -/
def SearchFits (buf : List UInt8) (e : ℕ × ℕ) (id : UInt8) : Prop :=
  6 < e.2 → ∀ p, Walker.Passed (fun a => a + attrTotal 3 (le16At (buf.drop e.1) (a + 1)))
      (fun a => (a + 3 ≤ e.2 ∧ a + attrTotal 3 (le16At (buf.drop e.1) (a + 1)) ≤ e.2) ∧
        byteAt (buf.drop e.1) a ≠ id) 6 p →
    p + 3 ≤ e.2 → e.1 + (p + 3) ≤ buf.length ∧ (p + attrTotal 3 (le16At (buf.drop e.1) (p + 1)) ≤ e.2 →
      byteAt (buf.drop e.1) p ≠ id → le16At (buf.drop e.1) (p + 1) ≠ 65533)

/-- In the P2P element, if there is one, the search fits, and so does what it finds. -/
def AttrFits (buf : List UInt8) (p2pIe : Option (ℕ × ℕ)) (id : UInt8) (fits : FoundAttr → Prop) : Prop :=
  ∀ e ∈ p2pIe, SearchFits buf e id ∧ ∀ a, FoundIn buf e id a → fits a

/-- The attribute is complete in its element, has this byte, and the byte is in the frame. -/
def FoundAttr.HasByte (frameLen off : ℕ) (a : FoundAttr) : Prop :=
  (off < a.dataLen ∧ a.dataLen ≤ a.room) ∧ a.cont + off < frameLen

/-- The values that come for the first time, in their order -/
def firstSeen (seen : List UInt8) (xs : List UInt8) : List UInt8 :=
  xs.foldl (fun l x => if x ∈ l then l else l ++ [x]) seen

/-- How many characters are formatted for the first `j` channels -/
def textLength (chList : List UInt8) (j : ℕ) : ℕ :=
  ((List.range j).map fun i => ((chText chList i).getD []).length).sum

/-- No text begins behind the text buffer, or `snprintf` does not print it. -/
def TextFits (refuses : Bool) (chList : List UInt8) : Prop :=
  refuses = true ∨ ∀ j < chList.length, (chText chList j).isSome → textLength chList j ≤ CH_LIST_BUF_SIZE

/-- The attribute is complete in its element. Behind the country string it has complete entries only, all of them in
the frame, with no more different channels than there is room for. -/
def FoundAttr.ListFits (refuses : Bool) (buf : List UInt8) (a : FoundAttr) : Prop :=
  a.dataLen ≤ a.room ∧ ∃ es post, buf.drop (a.cont + 3) = Tlv.flat es ++ post ∧
    a.dataLen = 3 + (Tlv.flat es).length ∧
    (firstSeen [] (channelsOf es)).length ≤ CH_LIST_SIZE ∧ TextFits refuses (firstSeen [] (channelsOf es))

/-- What each subtype asks of the P2P element -/
def SubtypeFits (refuses : Bool) (buf : List UInt8) (p2pIe : Option (ℕ × ℕ)) (subtype : UInt8) : Prop :=
  let hasByte id off := AttrFits buf p2pIe id (FoundAttr.HasByte buf.length off)
  let list := AttrFits buf p2pIe P2P_ATTR_CH_LIST (FoundAttr.ListFits refuses buf)
  if subtype = P2P_GO_NEGO_REQ then
    hasByte P2P_ATTR_OPERATING_CH 4 ∧ hasByte P2P_ATTR_LISTEN_CH 4 ∧ hasByte P2P_ATTR_GO_INTENT 0 ∧ list
  else if subtype = P2P_GO_NEGO_RESP then
    hasByte P2P_ATTR_OPERATING_CH 4 ∧ hasByte P2P_ATTR_GO_INTENT 0 ∧ hasByte P2P_ATTR_STATUS 0 ∧ list
  else if subtype = P2P_GO_NEGO_CONF then hasByte P2P_ATTR_OPERATING_CH 4 ∧ hasByte P2P_ATTR_STATUS 0 ∧ list
  else if subtype = P2P_INVIT_REQ then
    AttrFits buf p2pIe P2P_ATTR_INVITATION_FLAGS (fun a => a.cont < buf.length) ∧
      hasByte P2P_ATTR_OPERATING_CH 4 ∧ list
  else if subtype = P2P_INVIT_RESP then hasByte P2P_ATTR_STATUS 0 ∧ hasByte P2P_ATTR_OPERATING_CH 4 ∧ list
  else if subtype = P2P_DEVDISC_RESP then AttrFits buf p2pIe P2P_ATTR_STATUS fun _ => True
  else if subtype = P2P_PROVISION_DISC_REQ then AttrFits buf p2pIe P2P_ATTR_GROUP_ID fun _ => True
  else True

/-- In a public P2P frame, the first P2P element fits. -/
def InspectedFits (refuses : Bool) (buf : List UInt8) : Prop :=
  byteAt buf 24 = RTW_WLAN_CATEGORY_PUBLIC → byteAt buf 25 = ACT_PUBLIC_VENDOR → slice buf 26 4 = P2P_OUI →
    SubtypeFits refuses buf (nextP2pIe buf buf.length 32) (byteAt buf 30)

section Attr
variable {refuses : Bool} {buf : List UInt8} {e : ℕ × ℕ} {p2pIe : Option (ℕ × ℕ)} {id : UInt8} {off : ℕ}

theorem attrWalker_sound_frame {limit ielen : ℕ} {ie : List UInt8} (p : ℕ) :
    (attrWalker le16At false ie ielen id).Sound limit (fun _ => True) p ↔
      (p + 3 ≤ ielen → p + 3 ≤ limit ∧
        (p + attrTotal 3 (le16At ie (p + 1)) ≤ ielen → byteAt ie p ≠ id → le16At ie (p + 1) ≠ 65533)) := by
  have hzero := attrTotal_eq_zero_iff (show 0 < 3 by decide) (by decide) (le16At_lt ie (p + 1))
  have hreads : (∀ o ∈ (attrWalker le16At false ie ielen id).reads p, o < limit) ↔
      (p + 3 ≤ ielen → p + 3 ≤ limit) := by
    simp only [attrWalker, Bool.false_eq_true, and_false, if_false, List.append_nil]
    split
    · rename_i h3
      simp only [List.mem_range'_1, h3, true_imp_iff]
      exact ⟨fun h => by have := h (p + 2) (by omega); omega,fun h o ho => by omega⟩
    · rename_i h3
      simp [h3]
  constructor
  · intro h h3
    refine ⟨hreads.mp h.reads_lt h3,fun hin hid => ?_⟩
    have hforward := h.forward _ ((attrWalker_goOn p _).mpr ⟨⟨⟨h3,hin⟩,hid⟩,rfl⟩)
    omega
  · intro h
    refine ⟨hreads.mpr fun h3 => (h h3).1,fun _ => trivial,fun c hc => ?_⟩
    obtain ⟨⟨⟨h3,hin⟩,hid⟩,rfl⟩ := (attrWalker_goOn p c).mp hc
    have hne := (h h3).2 hin hid
    omega

theorem p2pAttrFrom_result_iff {p : ℕ} :
    (p2pAttrFrom buf e.1 e.2 id).result = some (some p) ↔ P2pAttrAt ⟨buf.drop e.1,e.2⟩ id p := by
  rw [← rtwGetP2pAttr_found_iff, p2pAttrFrom, Option.map_eq_some_iff]
  constructor
  · rintro ⟨r,hr,hp⟩
    exact ⟨r.2,by rw [hr, ← hp]⟩
  · rintro ⟨reads,hr⟩
    exact ⟨_,hr,rfl⟩

theorem completes_p2pAttrFrom (he : IsP2pIe buf buf.length e) :
    Completes (P2pLook.Inside buf.length) ((p2pAttrFrom buf e.1 e.2 id).mapLog .read) ↔ SearchFits buf e id := by
  have hplace := he.place_lt
  by_cases h6 : e.2 ≤ 6
  · refine iff_of_true ⟨none,?_,?_⟩ fun h => absurd h (Nat.not_lt.mpr h6) <;>
      simp only [mapLog, p2pAttrFrom, rtwGetP2pAttr, getAttr, if_pos h6]
    · rfl
    · exact List.forall_mem_nil _
  · have hcont := @Walker.contained_iff_run (attrWalker le16At false (buf.drop e.1) e.2 id) 6 (e.2 + 1)
        (buf.length - e.1) e.2
      (fun _ => True) (fun b c hc => by have := (attrWalker_goOn b c).mp hc; omega) (Nat.succ_pos _) (by omega)
    have hsound := @Walker.contained_iff (attrWalker le16At false (buf.drop e.1) e.2 id) (buf.length - e.1) e.2
      (fun _ => True) (fun b c hc => by have := (attrWalker_goOn b c).mp hc; omega) 6
    have hget : rtwGetP2pAttr (e.2 + 1) false (buf.drop e.1) e.2 id =
        ((attrWalker le16At false (buf.drop e.1) e.2 id).run (e.2 + 1) 6).map
          fun r => (r.1,0 :: List.range' 2 4 ++ r.2) := by
      rw [rtwGetP2pAttr, getAttr, if_neg h6, vendorAttr, if_neg (not_not_intro he.vendor),
        if_neg (not_not_intro he.oui)]
    simp only [attrWalker_sound_frame, Walker.reach_iff_passed attrWalker_goOn] at hsound
    have hfits : SearchFits buf e id ↔ (attrWalker le16At false (buf.drop e.1) e.2 id).Contained (buf.length - e.1)
        (fun _ => True) 6 := by
      rw [hsound, SearchFits, imp_iff_right (Nat.lt_of_not_le h6)]
      refine forall₃_congr fun p hp h3 => and_congr_left fun _ => by omega
    rw [hfits, hcont]
    simp only [Completes, mapLog, p2pAttrFrom, hget]
    constructor
    · rintro ⟨res,hres,hall⟩
      obtain ⟨r',hr',-⟩ := Option.map_eq_some_iff.mp hres
      obtain ⟨r,hr,-⟩ := Option.map_eq_some_iff.mp hr'
      refine ⟨r,hr,fun o ho => ?_,fun _ _ => trivial⟩
      have hread := hall (.read (e.1 + o)) (by
        simp only [hr, Option.map_some, Option.getD_some]
        exact List.mem_map_of_mem (List.mem_map_of_mem (List.mem_append_right _ ho)))
      change e.1 + o < buf.length at hread
      omega
    · rintro ⟨r,hr,hreads,-⟩
      refine ⟨r.1,by rw [hr]; rfl,?_⟩
      simp only [hr, Option.map_some, Option.getD_some]
      intro look hlook
      obtain ⟨place,hplace',rfl⟩ := List.mem_map.mp hlook
      obtain ⟨o,ho,rfl⟩ := List.mem_map.mp hplace'
      change e.1 + o < buf.length
      rcases List.mem_append.mp ho with ho | ho
      · simp only [List.mem_cons, List.mem_range'_1] at ho
        omega
      · have := hreads o ho
        omega

theorem attrContentIn_some_iff {a : FoundAttr} :
    (attrContentIn buf (some e) id).result = some (some a) ↔ FoundIn buf e id a := by
  have hzero : ∀ p, attrTotal 3 (foundAttr buf e p).dataLen = 0 ↔ le16At (buf.drop e.1) (p + 1) = 65533 := fun p =>
    attrTotal_eq_zero_iff (by decide) (by decide) (le16At_lt _ _)
  simp only [attrContentIn, result_andThen, mapLog, result_ret, Option.bind_eq_some_iff, Option.some.injEq,
    Option.filter_eq_some_iff, Option.map_eq_some_iff, FoundIn]
  constructor
  · rintro ⟨found,hfound,⟨p,rfl,rfl⟩,hne⟩
    simp only [ne_eq, hzero, decide_not, Bool.not_eq_true', decide_eq_false_iff_not] at hne
    exact ⟨p,p2pAttrFrom_result_iff.mp hfound,hne,rfl⟩
  · rintro ⟨p,hat,hne,rfl⟩
    refine ⟨some p,p2pAttrFrom_result_iff.mpr hat,⟨p,rfl,rfl⟩,?_⟩
    simp only [ne_eq, hzero, hne, not_false_eq_true, decide_true]

theorem completes_attrContentIn (he : ∀ e ∈ p2pIe, IsP2pIe buf buf.length e) :
    Completes (P2pLook.Inside buf.length) (attrContentIn buf p2pIe id) ↔ ∀ e ∈ p2pIe, SearchFits buf e id := by
  cases p2pIe with
  | none => exact iff_of_true (completes_ret none) fun e h => by cases h
  | some e =>
    simp only [attrContentIn, Option.mem_def, Option.some.injEq, forall_eq']
    rw [completes_andThen_const fun _ => iff_true_intro (completes_ret _), and_true]
    exact completes_p2pAttrFrom (he e rfl)

theorem completes_onAttr {α : Type} {f : Option FoundAttr → Logged P2pLook α} {fits : FoundAttr → Prop}
    (he : ∀ e ∈ p2pIe, IsP2pIe buf buf.length e) (hnone : Completes (P2pLook.Inside buf.length) (f none))
    (hsome : ∀ e ∈ p2pIe, ∀ a, FoundIn buf e id a → (Completes (P2pLook.Inside buf.length) (f (some a)) ↔
      fits a)) :
    Completes (P2pLook.Inside buf.length) ((attrContentIn buf p2pIe id).andThen f) ↔ AttrFits buf p2pIe id fits := by
  rw [completes_andThen, completes_attrContentIn he]
  cases p2pIe with
  | none =>
    refine iff_of_true ⟨fun e h => (by cases h),fun a ha => ?_⟩ fun e h => by cases h
    cases ha
    exact hnone
  | some e =>
    simp only [AttrFits, Option.mem_def, Option.some.injEq, forall_eq'] at hsome ⊢
    refine and_congr_right fun _ => ⟨fun h a ha => (hsome a ha).mp
      (h _ (attrContentIn_some_iff.mpr ha)),fun h c hc => ?_⟩
    cases c with
    | none => exact hnone
    | some a =>
      have ha := attrContentIn_some_iff.mp hc
      exact (hsome a ha).mpr (h a ha)

theorem completes_log {α : Type} {log : List P2pLook} {a : α} {n : ℕ} :
    Completes (P2pLook.Inside n) ⟨log,some a⟩ ↔ ∀ look ∈ log, look.Inside n :=
  ⟨fun ⟨_,h⟩ => h.all,fun h => ⟨a,rfl,h⟩⟩

theorem completes_attrByte (he : ∀ e ∈ p2pIe, IsP2pIe buf buf.length e) :
    Completes (P2pLook.Inside buf.length) (attrByte buf p2pIe id off) ↔
      AttrFits buf p2pIe id (FoundAttr.HasByte buf.length off) := by
  refine completes_onAttr he (completes_ret none) fun _ _ a _ => ?_
  rw [completes_log, List.forall_mem_cons, List.forall_mem_singleton, FoundAttr.HasByte]
  exact and_comm

theorem completes_invitationFlags (he : ∀ e ∈ p2pIe, IsP2pIe buf buf.length e) :
    Completes (P2pLook.Inside buf.length) (invitationFlags buf p2pIe) ↔
      AttrFits buf p2pIe P2P_ATTR_INVITATION_FLAGS (fun a => a.cont < buf.length) := by
  refine completes_onAttr he (completes_ret none) fun _ _ a _ => ?_
  rw [completes_log, List.forall_mem_singleton]
  rfl

theorem completes_attrContentIn_andThen {α : Type} {f : Option FoundAttr → Logged P2pLook α}
    (he : ∀ e ∈ p2pIe, IsP2pIe buf buf.length e) (hf : ∀ a, Completes (P2pLook.Inside buf.length) (f a)) :
    Completes (P2pLook.Inside buf.length) ((attrContentIn buf p2pIe id).andThen f) ↔
    AttrFits buf p2pIe id fun _ => True :=
  completes_onAttr he (hf none) fun _ _ a _ => iff_true_intro (hf (some a))

end Attr

section List
variable {refuses : Bool} {buf seen xs chs : List UInt8} {p rest fuel n w : ℕ} {ps js : List ℕ} {es : List Tlv}

theorem firstSeen_append (seen xs ys : List UInt8) : firstSeen seen (xs ++ ys) = firstSeen (firstSeen seen xs) ys :=
  List.foldl_append

theorem length_le_firstSeen (seen xs : List UInt8) : seen.length ≤ (firstSeen seen xs).length := by
  induction xs generalizing seen with
  | nil => exact Nat.le_refl _
  | cons x xs ih =>
    have hrest := ih (if x ∈ seen then seen else seen ++ [x])
    refine Nat.le_trans ?_ hrest
    split
    · exact Nat.le_refl _
    · simp

theorem result_chListTakes : (chListTakes buf ps chs).result = some (firstSeen chs (ps.map (byteAt buf))) := by
  induction ps generalizing chs with
  | nil => rfl
  | cons p ps ih =>
    have hstep :
        (chListTake buf chs p).result = some (if byteAt buf p ∈ chs then chs else chs ++ [byteAt buf p]) := by
      rw [chListTake]
      split <;> rfl
    rw [chListTakes, result_andThen, hstep, Option.bind_some, ih]
    rfl

/-- The channels of an entry are all in the frame, and there is room for the new ones among them. -/
theorem all_chListTakes (hchs : chs.length ≤ CH_LIST_SIZE) :
    All (P2pLook.Inside n) (chListTakes buf ps chs) ↔
      (∀ p ∈ ps, p < n) ∧ (firstSeen chs (ps.map (byteAt buf))).length ≤ CH_LIST_SIZE := by
  induction ps generalizing chs with
  | nil => exact iff_of_true (all_ret _) ⟨List.forall_mem_nil _,hchs⟩
  | cons p ps ih =>
    have hcons : firstSeen chs ((p :: ps).map (byteAt buf)) =
        firstSeen (if byteAt buf p ∈ chs then chs else chs ++ [byteAt buf p]) (ps.map (byteAt buf)) := rfl
    rw [chListTakes, all_andThen, List.forall_mem_cons, hcons, chListTake]
    split
    · simp only [Option.some.injEq, forall_eq', ih hchs, and_assoc]
      simp [All, P2pLook.Inside]
    · have hlen : (chs ++ [byteAt buf p]).length = chs.length + 1 := by simp
      have hle := length_le_firstSeen (chs ++ [byteAt buf p]) (ps.map (byteAt buf))
      simp only [All, List.forall_mem_cons, List.not_mem_nil, false_imp_iff, implies_true, and_true, P2pLook.Inside,
        Option.some.injEq, forall_eq']
      constructor
      · rintro ⟨⟨hp,hroom⟩,hrest⟩
        obtain ⟨hps,hfits⟩ := (ih (by omega)).mp hrest
        exact ⟨⟨hp,hps⟩,hfits⟩
      · rintro ⟨⟨hp,hps⟩,hfits⟩
        have hroom : chs.length < CH_LIST_SIZE := by omega
        exact ⟨⟨hp,hroom⟩,(ih (by omega)).mpr ⟨hps,hfits⟩⟩

theorem entry_channels {t : Tlv} {post : List UInt8} (h : buf.drop p = t.bytes ++ post) :
    (byteAt buf (p + 1)).toNat = t.body.length ∧ (List.range' (p + 2) t.body.length).map (byteAt buf) = t.body ∧
      p + t.bytes.length ≤ buf.length := by
  have hlen : p + t.bytes.length ≤ buf.length := by
    have := congrArg List.length h
    rw [List.length_drop, List.length_append, Tlv.length_bytes] at this
    rw [Tlv.length_bytes]
    omega
  refine ⟨?_,?_,hlen⟩
  · have h1 := byteAt_drop buf p 1
    rw [h] at h1
    exact (congrArg UInt8.toNat h1.symm).trans t.toNat_length
  · refine List.ext_getElem (by simp) fun i h1 h2 => ?_
    have hi := byteAt_drop buf p (i + 2)
    have hbody : byteAt (t.bytes ++ post) (i + 2) = byteAt (t.body ++ post) i := rfl
    rw [h, hbody, byteAt_append, if_pos h2] at hi
    rw [List.getElem_map, List.getElem_range', Nat.one_mul, Nat.add_assoc, Nat.add_comm 2 i, ← hi, byteAt,
      List.getD_eq_getElem _ _ h2]

/-- The loop over the entries returns, inside the frame and the array, exactly on complete entries with room for their
different channels. -/
theorem chListEntries_iff (hbuf : buf.length < 2 ^ 32) (hrest : rest < 2 ^ 32) (hchs : chs.length ≤ CH_LIST_SIZE)
    {r : List UInt8} :
    (∃ fuel, Yields (P2pLook.Inside buf.length) (chListEntries buf fuel p rest chs) r) ↔
      ∃ es post, buf.drop p = Tlv.flat es ++ post ∧ (Tlv.flat es).length = rest ∧
        r = firstSeen chs (channelsOf es) ∧ r.length ≤ CH_LIST_SIZE := by
  constructor
  · rintro ⟨fuel,hres,hall⟩
    induction fuel generalizing p rest chs with
    | zero => cases hres
    | succ fuel ih =>
      rw [chListEntries] at hres hall
      by_cases hzero : rest = 0
      · rw [if_pos hzero] at hres
        cases hres
        exact ⟨[],buf.drop p,rfl,hzero.symm,rfl,hchs⟩
      · rw [if_neg hzero] at hres hall
        simp only [result_andThen, result_emit, Option.bind_some, result_chListTakes, all_andThen, all_emit,
          List.forall_mem_singleton, Option.some.injEq, forall_eq', forall_const, all_chListTakes hchs] at hres hall
        obtain ⟨hone,⟨hin,hroom⟩,hnext⟩ := hall
        change p + 1 < buf.length at hone
        have hentry : p + 2 + (byteAt buf (p + 1)).toNat ≤ buf.length := by
          by_contra hover
          have := hin (p + 1 + (byteAt buf (p + 1)).toNat) (List.mem_range'_1.mpr (by omega))
          omega
        obtain ⟨t,post,ht⟩ := @entry_of_inside buf p [] hone (by rwa [List.append_nil])
        obtain ⟨hcount,hbody,hend⟩ := entry_channels ht
        rw [Tlv.length_bytes] at hend
        rw [hcount, hbody] at hres hroom
        rw [hcount, hbody] at hnext
        obtain ⟨es,post',hes,hlen,hr,hsize⟩ := ih (by unfold uintSub; omega) hroom hres hnext
        have hdrop : buf.drop (p + (2 + t.body.length)) = post := by
          rw [← List.drop_drop, ht, Nat.add_comm 2, ← Tlv.length_bytes, List.drop_left]
        have hfits := congrArg List.length hes
        rw [List.length_append, List.length_drop] at hfits
        refine ⟨t :: es,post',?_,?_,?_,hsize⟩
        · rw [ht, ← hdrop, hes, Tlv.flat_cons, List.append_assoc]
        · rw [Tlv.flat_cons, List.length_append, Tlv.length_bytes, hlen]
          unfold uintSub at hlen ⊢
          omega
        · rw [hr, ← firstSeen_append]
          rfl
  · rintro ⟨es,post,hes,hlen,rfl,hsize⟩
    refine ⟨es.length + 1,?_⟩
    induction es generalizing p rest chs with
    | nil =>
      obtain rfl : rest = 0 := hlen.symm
      rw [chListEntries, if_pos rfl]
      exact yields_ret _
    | cons t es ih =>
      rw [Tlv.flat_cons, List.append_assoc] at hes
      rw [Tlv.flat_cons, List.length_append, Tlv.length_bytes] at hlen
      have hchannels : channelsOf (t :: es) = t.body ++ channelsOf es := rfl
      obtain ⟨hcount,hbody,hend⟩ := entry_channels hes
      rw [hchannels, firstSeen_append] at hsize ⊢
      rw [Tlv.length_bytes] at hend
      have hroom : (firstSeen chs t.body).length ≤ CH_LIST_SIZE := (length_le_firstSeen _ _).trans hsize
      have hnext : buf.drop (p + (2 + t.body.length)) = Tlv.flat es ++ post := by
        rw [← List.drop_drop, hes, Nat.add_comm 2, ← Tlv.length_bytes, List.drop_left]
      have hleft : (Tlv.flat es).length = uintSub rest (2 + t.body.length) := by
        rw [uintSub_of_le (by omega) hrest]
        omega
      rw [List.length_cons, chListEntries, if_neg (by omega), hcount]
      refine (yields_emit ?_).andThen (Yields.andThen (a := firstSeen chs t.body) ⟨?_,?_⟩ ?_)
      · rw [List.forall_mem_singleton]
        change p + 1 < buf.length
        omega
      · rw [result_chListTakes, hbody]
      · rw [all_chListTakes hchs, hbody]
        exact ⟨fun o ho => by have := List.mem_range'_1.mp ho; omega,hroom⟩
      · exact ih (by unfold uintSub; omega) hroom hnext hleft hsize

theorem length_chText_le (j : ℕ) : ((chText chs j).getD []).length ≤ 5 := by
  have hdigits : (Nat.toDigits 10 (byteAt chs j).toNat).length ≤ 3 :=
    (Nat.length_toDigits_le_iff (by decide) (by decide)).mpr (by have := (byteAt chs j).toNat_lt; omega)
  unfold chText
  dsimp only
  split_ifs <;> simp only [Option.getD_some, Option.getD_none, List.length_cons, List.length_nil] <;> omega

theorem textLength_succ (j : ℕ) : textLength chs (j + 1) = textLength chs j + ((chText chs j).getD []).length := by
  simp [textLength, List.range_succ]

theorem textLength_le (j : ℕ) : textLength chs j ≤ 5 * j := by
  induction j with
  | zero => exact Nat.le_refl _
  | succ j ih =>
    have hlen := @length_chText_le chs j
    rw [textLength_succ]
    omega

theorem snprintf_inside_iff (hw : w < 2 ^ 31) (cs : ℕ) :
    (P2pLook.text w (snprintf refuses (uintSub CH_LIST_BUF_SIZE w) cs).1).Inside n ↔
      refuses = true ∨ w ≤ CH_LIST_BUF_SIZE := by
  have hsize : CH_LIST_BUF_SIZE = 128 := rfl
  have hmax : INT_MAX = 2147483647 := rfl
  have hsub : uintSub CH_LIST_BUF_SIZE w = if w ≤ 128 then 128 - w else 2 ^ 32 + 128 - w := by
    unfold uintSub
    split <;> omega
  rw [hsub, P2pLook.Inside, snprintf, hsize]
  by_cases hle : w ≤ 128
  · rw [if_pos hle, if_neg (by omega)]
    refine iff_of_true (.inr ?_) (.inr hle)
    dsimp only
    omega
  · rw [if_neg hle]
    cases refuses with
    | true =>
      rw [if_pos ⟨rfl,by omega⟩]
      exact iff_of_true (.inl rfl) (.inl rfl)
    | false =>
      rw [if_neg (by simp)]
      refine iff_of_false ?_ (by simp [hle])
      dsimp only
      omega

/-- A `snprintf` that refuses large sizes keeps the text inside the buffer. -/
theorem all_chListPrint_refuses (hw : w + 5 * js.length < 2 ^ 31) :
    All (P2pLook.Inside n) (chListPrint true chs js w) := by
  induction js generalizing w with
  | nil => exact all_ret ()
  | cons j js ih =>
    have hlen := @length_chText_le chs j
    rw [List.length_cons] at hw
    rw [chListPrint]
    cases htext : chText chs j with
    | none => exact ih (by omega)
    | some cs =>
      rw [htext, Option.getD_some] at hlen
      have hret : (snprintf true (uintSub CH_LIST_BUF_SIZE w) cs.length).2 ≤ cs.length := by
        rw [snprintf]
        split
        · exact Nat.zero_le _
        · exact Nat.le_refl _
      refine all_andThen.mpr ⟨?_,fun _ _ => ih (by omega)⟩
      rw [all_emit, List.forall_mem_singleton, snprintf_inside_iff (by omega)]
      exact .inl rfl

theorem all_chListPrint (j : ℕ) (hj : j + fuel < 2 ^ 28) :
    All (P2pLook.Inside n) (chListPrint false chs (List.range' j fuel) (textLength chs j)) ↔
      ∀ i, j ≤ i → i < j + fuel → (chText chs i).isSome → textLength chs i ≤ CH_LIST_BUF_SIZE := by
  induction fuel generalizing j with
  | zero => exact iff_of_true (all_ret ()) fun i h1 h2 => by omega
  | succ fuel ih =>
    have hle := @textLength_le chs j
    have hsplit :
        (∀ i, j ≤ i → i < j + (fuel + 1) → (chText chs i).isSome → textLength chs i ≤ CH_LIST_BUF_SIZE) ↔
        ((chText chs j).isSome → textLength chs j ≤ CH_LIST_BUF_SIZE) ∧
          ∀ i, j + 1 ≤ i → i < j + 1 + fuel → (chText chs i).isSome →
            textLength chs i ≤ CH_LIST_BUF_SIZE := by
      constructor
      · exact fun h => ⟨h j (Nat.le_refl j) (by omega),fun i h1 h2 => h i (by omega) (by omega)⟩
      · rintro ⟨hfirst,hrest⟩ i h1 h2
        rcases Nat.eq_or_lt_of_le h1 with rfl | hlt
        · exact hfirst
        · exact hrest i hlt (by omega)
    have hstep := ih (j + 1) (by omega)
    rw [textLength_succ] at hstep
    rw [hsplit, List.range'_succ, chListPrint]
    cases htext : chText chs j with
    | none =>
      rw [htext] at hstep
      exact hstep.trans (by simp)
    | some cs =>
      rw [htext, Option.getD_some] at hstep
      have hret : (snprintf false (uintSub CH_LIST_BUF_SIZE (textLength chs j)) cs.length).2 = cs.length := rfl
      rw [all_andThen, all_emit, List.forall_mem_singleton, snprintf_inside_iff (by omega), hret]
      simp only [result_emit, forall_const, hstep, Bool.false_eq_true, false_or, Option.isSome_some]

theorem completes_chListPrint (hchs : chs.length ≤ CH_LIST_SIZE) :
    Completes (P2pLook.Inside n) (chListPrint refuses chs (List.range chs.length) 0) ↔ TextFits refuses chs := by
  have hsize : CH_LIST_SIZE = 40 := rfl
  have hresult : ∀ js w, (chListPrint refuses chs js w).result = some () := by
    intro js
    induction js with
    | nil => exact fun _ => rfl
    | cons j js ih =>
      intro w
      rw [chListPrint]
      cases chText chs j with
      | none => exact ih w
      | some cs => exact (result_andThen _ _).trans (ih _)
  have hall : Completes (P2pLook.Inside n) (chListPrint refuses chs (List.range chs.length) 0) ↔
      All (P2pLook.Inside n) (chListPrint refuses chs (List.range chs.length) 0) :=
    ⟨fun ⟨_,h⟩ => h.all,fun h => ⟨(),hresult _ _,h⟩⟩
  rw [hall, TextFits]
  cases refuses with
  | true =>
    refine iff_of_true (all_chListPrint_refuses ?_) (.inl rfl)
    rw [List.length_range]
    omega
  | false =>
    have hprint := @all_chListPrint chs chs.length n 0 (by omega)
    rw [List.range_eq_range']
    refine hprint.trans ?_
    simp

end List

section Frame
variable {refuses : Bool} {buf : List UInt8} {e : ℕ × ℕ} {p2pIe : Option (ℕ × ℕ)} {id : UInt8} {a : FoundAttr}
  {fuel : ℕ}

/-- On a length that wraps, the loop leaves every frame. -/
theorem listFits_iff (hbuf : buf.length < 2 ^ 32) (he : IsP2pIe buf buf.length e) (ha : FoundIn buf e id a) :
    (∃ r, (∃ fuel, Yields (P2pLook.Inside buf.length)
        (chListEntries buf fuel (a.cont + 3) (uintSub (contentLen 3 a.dataLen) 3) []) r) ∧ TextFits refuses r) ↔
      a.ListFits refuses buf := by
  obtain ⟨p,hat,hne,rfl⟩ := ha
  obtain ⟨-,-,⟨hhead,hin⟩,-⟩ := hat
  have hlt := le16At_lt (buf.drop e.1) (p + 1)
  have helem := he.lt
  have hsub : uintSub (contentLen 3 (le16At (buf.drop e.1) (p + 1))) 3 < 2 ^ 32 := by
    unfold uintSub
    omega
  dsimp only at hhead hin
  simp only [chListEntries_iff hbuf hsub (show ([] : List UInt8).length ≤ CH_LIST_SIZE from Nat.zero_le _), foundAttr,
    FoundAttr.ListFits]
  generalize le16At (buf.drop e.1) (p + 1) = dataLen at *
  constructor
  · rintro ⟨r,⟨es,post,hes,hlen,rfl,hsize⟩,htext⟩
    have hfits := congrArg List.length hes
    rw [List.length_append, List.length_drop, hlen] at hfits
    unfold uintSub contentLen attrTotal at hfits hlen
    unfold attrTotal at hin
    refine ⟨by omega,es,post,hes,by omega,hsize,htext⟩
  · rintro ⟨hroom,es,post,hes,hlen,hsize,htext⟩
    refine ⟨_,⟨es,post,hes,?_,rfl,hsize⟩,htext⟩
    unfold attrTotal at hin
    unfold uintSub contentLen attrTotal
    omega

theorem completes_dump (hbuf : buf.length < 2 ^ 32) (he : ∀ e ∈ p2pIe, IsP2pIe buf buf.length e) :
    (∃ fuel, Completes (P2pLook.Inside buf.length) (dumpP2pAttrChList refuses fuel buf p2pIe)) ↔
      AttrFits buf p2pIe P2P_ATTR_CH_LIST (FoundAttr.ListFits refuses buf) := by
  cases p2pIe with
  | none => exact iff_of_true ⟨0,(),rfl,List.forall_mem_nil _⟩ fun e h => by cases h
  | some e =>
    have hsearch := @completes_attrContentIn buf (some e) P2P_ATTR_CH_LIST he
    have hlist : ∀ a, FoundIn buf e P2P_ATTR_CH_LIST a →
        ((∃ fuel, Completes (P2pLook.Inside buf.length)
          ((chListEntries buf fuel (a.cont + 3) (uintSub (contentLen 3 a.dataLen) 3) []).andThen fun chList =>
            chListPrint refuses chList (List.range chList.length) 0)) ↔ a.ListFits refuses buf) := by
      intro a ha
      have hlen : uintSub (contentLen 3 a.dataLen) 3 < 2 ^ 32 := by
        unfold uintSub
        omega
      have hshort : ∀ r fuel, Yields (P2pLook.Inside buf.length)
          (chListEntries buf fuel (a.cont + 3) (uintSub (contentLen 3 a.dataLen) 3) []) r →
            r.length ≤ CH_LIST_SIZE := by
        intro r fuel hr
        obtain ⟨es,post,-,-,-,hsize⟩ := (chListEntries_iff hbuf hlen (Nat.zero_le _)).mp ⟨fuel,hr⟩
        exact hsize
      rw [← listFits_iff hbuf (he e rfl) ha]
      constructor
      · rintro ⟨fuel,h⟩
        obtain ⟨⟨r,hr⟩,hprint⟩ := completes_andThen.mp h
        exact ⟨r,⟨fuel,hr⟩,(completes_chListPrint (hshort r fuel hr)).mp (hprint r hr.result)⟩
      · rintro ⟨r,⟨fuel,hr⟩,htext⟩
        refine ⟨fuel,completes_andThen.mpr ⟨⟨r,hr⟩,fun r' hr' => ?_⟩⟩
        obtain rfl : r = r' := Option.some.inj (hr.result.symm.trans hr')
        exact (completes_chListPrint (hshort r fuel hr)).mpr htext
    simp only [dumpP2pAttrChList, completes_andThen, hsearch, AttrFits, Option.mem_def, Option.some.injEq, forall_eq']
    constructor
    · rintro ⟨fuel,hfits,hrest⟩
      exact ⟨hfits,fun a ha => (hlist a ha).mp ⟨fuel,hrest _ (attrContentIn_some_iff.mpr ha)⟩⟩
    · rintro ⟨hfits,hall⟩
      obtain ⟨content,hcontent⟩ := hsearch.mpr fun e' h => by
        cases h
        exact hfits
      cases content with
      | none =>
        refine ⟨0,hfits,fun c hc => ?_⟩
        cases hcontent.result.symm.trans hc
        exact completes_ret ()
      | some a =>
        have ha := attrContentIn_some_iff.mp hcontent.result
        obtain ⟨fuel,hf⟩ := (hlist a ha).mpr (hall a ha)
        refine ⟨fuel,hfits,fun c hc => ?_⟩
        cases hcontent.result.symm.trans hc
        exact hf

theorem completes_addr2 (hbuf : 32 ≤ buf.length) : Completes (P2pLook.Inside buf.length) (emit addr2Reads) := by
  refine completes_emit.mpr fun look hlook => ?_
  obtain ⟨i,hi,rfl⟩ := List.mem_map.mp hlook
  change i < buf.length
  have := List.mem_range'_1.mp hi
  omega

theorem completes_peerReads (hbuf : 32 ≤ buf.length) (known : Bool) :
    Completes (P2pLook.Inside buf.length) (peerReads known) := by
  cases known with
  | false => exact completes_emit.mpr (List.forall_mem_nil _)
  | true => exact completes_addr2 hbuf

section Subtypes
variable {dialogToken : UInt8} {w : P2pWdev} (hlen : 32 ≤ buf.length) (he : ∀ e ∈ p2pIe, IsP2pIe buf buf.length e)
include hlen he

theorem completes_rxGoNegoReq :
    Completes (P2pLook.Inside buf.length) (rxGoNegoReq refuses fuel buf p2pIe dialogToken w) ↔
      AttrFits buf p2pIe P2P_ATTR_OPERATING_CH (FoundAttr.HasByte buf.length 4) ∧
      AttrFits buf p2pIe P2P_ATTR_LISTEN_CH (FoundAttr.HasByte buf.length 4) ∧
      AttrFits buf p2pIe P2P_ATTR_GO_INTENT (FoundAttr.HasByte buf.length 0) ∧
      Completes (P2pLook.Inside buf.length) (dumpP2pAttrChList refuses fuel buf p2pIe) := by
  rw [rxGoNegoReq, completes_andThen_const fun _ => completes_andThen_const fun _ => completes_andThen_const fun _ =>
    completes_andThen_const fun _ => completes_andThen_const fun _ => iff_true_intro (completes_ret _),
    completes_attrByte he, completes_attrByte he, completes_attrByte he,
    iff_true_intro (completes_addr2 hlen), true_and, and_true]

theorem completes_rxGoNegoResp :
    Completes (P2pLook.Inside buf.length) (rxGoNegoResp refuses fuel buf p2pIe dialogToken w) ↔
      AttrFits buf p2pIe P2P_ATTR_OPERATING_CH (FoundAttr.HasByte buf.length 4) ∧
      AttrFits buf p2pIe P2P_ATTR_GO_INTENT (FoundAttr.HasByte buf.length 0) ∧
      AttrFits buf p2pIe P2P_ATTR_STATUS (FoundAttr.HasByte buf.length 0) ∧
      Completes (P2pLook.Inside buf.length) (dumpP2pAttrChList refuses fuel buf p2pIe) := by
  have hpeer := @completes_peerReads buf hlen
  rw [rxGoNegoResp, completes_andThen_const fun _ => completes_andThen_const fun _ => completes_andThen_const fun _ =>
    (completes_andThen_const fun _ => completes_andThen_const fun _ => iff_true_intro (completes_ret _)).trans
      (and_iff_right (hpeer _)), completes_attrByte he, completes_attrByte he, completes_attrByte he, and_true]

theorem completes_rxGoNegoConf :
    Completes (P2pLook.Inside buf.length) (rxGoNegoConf refuses fuel buf p2pIe dialogToken w) ↔
      AttrFits buf p2pIe P2P_ATTR_OPERATING_CH (FoundAttr.HasByte buf.length 4) ∧
      AttrFits buf p2pIe P2P_ATTR_STATUS (FoundAttr.HasByte buf.length 0) ∧
      Completes (P2pLook.Inside buf.length) (dumpP2pAttrChList refuses fuel buf p2pIe) := by
  have hpeer := @completes_peerReads buf hlen
  rw [rxGoNegoConf, completes_andThen_const fun _ => completes_andThen_const fun _ =>
    (completes_andThen_const fun _ => completes_andThen_const fun _ => iff_true_intro (completes_ret _)).trans
      (and_iff_right (hpeer _)), completes_attrByte he, completes_attrByte he, and_true]

theorem completes_rxInvitReq :
    Completes (P2pLook.Inside buf.length) (rxInvitReq refuses fuel buf p2pIe dialogToken w) ↔
      AttrFits buf p2pIe P2P_ATTR_INVITATION_FLAGS (fun a => a.cont < buf.length) ∧
      AttrFits buf p2pIe P2P_ATTR_OPERATING_CH (FoundAttr.HasByte buf.length 4) ∧
      Completes (P2pLook.Inside buf.length) (dumpP2pAttrChList refuses fuel buf p2pIe) := by
  rw [rxInvitReq, completes_andThen_const fun _ => completes_andThen_const fun _ => completes_andThen_const fun _ =>
    completes_andThen_const fun _ => iff_true_intro (completes_ret _), completes_invitationFlags he,
    completes_attrByte he, iff_true_intro (completes_addr2 hlen), true_and, and_true]

theorem completes_rxInvitResp :
    Completes (P2pLook.Inside buf.length) (rxInvitResp refuses fuel buf p2pIe dialogToken w) ↔
      AttrFits buf p2pIe P2P_ATTR_STATUS (FoundAttr.HasByte buf.length 0) ∧
      AttrFits buf p2pIe P2P_ATTR_OPERATING_CH (FoundAttr.HasByte buf.length 4) ∧
      Completes (P2pLook.Inside buf.length) (dumpP2pAttrChList refuses fuel buf p2pIe) := by
  have hpeer := @completes_peerReads buf hlen
  rw [rxInvitResp, completes_andThen_const fun _ => completes_andThen_const fun _ =>
    (completes_andThen_const fun _ => completes_andThen_const fun _ => iff_true_intro (completes_ret _)).trans
      (and_iff_right (hpeer _)), completes_attrByte he, completes_attrByte he, and_true]

end Subtypes

/-- The search for the element itself stays in the frame. -/
theorem completes_frameP2pIe {α : Type} {f : Option (ℕ × ℕ) → Logged P2pLook α} :
    Completes (P2pLook.Inside buf.length) ((frameP2pIe buf).andThen f) ↔
      Completes (P2pLook.Inside buf.length) (f (nextP2pIe buf buf.length 32)) := by
  have hsearch : Yields (P2pLook.Inside buf.length) (frameP2pIe buf) (nextP2pIe buf buf.length 32) := by
    refine Yields.andThen (f := fun _ => ret (nextP2pIe buf buf.length 32)) (yields_emit ?_) (yields_ret _)
    split
    · exact List.forall_mem_nil _
    · intro look hlook
      obtain ⟨place,hplace,rfl⟩ := List.mem_map.mp hlook
      have hlt := p2pIeFrom_reads buf (WLAN_HDR_A3_LEN + _PUBLIC_ACTION_IE_OFFSET_) _ place hplace
      have h32 : WLAN_HDR_A3_LEN + _PUBLIC_ACTION_IE_OFFSET_ = 32 := rfl
      change place < buf.length
      obtain ⟨o,ho,rfl⟩ := List.mem_map.mp hplace
      have := getP2pIeReads_lt o ho
      omega
  rw [completes_andThen]
  constructor
  · exact fun h => h.2 _ hsearch.result
  · refine fun h => ⟨⟨_,hsearch⟩,fun p hp => ?_⟩
    cases hsearch.result.symm.trans hp
    exact h

theorem checkPublicFrame_iff {w : P2pWdev} {subtype dialogToken : UInt8} (hlen : 32 ≤ buf.length)
    (hbuf : buf.length < 2 ^ 32) :
    (∃ fuel, Completes (P2pLook.Inside buf.length) (checkPublicFrame refuses fuel w buf subtype dialogToken)) ↔
      SubtypeFits refuses buf (nextP2pIe buf buf.length 32) subtype := by
  have he : ∀ e ∈ nextP2pIe buf buf.length 32, IsP2pIe buf buf.length e := fun e h => (nextP2pIe_some h).2
  simp only [checkPublicFrame, completes_frameP2pIe, SubtypeFits]
  have hdump := @completes_dump refuses buf (nextP2pIe buf buf.length 32) hbuf he
  split_ifs
  · simp only [completes_rxGoNegoReq hlen he, exists_and_left, hdump]
  · simp only [completes_rxGoNegoResp hlen he, exists_and_left, hdump]
  · simp only [completes_rxGoNegoConf hlen he, exists_and_left, hdump]
  · simp only [completes_rxInvitReq hlen he, exists_and_left, hdump]
  · simp only [completes_rxInvitResp hlen he, exists_and_left, hdump]
  · simp only [completes_attrContentIn_andThen he fun _ => completes_ret w, exists_const]
  · rw [exists_const, rxProvisionDiscReq, completes_frameP2pIe]
    generalize nextP2pIe buf buf.length 32 = p2pIe at he ⊢
    cases p2pIe with
    | none => exact iff_of_true (completes_ret _) fun e h => by cases h
    | some e => exact completes_attrContentIn_andThen he fun _ => completes_ret _
  · exact iff_of_true ⟨0,completes_ret w⟩ trivial

/-- The inspection of a received frame is contained exactly when the first P2P element of a public P2P frame fits its
subtype. -/
theorem p2p_inspection_contained_iff (refuses : Bool) (w : P2pWdev) (f : P2pActionFrame) :
    InspectionContained refuses w f ↔ InspectedFits refuses f.bytes := by
  have hfixed := f.fixed
  have hread : ∀ i < f.bytes.length, (P2pLook.read i).Inside f.bytes.length := fun _ hi => hi
  have hcategory : ∀ look ∈ [P2pLook.read WLAN_HDR_A3_LEN], look.Inside f.bytes.length :=
    List.forall_mem_singleton.mpr (hread 24 (by omega))
  simp only [InspectionContained, rtwP2pCheckFrames, completes_emit_andThen, and_iff_right hcategory]
  by_cases hpublic : byteAt f.bytes WLAN_HDR_A3_LEN = RTW_WLAN_CATEGORY_PUBLIC
  · have hcat : RTW_WLAN_CATEGORY_PUBLIC ≠ RTW_WLAN_CATEGORY_P2P := by decide
    have h32 : 32 ≤ f.bytes.length := hfixed.resolve_right fun h => hcat (hpublic.symm.trans h.1)
    have haction : ∀ look ∈ [P2pLook.read (WLAN_HDR_A3_LEN + 1)], look.Inside f.bytes.length :=
      List.forall_mem_singleton.mpr (hread 25 (by omega))
    refine Iff.trans ?_ (imp_iff_right hpublic).symm
    simp only [if_pos hpublic, completes_emit_andThen, and_iff_right haction]
    by_cases hvendor : byteAt f.bytes (WLAN_HDR_A3_LEN + 1) = ACT_PUBLIC_VENDOR
    · have houi : ∀ look ∈ (List.range' (WLAN_HDR_A3_LEN + 2) 4).map P2pLook.read, look.Inside f.bytes.length := by
        intro look hlook
        obtain ⟨i,hi,rfl⟩ := List.mem_map.mp hlook
        have hlt : i < 24 + 2 + 4 := (List.mem_range'_1.mp hi).2
        exact hread i (by omega)
      refine Iff.trans ?_ (imp_iff_right hvendor).symm
      simp only [if_pos hvendor, completes_emit_andThen, and_iff_right houi]
      by_cases hp2p : slice f.bytes (WLAN_HDR_A3_LEN + 2) 4 = P2P_OUI
      · have hsubtype : ∀ look ∈ [P2pLook.read (WLAN_HDR_A3_LEN + 6),.read (WLAN_HDR_A3_LEN + 7)],
            look.Inside f.bytes.length :=
          List.forall_mem_cons.mpr ⟨hread 30 (by omega),List.forall_mem_singleton.mpr (hread 31 (by omega))⟩
        refine Iff.trans ?_ (imp_iff_right hp2p).symm
        rw [← checkPublicFrame_iff h32 f.short]
        simp only [if_pos hp2p, completes_emit_andThen, and_iff_right hsubtype]
        refine exists_congr fun fuel => ?_
        rw [completes_andThen_const fun _ => iff_true_intro (completes_ret _), and_true]
        rfl
      · simp only [if_neg hp2p]
        exact iff_of_true ⟨0,completes_ret _⟩ fun h => absurd h hp2p
    · simp only [if_neg hvendor]
      exact iff_of_true ⟨0,completes_ret _⟩ fun h => absurd h hvendor
  · simp only [if_neg hpublic]
    refine iff_of_true ⟨0,?_⟩ fun h => absurd h hpublic
    split
    · rw [completes_emit_andThen]
      exact ⟨List.forall_mem_cons.mpr ⟨hread 29 (by omega),List.forall_mem_singleton.mpr
        (hread 30 (by omega))⟩,completes_ret _⟩
    · exact completes_ret _

/-- A group owner negotiation request that ends in an intent attribute without an intent -/
def emptyIntentFrame : P2pActionFrame :=
  ⟨List.replicate 24 0 ++ [4,9,0x50,0x6f,0x9a,9,0,1] ++ [0xdd,7,0x50,0x6f,0x9a,9,4,0,0],by decide,by decide⟩

theorem empty_intent_read_past_the_frame :
    ¬∀ (refuses : Bool) (w : P2pWdev) (f : P2pActionFrame), InspectionContained refuses w f := by
  intro h
  obtain ⟨fuel,hcheck⟩ := h true ⟨false,.init,.init⟩ emptyIntentFrame
  have hpublic : byteAt emptyIntentFrame.bytes WLAN_HDR_A3_LEN = RTW_WLAN_CATEGORY_PUBLIC := by decide
  have hvendor : byteAt emptyIntentFrame.bytes (WLAN_HDR_A3_LEN + 1) = ACT_PUBLIC_VENDOR := by decide
  have hp2p : slice emptyIntentFrame.bytes (WLAN_HDR_A3_LEN + 2) 4 = P2P_OUI := by decide
  have hsubtype : byteAt emptyIntentFrame.bytes (WLAN_HDR_A3_LEN + 6) = P2P_GO_NEGO_REQ := by decide
  simp only [rtwP2pCheckFrames, completes_emit_andThen, if_pos hpublic, if_pos hvendor, if_pos hp2p, hsubtype] at hcheck
  obtain ⟨-,-,-,-,hcheck⟩ := hcheck
  have hfits := (checkPublicFrame_iff (by decide) emptyIntentFrame.short).mp ⟨fuel,(completes_andThen.mp hcheck).1⟩
  have hfound : FoundIn emptyIntentFrame.bytes (32,9) P2P_ATTR_GO_INTENT ⟨41,0,0⟩ :=
    ⟨6,⟨by decide,.first,by decide⟩,by decide,rfl⟩
  have hbyte := (hfits.2.2.1 (32,9) (by decide)).2 _ hfound
  exact absurd hbyte.1.1 (Nat.lt_irrefl 0)

end Frame

end Rtl8188fu

import Rtl8188fu.Recv.DataHdr

/-! # The relay tag of PPPoE discovery

`nat25_db_handle` for a PPPoE frame, with `addPPPoETag`, on a little-endian host. A socket buffer
is its frame and the room behind; the work buffer is the first 40 bytes of the stack from
`tag_buf` on.
-/
namespace Rtl8188fu
open Bytes

def PTT_RELAY_SID : ℕ := 0x0110
def PADI_CODE : UInt8 := 0x09
def PADO_CODE : UInt8 := 0x07
def PADR_CODE : UInt8 := 0x19
def PADS_CODE : UInt8 := 0x65
def RTL_RELAY_TAG_LEN : ℕ := ETH_ALEN
def TAG_HDR_LEN : ℕ := 4
def MAGIC_CODE : ℕ := 0x8186
def MAGIC_CODE_LEN : ℕ := 2
/-- `sizeof(tag_buf)` -/
def TAG_BUF_LEN : ℕ := 40
/-- `ph->length`, behind the version, the code and the session -/
def PPPOE_LENGTH : ℕ := ETH_HLEN + 4
/-- `ph->tag` -/
def PPPOE_TAGS : ℕ := ETH_HLEN + 6

theorem pppoe_sizes : TAG_HDR_LEN = 4 ∧ MAGIC_CODE_LEN = 2 ∧ RTL_RELAY_TAG_LEN = 6 ∧ ETH_ALEN = 6 ∧
    PPPOE_LENGTH = 18 ∧
    PPPOE_TAGS = 20 ∧ TAG_BUF_LEN = 40 := ⟨rfl,rfl,rfl,rfl,rfl,rfl,rfl⟩

structure Skb where
  data : List UInt8
  room : List UInt8

def skbPut (skb : Skb) (n : ℕ) : Skb := ⟨skb.data ++ skb.room.take n,skb.room.drop n⟩

def skbTrim (skb : Skb) (n : ℕ) : Skb := ⟨skb.data.take n,skb.data.drop n ++ skb.room⟩

/-- What a call did -/
structure PppoeRun where
  ret : ℤ
  skb : Skb
  /-- what was read or written of the frame, each with its place and length -/
  frame : List (ℕ × ℕ)
  /-- what was read or written of the work buffer -/
  buffer : List (ℕ × ℕ)

/-- The loop of `__nat25_find_pppoe_tag`, with the headers that it reads -/
def findPppoeTagLoop (data : List UInt8) (type cur : ℕ) : Option ℕ × List (ℕ × ℕ) :=
  if cur < be16At data PPPOE_LENGTH then
    if be16At data (PPPOE_TAGS + cur) = type then (some (PPPOE_TAGS + cur),[(PPPOE_TAGS + cur,TAG_HDR_LEN)])
    else
      let r := findPppoeTagLoop data type (cur + TAG_HDR_LEN + be16At data (PPPOE_TAGS + cur + 2))
      (r.1,(PPPOE_TAGS + cur,TAG_HDR_LEN) :: r.2)
  else (none,[])
termination_by be16At data PPPOE_LENGTH - cur
decreasing_by
  rw [TAG_HDR_LEN]
  omega

def findPppoeTag (data : List UInt8) (type : ℕ) : Option ℕ × List (ℕ × ℕ) := findPppoeTagLoop data type 0

/-- The two ranges of a `memmove` in the frame -/
def moved (src dst n : ℕ) : List (ℕ × ℕ) := [(src,n),(dst,n)]

def skbPullAndMerge (skb : Skb) (src len : ℕ) : Option Skb :=
  if src + len > skb.data.length ∨ skb.data.length < len then none
  else
    let data := patch skb.data src (skb.data.drop (src + len))
    some (skbTrim ⟨data,skb.room⟩ (skb.data.length - len))

/-- `ph->length = htons(ntohs(ph->length) + d)` -/
def addLength (data : List UInt8) (d : ℤ) : List UInt8 :=
  patch data PPPOE_LENGTH (be16Bytes ((be16At data PPPOE_LENGTH + d) % 65536).toNat)

/-- Bytes put into the memory `m` from `i` on -/
def putBytes (m : ℕ → UInt8) (i : ℕ) (bs : List UInt8) : ℕ → UInt8 :=
  fun j => if i ≤ j ∧ j < i + bs.length then byteAt bs (j - i) else m j

/-- `__nat25_add_pppoe_tag`: the host reads `tag_len` in its own byte order. -/
def addPppoeTag (skb : Skb) (tag : ℕ → UInt8) (frame buffer : List (ℕ × ℕ)) : PppoeRun :=
  let dataLen := (tag 2).toNat + 256 * (tag 3).toNat + TAG_HDR_LEN
  if skb.room.length < dataLen then ⟨-1,skb,frame,buffer ++ [(2,2)]⟩
  else
    let put := skbPut skb dataLen
    let length := be16At put.data PPPOE_LENGTH
    let data := patch put.data (PPPOE_TAGS + dataLen) (slice put.data PPPOE_TAGS length)
    let data := addLength data dataLen
    let data := patch data PPPOE_TAGS ((List.range dataLen).map tag)
    ⟨0,⟨data,put.room⟩,
      frame ++ moved PPPOE_TAGS (PPPOE_TAGS + dataLen) length ++ [(PPPOE_LENGTH,2),(PPPOE_TAGS,dataLen)],
      buffer ++ [(2,2),(0,dataLen)]⟩

/-- The relay tag is made in the work buffer and added. -/
def insertRelayTag (stack : ℕ → UInt8) (skb : Skb) (oldTagLen : ℕ) (frame buffer : List (ℕ × ℕ)) :
    PppoeRun :=
  let relay :=
    be16Bytes PTT_RELAY_SID ++ be16Bytes (MAGIC_CODE_LEN + RTL_RELAY_TAG_LEN + oldTagLen) ++ be16Bytes MAGIC_CODE ++
    slice skb.data ETH_ALEN ETH_ALEN
  addPppoeTag skb (putBytes stack 0 relay) (frame ++ [(ETH_ALEN,ETH_ALEN)]) (buffer ++ [(0,relay.length)])

/-- `NAT25_INSERT` of a PADI or PADR -/
def pppoeInsertDisc (stack : ℕ → UInt8) (skb : Skb) : PppoeRun :=
  let found := findPppoeTag skb.data PTT_RELAY_SID
  match found.1 with
  | none => insertRelayTag stack skb 0 ((PPPOE_LENGTH,2) :: found.2) []
  | some old =>
    let oldTagLen := be16At skb.data (old + 2)
    let frame := (PPPOE_LENGTH,2) :: found.2 ++ [(old + 2,2)]
    if oldTagLen + TAG_HDR_LEN + MAGIC_CODE_LEN + RTL_RELAY_TAG_LEN > TAG_BUF_LEN then ⟨-1,skb,frame,[]⟩
    else
      let data := TAG_HDR_LEN + MAGIC_CODE_LEN + RTL_RELAY_TAG_LEN
      let stack := putBytes stack data (slice skb.data (old + TAG_HDR_LEN) oldTagLen)
      let frame := frame ++ [(old + TAG_HDR_LEN,oldTagLen)]
      match skbPullAndMerge skb old (TAG_HDR_LEN + oldTagLen) with
      | none => ⟨-1,skb,frame,[(data,oldTagLen)]⟩
      | some merged =>
        let behind := old + TAG_HDR_LEN + oldTagLen
        insertRelayTag stack ⟨addLength merged.data (-(TAG_HDR_LEN + oldTagLen : ℕ)),merged.room⟩ oldTagLen
          (frame ++ moved behind old (skb.data.length - behind)) [(data,oldTagLen)]

/-- `NAT25_INSERT`: session frames go to the database, other discovery frames fail. -/
def pppoeInsert (session : Skb → PppoeRun) (stack : ℕ → UInt8) (skb : Skb) : PppoeRun :=
  if be16At skb.data (ETH_HLEN + 2) = 0 then
    if byteAt skb.data (ETH_HLEN + 1) = PADI_CODE ∨ byteAt skb.data (ETH_HLEN + 1) = PADR_CODE
      then pppoeInsertDisc stack skb
    else ⟨-1,skb,[],[]⟩
  else session skb

/-- `NAT25_LOOKUP` of a PADO or PADS -/
def pppoeLookupDisc (skb : Skb) : PppoeRun :=
  let found := findPppoeTag skb.data PTT_RELAY_SID
  let frame := (PPPOE_LENGTH,2) :: found.2
  match found.1 with
  | none => ⟨-1,skb,frame,[]⟩
  | some ptr =>
    let tagType := be16At skb.data ptr
    let tagLen := be16At skb.data (ptr + 2)
    let frame := frame ++ [(ptr,TAG_HDR_LEN)]
    if tagType ≠ PTT_RELAY_SID ∨ tagLen < MAGIC_CODE_LEN + RTL_RELAY_TAG_LEN then ⟨-1,skb,frame,[]⟩
    else
      let frame := frame ++ [(ptr + TAG_HDR_LEN,MAGIC_CODE_LEN)]
      if be16At skb.data (ptr + TAG_HDR_LEN) ≠ MAGIC_CODE then ⟨-1,skb,frame,[]⟩
      else
        let client := ptr + TAG_HDR_LEN + MAGIC_CODE_LEN
        let data := patch skb.data 0 (slice skb.data client ETH_ALEN)
        let frame := frame ++ moved client 0 ETH_ALEN
        let offset := if tagLen > MAGIC_CODE_LEN + RTL_RELAY_TAG_LEN then TAG_HDR_LEN else 0
        let cut := TAG_HDR_LEN + MAGIC_CODE_LEN + RTL_RELAY_TAG_LEN - offset
        match skbPullAndMerge ⟨data,skb.room⟩ (ptr + offset) cut with
        | none => ⟨-1,⟨data,skb.room⟩,frame,[]⟩
        | some merged =>
          let data := addLength merged.data (-cut)
          let frame := frame ++ moved (ptr + offset + cut) (ptr + offset) (skb.data.length - (ptr + offset + cut)) ++
            [(PPPOE_LENGTH,2)]
          if offset > 0 then
            ⟨0,⟨patch data (ptr + 2) (be16Bytes (tagLen - MAGIC_CODE_LEN - RTL_RELAY_TAG_LEN)),merged.room⟩,
              frame ++ [(ptr + 2,2)],[]⟩
          else ⟨0,⟨data,merged.room⟩,frame,[]⟩

/-- `NAT25_LOOKUP`: frames that are no PADO or PADS go to the database. -/
def pppoeLookup (session : Skb → PppoeRun) (skb : Skb) : PppoeRun :=
  if byteAt skb.data (ETH_HLEN + 1) = PADO_CODE ∨ byteAt skb.data (ETH_HLEN + 1) = PADS_CODE then pppoeLookupDisc skb
  else session skb

/-! ## Frames -/

structure PppoeTag where
  type : UInt16
  value : List UInt8
  short : value.length < 65536
  deriving DecidableEq

namespace PppoeTag

def bytes (t : PppoeTag) : List UInt8 := be16Bytes t.type.toNat ++ be16Bytes t.value.length ++ t.value

def flat (ts : List PppoeTag) : List UInt8 := ts.flatMap bytes

def isRelay (t : PppoeTag) : Bool := t.type.toNat = PTT_RELAY_SID

def relay (value : List UInt8) (short : value.length < 65536) : PppoeTag := ⟨UInt16.ofNat PTT_RELAY_SID,value,short⟩

variable {t u : PppoeTag} {ts us : List PppoeTag}

@[simp] theorem flat_nil : flat [] = [] := rfl

@[simp] theorem flat_cons : flat (t :: ts) = t.bytes ++ flat ts := rfl

@[simp] theorem flat_append : flat (ts ++ us) = flat ts ++ flat us := List.flatMap_append

@[simp] theorem length_bytes (t : PppoeTag) : t.bytes.length = TAG_HDR_LEN + t.value.length := by
  simp only [bytes, List.length_append]
  rfl

theorem be16At_type (t : PppoeTag) (rest : List UInt8) : be16At (t.bytes ++ rest) 0 = t.type.toNat := by
  have h : be16At (t.bytes ++ rest) 0 = be16At (be16Bytes t.type.toNat) 0 := rfl
  rw [h, be16At_be16Bytes t.type.toNat_lt]

theorem be16At_length (t : PppoeTag) (rest : List UInt8) : be16At (t.bytes ++ rest) 2 = t.value.length := by
  have h : be16At (t.bytes ++ rest) 2 = be16At (be16Bytes t.value.length) 0 := rfl
  rw [h, be16At_be16Bytes t.short]

theorem drop_bytes (t : PppoeTag) (rest : List UInt8) : (t.bytes ++ rest).drop TAG_HDR_LEN = t.value ++ rest := rfl

theorem bytes_append_inj {r r' : List UInt8} (h : t.bytes ++ r = u.bytes ++ r') : t = u ∧ r = r' := by
  have htype : t.type = u.type := by
    apply UInt16.toNat_inj.mp
    rw [← be16At_type t r, h, be16At_type]
  have hlen : t.value.length = u.value.length := by rw [← be16At_length t r, h, be16At_length]
  have hrest : t.value ++ r = u.value ++ r' := by rw [← drop_bytes t r, h, drop_bytes]
  obtain ⟨hvalue,hr⟩ := List.append_inj hrest hlen
  refine ⟨?_,hr⟩
  cases t
  cases u
  cases htype
  cases hvalue
  rfl

theorem flat_inj (h : flat ts = flat us) : ts = us := by
  induction ts generalizing us with
  | nil =>
    cases us with
    | nil => rfl
    | cons u us => cases h
  | cons t ts ih =>
    cases us with
    | nil => cases h
    | cons u us =>
      obtain ⟨rfl,hrest⟩ := bytes_append_inj h
      rw [ih hrest]

end PppoeTag
open PppoeTag

theorem be16At_drop (p : List UInt8) (i j : ℕ) : be16At (p.drop i) j = be16At p (i + j) := by
  rw [be16At, be16At, byteAt_drop, byteAt_drop]
  rfl

/-- The first relay tag is found, and only headers of tags are read for it. -/
theorem findPppoeTagLoop_flat {data rest : List UInt8} {pre post : List PppoeTag} {t : PppoeTag} {cur : ℕ}
    (hdata : data.drop (PPPOE_TAGS + cur) = flat (pre ++ t :: post) ++ rest)
    (hlength : be16At data PPPOE_LENGTH = cur + (flat (pre ++ t :: post)).length)
    (hpre : ∀ u ∈ pre, u.isRelay = false) (ht : t.isRelay = true) :
    (findPppoeTagLoop data PTT_RELAY_SID cur).1 = some (PPPOE_TAGS + cur + (flat pre).length) ∧
      ∀ r ∈ (findPppoeTagLoop data PTT_RELAY_SID cur).2, r.1 + r.2 ≤ data.length := by
  have hsize := congrArg List.length hdata
  rw [List.length_drop, List.length_append] at hsize
  have hhdr : TAG_HDR_LEN = 4 := rfl
  induction pre generalizing cur with
  | nil =>
    rw [List.nil_append, flat_cons, List.length_append, length_bytes] at hlength hsize
    have htype : be16At data (PPPOE_TAGS + cur) = PTT_RELAY_SID := by
      rw [← Nat.add_zero (PPPOE_TAGS + cur), ← be16At_drop, hdata, List.nil_append, flat_cons, List.append_assoc,
        be16At_type]
      exact of_decide_eq_true ht
    rw [findPppoeTagLoop, if_pos (by rw [hlength, TAG_HDR_LEN]; omega), if_pos htype]
    refine ⟨rfl,?_⟩
    intro r hr
    rw [List.mem_singleton.mp hr]
    omega
  | cons u pre ih =>
    rw [List.cons_append, flat_cons, List.length_append, length_bytes] at hlength hsize
    have hu : u.type.toNat ≠ PTT_RELAY_SID := of_decide_eq_false (hpre u List.mem_cons_self)
    have htype : be16At data (PPPOE_TAGS + cur) = u.type.toNat := by
      rw [← Nat.add_zero (PPPOE_TAGS + cur), ← be16At_drop, hdata, List.cons_append, flat_cons, List.append_assoc,
        be16At_type]
    have hskip : be16At data (PPPOE_TAGS + cur + 2) = u.value.length := by
      rw [← be16At_drop, hdata, List.cons_append, flat_cons, List.append_assoc, be16At_length]
    have hnext : data.drop (PPPOE_TAGS + (cur + TAG_HDR_LEN + u.value.length)) = flat (pre ++ t :: post) ++ rest := by
      have h := congrArg (List.drop u.bytes.length) hdata
      rw [List.cons_append, flat_cons, List.append_assoc, List.drop_left, List.drop_drop, length_bytes] at h
      rw [← h]
      congr 1
      omega
    obtain ⟨hfound,hreads⟩ := ih hnext (by rw [hlength]; omega) (fun v hv => hpre v (List.mem_cons_of_mem _ hv))
        (by omega)
    rw [findPppoeTagLoop, if_pos (by rw [hlength, TAG_HDR_LEN]; omega), if_neg (by rwa [htype]), hskip]
    refine ⟨?_,?_⟩
    · rw [hfound, flat_cons, List.length_append, length_bytes]
      congr 1
      omega
    · intro r hr
      rcases List.mem_cons.mp hr with rfl | hr
      · change PPPOE_TAGS + cur + TAG_HDR_LEN ≤ data.length
        omega
      · exact hreads r hr

theorem skbPullAndMerge_append (a b c room : List UInt8) :
    ∃ room', skbPullAndMerge ⟨a ++ b ++ c,room⟩ a.length b.length = some ⟨a ++ c,room'⟩ := by
  have hpatch : (patch (a ++ b ++ c) a.length c).take (a ++ c).length = a ++ c := by
    simp only [patch, List.length_append, List.append_assoc, List.take_left]
    rw [@List.take_of_length_le _ (a.length + (b.length + c.length) - a.length) c (by omega), ← List.append_assoc,
      List.take_left' (by rw [List.length_append])]
  refine ⟨(patch (a ++ b ++ c) a.length c).drop (a ++ c).length ++ room,?_⟩
  have hlen : (a ++ b ++ c).length - b.length = (a ++ c).length := by
    simp only [List.length_append]
    omega
  have hdrop : (a ++ b ++ c).drop (a.length + b.length) = c := by
    rw [← List.length_append, List.drop_left]
  rw [skbPullAndMerge, if_neg (by simp only [List.length_append]; omega)]
  simp only [skbTrim, hdrop, hlen, hpatch]

/-- What does not change of a PPPoE frame -/
structure PppoeHead where
  src : MacAddr
  proto : UInt16
  verType : UInt8
  code : UInt8
  sid : UInt16
  srcLen : src.length = ETH_ALEN

namespace PppoeHead

/-- The bytes before the length field -/
def front (h : PppoeHead) (dst : MacAddr) : List UInt8 :=
  dst ++ (h.src ++ (be16Bytes h.proto.toNat ++ ([h.verType,h.code] ++ be16Bytes h.sid.toNat)))

def frame (h : PppoeHead) (dst : MacAddr) (tags : List PppoeTag) (pad : List UInt8) : List UInt8 :=
  h.front dst ++ be16Bytes (flat tags).length ++ (flat tags ++ pad)

variable {h : PppoeHead} {dst : MacAddr} {rest : List UInt8} {n m : ℕ} {d : ℤ}

theorem length_front (h : PppoeHead) (hdst : dst.length = ETH_ALEN) : (h.front dst).length = PPPOE_LENGTH := by
  simp only [front, List.length_append, hdst, h.srcLen]
  rfl

theorem be16At_length (hdst : dst.length = ETH_ALEN) (hn : n < 65536) :
    be16At (h.front dst ++ be16Bytes n ++ rest) PPPOE_LENGTH = n := by
  rw [← Nat.add_zero PPPOE_LENGTH, ← be16At_drop, ← h.length_front hdst, List.append_assoc, List.drop_left]
  exact be16At_be16Bytes hn

theorem addLength_front (hdst : dst.length = ETH_ALEN) (hn : n < 65536) (hm : m < 65536) (hd : n + d = m) :
    addLength (h.front dst ++ be16Bytes n ++ rest) d = h.front dst ++ be16Bytes m ++ rest := by
  have hmod : ((n + d) % 65536).toNat = m := by omega
  rw [addLength, be16At_length hdst hn, hmod, ← h.length_front hdst]
  exact patch_middle rfl

theorem patch_dst {mac : MacAddr} (hdst : dst.length = ETH_ALEN) (hmac : mac.length = ETH_ALEN) :
    patch (h.front dst ++ rest) 0 mac = h.front mac ++ rest := by
  have hsplit : h.front dst ++ rest = [] ++ dst ++ ((h.front dst).drop ETH_ALEN ++ rest) := by
    rw [← List.append_assoc, List.nil_append, ← hdst, front, List.drop_left, ← List.append_assoc]
  have hnew : h.front mac ++ rest = [] ++ mac ++ ((h.front dst).drop ETH_ALEN ++ rest) := by
    rw [← List.append_assoc, List.nil_append, ← hdst, front, front, List.drop_left, ← List.append_assoc]
  rw [hsplit, hnew]
  exact patch_middle (hmac.trans hdst.symm)

end PppoeHead

structure PppoeFrame where
  head : PppoeHead
  dst : MacAddr
  tags : List PppoeTag
  pad : List UInt8
  dstLen : dst.length = ETH_ALEN
  fits : (flat tags).length < 65536

namespace PppoeFrame

def bytes (f : PppoeFrame) : List UInt8 := f.head.frame f.dst f.tags f.pad

variable {f : PppoeFrame} {pre post : List PppoeTag} {t : PppoeTag}

theorem be16At_length (f : PppoeFrame) : be16At f.bytes PPPOE_LENGTH = (flat f.tags).length :=
  PppoeHead.be16At_length f.dstLen f.fits

theorem drop_tags (f : PppoeFrame) : f.bytes.drop PPPOE_TAGS = flat f.tags ++ f.pad := by
  have h : (f.head.front f.dst ++ be16Bytes (flat f.tags).length).length = PPPOE_TAGS := by
    rw [List.length_append, f.head.length_front f.dstLen]
    rfl
  rw [bytes, PppoeHead.frame, ← h, List.drop_left]

theorem drop_header (f : PppoeFrame) :
    ∃ rest, f.bytes.drop ETH_HLEN = f.head.verType :: f.head.code :: (be16Bytes f.head.sid.toNat ++ rest) := by
  have hfront : (f.dst ++ f.head.src ++ be16Bytes f.head.proto.toNat).length = ETH_HLEN := by
    rw [List.length_append, List.length_append, f.dstLen, f.head.srcLen]
    rfl
  have hsplit : f.bytes = f.dst ++ f.head.src ++ be16Bytes f.head.proto.toNat ++ (f.head.verType :: f.head.code ::
      (be16Bytes f.head.sid.toNat ++ (be16Bytes (flat f.tags).length ++ (flat f.tags ++ f.pad)))) := by
    simp only [bytes, PppoeHead.frame, PppoeHead.front, List.append_assoc, List.cons_append, List.nil_append]
  exact ⟨_,by rw [hsplit, ← hfront, List.drop_left]⟩

theorem byteAt_code (f : PppoeFrame) : byteAt f.bytes (ETH_HLEN + 1) = f.head.code := by
  obtain ⟨rest,h⟩ := f.drop_header
  rw [← byteAt_drop, h]
  rfl

theorem be16At_sid (f : PppoeFrame) : be16At f.bytes (ETH_HLEN + 2) = f.head.sid.toNat := by
  obtain ⟨rest,h⟩ := f.drop_header
  rw [← be16At_drop, h]
  exact be16At_be16Bytes f.head.sid.toNat_lt

/-- What is in front of the first relay tag, with the destination `dst` and the length `n` -/
def before (f : PppoeFrame) (dst : MacAddr) (n : ℕ) (pre : List PppoeTag) : List UInt8 :=
  f.head.front dst ++ be16Bytes n ++ flat pre

theorem length_before {dst : MacAddr} (hdst : dst.length = ETH_ALEN) (n : ℕ) (pre : List PppoeTag) :
    (f.before dst n pre).length = PPPOE_TAGS + (flat pre).length := by
  rw [before, List.length_append, List.length_append, f.head.length_front hdst]
  rfl

theorem bytes_split (htags : f.tags = pre ++ t :: post) :
    f.bytes = f.before f.dst (flat f.tags).length pre ++ t.bytes ++ (flat post ++ f.pad) := by
  rw [bytes, PppoeHead.frame, before]
  conv_lhs => rw [htags]
  simp only [flat_append, flat_cons, List.append_assoc, htags]

end PppoeFrame

/-- The tag that is left when the magic code and the MAC are cut off -/
def PppoeTag.stripped (t : PppoeTag) : List PppoeTag :=
  if t.value.length > MAGIC_CODE_LEN + RTL_RELAY_TAG_LEN then
    [⟨t.type,t.value.drop (MAGIC_CODE_LEN + RTL_RELAY_TAG_LEN),by have := t.short; rw [List.length_drop]; omega⟩]
  else []

/-- A tag that the lookup takes for its own -/
def PppoeTag.Marked (t : PppoeTag) : Prop :=
  MAGIC_CODE_LEN + RTL_RELAY_TAG_LEN ≤ t.value.length ∧ be16At t.value 0 = MAGIC_CODE

def PppoeTag.client (t : PppoeTag) : MacAddr := slice t.value MAGIC_CODE_LEN ETH_ALEN

instance (t : PppoeTag) : Decidable t.Marked := by
  delta PppoeTag.Marked
  infer_instance

namespace PppoeFrame
variable {f : PppoeFrame} {pre post : List PppoeTag} {t : PppoeTag}

theorem length_client (ht : t.Marked) : t.client.length = ETH_ALEN := by
  rw [PppoeTag.client, length_slice_of_le]
  exact ht.1

/-- Where the first relay tag stands -/
def place (pre : List PppoeTag) : ℕ := PPPOE_TAGS + (flat pre).length

theorem drop_place (htags : f.tags = pre ++ t :: post) :
    f.bytes.drop (place pre) = t.bytes ++ (flat post ++ f.pad) := by
  rw [bytes_split htags, place, ← length_before f.dstLen (flat f.tags).length pre, List.append_assoc, List.drop_left]

theorem read_tag (htags : f.tags = pre ++ t :: post) :
    be16At f.bytes (place pre) = t.type.toNat ∧ be16At f.bytes (place pre + 2) = t.value.length ∧
      f.bytes.drop (place pre + TAG_HDR_LEN) = t.value ++ (flat post ++ f.pad) := by
  refine ⟨?_,?_,?_⟩
  · rw [← Nat.add_zero (place pre), ← be16At_drop, drop_place htags, PppoeTag.be16At_type]
  · rw [← be16At_drop, drop_place htags, PppoeTag.be16At_length]
  · rw [← List.drop_drop, drop_place htags, drop_bytes]

/-- The part of the tag that is cut out is taken out of the frame. -/
theorem pull_long (t : PppoeTag) (a rest room : List UInt8)
    (hlong : MAGIC_CODE_LEN + RTL_RELAY_TAG_LEN < t.value.length) :
    ∃ room', skbPullAndMerge ⟨a ++ t.bytes ++ rest,room⟩ (a.length + TAG_HDR_LEN)
      (MAGIC_CODE_LEN + RTL_RELAY_TAG_LEN) = some ⟨a ++ (be16Bytes t.type.toNat ++ be16Bytes t.value.length) ++
        (t.value.drop (MAGIC_CODE_LEN + RTL_RELAY_TAG_LEN) ++ rest),room'⟩ := by
  have hsplit : a ++ t.bytes ++ rest = a ++ (be16Bytes t.type.toNat ++ be16Bytes t.value.length) ++
      t.value.take (MAGIC_CODE_LEN + RTL_RELAY_TAG_LEN) ++
        (t.value.drop (MAGIC_CODE_LEN + RTL_RELAY_TAG_LEN) ++ rest) := by
    rw [PppoeTag.bytes, List.append_assoc _ (List.take _ _), ← List.append_assoc (List.take _ _),
      List.take_append_drop]
    simp only [List.append_assoc]
  have hfront : (a ++ (be16Bytes t.type.toNat ++ be16Bytes t.value.length)).length = a.length + TAG_HDR_LEN := by
    rw [List.length_append]
    rfl
  have hcut : (t.value.take (MAGIC_CODE_LEN + RTL_RELAY_TAG_LEN)).length = MAGIC_CODE_LEN + RTL_RELAY_TAG_LEN := by
    rw [List.length_take]
    omega
  rw [hsplit, ← hfront]
  conv => enter [1, room', 1, 3]; rw [← hcut]
  exact skbPullAndMerge_append _ _ _ _

theorem pull_whole (t : PppoeTag) (a rest room : List UInt8)
    (hlen : t.value.length = MAGIC_CODE_LEN + RTL_RELAY_TAG_LEN) :
    ∃ room', skbPullAndMerge ⟨a ++ t.bytes ++ rest,room⟩ a.length
      (TAG_HDR_LEN + MAGIC_CODE_LEN + RTL_RELAY_TAG_LEN) = some ⟨a ++ rest,room'⟩ := by
  have hcut : t.bytes.length = TAG_HDR_LEN + MAGIC_CODE_LEN + RTL_RELAY_TAG_LEN := by
    rw [PppoeTag.length_bytes, hlen]
    rfl
  rw [← hcut]
  exact skbPullAndMerge_append _ _ _ _

theorem lookup_long (hm : t.Marked) (htags : f.tags = pre ++ t :: post)
    (hlong : MAGIC_CODE_LEN + RTL_RELAY_TAG_LEN < t.value.length) :
    patch (addLength (f.before t.client (flat f.tags).length pre ++
        (be16Bytes t.type.toNat ++ be16Bytes t.value.length) ++
        (t.value.drop (MAGIC_CODE_LEN + RTL_RELAY_TAG_LEN) ++ (flat post ++ f.pad)))
          (-(MAGIC_CODE_LEN + RTL_RELAY_TAG_LEN : ℕ))) (place pre + 2)
        (be16Bytes (t.value.length - MAGIC_CODE_LEN - RTL_RELAY_TAG_LEN)) =
      f.head.frame t.client (pre ++ t.stripped ++ post) f.pad := by
  have hclient := length_client hm
  have hfits := f.fits
  have hsize :
      (flat f.tags).length = (flat (pre ++ t.stripped ++ post)).length + (MAGIC_CODE_LEN + RTL_RELAY_TAG_LEN) := by
    rw [htags, PppoeTag.stripped, if_pos hlong]
    simp only [flat_append, flat_cons, flat_nil, List.length_append, PppoeTag.length_bytes, List.length_drop,
      List.length_nil]
    omega
  have hvalue : t.value.length - MAGIC_CODE_LEN - RTL_RELAY_TAG_LEN =
      (t.value.drop (MAGIC_CODE_LEN + RTL_RELAY_TAG_LEN)).length := by
    rw [List.length_drop]
    omega
  rw [before, List.append_assoc, List.append_assoc,
    PppoeHead.addLength_front hclient hfits (show (flat (pre ++ t.stripped ++ post)).length < 65536 by omega)
      (by omega)]
  have hfront : (f.before t.client (flat (pre ++ t.stripped ++ post)).length pre ++ be16Bytes t.type.toNat).length =
      place pre + 2 := by
    rw [List.length_append, length_before hclient]
    rfl
  have hsplit : f.head.front t.client ++ be16Bytes (flat (pre ++ t.stripped ++ post)).length ++
        (flat pre ++ ((be16Bytes t.type.toNat ++ be16Bytes t.value.length) ++
          (t.value.drop (MAGIC_CODE_LEN + RTL_RELAY_TAG_LEN) ++ (flat post ++ f.pad)))) =
      f.before t.client (flat (pre ++ t.stripped ++ post)).length pre ++ be16Bytes t.type.toNat ++
        be16Bytes t.value.length ++
        (t.value.drop (MAGIC_CODE_LEN + RTL_RELAY_TAG_LEN) ++ (flat post ++ f.pad)) := by
    simp only [before, List.append_assoc]
  have hmid : (be16Bytes (t.value.length - MAGIC_CODE_LEN - RTL_RELAY_TAG_LEN)).length =
      (be16Bytes t.value.length).length := rfl
  rw [hsplit, ← hfront, patch_middle hmid, hvalue, PppoeHead.frame, before]
  generalize (flat (pre ++ t.stripped ++ post)).length = n
  rw [PppoeTag.stripped, if_pos hlong]
  simp only [PppoeTag.flat_append, PppoeTag.flat_cons, PppoeTag.flat_nil, PppoeTag.bytes, List.append_assoc,
    List.append_nil]

theorem lookup_whole (hm : t.Marked) (htags : f.tags = pre ++ t :: post)
    (hlen : t.value.length = MAGIC_CODE_LEN + RTL_RELAY_TAG_LEN) :
    addLength (f.before t.client (flat f.tags).length pre ++ (flat post ++ f.pad))
        (-(TAG_HDR_LEN + MAGIC_CODE_LEN + RTL_RELAY_TAG_LEN : ℕ)) =
      f.head.frame t.client (pre ++ t.stripped ++ post) f.pad := by
  have hfits := f.fits
  have hstrip : t.stripped = [] := by rw [PppoeTag.stripped, if_neg (by omega)]
  have hsize :
      (flat f.tags).length = (flat (pre ++ post)).length + (TAG_HDR_LEN + MAGIC_CODE_LEN + RTL_RELAY_TAG_LEN) := by
    rw [htags]
    simp only [flat_append, flat_cons, List.length_append, PppoeTag.length_bytes]
    omega
  rw [hstrip, List.append_nil, before, List.append_assoc,
    PppoeHead.addLength_front (length_client hm) hfits (show (flat (pre ++ post)).length < 65536 by omega) (by omega),
    PppoeHead.frame]
  simp only [flat_append, List.append_assoc]

/-- The lookup takes the first relay tag: it strips it when it is marked, and fails otherwise. -/
theorem pppoeLookupDisc_eq (f : PppoeFrame) (room : List UInt8) (htags : f.tags = pre ++ t :: post)
    (hpre : ∀ u ∈ pre, u.isRelay = false) (ht : t.isRelay = true) :
    (¬ t.Marked → (pppoeLookupDisc ⟨f.bytes,room⟩).ret = -1) ∧
      (t.Marked → (pppoeLookupDisc ⟨f.bytes,room⟩).ret = 0 ∧
        (pppoeLookupDisc ⟨f.bytes,room⟩).skb.data = f.head.frame t.client (pre ++ t.stripped ++ post) f.pad ∧
        ∀ r ∈ (pppoeLookupDisc ⟨f.bytes,room⟩).frame, r.1 + r.2 ≤ f.bytes.length) := by
  obtain ⟨hfound,hreads⟩ :=
    @findPppoeTagLoop_flat f.bytes f.pad pre post t 0 (by rw [Nat.add_zero, drop_tags, htags])
    (by rw [f.be16At_length, htags, Nat.zero_add]) hpre ht
  rw [Nat.add_zero] at hfound
  obtain ⟨htype,hlen,hvalue⟩ := read_tag htags
  have hrelay : t.type.toNat = PTT_RELAY_SID := of_decide_eq_true ht
  have hsize : f.bytes.length = place pre + (TAG_HDR_LEN + t.value.length) + ((flat post).length + f.pad.length) := by
    rw [bytes_split htags, List.length_append, List.length_append, length_before f.dstLen, PppoeTag.length_bytes,
      List.length_append]
    rfl
  have hmagic : 2 ≤ t.value.length → be16At f.bytes (place pre + TAG_HDR_LEN) = be16At t.value 0 := by
    intro h2
    rw [← Nat.add_zero (place pre + TAG_HDR_LEN), ← be16At_drop, hvalue, be16At, be16At, byteAt_append,
      if_pos (show 0 < t.value.length by omega), byteAt_append, if_pos (show 0 + 1 < t.value.length by omega)]
  have hplace : PPPOE_TAGS + (flat pre).length = place pre := rfl
  obtain ⟨hhdr,hmlen,hrtl,heth,hlengthAt,htagsAt,-⟩ := pppoe_sizes
  rw [pppoeLookupDisc, findPppoeTag, hfound]
  dsimp only
  rw [hplace, htype, hlen, hrelay]
  by_cases hmin : t.value.length < MAGIC_CODE_LEN + RTL_RELAY_TAG_LEN
  · rw [if_pos (Or.inr hmin)]
    exact ⟨fun _ => rfl,fun hm => absurd hm.1 (by omega)⟩
  rw [if_neg (by simp [hmin]), hmagic (by rw [MAGIC_CODE_LEN] at hmin; omega)]
  by_cases hcode : be16At t.value 0 = MAGIC_CODE
  · have hm : t.Marked := ⟨le_of_not_gt hmin,hcode⟩
    have hclient : slice f.bytes (place pre + TAG_HDR_LEN + MAGIC_CODE_LEN) ETH_ALEN = t.client := by
      have hinside : MAGIC_CODE_LEN + ETH_ALEN ≤ t.value.length := hm.1
      rw [slice, ← List.drop_drop, hvalue, PppoeTag.client, ← slice_append_left hinside]
      rfl
    have hdata :
        patch f.bytes 0 t.client = f.before t.client (flat f.tags).length pre ++ t.bytes ++ (flat post ++ f.pad) := by
      rw [bytes_split htags, before, before]
      simp only [List.append_assoc]
      exact PppoeHead.patch_dst f.dstLen (length_client hm)
    have hbefore : (f.before t.client (flat f.tags).length pre).length = place pre :=
      length_before (length_client hm) _ _
    rw [if_neg (not_not_intro hcode), hclient, hdata]
    refine ⟨fun h => absurd hm h,fun _ => ?_⟩
    by_cases hlong : t.value.length > MAGIC_CODE_LEN + RTL_RELAY_TAG_LEN
    · obtain ⟨room',hpull⟩ := pull_long t (f.before t.client (flat f.tags).length pre)
          (flat post ++ f.pad) room hlong
      have hcut : TAG_HDR_LEN + MAGIC_CODE_LEN + RTL_RELAY_TAG_LEN - TAG_HDR_LEN = MAGIC_CODE_LEN + RTL_RELAY_TAG_LEN :=
        rfl
      rw [hbefore] at hpull
      rw [if_pos hlong, hcut, hpull]
      dsimp only
      rw [if_pos (show TAG_HDR_LEN > 0 by decide)]
      refine ⟨rfl,lookup_long hm htags hlong,?_⟩
      simp only [List.forall_mem_append, List.forall_mem_cons, moved, List.not_mem_nil,
        false_imp_iff, implies_true, and_true]
      refine ⟨⟨⟨⟨⟨⟨⟨?_,hreads⟩,?_⟩,?_⟩,?_⟩,?_⟩,?_⟩,?_⟩
      all_goals omega
    · obtain ⟨room',hpull⟩ := pull_whole t (f.before t.client (flat f.tags).length pre) (flat post ++ f.pad) room
        (by have := hm.1; omega)
      rw [hbefore] at hpull
      rw [if_neg hlong, Nat.add_zero, Nat.sub_zero, hpull]
      dsimp only
      rw [if_neg (lt_irrefl 0)]
      refine ⟨rfl,lookup_whole hm htags (by have := hm.1; omega),?_⟩
      simp only [List.forall_mem_append, List.forall_mem_cons, moved, List.not_mem_nil,
        false_imp_iff, implies_true, and_true]
      refine ⟨⟨⟨⟨⟨⟨?_,hreads⟩,?_⟩,?_⟩,?_⟩,?_⟩,?_⟩
      all_goals omega
  · rw [if_pos hcode]
    exact ⟨fun _ => rfl,fun hm => absurd hm.2 hcode⟩

end PppoeFrame

/-- The work buffer is read beyond its end, unless the call fails: the host's reading of the
length of the tag is 256 times too big. -/
theorem insertRelayTag_overruns (stack : ℕ → UInt8) (skb : Skb) {oldTagLen : ℕ} (frame buffer : List (ℕ × ℕ))
    (hold : oldTagLen + TAG_HDR_LEN + MAGIC_CODE_LEN + RTL_RELAY_TAG_LEN ≤ TAG_BUF_LEN) :
    (insertRelayTag stack skb oldTagLen frame buffer).ret = -1 ∨
      ∃ r ∈ (insertRelayTag stack skb oldTagLen frame buffer).buffer, r.1 + r.2 > TAG_BUF_LEN := by
  obtain ⟨hhdr,hmlen,hrtl,-,-,-,hbuf⟩ := pppoe_sizes
  have hn : MAGIC_CODE_LEN + RTL_RELAY_TAG_LEN + oldTagLen < 256 := by omega
  rw [insertRelayTag]
  generalize hrelay : be16Bytes PTT_RELAY_SID ++ be16Bytes (MAGIC_CODE_LEN + RTL_RELAY_TAG_LEN + oldTagLen) ++
    be16Bytes MAGIC_CODE ++ slice skb.data ETH_ALEN ETH_ALEN = relay
  have hlow : putBytes stack 0 relay 2 = 0 := by
    rw [putBytes, if_pos (by rw [← hrelay]; simp [be16Bytes]), ← hrelay]
    change UInt8.ofNat ((MAGIC_CODE_LEN + RTL_RELAY_TAG_LEN + oldTagLen) / 256) = 0
    rw [Nat.div_eq_of_lt hn]
    rfl
  have hhigh : (putBytes stack 0 relay 3).toNat = MAGIC_CODE_LEN + RTL_RELAY_TAG_LEN + oldTagLen := by
    rw [putBytes, if_pos (by rw [← hrelay]; simp [be16Bytes]), ← hrelay]
    change (UInt8.ofNat (MAGIC_CODE_LEN + RTL_RELAY_TAG_LEN + oldTagLen)).toNat = _
    rw [UInt8.toNat_ofNat']
    exact Nat.mod_eq_of_lt hn
  rw [addPppoeTag, hlow, hhigh]
  split
  · exact Or.inl rfl
  · refine Or.inr ⟨_,List.mem_append_right _ (List.mem_cons_of_mem _ List.mem_cons_self),?_⟩
    change 0 + (0 + 256 * (MAGIC_CODE_LEN + RTL_RELAY_TAG_LEN + oldTagLen) + TAG_HDR_LEN) > TAG_BUF_LEN
    omega

theorem pppoeInsertDisc_overruns (stack : ℕ → UInt8) (skb : Skb) :
    (pppoeInsertDisc stack skb).ret = -1 ∨ ∃ r ∈ (pppoeInsertDisc stack skb).buffer, r.1 + r.2 > TAG_BUF_LEN := by
  rw [pppoeInsertDisc]
  dsimp only
  split
  · exact insertRelayTag_overruns stack skb _ _ (by decide)
  · split
    · exact Or.inl rfl
    · rename_i hfit
      split
      · exact Or.inl rfl
      · exact insertRelayTag_overruns _ _ _ _ (le_of_not_gt hfit)

theorem PppoeHead.frame_inj {h : PppoeHead} {dst dst' : MacAddr} {ts us : List PppoeTag} {pad : List UInt8}
    (hdst : dst.length = ETH_ALEN) (hdst' : dst'.length = ETH_ALEN) (heq : h.frame dst ts pad = h.frame dst' us pad) :
    dst = dst' ∧ ts = us := by
  rw [PppoeHead.frame, PppoeHead.frame, List.append_assoc, List.append_assoc] at heq
  obtain ⟨hfront,hrest⟩ := List.append_inj heq ((h.length_front hdst).trans (h.length_front hdst').symm)
  refine ⟨(List.append_inj hfront (hdst.trans hdst'.symm)).1,?_⟩
  have htags := (List.append_inj hrest rfl).2
  exact flat_inj (List.append_cancel_right htags)

/-- A station behind the bridge, with the value of the relay tag that it sends -/
structure RelayClient where
  mac : MacAddr
  relay : Option (List UInt8)
  macLen : mac.length = ETH_ALEN
  fits : (relay.getD []).length + TAG_HDR_LEN + MAGIC_CODE_LEN + RTL_RELAY_TAG_LEN ≤ TAG_BUF_LEN

namespace RelayClient
variable {c : RelayClient}

theorem short (c : RelayClient) : (c.relay.getD []).length < 65500 := by
  have h := c.fits
  have hbuf : TAG_BUF_LEN = 40 := rfl
  omega

/-- The tag with the magic code and the MAC -/
def echo (c : RelayClient) : PppoeTag :=
  PppoeTag.relay (be16Bytes MAGIC_CODE ++ c.mac ++ c.relay.getD []) (by
    have h := c.short
    rw [List.length_append, List.length_append, c.macLen]
    change 2 + 6 + _ < _
    omega)

/-- The relay tag as the client sends it, if it sends one -/
def own (c : RelayClient) : List PppoeTag :=
  if c.relay.isSome then [PppoeTag.relay (c.relay.getD []) (by have := c.short; omega)] else []

theorem length_echo (c : RelayClient) :
    c.echo.value.length = MAGIC_CODE_LEN + RTL_RELAY_TAG_LEN + (c.relay.getD []).length := by
  rw [echo, PppoeTag.relay, List.length_append, List.length_append, c.macLen]
  rfl

theorem marked_echo (c : RelayClient) : c.echo.Marked :=
  ⟨by rw [length_echo]; omega,by rfl⟩

theorem client_echo (c : RelayClient) : c.echo.client = c.mac :=
  slice_middle rfl c.macLen

theorem echo_notMem_own (c : RelayClient) : c.echo ∉ c.own := by
  intro h
  rw [own] at h
  split at h
  · have hlen := congrArg (List.length ∘ PppoeTag.value) (List.mem_singleton.mp h)
    rw [Function.comp_apply, length_echo] at hlen
    change _ = (c.relay.getD []).length at hlen
    have hsizes := pppoe_sizes
    omega
  · cases h

/-- Cutting the magic code and the MAC off restores the tag of the client, unless it was empty. -/
theorem stripped_echo (c : RelayClient) : c.echo.stripped = c.own ↔ c.relay ≠ some [] := by
  have hlen := c.length_echo
  rw [PppoeTag.stripped, own]
  by_cases hv : c.relay.getD [] = []
  · rw [if_neg (by rw [hlen, hv]; exact lt_irrefl _)]
    by_cases hsome : c.relay.isSome = true
    · obtain ⟨v,hr⟩ := Option.isSome_iff_exists.mp hsome
      rw [if_pos hsome]
      rw [hr] at hv
      exact iff_of_false (by simp) (not_not_intro (hr.trans (congrArg some hv)))
    · rw [if_neg hsome]
      exact iff_of_true rfl (fun h => hsome (by rw [h]; rfl))
  · have hsome : c.relay.isSome = true := by
      cases hr : c.relay with
      | none => exact absurd (by rw [hr]; rfl) hv
      | some v => rfl
    have hpos := List.length_pos_of_ne_nil hv
    have hdrop : c.echo.value.drop (MAGIC_CODE_LEN + RTL_RELAY_TAG_LEN) = c.relay.getD [] := by
      have hfront : (be16Bytes MAGIC_CODE ++ c.mac).length = MAGIC_CODE_LEN + RTL_RELAY_TAG_LEN := by
        rw [List.length_append, c.macLen]
        rfl
      rw [echo, PppoeTag.relay, ← hfront, List.drop_left]
    rw [if_pos (by rw [hlen]; omega), if_pos hsome]
    simp only [hdrop]
    refine iff_of_true rfl (fun h => hv ?_)
    rw [h]
    rfl

end RelayClient

/-- The insert succeeds, with exactly the relay tag that it should carry, and stays in the frame
and in the work buffer. -/
structure Relayed (c : RelayClient) (run : PppoeRun) : Prop where
  ret : run.ret = 0
  tags : ∃ g : PppoeFrame, run.skb.data = g.bytes ∧ g.tags.filter isRelay = [c.echo]
  inFrame : ∀ r ∈ run.frame, r.1 + r.2 ≤ run.skb.data.length
  inBuffer : ∀ r ∈ run.buffer, r.1 + r.2 ≤ TAG_BUF_LEN

/-- The lookup sends the frame `g` to the client and restores its own tag between the others. -/
structure Returned (c : RelayClient) (g : PppoeFrame) (pre post : List PppoeTag) (run : PppoeRun) : Prop where
  ret : run.ret = 0
  data : run.skb.data = g.head.frame c.mac (pre ++ c.own ++ post) g.pad
  inFrame : ∀ r ∈ run.frame, r.1 + r.2 ≤ g.bytes.length

theorem returned_iff {session : Skb → PppoeRun} {c : RelayClient} {g : PppoeFrame} {room : List UInt8}
    {pre post : List PppoeTag}
    (hcode : g.head.code = PADO_CODE ∨ g.head.code = PADS_CODE) (htags : g.tags = pre ++ c.echo :: post)
    (hfirst : c.echo ∉ pre) :
    Returned c g pre post (pppoeLookup session ⟨g.bytes,room⟩) ↔ c.relay ≠ some [] ∧
    ∀ t ∈ pre, t.isRelay = false := by
  have hlook : pppoeLookup session ⟨g.bytes,room⟩ = pppoeLookupDisc ⟨g.bytes,room⟩ := by
    rw [pppoeLookup, PppoeFrame.byteAt_code, if_pos hcode]
  rw [hlook]
  have hecho : c.echo.isRelay = true := by rfl
  constructor
  · intro hret
    have hpre : ∀ t ∈ pre, t.isRelay = false := by
      intro u hu
      by_contra hurelay
      -- the first relay tag is not the echoed one, which then stays as it is
      obtain ⟨t,ht⟩ :=
        Option.isSome_iff_exists.mp (List.find?_isSome.mpr ⟨u,hu,Bool.eq_true_of_not_eq_false hurelay⟩)
      obtain ⟨htrelay,p,q,hpq,hp⟩ := List.find?_eq_some_iff_append.mp ht
      have hsplit : g.tags = p ++ t :: (q ++ c.echo :: post) := by rw [htags, hpq, List.append_assoc, List.cons_append]
      obtain ⟨hunmarked,hstripped⟩ :=
        PppoeFrame.pppoeLookupDisc_eq g room hsplit (fun v hv => by simpa using hp v hv) htrelay
      have hmarked : t.Marked := by
        by_contra hm
        exact absurd ((hunmarked hm).symm.trans hret.ret) (by decide)
      have hsame := (hstripped hmarked).2.1.symm.trans hret.data
      have htagsEq := (PppoeHead.frame_inj (PppoeFrame.length_client hmarked) c.macLen hsame).2
      rw [hpq] at htagsEq hfirst
      have hcut : (p ++ t.stripped ++ q) ++ [c.echo] = p ++ t :: q ++ c.own := by
        have hall : (p ++ t.stripped ++ q) ++ [c.echo] ++ post = p ++ t :: q ++ c.own ++ post := by
          simpa only [List.append_assoc, List.cons_append, List.nil_append] using htagsEq
        exact List.append_cancel_right hall
      have hmem : c.echo ∈ p ++ t :: q ++ c.own := by
        rw [← hcut]
        exact List.mem_append_right _ List.mem_cons_self
      rcases List.mem_append.mp hmem with h | h
      · exact hfirst h
      · exact c.echo_notMem_own h
    refine ⟨?_,hpre⟩
    obtain ⟨-,hdata,-⟩ := (PppoeFrame.pppoeLookupDisc_eq g room htags hpre hecho).2 c.marked_echo
    have hsame := hdata.symm.trans hret.data
    have heq := (PppoeHead.frame_inj (PppoeFrame.length_client c.marked_echo) c.macLen hsame).2
    rw [← c.stripped_echo]
    exact List.append_cancel_left (List.append_cancel_right heq)
  · rintro ⟨hempty,hpre⟩
    obtain ⟨hret,hdata,hreads⟩ := (PppoeFrame.pppoeLookupDisc_eq g room htags hpre hecho).2 c.marked_echo
    rw [c.client_echo, c.stripped_echo.mpr hempty] at hdata
    exact ⟨hret,hdata,hreads⟩

theorem not_relayed (session : Skb → PppoeRun) (stack : ℕ → UInt8) (c : RelayClient) {f : PppoeFrame}
    (room : List UInt8)
    (hsid : f.head.sid = 0) : ¬ Relayed c (pppoeInsert session stack ⟨f.bytes,room⟩) := by
  intro hrel
  have hoff : (pppoeInsert session stack ⟨f.bytes,room⟩).ret = -1 ∨
      ∃ r ∈ (pppoeInsert session stack ⟨f.bytes,room⟩).buffer, r.1 + r.2 > TAG_BUF_LEN := by
    rw [pppoeInsert, f.be16At_sid, hsid, if_pos (by rfl)]
    split
    · exact pppoeInsertDisc_overruns stack _
    · exact Or.inl rfl
  rcases hoff with h | ⟨r,hr,hover⟩
  · exact absurd (h.symm.trans hrel.ret) (by decide)
  · exact absurd (hrel.inBuffer r hr) (not_le_of_gt hover)

/-- No insert adds the relay tag that it should; the lookup of a frame that echoes that tag works
exactly when the client did not send an empty one and no other relay tag stands before. -/
theorem pppoe_relay_iff (session : Skb → PppoeRun) (stack : ℕ → UInt8) (c : RelayClient) {f g : PppoeFrame}
    (room room' : List UInt8) {pre post : List PppoeTag} (hsid : f.head.sid = 0)
    (hcode : g.head.code = PADO_CODE ∨ g.head.code = PADS_CODE) (htags : g.tags = pre ++ c.echo :: post)
    (hfirst : c.echo ∉ pre) :
    ¬ Relayed c (pppoeInsert session stack ⟨f.bytes,room⟩) ∧
      (Returned c g pre post (pppoeLookup session ⟨g.bytes,room'⟩) ↔
        c.relay ≠ some [] ∧ ∀ t ∈ pre, t.isRelay = false) :=
  ⟨not_relayed session stack c room hsid,returned_iff hcode htags hfirst⟩

/-- A client that sends no relay tag, its PADI with a service name, and the PADO to it -/
def plainClient : RelayClient := ⟨[2,0,0,0,0,7],none,rfl,by decide⟩

def plainPadi : PppoeFrame where
  head := ⟨[2,0,0,0,0,7],0x8863,0x11,PADI_CODE,0,rfl⟩
  dst := [255,255,255,255,255,255]
  tags := [⟨0x0101,[],by decide⟩]
  pad := []
  dstLen := rfl
  fits := by decide

/-- The access concentrator that answers -/
def concentratorAddr : MacAddr := [2,0,0,0,0,9]

def plainPado : PppoeFrame where
  head := ⟨concentratorAddr,0x8863,0x11,PADO_CODE,0,rfl⟩
  dst := [2,0,0,0,0,1]
  tags := [⟨0x0101,[],by decide⟩,plainClient.echo,⟨0x0102,[65],by decide⟩]
  pad := []
  dstLen := rfl
  fits := by decide

theorem pppoe_relay_plain :
    ¬ Relayed plainClient (pppoeInsert (fun skb => ⟨-1,skb,[],[]⟩)
      (fun _ => 0) ⟨plainPadi.bytes,List.replicate 64 0⟩) ∧
      (Returned plainClient plainPado [⟨0x0101,[],by decide⟩] [⟨0x0102,[65],by decide⟩]
        (pppoeLookup (fun skb => ⟨-1,skb,[],[]⟩) ⟨plainPado.bytes,[]⟩) ↔
          plainClient.relay ≠ some [] ∧ ∀ t ∈ [(⟨0x0101,[],by decide⟩ : PppoeTag)], t.isRelay = false) :=
  pppoe_relay_iff _ _ plainClient _ [] rfl (Or.inl rfl) rfl (by decide)

theorem padi_not_relayed :
    ¬ Relayed plainClient (pppoeInsert (fun skb => ⟨-1,skb,[],[]⟩)
      (fun _ => 0) ⟨plainPadi.bytes,List.replicate 64 0⟩) :=
  not_relayed _ _ _ _ rfl

end Rtl8188fu

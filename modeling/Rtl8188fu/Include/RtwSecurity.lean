import Rtl8188fu.Include.RtwRecv

/-! # Keys and stations

The parts of `security_priv`, `sta_info` and `sta_priv` that the receive and transmit
paths use. A key is its sixteen bytes as a list.
-/
namespace Rtl8188fu

abbrev Keytype := List UInt8

def WEP_KEYS : ℕ := 4

/-- The values of `dot11AuthAlgrthm` -/
inductive AuthAlgrthm
  | openSystem
  | shared
  | ieee8021X
  | auto
  | wapi
  deriving DecidableEq, Repr

structure SecurityPriv where
  dot11AuthAlgrthm : AuthAlgrthm
  dot11PrivacyAlgrthm : EncryAlgo
  dot11PrivacyKeyIndex : ℕ
  dot11DefKey : ℕ → Keytype
  dot11DefKeylen : ℕ → ℕ
  dot118021XGrpPrivacy : EncryAlgo
  dot118021XGrpKeyid : ℕ
  dot118021XGrpKey : ℕ → Keytype
  dot118021XGrprxmickey : ℕ → Keytype
  dot118021XGrptxmickey : ℕ → Keytype
  dot11wBIPKeyid : ℕ
  dot11wBIPKey : ℕ → Keytype
  binstallGrpkey : Bool
  binstallBIPkey : Bool
  busetkipkey : Bool
  swDecrypt : Bool
  swEncrypt : Bool
  hwDecrypted : Bool
  /-- `SEC_STATUS_STA_PK_GK_CONFLICT_DIS_BMC_SEARCH` of the flags in `cam_ctl` -/
  disBmcSearch : Bool
  /-- `ndisauthtype == Ndis802_11AuthModeWPAPSK` -/
  authModeWpaPsk : Bool
  /-- `ndisencryptstatus` is `Ndis802_11Encryption2Enabled` or `Ndis802_11Encryption3Enabled` -/
  encryption23Enabled : Bool
  bWepDefaultKeyIdxSet : Bool

structure StaInfo where
  ieee8021xBlocked : Bool
  dot118021XPrivacy : EncryAlgo
  dot11tkiprxmickey : Keytype
  dot11tkiptxmickey : Keytype
  dot118021xUncstKey : Keytype
  bpairwiseKeyInstalled : Bool
  /-- `_FW_LINKED` of the state -/
  fwLinked : Bool
  /-- the value of `union pn48`, a 64-bit integer -/
  dot11txpn : ℕ
  txseqTid : ℕ → ℕ

/-- The station hash, by address -/
abbrev StaPriv := MacAddr → Option StaInfo

def bcAddr : MacAddr := [0xff, 0xff, 0xff, 0xff, 0xff, 0xff]

/-- The hash entry that `rtw_get_stainfo` looks for -/
def staKey (hwaddr : MacAddr) : MacAddr := if isMcast hwaddr then bcAddr else hwaddr

def rtwGetStainfo (stapriv : StaPriv) (hwaddr : MacAddr) : Option StaInfo := stapriv (staKey hwaddr)

def getEncryAlgo (sec : SecurityPriv) (psta : StaInfo) (bmcst : Bool) : EncryAlgo :=
  match sec.dot11AuthAlgrthm with
  | .openSystem | .shared | .auto | .wapi => sec.dot11PrivacyAlgrthm
  | .ieee8021X => if bmcst then sec.dot118021XGrpPrivacy else psta.dot118021XPrivacy

/-- The security state of a station in an open network -/
def openSecurity : SecurityPriv where
  dot11AuthAlgrthm := .openSystem
  dot11PrivacyAlgrthm := .noPrivacy
  dot11PrivacyKeyIndex := 0
  dot11DefKey := fun _ => []
  dot11DefKeylen := fun _ => 0
  dot118021XGrpPrivacy := .noPrivacy
  dot118021XGrpKeyid := 0
  dot118021XGrpKey := fun _ => []
  dot118021XGrprxmickey := fun _ => []
  dot118021XGrptxmickey := fun _ => []
  dot11wBIPKeyid := 0
  dot11wBIPKey := fun _ => []
  binstallGrpkey := false
  binstallBIPkey := false
  busetkipkey := false
  swDecrypt := true
  swEncrypt := false
  hwDecrypted := false
  disBmcSearch := false
  authModeWpaPsk := false
  encryption23Enabled := false
  bWepDefaultKeyIdxSet := false

/-- The security state of a WPA2 station with a group key in slot 1 -/
def wpaSecurity : SecurityPriv :=
  { openSecurity with
    dot11AuthAlgrthm := .ieee8021X
    dot11PrivacyAlgrthm := .aes
    dot118021XGrpPrivacy := .aes
    dot118021XGrpKeyid := 1
    dot118021XGrpKey := fun _ => List.replicate 16 2
    binstallGrpkey := true
    swEncrypt := true
    encryption23Enabled := true }

/-- The access point of such a station -/
def ccmpPeer : StaInfo where
  ieee8021xBlocked := false
  dot118021XPrivacy := .aes
  dot11tkiprxmickey := []
  dot11tkiptxmickey := []
  dot118021xUncstKey := List.replicate 16 1
  bpairwiseKeyInstalled := true
  fwLinked := true
  dot11txpn := 1
  txseqTid := fun _ => 0

def apAddr : MacAddr := [2, 0, 0, 0, 0, 2]
def ownAddr : MacAddr := [2, 0, 0, 0, 0, 1]

end Rtl8188fu

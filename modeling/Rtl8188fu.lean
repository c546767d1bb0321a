import Rtl8188fu.Library.SerialOrder
import Rtl8188fu.Library.Bytes
import Rtl8188fu.Library.Run
import Rtl8188fu.Include.Wifi
import Rtl8188fu.Include.RtwRecv
import Rtl8188fu.Recv.EthHdr
import Rtl8188fu.Recv.Reorder
import Rtl8188fu.Recv.ReorderWindow
import Rtl8188fu.Recv.ReorderRun
import Rtl8188fu.Include.RtwSecurity
import Rtl8188fu.Security.Michael
import Rtl8188fu.Recv.Defrag
import Rtl8188fu.Recv.DefragRun
import Rtl8188fu.Library.Placement
import Rtl8188fu.Recv.Mgmt
import Rtl8188fu.Recv.RecvFunc
import Rtl8188fu.Recv.DataHdr
import Rtl8188fu.Recv.Pool
import Rtl8188fu.Recv.PoolRun
import Rtl8188fu.Library.KeyStream
import Rtl8188fu.Security.Aes
import Rtl8188fu.Security.Ccmp
import Rtl8188fu.Security.AesInjective
import Rtl8188fu.Security.CcmpUndo
import Rtl8188fu.Include.RtwXmit
import Rtl8188fu.Xmit.SecInfo
import Rtl8188fu.Xmit.Attrib
import Rtl8188fu.Security.SetKey
import Rtl8188fu.Xmit.Coalesce
import Rtl8188fu.Xmit.WlanHdrFields
import Rtl8188fu.Xmit.MsduRoundTrip
import Rtl8188fu.Xmit.FragmentWalk
import Rtl8188fu.Xmit.TkipFrame
import Rtl8188fu.Xmit.TkipUndo
import Rtl8188fu.Xmit.TkipRun
import Rtl8188fu.Xmit.PacketNumbers
import Rtl8188fu.Security.Arc4
import Rtl8188fu.Security.Tkip
import Rtl8188fu.Recv.DecryptGate
import Rtl8188fu.Ieee80211.GetIe
import Rtl8188fu.Ieee80211.ParseElems
import Rtl8188fu.Security.Omac
import Rtl8188fu.Security.Bip
import Rtl8188fu.Recv.MgmtRun
import Rtl8188fu.Xmit.MgmtCoalesce
import Rtl8188fu.Library.PartialRun
import Rtl8188fu.Security.Cam
import Rtl8188fu.Security.CamRun
import Rtl8188fu.Ap.StaTable
import Rtl8188fu.Ap.StaTableInv
import Rtl8188fu.Ap.StaTableRun
import Rtl8188fu.Ap.BssCap
import Rtl8188fu.Ap.StaTracks
import Rtl8188fu.Ap.BssCapRun
import Rtl8188fu.Ap.BcnTim
import Rtl8188fu.Ap.BcnIe
import Rtl8188fu.Efuse.Efuse
import Rtl8188fu.Library.Scanner
import Rtl8188fu.Library.Tlv
import Rtl8188fu.Library.CellLoop
import Rtl8188fu.Efuse.EfuseWalk
import Rtl8188fu.Efuse.EfuseAgree
import Rtl8188fu.Usb.RxAgg
import Rtl8188fu.Bridge.PppoeRelay
import Rtl8188fu.Bridge.NdOptions
import Rtl8188fu.Hal.TxPower
import Rtl8188fu.Ap.AuthRun
import Rtl8188fu.Library.Chains
import Rtl8188fu.Bridge.Nat25Run
import Rtl8188fu.Mlme.ScanRun
import Rtl8188fu.Cmd.CmdRun
import Rtl8188fu.P2p.GoNegoRun
import Rtl8188fu.Cfg80211.Pmksa
import Rtl8188fu.Ieee80211.VendorAttr
import Rtl8188fu.Ieee80211.SecIe
import Rtl8188fu.Ieee80211.DelVendorIe
import Rtl8188fu.Ieee80211.RemoveIe
import Rtl8188fu.Ieee80211.P2pMerge
import Rtl8188fu.Ieee80211.ParseSecIe
import Rtl8188fu.Recv.Amsdu
import Rtl8188fu.Ieee80211.ElemSearch
import Rtl8188fu.Library.InOrder
import Rtl8188fu.P2p.ChannelList
import Rtl8188fu.P2p.PsSchedule
import Rtl8188fu.P2p.PsRun
import Rtl8188fu.Recv.DataFrame
import Rtl8188fu.Recv.ShortFrame
import Rtl8188fu.Pwrctrl.PowerSave
import Rtl8188fu.Cfg80211.Connect
import Rtl8188fu.Cfg80211.ConnectRun
import Rtl8188fu.Mlme.ElemCopies
import Rtl8188fu.Library.VisitLoop
import Rtl8188fu.Mlme.FrameWalks
import Rtl8188fu.Library.MarkedMerge
import Rtl8188fu.Mlme.ChannelPlan
import Rtl8188fu.Library.Logged
import Rtl8188fu.P2p.AttrContent
import Rtl8188fu.P2p.AttrCopies
import Rtl8188fu.Cmd.SessionTracker
import Rtl8188fu.Library.Streak
import Rtl8188fu.Library.OnesSum
import Rtl8188fu.Mlme.BeaconKeys
import Rtl8188fu.Mlme.RestructSecIe
import Rtl8188fu.Bridge.Checksums
import Rtl8188fu.Ieee80211.DelP2pAttr
import Rtl8188fu.Cfg80211.Inject
import Rtl8188fu.Cfg80211.AddKey
import Rtl8188fu.P2p.CheckFrames
import Rtl8188fu.Hal.PowerLimitExact
import Rtl8188fu.Hal.ParaFilesContained
import Rtl8188fu.Hal.RsvdPageLayout
import Rtl8188fu.Recv.RadiotapDecode
import Rtl8188fu.OsDep.Cbuf
import Rtl8188fu.Security.AesAgree
import Rtl8188fu.Library.QueueBank
import Rtl8188fu.Xmit.TxQueues
import Rtl8188fu.Xmit.TxMoves
import Rtl8188fu.Xmit.TxRun
import Rtl8188fu.Xmit.TxTim
import Rtl8188fu.Xmit.TxOrder
import Rtl8188fu.Xmit.Aggregate
import Rtl8188fu.Library.CondBlocks
import Rtl8188fu.Hal.RegTable
import Rtl8188fu.Mlme.ClntJoin
import Rtl8188fu.Mlme.ClntLink
import Rtl8188fu.Mlme.ClntJoinRun
import Rtl8188fu.Mlme.ClntRuns
import Rtl8188fu.Efuse.EfuseAppend
import Rtl8188fu.Efuse.EfuseStore

import Mac80211.Wpa.AadAgreement
import Mac80211.Tx.Status
import Mac80211.Tx.Unlinkability
import Mac80211.Rx.ReorderOrder
import Mac80211.Agg.RxSession
import Mac80211.PowerSave.Sleepers
import Mac80211.Tx.AmsduRoundTrip
import Mac80211.Keys.Reinstall
import Mac80211.Queues.Bookkeeping
import Mac80211.Reg.DatabaseBounds
import Mac80211.Agg.TxInvariant
import Mac80211.Scan.NontransRun
import Mac80211.Scan.Buffers
import Mac80211.Scan.TreeRun
import Mac80211.Randomizer.AddressMap
import Mac80211.Randomizer.Agreement
import Mac80211.Offchannel.RocList
import Mac80211.Tx.QueuedKeys
import Mac80211.Randomizer.RoundTrip
import Mac80211.Rx.PairTable
import Mac80211.Randomizer.HeaderBytes
import Mac80211.Rx.FilteredMarks
import Mac80211.Convert.EthernetBounds
import Mac80211.Rx.Reassembly
import Mac80211.Tx.Trains
import Mac80211.PowerSave.Tim
import Mac80211.Tx.Multicast
import Mac80211.Sta.MoveState
import Mac80211.Tx.Airtime
import Mac80211.PowerSave.MoreData
import Mac80211.Tx.PendingRuns
import Mac80211.Elems.Inherited
import Mac80211.Scan.FailedUpdate
import Mac80211.Reg.MaxBandwidth
import Mac80211.Radiotap.Bounded
import Mac80211.Elems.P2pSplit
import Mac80211.Iface.CombinationsExact
import Mac80211.Keys.FailedLink
import Mac80211.Keys.TailroomRuns
import Mac80211.Chan.Compatible
import Mac80211.Mesh.Rmc
import Mac80211.Mesh.PathSelection
import Mac80211.Mesh.PeerAdmission
import Mac80211.Mesh.LinkAccounting
import Mac80211.Elems.WantedProfile
import Mac80211.Wpa.Tkip
import Mac80211.Agg.PendingKept
import Mac80211.Chan.ContextUnwind
import Mac80211.Chan.ContextCompletes
import Mac80211.Offchannel.RocCombine
import Mac80211.Rate.MinstrelRange
import Mac80211.Rate.MinstrelSupported

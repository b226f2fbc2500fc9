import W2lDriver.Lib.System
import W2lDriver.Lib.Execution
import W2lDriver.Cmd.Machine
import W2lDriver.Cmd.Structure
import W2lDriver.Cmd.Pcie
import W2lDriver.Cmd.Deferred
import W2lDriver.Cmd.DeferredRun
import W2lDriver.Cmd.Lifetime
import W2lDriver.Cmd.Ownership
import W2lDriver.Cmd.Confirm
import W2lDriver.Cmd.ConfirmRun
import W2lDriver.Ipc.HostId
import W2lDriver.Lib.Extract
import W2lDriver.Rx.Reorder
import W2lDriver.Rx.Ring
import W2lDriver.Rx.Walk
import W2lDriver.Lib.Aggregate
import W2lDriver.Tx.Pages
import W2lDriver.Amsdu.Header
import W2lDriver.Amsdu.Queue
import W2lDriver.Amsdu.QueueRun
import W2lDriver.Amsdu.Layout
import W2lDriver.Amsdu.Size
import W2lDriver.Sched.Types
import W2lDriver.Sched.Txq
import W2lDriver.Sched.Push
import W2lDriver.Sched.Confirm
import W2lDriver.Sched.Frame
import W2lDriver.Sched.Ledger
import W2lDriver.Sched.Handover
import W2lDriver.Lib.Custody
import W2lDriver.Xmit.Release
import W2lDriver.Xmit.ReleaseRun
import W2lDriver.Lib.Slots
import W2lDriver.Tcp.Session
import W2lDriver.Tx.Resize
import W2lDriver.Tcp.Machine
import W2lDriver.Tcp.Release
import W2lDriver.Tcp.Thinning
import W2lDriver.Lib.RecordRing
import W2lDriver.Trace.Copy
import W2lDriver.Trace.Ring
import W2lDriver.P2p.Chanlist
import W2lDriver.Radar.Short
import W2lDriver.Radar.ShortRun
import W2lDriver.Pci.Rxbuf
import W2lDriver.Pci.Rxdataind
import W2lDriver.Pci.RxAccount
import W2lDriver.Chan.Context
import W2lDriver.Chan.Events
import W2lDriver.Gate.Channel
import W2lDriver.Gate.ChannelRun
import W2lDriver.Gate.Suspend
import W2lDriver.Lib.Heap
import W2lDriver.Roc.Lifecycle
import W2lDriver.Chan.Cac
import W2lDriver.Chan.CacRun
import W2lDriver.Chsw.Ownership
import W2lDriver.Rx.Timeouts
import W2lDriver.Scan.Completion
import W2lDriver.Usb.ReadPointer
import W2lDriver.Usb.HandOff
import W2lDriver.Sdio.Windows
import W2lDriver.Lib.Waiting
import W2lDriver.Recy.Reload
import W2lDriver.Sdio.Interleaving
import W2lDriver.Recy.Retries
import W2lDriver.Recy.Doit
import W2lDriver.Sched.CreditUpdate
import W2lDriver.Amsdu.RoundTrip
import W2lDriver.Amsdu.Special
import W2lDriver.Rx.Payload
import W2lDriver.Amsdu.Reduce
import W2lDriver.Key.Hits
import W2lDriver.Vif.Callbacks
import W2lDriver.Vif.ProcFlags
import W2lDriver.Lib.BitMap
import W2lDriver.Mu.Groups
import W2lDriver.Mu.Membership
import W2lDriver.Conn.Facts
import W2lDriver.Sta.Table
import W2lDriver.Sta.Lifecycle
import W2lDriver.Tcp.Options
import W2lDriver.Tx.CfmScan
import W2lDriver.Scan.Payload
import W2lDriver.Lib.Layout
import W2lDriver.Rx.Radiotap
import W2lDriver.Sta.Removal
import W2lDriver.P2p.Walkers
import W2lDriver.P2p.Exact
import W2lDriver.P2p.Restore
import W2lDriver.Radar.Long
import W2lDriver.Radar.Timestamps
import W2lDriver.Radar.ShortComplete
import W2lDriver.Tx.CfmWindow
import W2lDriver.Mu.Budget
import W2lDriver.Roc.Cookies
import W2lDriver.Lib.Packing
import W2lDriver.Sdio.Scatter
import W2lDriver.Cali.Content
import W2lDriver.Cali.Items
import W2lDriver.Lib.Element
import W2lDriver.Conn.FtMerge
import W2lDriver.Lib.ElementEdit
import W2lDriver.Scc.Chandef
import W2lDriver.Scc.Beacon
import W2lDriver.Scc.HtIe
import W2lDriver.Scc.Sync
import W2lDriver.Scc.CsaBeacon
import W2lDriver.Scc.Shared
import W2lDriver.Scc.SharedRun
import W2lDriver.Lib.FlaggedList
import W2lDriver.Sched.Links
import W2lDriver.Sched.Relink
import W2lDriver.Sched.Wakeups
import W2lDriver.Rx.Napi
import W2lDriver.Rx.NapiRun
import W2lDriver.Cfg.File
import W2lDriver.Cfg.RoundTrip
import W2lDriver.Fw.AllOrError
import W2lDriver.Conn.Request
import W2lDriver.Conn.Sizing
import W2lDriver.Recy.SavedAssoc
import W2lDriver.Recy.OneConnect
import W2lDriver.Bcn.Build
import W2lDriver.Bcn.Atomic
import W2lDriver.Usb.Batch
import W2lDriver.Usb.BatchRun
import W2lDriver.Cmd.Answers
import W2lDriver.Cmd.AnswersRun
import W2lDriver.Lib.Reserved
import W2lDriver.Tdls.Frame
import W2lDriver.Tdls.Elements
import W2lDriver.Tdls.WellFormed
import W2lDriver.Radar.Multiple
import W2lDriver.Conn.Rsne
import W2lDriver.Iwpriv.Phrase
import W2lDriver.Lib.LastRing
import W2lDriver.Radar.PulseRing
import W2lDriver.Radar.Pool
import W2lDriver.Radar.PoolRun
import W2lDriver.Lib.Loops
import W2lDriver.Mu.Select
import W2lDriver.Lib.WorkList
import W2lDriver.Wq.Works

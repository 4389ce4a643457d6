import KvmGuestDrivers.NetKvm.ChecksumVerify
import KvmGuestDrivers.NetKvm.FlowState
import KvmGuestDrivers.NetKvm.RssConfig
import KvmGuestDrivers.NetKvm.RssHash
import KvmGuestDrivers.NetKvm.TxDrain
import KvmGuestDrivers.VioFs.Write
import KvmGuestDrivers.VioGpu.BlobMapping
import KvmGuestDrivers.VioGpu.BltCopy
import KvmGuestDrivers.VioGpu.CtrlQueueSgList
import KvmGuestDrivers.VioGpu.CtrlQueueWakeup
import KvmGuestDrivers.VioGpu.Escape
import KvmGuestDrivers.VioGpu.FenceOrder
import KvmGuestDrivers.VioGpu.Preemption
import KvmGuestDrivers.VioGpu.Render
import KvmGuestDrivers.VioGpu.ShmemInvariant
import KvmGuestDrivers.VioMem.Bitmap
import KvmGuestDrivers.VioScsi.Completion
import KvmGuestDrivers.VioSock.AcceptQueue
import KvmGuestDrivers.VioSock.PendedRequest
import KvmGuestDrivers.VioSock.RxRestart
import KvmGuestDrivers.VioSock.RxStream
import KvmGuestDrivers.VioSock.RxWakeup
import KvmGuestDrivers.VioSock.Select
import KvmGuestDrivers.VioSock.SharedTimer
import KvmGuestDrivers.VioSock.TxAccounting
import KvmGuestDrivers.VioSock.TxAnnounce
import KvmGuestDrivers.VioStor.BuildIo
import KvmGuestDrivers.VioStor.Completion
import KvmGuestDrivers.VioStor.Unmap
import KvmGuestDrivers.VirtIO.Callbacks
import KvmGuestDrivers.VirtIO.Notification
import KvmGuestDrivers.VirtIO.PciModern
import KvmGuestDrivers.VirtIO.RingEquivalence
import KvmGuestDrivers.VirtIO.SplitDeviceView

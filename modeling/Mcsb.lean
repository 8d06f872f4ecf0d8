import Mcsb.Manager.Failures
import Mcsb.Manager.Groups
import Mcsb.Manager.DropReports
import Mcsb.Manager.Playback
import Mcsb.Manager.Observers
import Mcsb.Manager.Announcing
import Mcsb.Manager.Overdraft
import Mcsb.Manager.Trackers
import Mcsb.Lib.Effect
import Mcsb.Wire.Writing
import Mcsb.Shm.Layout
import Mcsb.Client.Reassembly
import Mcsb.Client.Agreement
import Mcsb.Manager.Audit
import Mcsb.Wire.Decoding
import Mcsb.Client.Timing
import Mcsb.Client.Checksums
import Mcsb.Client.SendManager
import Mcsb.Client.Descriptors
import Mcsb.Client.SendHistory
import Mcsb.Lib.Cells
import Mcsb.Client.Scatter
import Mcsb.Manager.WantedQueues
import Mcsb.Lib.ShiftRegister
import Mcsb.Client.Crc32c
import Mcsb.Manager.ManagerParams
import Mcsb.Client.NumSlabs
import Mcsb.Manager.GroupIDs
import Mcsb.Lib.DoublyLinked
import Mcsb.Client.IntrusiveList
import Mcsb.Client.HandedOut
import Mcsb.Client.RecvDescriptors
import Mcsb.Client.SendClient
import Mcsb.Client.SendDescriptors
import Mcsb.Client.Ownership
import Mcsb.Lib.Channel
import Mcsb.Client.SequenceTokens
import Mcsb.Manager.SlabRequests
import Mcsb.Manager.ServiceOrder
import Mcsb.Manager.Delivery
import Mcsb.Manager.Accounting

import Xen2mx.Lib.Runs
import Xen2mx.Lib.Tiling
import Xen2mx.Xenback.Delivery
import Xen2mx.Xenfront.Failures
import Xen2mx.Xenfront.Pairing
import Xen2mx.Pull.Agreement
import Xen2mx.Pull.Completion
import Xen2mx.Eventq.Recvq
import Xen2mx.Eventq.Transit
import Xen2mx.Matching.Order
import Xen2mx.Recvring.Balance
import Xen2mx.Recv.Refinement
import Xen2mx.Xenreg.Hostile
import Xen2mx.Xenreg.Frontend
import Xen2mx.Xenreg.Message
import Xen2mx.Xenreg.Transport
import Xen2mx.Xenreg.Unwinding
import Xen2mx.Lifecycle.Backend
import Xen2mx.Lifecycle.Counted
import Xen2mx.Lifecycle.Frontend
import Xen2mx.Lifecycle.HandleSteps
import Xen2mx.Lifecycle.PullHandle
import Xen2mx.Lifecycle.PullReferences
import Xen2mx.Lifecycle.Released
import Xen2mx.Lifecycle.XenRegion
import Xen2mx.Isend.Order
import Xen2mx.Isend.LargeSlots
import Xen2mx.Request.CleanedUp
import Xen2mx.Recvpath.Layout
import Xen2mx.Connect.Keys
import Xen2mx.Ctxid.Search
import Xen2mx.Sendq.Credits
import Xen2mx.Sendq.Slots
import Xen2mx.Eventq.Laps
import Xen2mx.Peers.Reverse
import Xen2mx.Progress.Timeouts
import Xen2mx.Segments.Medium
import Xen2mx.Segments.Checksum
import Xen2mx.Segments.Chunks
import Xen2mx.Sendq.Contents
import Xen2mx.Regcache.Coherent
import Xen2mx.Regcache.Resume
import Xen2mx.Resend.Order
import Xen2mx.Isend.Acks
import Xen2mx.Early.Drain
import Xen2mx.Session.Delivery
import Xen2mx.Reassembly.Completion
import Xen2mx.Pull.Slots
import Xen2mx.Pull.Hostile
import Xen2mx.Pull.Timer
import Xen2mx.Region.OffsetCache
import Xen2mx.Region.Copy
import Xen2mx.Region.Pinning
import Xen2mx.Medium.Reassembly
import Xen2mx.Medium.Shared
import Xen2mx.Medium.Vector
import Xen2mx.Grants.Mediumva
import Xen2mx.Grants.Cookies
import Xen2mx.Grants.Balance
import Xen2mx.Wait.Woken

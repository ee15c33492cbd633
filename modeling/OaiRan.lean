import OaiRan.Rlc.Um.RxAccounting
import OaiRan.Rlc.Um.RoundTrip
import OaiRan.Rlc.Am.RxAccounting
import OaiRan.Rlc.Reestablishment
import OaiRan.Pdcp.EndToEnd
import OaiRan.Mac.DlCollision
import OaiRan.Mac.UlCollision
import OaiRan.UeMac.MuxSafety
import OaiRan.UeMac.BsrEndToEnd
import OaiRan.UeMac.HarqCodebook
import OaiRan.UeMac.DlPdu
import OaiRan.UeMac.UlConfig
import OaiRan.Nfapi.Message
import OaiRan.Gtpu.RoundTrip
import OaiRan.Sdap.EndMarkers
import OaiRan.Sdap.Link
import OaiRan.Phy.Segmentation
import OaiRan.F1ap.RoundTrip
import OaiRan.Rlc.Um.ReassemblyTimer
import OaiRan.Rlc.Am.PollTimer
import OaiRan.Nas.Uplink
import OaiRan.Rlc.Am.StatusReport
import OaiRan.Common.ResourceIndication
import OaiRan.Mac.HarqBits
import OaiRan.Mac.Msg4
import OaiRan.Mac.NbRbSearch
import OaiRan.Mac.Pdcch
import OaiRan.Mac.PucchRing
import OaiRan.Nfapi.P7Time
import OaiRan.Nfapi.P7History
import OaiRan.Nfapi.SlotBuffer
import OaiRan.Phy.SlotTiming
import OaiRan.Phy.TxBurst
import OaiRan.Phy.Scrambling
import OaiRan.Phy.UlschDecoding

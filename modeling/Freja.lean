import Freja.Replay.TamperEvidence
import Freja.Proxy.Generations
import Freja.Wire.Recognition
import Freja.Proxy.Secrecy
import Freja.Socks.Handshake
import Freja.Proxy.Conservation
import Freja.Wire.ResponseCapture
import Freja.Proxy.Repetition
import Freja.Policy.HostLabels
import Freja.Proxy.Authority
import Freja.Proxy.ClosingRecords
import Freja.Ui.Workspaces
import Freja.Ui.EditorTarget
import Freja.Replay.LineLimit
import Freja.Replay.OfflineDecisions
import Freja.Audit.SinkFailures
import Freja.Proxy.HopByHop
import Freja.Wire.EventOrder
import Freja.Policy.KeepingHooks
import Freja.Tls.LeafCache
import Freja.Ui.ShownBodies
import Freja.Policy.Evidence

import P2pTunnler.Lib.Machine
import P2pTunnler.Lib.FinTable
import P2pTunnler.Lib.BigEndian
import P2pTunnler.Lib.Files
import P2pTunnler.Lib.Text
import P2pTunnler.Lib.Line
import P2pTunnler.Lib.Settle
import P2pTunnler.Lib.Project
import P2pTunnler.Lib.Watch
import P2pTunnler.Net
import P2pTunnler.Probe
import P2pTunnler.ProbeLemmas
import P2pTunnler.ProbeSound
import P2pTunnler.ReplySound
import P2pTunnler.ScheduleSound
import P2pTunnler.Network
import P2pTunnler.Transport
import P2pTunnler.TransportSound
import P2pTunnler.Record
import P2pTunnler.Candidates
import P2pTunnler.ListenerSound
import P2pTunnler.CandidatesSound
import P2pTunnler.Dht
import P2pTunnler.Stun.Codec
import P2pTunnler.Stun.CodecSound
import P2pTunnler.Stun.TotalSound
import P2pTunnler.Stun.Encode
import P2pTunnler.Stun.EncodeSound
import P2pTunnler.Stun.Lookup
import P2pTunnler.UdpSocket
import P2pTunnler.Service
import P2pTunnler.ServiceLemmas
import P2pTunnler.RouterSound
import P2pTunnler.Stun.LookupSound
import P2pTunnler.Gather
import P2pTunnler.GatingSound
import P2pTunnler.PathsSound
import P2pTunnler.ConfineSound
import P2pTunnler.FanoutSound
import P2pTunnler.Keygen
import P2pTunnler.KeygenSound
import P2pTunnler.Routes
import P2pTunnler.RoutesSound
import P2pTunnler.Mapping
import P2pTunnler.MappingSound
import P2pTunnler.RefineSound
import P2pTunnler.FlowSound
import P2pTunnler.ProgressSound
import P2pTunnler.GatherSound
import P2pTunnler.Tunnel
import P2pTunnler.TunnelSound
import P2pTunnler.HandshakeSound
import P2pTunnler.AckSound
import P2pTunnler.Startup
import P2pTunnler.StartupSound
import P2pTunnler.UdpSound
import P2pTunnler.Pacing
import P2pTunnler.PacingSound
import P2pTunnler.DeliverySound
import P2pTunnler.TransitSound
import P2pTunnler.Config
import P2pTunnler.ConfigSound

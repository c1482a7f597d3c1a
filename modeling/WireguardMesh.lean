import WireguardMesh.Agent.Isolation
import WireguardMesh.Agent.RetrySlot
import WireguardMesh.Api.AgentConfig
import WireguardMesh.Api.LoginLimit
import WireguardMesh.Conn.Addressed
import WireguardMesh.Conn.PacketCodec
import WireguardMesh.Conn.Reload
import WireguardMesh.Conn.Replay
import WireguardMesh.Conn.TransportPush
import WireguardMesh.Device.Ratelimiter
import WireguardMesh.Device.Receive
import WireguardMesh.Device.ReplayFilter
import WireguardMesh.Device.SendNonce
import WireguardMesh.Hub.ConfigPush
import WireguardMesh.Hub.Presence
import WireguardMesh.Hub.UpdateAck
import WireguardMesh.NatGw.NestedDial
import WireguardMesh.Pathsel.Failover
import WireguardMesh.Plan.Answers
import WireguardMesh.Plan.BindModes
import WireguardMesh.Plan.Delivery
import WireguardMesh.Plan.Dialing
import WireguardMesh.Stats.Conservation
import WireguardMesh.Store.PlanCache
import WireguardMesh.Store.Rollup
import WireguardMesh.Store.Swap
import WireguardMesh.Tun.Checksum
import WireguardMesh.Tunnel.EndpointKept
import WireguardMesh.Wire.RoundTrip

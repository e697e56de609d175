import HeptaVcn.Relay.PacketBoundaries
import HeptaVcn.Relay.Lifecycle
import HeptaVcn.Handshake.NonceGate
import HeptaVcn.Handshake.Injection
import HeptaVcn.Handshake.Sessions
import HeptaVcn.App.OneLive
import HeptaVcn.Store.Frozen
import HeptaVcn.App.SavedEndpoint
import HeptaVcn.Settings.CapturedApps
import HeptaVcn.App.RunStatus
import HeptaVcn.Socks5.Destination
import HeptaVcn.Native.ControlStream
import HeptaVcn.Handshake.Failure
import HeptaVcn.Native.ClosedOnce
import HeptaVcn.Store.RowNotifications
import HeptaVcn.Socks5.Datagrams
import HeptaVcn.Socks5.FailedDial
import HeptaVcn.Handshake.ProcessTree
import HeptaVcn.Native.PortSearch
import HeptaVcn.Relay.Integrity
import HeptaVcn.Handshake.Agreement
import HeptaVcn.Socks5.ReadFully
import HeptaVcn.Socks5.AddressText
import HeptaVcn.Store.ServerBook
import HeptaVcn.Settings.SettingsScreen
import HeptaVcn.Handshake.Isolation
import HeptaVcn.Handshake.Routing
import HeptaVcn.Handshake.Completion
import HeptaVcn.Relay.Progress

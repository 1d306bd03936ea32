import PermanentIP.Lib.OrdSet
import PermanentIP.Lib.Run
import PermanentIP.Lib.Channel
import PermanentIP.Lib.AssocMap
import PermanentIP.Lib.LastWrite
import PermanentIP.Lib.Decimal
import PermanentIP.Lib.Format
import PermanentIP.Lib.SlotTable
import PermanentIP.Lib.Polling
import PermanentIP.Common.Types
import PermanentIP.Common.Signal
import PermanentIP.Common.Socket
import PermanentIP.Common.Descriptors
import PermanentIP.Common.Utils
import PermanentIP.Common.Trim
import PermanentIP.Common.Log
import PermanentIP.Common.Interfaces
import PermanentIP.RendezvousServer.SimpleRendezvousServer
import PermanentIP.RendezvousServer.RequestLog
import PermanentIP.MobileNode.SimpleMobileNode
import PermanentIP.MobileNode.SubscriptionLog
import PermanentIP.MobileNode.ConnectToServer
import PermanentIP.Proofs.AddressParser
import PermanentIP.Proofs.AddressCodec
import PermanentIP.Proofs.Trim
import PermanentIP.Proofs.CurrentAddress
import PermanentIP.Proofs.Log
import PermanentIP.Proofs.ServerCalls
import PermanentIP.Proofs.Subscriptions
import PermanentIP.Proofs.ServerWire
import PermanentIP.Spec.Directory
import PermanentIP.Proofs.Registry
import PermanentIP.Proofs.NodeCalls
import PermanentIP.Proofs.Outstanding
import PermanentIP.Applications.EchoApp
import PermanentIP.Applications.MessageLog
import PermanentIP.Proofs.EchoCalls
import PermanentIP.Proofs.Printable
import PermanentIP.System.SharedSocket
import PermanentIP.Proofs.SubscriberStream
import PermanentIP.System.Device
import PermanentIP.System.StationarySubscriber
import PermanentIP.System.Resend
import PermanentIP.System.StartLoop
import PermanentIP.System.Sessions
import PermanentIP.System.TwoNodes
import PermanentIP.Proofs.Requests
import PermanentIP.Proofs.Framing
import PermanentIP.System.UpdateSockets
import PermanentIP.Proofs.ConnectToServer
import PermanentIP.Proofs.RequestPeer
import PermanentIP.Proofs.ConnectCleanUp
import PermanentIP.Proofs.PollCalls
import PermanentIP.Proofs.ClientLog
import PermanentIP.Proofs.PollIndependence
import PermanentIP.Proofs.ServerSize
import PermanentIP.System.Draining
import PermanentIP.System.Heartbeats
import PermanentIP.System.HeartbeatLoss
import PermanentIP.System.MovingHeartbeats
import PermanentIP.System.Lifetime
import PermanentIP.Proofs.Start
import PermanentIP.DNS.SimpleDNS
import PermanentIP.DNS.RequestLog
import PermanentIP.Proofs.NameService
import PermanentIP.Proofs.NameServerLog
import PermanentIP.Proofs.NameServerStart
import PermanentIP.System.Peers
import PermanentIP.System.Serving
import PermanentIP.System.Resolution
import PermanentIP.System.ResolvesInCall
import PermanentIP.System.CallCompletes
import PermanentIP.System.Followers
import PermanentIP.Spec.Board
import PermanentIP.Proofs.Traffic
import PermanentIP.System.ManyServers
import PermanentIP.System.Wire
import PermanentIP.Deployment.Programs
import PermanentIP.Proofs.ServerLog
import PermanentIP.Proofs.LoggedRequests

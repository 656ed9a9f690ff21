import ForwardProxy.Core.Transition
import ForwardProxy.Core.GoString
import ForwardProxy.Core.NetIP
import ForwardProxy.Core.HostPort
import ForwardProxy.Acl.Rule
import ForwardProxy.Acl.Policy
import ForwardProxy.Dial.Feed
import ForwardProxy.Dial.Race
import ForwardProxy.Dial.Ownership
import ForwardProxy.Dial.Safety
import ForwardProxy.Dial.Spacing
import ForwardProxy.Dial.Wakeup
import ForwardProxy.Core.Loop
import ForwardProxy.Core.Result
import ForwardProxy.Core.Stream
import ForwardProxy.Padding.Copy
import ForwardProxy.Padding.Frames
import ForwardProxy.Padding.RoundTrip
import ForwardProxy.Core.Header
import ForwardProxy.Core.Prog
import ForwardProxy.HttpClient.Dialer
import ForwardProxy.HttpClient.Results
import ForwardProxy.HttpClient.Tunnels
import ForwardProxy.HttpClient.Isolation
import ForwardProxy.Core.Base64
import ForwardProxy.Serve.Auth
import ForwardProxy.Serve.ServeHTTP
import ForwardProxy.Serve.Credentials
import ForwardProxy.Serve.HopByHop
import ForwardProxy.Serve.DefaultPort
import ForwardProxy.Acl.Labels
import ForwardProxy.Acl.Spelling
import ForwardProxy.ConnectUdp.Accounting
import ForwardProxy.Dial.Exhaustion
import ForwardProxy.Serve.Privacy
import ForwardProxy.Core.AddrText
import ForwardProxy.Core.URLHost
import ForwardProxy.Dial.Interleave
import ForwardProxy.Dial.PopAll
import ForwardProxy.Dial.Refinement
import ForwardProxy.ConnectUdp.Canonical
import ForwardProxy.ConnectUdp.SamePolicy
import ForwardProxy.ConnectUdp.Datagram
import ForwardProxy.ConnectUdp.Gauges
import ForwardProxy.ConnectUdp.PeakRace
import ForwardProxy.ConnectUdp.Pump
import ForwardProxy.Tunnel.DualStream
import ForwardProxy.Tunnel.Loops
import ForwardProxy.Tunnel.Relay
import ForwardProxy.Serve.Passage
import ForwardProxy.Setup.BasicAuth
import ForwardProxy.Setup.Caddyfile
import ForwardProxy.Setup.Provision
import ForwardProxy.Setup.TextualOrder
import ForwardProxy.Serve.Announced
import ForwardProxy.Serve.Release
import ForwardProxy.Padding.Pooled
import ForwardProxy.Padding.Truncated
import ForwardProxy.Padding.EmptyReads
import ForwardProxy.Core.Networks
import ForwardProxy.Core.Decimal
import ForwardProxy.Acl.Subject
import ForwardProxy.Core.BufReader
import ForwardProxy.Core.TextReader
import ForwardProxy.HttpClient.Handover
import ForwardProxy.HttpClient.Orphans
import ForwardProxy.Dial.Returned
import ForwardProxy.Dial.Status
import ForwardProxy.Dial.TotalFailure
import ForwardProxy.ConnectUdp.Teardown
import ForwardProxy.Core.Watchdog
import ForwardProxy.ConnectUdp.IdleTimer
import ForwardProxy.ConnectUdp.LifeRelay
import ForwardProxy.ConnectUdp.EndToEnd
import ForwardProxy.Core.PathEscape
import ForwardProxy.ConnectUdp.Open
import ForwardProxy.ConnectUdp.Outcome
import ForwardProxy.Core.Interp
import ForwardProxy.HttpClient.Granted
import ForwardProxy.Serve.Chain
import ForwardProxy.Serve.Disclosure
import ForwardProxy.Serve.PlainUpstream
import ForwardProxy.HttpClient.Provenance
import ForwardProxy.Setup.UpstreamDialer
import ForwardProxy.Core.Fairness
import ForwardProxy.Dial.Termination
import ForwardProxy.Core.Doubling
import ForwardProxy.ConnectUdp.EventLog
import ForwardProxy.ConnectUdp.ClientBudget
import ForwardProxy.Serve.Reply
import ForwardProxy.Setup.Reach

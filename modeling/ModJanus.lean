import ModJanus.Lib.Transition
import ModJanus.Basic
import ModJanus.Json
import ModJanus.Api.Decode
import ModJanus.Api.Dispatch
import ModJanus.Ws.Context
import ModJanus.Ws.Machine
import ModJanus.Lib.Mailbox
import ModJanus.Ws.Slot
import ModJanus.Ws.Conservation
import ModJanus.Ws.Order
import ModJanus.Ws.Slices
import ModJanus.Ws.Keepalive
import ModJanus.Leg.Gate
import ModJanus.Lib.Census
import ModJanus.Poll.Totality
import ModJanus.Hash
import ModJanus.Leg.Interleaving
import ModJanus.Leg.Handlers
import ModJanus.Leg.Prepares
import ModJanus.Leg.GateRun
import ModJanus.Leg.Window
import ModJanus.Server.Thread
import ModJanus.Server.Machine
import ModJanus.Server.Lookup
import ModJanus.Server.Senders
import ModJanus.Server.Counters
import ModJanus.Server.Continuity
import ModJanus.Lib.Cursor
import ModJanus.Server.Teardown
import ModJanus.Poll.Cycle
import ModJanus.Poll.SessionLoss
import ModJanus.Api.Auth
import ModJanus.Api.SignToken
import ModJanus.Api.Request
import ModJanus.Api.Response
import ModJanus.Lib.Fields
import ModJanus.Api.Credentials
import ModJanus.Api.JoinToken
import ModJanus.Api.PollQuery
import ModJanus.Lib.Strtoull
import ModJanus.Leg.Dial
import ModJanus.Lib.Log
import ModJanus.Lib.Mealy
import ModJanus.Leg.Frame
import ModJanus.Leg.Proceed
import ModJanus.Leg.Media
import ModJanus.Leg.Trickle
import ModJanus.Leg.Negotiation
import ModJanus.Leg.Completion
import ModJanus.Leg.Routing
import ModJanus.Server.Registry
import ModJanus.Server.Frame
import ModJanus.Server.Eviction
import ModJanus.Server.Origin
import ModJanus.Server.Url
import ModJanus.Server.Verify
import ModJanus.Server.Starts
import ModJanus.Lib.Firsts
import ModJanus.Server.Refresh
import ModJanus.Server.RefreshRun
import ModJanus.Server.Address
import ModJanus.Server.LivePods
import ModJanus.Leg.Outgoing
import ModJanus.Lib.Separated
import ModJanus.Lib.Utf16
import ModJanus.Text.Item
import ModJanus.Text.Strings
import ModJanus.Text.Parse
import ModJanus.Text.Grammar
import ModJanus.Text.Digits
import ModJanus.Text.Print
import ModJanus.Text.RoundTrip
import ModJanus.Text.Wire
import ModJanus.Poll.Transports
import ModJanus.Server.Handles
import ModJanus.Server.Backoff
import ModJanus.Ws.Connection
import ModJanus.Server.Shutdown
import ModJanus.Text.Keys
import ModJanus.Server.RegistryThread
import ModJanus.Lib.LastWrite
import ModJanus.Server.Params
import ModJanus.Server.Configuration

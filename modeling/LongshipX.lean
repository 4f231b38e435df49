import LongshipX.Lib.BigEndian
import LongshipX.Lib.AssocMap
import LongshipX.Lib.Transition
import LongshipX.Lib.Text
import LongshipX.Lib.Channel
import LongshipX.Lib.History
import LongshipX.Lib.Redis
import LongshipX.Lib.Protobuf
import LongshipX.Lib.Conformance
import LongshipX.Lib.Semaphore
import LongshipX.Lib.Indexed
import LongshipX.Lib.Quiescence
import LongshipX.Domain.Types
import LongshipX.Domain.Room
import LongshipX.Domain.Values
import LongshipX.Domain.Account
import LongshipX.Domain.Player
import LongshipX.Domain.Settlement
import LongshipX.Net.Codec
import LongshipX.Net.Backpressure
import LongshipX.Net.Connection
import LongshipX.Net.Delivery
import LongshipX.Net.Truncation
import LongshipX.Net.Listener
import LongshipX.Net.Places
import LongshipX.Net.Return
import LongshipX.Session.TokenStore
import LongshipX.Session.RedisTokenStore
import LongshipX.Persistence.MemoryRepos
import LongshipX.Persistence.PlayerRepo
import LongshipX.Persistence.Converters
import LongshipX.Infrastructure.Config
import LongshipX.Net.LengthPrefix
import LongshipX.Application.UseCases
import LongshipX.Application.Progression
import LongshipX.Application.Registration
import LongshipX.Application.Login
import LongshipX.Application.LoginPorts
import LongshipX.Application.SignIn
import LongshipX.Application.Credentials
import LongshipX.Room.Actor
import LongshipX.Room.Broadcast
import LongshipX.Room.Audience
import LongshipX.Room.Overflow
import LongshipX.Room.Service
import LongshipX.Room.Tasks
import LongshipX.Room.Calls
import LongshipX.Room.CallSteps
import LongshipX.Room.Runs
import LongshipX.Room.Serial
import LongshipX.Room.Chat
import LongshipX.Room.Orphans
import LongshipX.Room.Cleanup
import LongshipX.Room.Answers
import LongshipX.Room.Termination
import LongshipX.Room.Rest
import LongshipX.Protocol.Messages
import LongshipX.Protocol.GameCodec
import LongshipX.Protocol.GameProto
import LongshipX.Gateway.Handlers
import LongshipX.Gateway.Lifecycle
import LongshipX.Gateway.Connections
import LongshipX.Gateway.Drain
import LongshipX.Gateway.Departure
import LongshipX.Gateway.Sequential
import LongshipX.Gateway.Membership
import LongshipX.Gateway.Publication
import LongshipX.Gateway.Isolation
import LongshipX.Gateway.Alone
import LongshipX.Gateway.Refinement
import LongshipX.Gateway.ReadLoop
import LongshipX.Gateway.Exchange
import LongshipX.Gateway.RateLimit
import LongshipX.Gateway.Redirect
import LongshipX.Gateway.Http
import LongshipX.Gateway.HttpBacked
import LongshipX.Gateway.Dispatch
import LongshipX.Gateway.Pipeline
import LongshipX.Gateway.Gate
import LongshipX.Gateway.AuthGate
import LongshipX.Gateway.Pace
import LongshipX.Gateway.Quota
import LongshipX.Gateway.Stream
import LongshipX.Gateway.StreamDelivery
import LongshipX.Gateway.Dialogue
import LongshipX.Gateway.Requests
import LongshipX.Gateway.Server
import LongshipX.Gateway.Agreement

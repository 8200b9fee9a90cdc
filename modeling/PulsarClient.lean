import PulsarClient.Lib.Runs
import PulsarClient.Error
import PulsarClient.Message
import PulsarClient.Lib.Rendezvous
import PulsarClient.Connection.Receiver
import PulsarClient.Connection.Responses
import PulsarClient.Connection.Ping
import PulsarClient.Connection.Outbound
import PulsarClient.ConnectionManager.Pool
import PulsarClient.ConnectionManager.Waiters
import PulsarClient.ConnectionManager.Health
import PulsarClient.ConnectionManager.SingleFlight
import PulsarClient.Producer.SendMessage
import PulsarClient.Consumer.Payload
import PulsarClient.Consumer.Engine
import PulsarClient.Consumer.Deadlock
import PulsarClient.Consumer.Acks
import PulsarClient.Codec
import PulsarClient.Batching.Format
import PulsarClient.Batching.Content
import PulsarClient.Batching.Queue
import PulsarClient.Batching.Settlement
import PulsarClient.Consumer.Redelivery
import PulsarClient.Consumer.Session
import PulsarClient.Consumer.SessionInvariant
import PulsarClient.Consumer.Permits
import PulsarClient.Consumer.Subscribed
import PulsarClient.Consumer.Delivery
import PulsarClient.Consumer.Resume
import PulsarClient.Producer.Routing
import PulsarClient.Producer.Partitions
import PulsarClient.Connection.BrokerCloses
import PulsarClient.Connection.Residue
import PulsarClient.Connection.Registration
import PulsarClient.Consumer.Closed
import PulsarClient.Consumer.EndOfTopic
import PulsarClient.Consumer.Release
import PulsarClient.Consumer.Replacement
import PulsarClient.Consumer.LetterOrder
import PulsarClient.Consumer.MultiTopic
import PulsarClient.ServiceDiscovery
import PulsarClient.Producer.SequenceIds
import PulsarClient.Producer.PartitionKey
import PulsarClient.Admin.Paths
import PulsarClient.Lib.Base64
import PulsarClient.Lib.Split
import PulsarClient.Consumer.DeadLetter
import PulsarClient.Consumer.Trace
import PulsarClient.Consumer.Window
import PulsarClient.Batching.Limits
import PulsarClient.Producer.RoundRobin
import PulsarClient.ServiceDiscovery.Names
import PulsarClient.ServiceDiscovery.PartitionNumber
import PulsarClient.ServiceDiscovery.Chain
import PulsarClient.ConnectionManager.Backoff
import PulsarClient.Producer.MultiTopicProducer
import PulsarClient.Producer.SendAll
import PulsarClient.Admin.Redirects
import PulsarClient.Admin.TopicNames
import PulsarClient.Admin.FlatUrls
import PulsarClient.Admin.Packages
import PulsarClient.Lib.Values
import PulsarClient.Consumer.Rotation
import PulsarClient.Consumer.Fairness
import PulsarClient.Consumer.Counters
import PulsarClient.Authentication.OAuth2
import PulsarClient.Authentication.TokenCache
import PulsarClient.Lib.Rounding
import PulsarClient.Consumer.Reader
import PulsarClient.Lib.Progress
import PulsarClient.Connection.Planes
import PulsarClient.Connection.Establish
import PulsarClient.Connection.AuthChallenge
import PulsarClient.Client
import PulsarClient.Producer.Released
import PulsarClient.Admin.Authenticated
import PulsarClient.Transit
import PulsarClient.Consumer.Drains
import PulsarClient.Consumer.FanIn
import PulsarClient.Admin.Calls
import PulsarClient.Admin.SchemaResponse
import PulsarClient.Admin.PackageRequests

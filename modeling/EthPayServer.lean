import EthPayServer.Pipeline.Unhalted
import EthPayServer.Pipeline.Covered
import EthPayServer.Pipeline.Replay
import EthPayServer.Pipeline.Retracted
import EthPayServer.Pipeline.Scanned
import EthPayServer.Pipeline.Restarted
import EthPayServer.Pipeline.Forwarding
import EthPayServer.Pipeline.Addresses
import EthPayServer.Data.Rotation
import EthPayServer.Outbox.Lineage
import EthPayServer.Outbox.Resume
import EthPayServer.Outbox.Stream
import EthPayServer.Outbox.Follow
import EthPayServer.Api.PayoutClaims
import EthPayServer.Api.RateLimit
import EthPayServer.Api.Replay
import EthPayServer.Api.Ws
import EthPayServer.Api.Decisions
import EthPayServer.Webhook.NeverLost
import EthPayServer.Webhook.Settled
import EthPayServer.Pipeline.Valued
import EthPayServer.Watch.Quoted
import EthPayServer.Api.Export
import EthPayServer.Plugins.Reconcile
import EthPayServer.Plugins.Connection
import EthPayServer.TestUtils.Mirror

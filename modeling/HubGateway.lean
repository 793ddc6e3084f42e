import HubGateway.Config
import HubGateway.Proofs.Gateway.Coherence
import HubGateway.Proofs.Gateway.Binding
import HubGateway.Proofs.Gateway.Cancelling
import HubGateway.Proofs.Gateway.Interleaving
import HubGateway.Proofs.Gateway.Required
import HubGateway.Proofs.Gateway.Tuples
import HubGateway.Proofs.Gateway.Unauthenticated
import HubGateway.Proofs.Message.DepthLimit
import HubGateway.Proofs.Message.Parity
import HubGateway.Proofs.Message.Truncation
import HubGateway.Proofs.Message.Weight
import HubGateway.Proofs.MessagePack.Tolerant
import HubGateway.Proofs.Request.Claims
import HubGateway.Proofs.Request.Query
import HubGateway.Proofs.Request.Rotation
import HubGateway.Proofs.Binary64.Nearest
import HubGateway.Proofs.Value.Retraction
import HubGateway.Proofs.Gateway.Serialized
import HubGateway.Proofs.Json.Reading
import HubGateway.Proofs.Value.DirectReading
import HubGateway.Proofs.MessagePack.Failure
import HubGateway.Proofs.MessagePack.FieldName
import HubGateway.Proofs.MessagePack.Sequence

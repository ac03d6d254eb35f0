import TypedPacket.Compression.Standard
import TypedPacket.Config.Environment
import TypedPacket.Config.Storage
import TypedPacket.Config.Validation
import TypedPacket.Factory
import TypedPacket.Logging.Log
import TypedPacket.Metrics
import TypedPacket.Packet.Codec
import TypedPacket.Proofs.Compression.Limit
import TypedPacket.Proofs.Config.Delivery
import TypedPacket.Proofs.Obtainable
import TypedPacket.Proofs.Metadata
import TypedPacket.Proofs.Payload.Trailing
import TypedPacket.Proofs.Readback
import TypedPacket.Proofs.Stream.Effects
import TypedPacket.Proofs.Stream.Queue
import TypedPacket.Proofs.Stream.Limit
import TypedPacket.Proofs.Ledger.Status
import TypedPacket.Proofs.Serializer
import TypedPacket.Proofs.Toml.Document
import TypedPacket.Proofs.Config.Storage

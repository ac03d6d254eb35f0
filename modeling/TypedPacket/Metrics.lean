import TypedPacket.Notice

/-!
# Metrics

Counters over the notices of a run. They are words of 64 bits and start over when they overflow.
-/

set_option autoImplicit false
set_option relaxedAutoImplicit false

namespace TypedPacket

/-- The counters. -/
structure Metrics where
  packetsBuilt : UInt64
  typeErrors : UInt64
  statusErrors : UInt64
  bytesSerialized : UInt64
  packetsEncoded : UInt64
  packetsDecoded : UInt64
  decodeErrors : UInt64
  compressionTotal : UInt64
  compressionSuccess : UInt64
  deriving DecidableEq, Repr, Inhabited

namespace Metrics

/-- Nothing has happened. -/
def zero : Metrics := ⟨0, 0, 0, 0, 0, 0, 0, 0, 0⟩

/-- Counts a decision on compression. -/
def compression (metrics : Metrics) (applied : Bool) : Metrics :=
  { metrics with
    compressionTotal := metrics.compressionTotal + 1
    compressionSuccess := metrics.compressionSuccess + if applied then 1 else 0 }

/-- Counts one notice. -/
def count (metrics : Metrics) : Notice → Metrics
  | .built _ size =>
    { metrics with
      packetsBuilt := metrics.packetsBuilt + 1
      bytesSerialized := metrics.bytesSerialized + UInt64.ofNat size }
  | .foreignType _ => { metrics with typeErrors := metrics.typeErrors + 1 }
  | .rejected _ _ => { metrics with statusErrors := metrics.statusErrors + 1 }
  | .kindChanged => { metrics with statusErrors := metrics.statusErrors + 1 }
  | .encoded attempted compressed =>
    let counted := { metrics with packetsEncoded := metrics.packetsEncoded + 1 }
    if attempted then counted.compression compressed else counted
  | .decoded _ _ => { metrics with packetsDecoded := metrics.packetsDecoded + 1 }
  | .undecodable _ _ => { metrics with decodeErrors := metrics.decodeErrors + 1 }

/-- Counts the notices of a run. -/
def countAll (metrics : Metrics) (notices : List Notice) : Metrics := notices.foldl count metrics

/-- The counters with their names, in order. -/
def named (metrics : Metrics) : List (String × UInt64) :=
  [("packets_built", metrics.packetsBuilt), ("type_errors", metrics.typeErrors),
    ("status_errors", metrics.statusErrors), ("bytes_serialized", metrics.bytesSerialized),
    ("packets_encoded", metrics.packetsEncoded), ("packets_decoded", metrics.packetsDecoded),
    ("decode_errors", metrics.decodeErrors), ("compression_total", metrics.compressionTotal),
    ("compression_success", metrics.compressionSuccess)]

end Metrics

end TypedPacket

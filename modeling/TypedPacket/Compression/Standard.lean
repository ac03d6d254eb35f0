import TypedPacket.Compression.Lz4
import TypedPacket.Compression.Zstd.Writer

/-!
# The standard compressors
-/

set_option autoImplicit false
set_option relaxedAutoImplicit false

namespace TypedPacket

/-- LZ4 and Zstandard. -/
def Compressors.standard : Compressors := ⟨Lz4.compressor, Zstd.compressor⟩

end TypedPacket

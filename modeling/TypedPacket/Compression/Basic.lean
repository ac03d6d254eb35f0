import TypedPacket.Error
import TypedPacket.Octets

/-!
# Compression of payloads

A compressor turns octets into fewer octets and back. What it expands arrives in chunks, so that an
expansion can be given up as soon as it grows beyond a limit (`Chunks.within`); below the limit it is
the whole of what arrives (`within_eq_all`). Payloads are compressed when they are long enough, do not
look random, and come out smaller (`compressIfBeneficial`).

Compressors are values: nothing here depends on how they work.
-/

set_option autoImplicit false
set_option relaxedAutoImplicit false

namespace TypedPacket

/-- The compression formats. -/
inductive CompressionKind
  | lz4 | zstd
  deriving DecidableEq, Repr, Inhabited

namespace CompressionKind

def name : CompressionKind → String
  | .lz4 => "lz4"
  | .zstd => "zstd"

def all : List CompressionKind := [.lz4, .zstd]

@[reducible] def choice : Choice := ⟨"CompressionKind", ["lz4", "zstd"]⟩

def ofIndex (i : Fin choice.variants.length) : CompressionKind :=
  match i.val with
  | 0 => .lz4
  | _ => .zstd

end CompressionKind

/-! ### Chunks -/

/-- Octets that arrive in pieces, and whether they end well. -/
inductive Chunks
  | done
  | broken
  | more (octets : ByteArray) (next : Unit → Chunks)

namespace Chunks

/-- Everything that arrives, after `sofar`, as long as there are no more than `limit` octets. -/
def within (limit : Nat) (sofar : ByteArray) : Chunks → Option ByteArray
  | .done => if sofar.size ≤ limit then some sofar else none
  | .broken => none
  | .more octets next =>
    if sofar.size + octets.size ≤ limit then within limit (sofar ++ octets) (next ()) else none

/-- Everything that arrives, after `sofar`. -/
def all (sofar : ByteArray) : Chunks → Option ByteArray
  | .done => some sofar
  | .broken => none
  | .more octets next => all (sofar ++ octets) (next ())

theorem size_le_of_all {chunks : Chunks} : {sofar whole : ByteArray} →
    all sofar chunks = some whole → sofar.size ≤ whole.size := by
  induction chunks with
  | done =>
    intro sofar whole h
    cases h
    exact Nat.le_refl _
  | broken =>
    intro sofar whole h
    cases h
  | more octets next ih =>
    intro sofar whole h
    have := ih () h
    simp only [ByteArray.size_append] at this
    omega

/-- A limit changes nothing but acceptance. -/
theorem within_eq_all (limit : Nat) (chunks : Chunks) (sofar : ByteArray) :
    within limit sofar chunks = (all sofar chunks).filter fun whole => whole.size ≤ limit := by
  induction chunks generalizing sofar with
  | done => simp [within, all, Option.filter]
  | broken => rfl
  | more octets next ih =>
    simp only [within, all]
    split
    · exact ih () _
    · rename_i hover
      cases hall : all (sofar ++ octets) (next ()) with
      | none => rfl
      | some whole =>
        have := size_le_of_all hall
        simp only [ByteArray.size_append] at this
        simp only [Option.filter, decide_eq_true_eq]
        rw [if_neg (by omega)]

end Chunks

/-! ### Compressors -/

/-- A compressor and its expansion. Compressing may fail. -/
structure Compressor where
  compress : ByteArray → Option ByteArray
  expand : ByteArray → Chunks

/-- A compressor for each format. -/
structure Compressors where
  lz4 : Compressor
  zstd : Compressor

namespace Compressors

def of (compressors : Compressors) : CompressionKind → Compressor
  | .lz4 => compressors.lz4
  | .zstd => compressors.zstd

variable (compressors : Compressors)

/-- Compresses octets. -/
def compress (kind : CompressionKind) (bytes : ByteArray) : Except PacketError ByteArray :=
  match (compressors.of kind).compress bytes with
  | some small => .ok small
  | none => .error .compressionFailure

/-- The size that LZ4 octets claim to expand to: their first four octets. -/
def claimedSize? (bytes : ByteArray) : Option Nat :=
  if bytes.size < 4 then none else some (ofLittleEndian (octets (bytes.extract 0 4)))

/-- LZ4 octets that claim more than the limit are refused unseen. -/
def claimsWithin (kind : CompressionKind) (limit : Nat) (bytes : ByteArray) : Bool :=
  match kind with
  | .zstd => true
  | .lz4 =>
    match claimedSize? bytes with
    | none => false
    | some size => size ≤ limit

/-- Expands octets to no more than `limit`. -/
def expandWithin (kind : CompressionKind) (limit : Nat) (bytes : ByteArray) :
    Except PacketError ByteArray :=
  if claimsWithin kind limit bytes then
    match ((compressors.of kind).expand bytes).within limit .empty with
    | some whole => .ok whole
    | none => .error .decompressionFailure
  else .error .decompressionFailure

end Compressors

/-! ### Whether compression pays -/

/-- How often each octet occurs. -/
def frequencies (bytes : ByteArray) : Array Nat :=
  bytes.foldl (fun counts octet => counts.modify octet.toNat (· + 1)) (Array.replicate 256 0)

/-- The Shannon entropy of octets in bits per octet. -/
def entropy (bytes : ByteArray) : Float :=
  let total := bytes.size.toFloat
  (frequencies bytes).foldl
    (fun sum count =>
      if count = 0 then sum
      else
        let p := count.toFloat / total
        sum + -p * p.log2)
    0.0

/-- Payloads shorter than this are always tried. -/
def sampledFrom : Nat := 1024

/-- The octets that are looked at. -/
def sampleSize : Nat := 512

/-- Octets of more bits each than this look random. -/
def entropyLimit : Float := 4.0

/-- Whether octets are worth the attempt. -/
def worthCompressing (threshold : Nat) (bytes : ByteArray) : Bool :=
  if bytes.size < threshold then false
  else if bytes.size < sampledFrom then true
  else entropy (bytes.extract 0 sampleSize) < entropyLimit

/-- The compressed octets, if the attempt is made and they are fewer. -/
def Compressors.compressIfBeneficial (compressors : Compressors) (kind : CompressionKind)
    (threshold : Nat) (bytes : ByteArray) : Except PacketError (Option ByteArray) :=
  if worthCompressing threshold bytes then do
    let small ← compressors.compress kind bytes
    .ok (if small.size < bytes.size then some small else none)
  else .ok none

end TypedPacket

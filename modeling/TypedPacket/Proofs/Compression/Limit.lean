import TypedPacket.Proofs.Compression
import TypedPacket.Proofs.Frame.RoundTrip

/-!
# The limit of an expansion is exact

How an expansion is limited depends on the format. Octets in LZ4 claim a size, which is compared
before anything is expanded; octets in Zstandard claim none, and one octet more than the limit is
read of what they expand to, as far as a word of 64 bits counts (`Compressors.expandRead`). To give
up as soon as the limit is passed comes to the same (`Compressors.expandRead_eq_expandWithin`). So
on what a compressor made both formats change from refusing to giving at the number of octets that
it was made of (`Compressors.expand_exact`).
-/

set_option autoImplicit false
set_option relaxedAutoImplicit false

namespace TypedPacket

/-! ### Reading no more than so many octets -/

namespace Chunks

/-- What arrives, after `sofar`, up to so many octets. What is behind them is not looked at. -/
def upTo (most : Nat) (sofar : ByteArray) : Chunks → Option ByteArray
  | .done => some sofar
  | .broken => none
  | .more octets next =>
    if most ≤ sofar.size + octets.size then some ((sofar ++ octets).extract 0 most)
    else upTo most (sofar ++ octets) (next ())

variable {most limit : Nat} {whole : ByteArray}

/-- Octets that are fewer arrive as a whole. -/
theorem upTo_of_all (hwhole : whole.size < most) {chunks : Chunks} {sofar : ByteArray}
    (hall : chunks.all sofar = some whole) : chunks.upTo most sofar = some whole := by
  induction chunks generalizing sofar with
  | done => exact hall
  | broken => cases hall
  | more octets next ih =>
    have harrived : (sofar ++ octets).size ≤ whole.size := size_le_of_all hall
    rw [ByteArray.size_append] at harrived
    rw [upTo, if_neg (Nat.not_le_of_lt (Nat.lt_of_le_of_lt harrived hwhole))]
    exact ih () hall

/-- Whoever reads beyond a limit can tell whether more arrives than the limit allows. -/
theorem filter_upTo (hmost : limit < most) (chunks : Chunks) (sofar : ByteArray) :
    (chunks.upTo most sofar).filter (fun read ↦ read.size ≤ limit) =
      (chunks.all sofar).filter fun read ↦ read.size ≤ limit := by
  induction chunks generalizing sofar with
  | done => rfl
  | broken => rfl
  | more octets next ih =>
    rw [upTo, all]
    split
    · rename_i hfull
      have hread : ((sofar ++ octets).extract 0 most).size = most := by
        rw [ByteArray.size_extract, ByteArray.size_append]
        omega
      rw [Option.filter_some, hread, if_neg (by simpa using hmost)]
      cases hall : (next ()).all (sofar ++ octets) with
      | none => rfl
      | some whole =>
        have harrived := size_le_of_all hall
        rw [ByteArray.size_append] at harrived
        rw [Option.filter_some, if_neg (by simp only [decide_eq_true_eq]; omega)]
    · exact ih () (sofar ++ octets)

end Chunks

namespace Compressors

variable {compressors : Compressors} {kind : CompressionKind} {bytes small : ByteArray}
  {limit : Nat}

/-- Refuses octets that are more than the limit, or that did not arrive. -/
def measured (limit : Nat) (arrived : Option ByteArray) : Except PacketError ByteArray :=
  match arrived.filter fun whole ↦ whole.size ≤ limit with
  | some whole => .ok whole
  | none => .error .decompressionFailure

/-- Expands octets to no more than `limit`: where a size is claimed, by the claim and then as a
whole; else by reading one octet more than the limit, or as many as a word of 64 bits counts. -/
def expandRead (compressors : Compressors) (kind : CompressionKind) (limit : Nat)
    (bytes : ByteArray) : Except PacketError ByteArray :=
  match kind with
  | .lz4 =>
    if claimsWithin .lz4 limit bytes then measured limit ((compressors.lz4.expand bytes).all .empty)
    else .error .decompressionFailure
  | .zstd =>
    measured limit ((compressors.zstd.expand bytes).upTo (min (limit + 1) (2 ^ 64 - 1)) .empty)

theorem expandWithin_eq_measured (compressors : Compressors) (kind : CompressionKind) (limit : Nat)
    (bytes : ByteArray) : compressors.expandWithin kind limit bytes =
      if claimsWithin kind limit bytes then
        measured limit (((compressors.of kind).expand bytes).all .empty)
      else .error .decompressionFailure := by
  have hread := Chunks.within_eq_all limit ((compressors.of kind).expand bytes) .empty
  unfold expandWithin measured
  exact hread ▸ rfl

/-- Where the octet beyond the limit can be counted, reading it is as good as giving up. -/
theorem expandRead_eq_expandWithin (hlimit : limit + 1 < 2 ^ 64) :
    compressors.expandRead kind limit bytes = compressors.expandWithin kind limit bytes := by
  rw [expandWithin_eq_measured]
  cases kind with
  | lz4 => rfl
  | zstd =>
    have hmost : limit < min (limit + 1) (2 ^ 64 - 1) := by omega
    simp only [expandRead, claimsWithin, if_true, measured, Chunks.filter_upTo hmost]
    rfl

/-- On what was compressed, the greatest limit that a word of 64 bits holds is no exception. -/
theorem Restores.expandRead_eq_expandWithin (hrestores : compressors.Restores kind bytes)
    (hsize : bytes.size < 2 ^ 32) (hsmall : compressors.compress kind bytes = .ok small)
    (hlimit : limit < 2 ^ 64) :
    compressors.expandRead kind limit small = compressors.expandWithin kind limit small := by
  by_cases hcounted : limit + 1 < 2 ^ 64
  · exact Compressors.expandRead_eq_expandWithin hcounted
  rw [expandWithin_eq_measured]
  cases kind with
  | lz4 => rfl
  | zstd =>
    have hall := hrestores.all_expand small (compress_eq_ok_iff.mp hsmall)
    have hmost : bytes.size < min (limit + 1) (2 ^ 64 - 1) := by omega
    have hread : (compressors.zstd.expand small).upTo (min (limit + 1) (2 ^ 64 - 1)) .empty =
        some bytes := Chunks.upTo_of_all hmost hall
    simp only [expandRead, claimsWithin, if_true, hread, hall]

theorem threshold_le_of_compressIfBeneficial {threshold : Nat}
    (h : compressors.compressIfBeneficial kind threshold bytes = .ok (some small)) :
    threshold ≤ bytes.size := by
  refine Nat.le_of_not_lt fun hshort ↦ ?_
  have hworth : worthCompressing threshold bytes = false := if_pos hshort
  rw [compressIfBeneficial, hworth] at h
  cases h

/-- Assumes: fewer than `2 ^ 32` octets, and a compressor that restores them and, in LZ4, puts their
number in front. What it makes of them expands to them under every limit of 64 bits that is not
less than their number, and is refused under every other, in both formats and however the limit is
met. What is chosen to be sent is of octets that are no fewer than the threshold; it is shorter than
they are and expands to them under every limit that is not less than their number. -/
theorem expand_exact (hrestores : compressors.Restores kind bytes) (hsize : bytes.size < 2 ^ 32) :
    (∀ small, compressors.compress kind bytes = .ok small → ∀ limit, limit < 2 ^ 64 →
      compressors.expandRead kind limit small =
          (if bytes.size ≤ limit then .ok bytes else .error .decompressionFailure) ∧
        compressors.expandWithin kind limit small = compressors.expandRead kind limit small) ∧
    ∀ threshold small, compressors.compressIfBeneficial kind threshold bytes = .ok (some small) →
      threshold ≤ bytes.size ∧ small.size < bytes.size ∧
        ∀ limit, bytes.size ≤ limit → limit < 2 ^ 64 →
          compressors.expandRead kind limit small = .ok bytes := by
  have hexact : ∀ small, compressors.compress kind bytes = .ok small → ∀ limit, limit < 2 ^ 64 →
      compressors.expandRead kind limit small =
        if bytes.size ≤ limit then .ok bytes else .error .decompressionFailure := by
    intro small hsmall limit hlimit
    rw [hrestores.expandRead_eq_expandWithin hsize hsmall hlimit,
      hrestores.expandWithin_eq_ite hsize hsmall]
  refine ⟨fun small hsmall limit hlimit ↦ ⟨hexact small hsmall limit hlimit, ?_⟩, ?_⟩
  · exact (hrestores.expandRead_eq_expandWithin hsize hsmall hlimit).symm
  · intro threshold small hchosen
    obtain ⟨hsmall, hshorter⟩ := compressIfBeneficial_some hchosen
    refine ⟨threshold_le_of_compressIfBeneficial hchosen, hshorter, fun limit hlong hlimit ↦ ?_⟩
    rw [hexact small hsmall limit hlimit, if_pos hlong]

/-- What 48 zero octets are in LZ4, with their number in front. -/
def squeezed : ByteArray :=
  [48, 0, 0, 0, 31, 0, 1, 0, 23, 80, 0, 0, 0, 0, 0].toByteArray

theorem compress_zeros : (standard.of .lz4).compress (Packet.blank 48).payload = some squeezed :=
  congrArg some (by decide +kernel : Lz4.compress (Packet.blank 48).payload = squeezed)

/-- Both standard compressors restore 48 zero octets. -/
theorem restores_zeros (kind : CompressionKind) :
    standard.Restores kind (Packet.blank 48).payload := by
  cases kind with
  | lz4 =>
    constructor
    · intro small hsmall
      obtain rfl := Option.some.inj (compress_zeros.symm.trans hsmall)
      decide +kernel
    · intro _ small hsmall
      obtain rfl := Option.some.inj (compress_zeros.symm.trans hsmall)
      exact ⟨squeezed.extract 4 squeezed.size, by decide +kernel⟩
  | zstd => exact Packet.restores_blank .zstd rfl

/-- The limits around 48 zero octets in LZ4, and the greatest one in Zstandard, chosen at the
threshold. -/
theorem expand_exact_zeros :
    ∃ lz4 zstd, standard.compress .lz4 (Packet.blank 48).payload = .ok lz4 ∧
      standard.expandRead .lz4 47 lz4 = .error .decompressionFailure ∧
      standard.expandRead .lz4 48 lz4 = .ok (Packet.blank 48).payload ∧
      standard.compressIfBeneficial .zstd 48 (Packet.blank 48).payload = .ok (some zstd) ∧
      zstd.size < (Packet.blank 48).payload.size ∧
      standard.expandRead .zstd (2 ^ 64 - 1) zstd = .ok (Packet.blank 48).payload := by
  have hsize : (Packet.blank 48).payload.size < 2 ^ 32 := by decide
  have hlz4 := compress_eq_ok_iff.mpr compress_zeros
  have hclaimed := (expand_exact (restores_zeros .lz4) hsize).1 squeezed hlz4
  have hchosen : standard.compressIfBeneficial .zstd 48 (Packet.blank 48).payload =
      .ok (some Packet.shortened.body) := by
    have hworth : worthCompressing 48 (Packet.blank 48).payload = true := rfl
    have hsmall : standard.compress .zstd (Packet.blank 48).payload =
        .ok Packet.shortened.body := compress_eq_ok_iff.mpr (by decide +kernel)
    have hshorter : Packet.shortened.body.size < (Packet.blank 48).payload.size := by decide
    simp only [compressIfBeneficial, hworth, hsmall, hshorter, if_true, bind, Except.bind]
  obtain ⟨-, hshorter, hread⟩ := (expand_exact (restores_zeros .zstd) hsize).2 48 _ hchosen
  exact ⟨squeezed, _, hlz4, (hclaimed 47 (by decide)).1, (hclaimed 48 (by decide)).1, hchosen,
    hshorter, hread (2 ^ 64 - 1) (by decide) (by decide)⟩

end Compressors

end TypedPacket

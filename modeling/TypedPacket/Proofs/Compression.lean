import TypedPacket.Compression.Standard
import TypedPacket.Proofs.Result

/-!
# What is assumed of compressors, and what follows

Nothing in a frame depends on how a compressor works. What is assumed of one is stated for the
octets it is given: what it makes of them expands to them again, and in LZ4 it starts with their
number (`Compressors.Restores`). Then an expansion within a limit is exact on what was compressed:
it gives the octets back if they are within the limit and is refused if they are not
(`Compressors.Restores.expandWithin_eq_ite`).
-/

set_option autoImplicit false
set_option relaxedAutoImplicit false

namespace TypedPacket.Compressors

variable {compressors : Compressors} {kind : CompressionKind} {bytes small : ByteArray}

/-- What is assumed of a compressor on given octets. Without a limit, what it makes of them expands
to them; in LZ4, it starts with their number in four octets, least significant first. -/
structure Restores (compressors : Compressors) (kind : CompressionKind) (bytes : ByteArray) :
    Prop where
  all_expand : ∀ small, (compressors.of kind).compress bytes = some small →
    ((compressors.of kind).expand small).all .empty = some bytes
  claims_size : kind = .lz4 → ∀ small, (compressors.of kind).compress bytes = some small →
    ∃ block : ByteArray, small = (littleEndian 4 bytes.size).toByteArray ++ block

theorem compress_eq_ok_iff :
    compressors.compress kind bytes = .ok small ↔
      (compressors.of kind).compress bytes = some small := by
  unfold compress
  cases (compressors.of kind).compress bytes with
  | none => simp only [reduceCtorEq]
  | some other => simp only [Except.ok.injEq, Option.some.injEq]

theorem claimedSize?_littleEndian {n : Nat} (hn : n < 2 ^ 32) (block : ByteArray) :
    claimedSize? ((littleEndian 4 n).toByteArray ++ block) = some n := by
  have hfour : (littleEndian 4 n).toByteArray.size = 4 := by
    rw [List.size_toByteArray, length_littleEndian]
  have hlong : ¬ ((littleEndian 4 n).toByteArray ++ block).size < 4 := by
    rw [ByteArray.size_append]
    omega
  have hvalue : n % 256 ^ 4 = n := Nat.mod_eq_of_lt (by omega)
  rw [claimedSize?, if_neg hlong, ByteArray.extract_append_eq_left hfour.symm,
    octets_toByteArray, ofLittleEndian_littleEndian, hvalue]

/-- What was compressed claims to expand to as many octets as it was made of. -/
theorem Restores.claimsWithin_iff (hrestores : compressors.Restores kind bytes)
    (hsize : bytes.size < 2 ^ 32) (hsmall : compressors.compress kind bytes = .ok small)
    (limit : Nat) : claimsWithin kind limit small = true ↔ kind = .zstd ∨ bytes.size ≤ limit := by
  cases kind with
  | zstd => simp only [claimsWithin, true_or]
  | lz4 =>
    obtain ⟨block, rfl⟩ := hrestores.claims_size rfl small (compress_eq_ok_iff.mp hsmall)
    simp only [claimsWithin, claimedSize?_littleEndian hsize, decide_eq_true_eq, reduceCtorEq,
      false_or]

/-- The limit is exact on what was compressed, with the same refusal for both formats. -/
theorem Restores.expandWithin_eq_ite (hrestores : compressors.Restores kind bytes)
    (hsize : bytes.size < 2 ^ 32) (hsmall : compressors.compress kind bytes = .ok small)
    (limit : Nat) :
    compressors.expandWithin kind limit small =
      if bytes.size ≤ limit then .ok bytes else .error .decompressionFailure := by
  have hclaims := hrestores.claimsWithin_iff hsize hsmall limit
  have hall := hrestores.all_expand small (compress_eq_ok_iff.mp hsmall)
  unfold expandWithin
  rw [Chunks.within_eq_all, hall, Option.filter_some]
  by_cases hlimit : bytes.size ≤ limit
  · rw [if_pos (hclaims.mpr (Or.inr hlimit)), if_pos (decide_eq_true hlimit), if_pos hlimit]
  · rw [if_neg hlimit]
    simp only [hlimit, decide_false, Bool.false_eq_true, if_false, ite_self]

/-- Expansions are all refused alike. -/
theorem eq_decompressionFailure_of_expandWithin {limit : Nat} {error : PacketError}
    (h : compressors.expandWithin kind limit bytes = .error error) :
    error = .decompressionFailure := by
  unfold expandWithin at h
  split at h
  · split at h
    · cases h
    · exact (Except.error.inj h).symm
  · exact (Except.error.inj h).symm

theorem expandWithin_eq_ok_iff {limit : Nat} {whole : ByteArray} :
    compressors.expandWithin kind limit bytes = .ok whole ↔
      claimsWithin kind limit bytes = true ∧
        ((compressors.of kind).expand bytes).all .empty = some whole ∧ whole.size ≤ limit := by
  unfold expandWithin
  rw [Chunks.within_eq_all]
  by_cases hclaims : claimsWithin kind limit bytes = true
  · cases ((compressors.of kind).expand bytes).all .empty with
    | none => simp only [Option.filter_none, hclaims, if_true, reduceCtorEq, false_and, and_false]
    | some found =>
      by_cases hfound : found.size ≤ limit
      · simp only [Option.filter_some, hfound, decide_true, hclaims, if_true, Except.ok.injEq,
          Option.some.injEq, true_and]
        exact ⟨fun heq ↦ ⟨heq, heq ▸ hfound⟩, And.left⟩
      · simp only [Option.filter_some, hfound, decide_false, Bool.false_eq_true, hclaims, if_true,
          if_false, reduceCtorEq, Option.some.injEq, true_and, false_iff, not_and]
        rintro rfl
        exact hfound
  · simp only [hclaims, Bool.false_eq_true, if_false, reduceCtorEq, false_and]

theorem size_le_of_expandWithin {limit : Nat} {whole : ByteArray}
    (h : compressors.expandWithin kind limit bytes = .ok whole) : whole.size ≤ limit :=
  (expandWithin_eq_ok_iff.mp h).2.2

/-- Where some limit admits what is claimed, there is a claim in LZ4, and it alone decides. -/
theorem claimsWithin_eq_true_iff {wider : Nat} (h : claimsWithin kind wider bytes = true)
    (limit : Nat) :
    claimsWithin kind limit bytes = true ↔
      (kind = .lz4 → ∀ size, claimedSize? bytes = some size → size ≤ limit) := by
  cases kind with
  | zstd => simp only [claimsWithin, reduceCtorEq, false_implies]
  | lz4 =>
    unfold claimsWithin at h ⊢
    cases hclaim : claimedSize? bytes with
    | none => simp only [hclaim, Bool.false_eq_true] at h
    | some size =>
      simp only [decide_eq_true_eq, Option.some.injEq, forall_const, forall_eq']

/-- What expands under one limit expands to the same under any other, or is refused there for its
claim or for its size. -/
theorem expandWithin_of_expandWithin {wider : Nat} {whole : ByteArray}
    (h : compressors.expandWithin kind wider bytes = .ok whole) (limit : Nat) :
    compressors.expandWithin kind limit bytes =
      if claimsWithin kind limit bytes = true ∧ whole.size ≤ limit then .ok whole
      else .error .decompressionFailure := by
  obtain ⟨-, hall, -⟩ := expandWithin_eq_ok_iff.mp h
  split
  · rename_i hwithin
    exact expandWithin_eq_ok_iff.mpr ⟨hwithin.1, hall, hwithin.2⟩
  · rename_i hbeyond
    cases hexpand : compressors.expandWithin kind limit bytes with
    | error error => rw [eq_decompressionFailure_of_expandWithin hexpand]
    | ok other =>
      obtain ⟨hclaims, hother, hsize⟩ := expandWithin_eq_ok_iff.mp hexpand
      obtain rfl := Option.some.inj (hother.symm.trans hall)
      exact absurd ⟨hclaims, hsize⟩ hbeyond

/-! ### The decision to compress -/

/-- A payload goes out compressed only if compressing makes it smaller. -/
theorem compressIfBeneficial_some {threshold : Nat}
    (h : compressors.compressIfBeneficial kind threshold bytes = .ok (some small)) :
    compressors.compress kind bytes = .ok small ∧ small.size < bytes.size := by
  unfold compressIfBeneficial at h
  split at h
  · obtain ⟨other, hcompress, hchosen⟩ := bind_eq_ok_iff.mp h
    have hkept := Except.ok.inj hchosen
    split at hkept
    · rename_i hsmaller
      obtain rfl := Option.some.inj hkept
      exact ⟨hcompress, hsmaller⟩
    · cases hkept
  · cases h

/-- The decision fails only where the compressor does. -/
theorem compressIfBeneficial_isOk (threshold : Nat)
    (hcompress : compressors.compress kind bytes = .ok small) :
    ∃ chosen, compressors.compressIfBeneficial kind threshold bytes = .ok chosen := by
  unfold compressIfBeneficial
  split
  · rw [hcompress]
    exact ⟨_, rfl⟩
  · exact ⟨none, rfl⟩

end TypedPacket.Compressors

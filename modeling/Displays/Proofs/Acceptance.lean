import Mathlib.Algebra.BigOperators.Group.List.Basic
import Mathlib.Data.UInt
import Displays.Edid.Decode

/-!
# What is an EDID

Octets are an EDID exactly if they make whole blocks, open like a base block and those of the base
block sum to a multiple of 256; of several defects the first in this order is reported. What stands
behind the base block does not matter.

A sum changes by the difference of the octet that is replaced, so no single change goes unnoticed.
The last octet of the base block can make up for it, and what it seals is an EDID again unless the
opening was changed.
-/

namespace Displays.Edid

variable {bytes more : List UInt8} {p : Nat} {v : UInt8} {i : Identity}

/-- The octets make whole blocks of 128, and there is a block. -/
def Whole (bytes : List UInt8) : Prop :=
  bytes.length ≠ 0 ∧ 128 ∣ bytes.length

instance (bytes : List UInt8) : Decidable (Whole bytes) :=
  inferInstanceAs (Decidable (_ ∧ _))

/-- The octets open like a base block. -/
def Headed (bytes : List UInt8) : Prop :=
  [0x00, 0xff, 0xff, 0xff, 0xff, 0xff, 0xff, 0x00] <+: bytes

instance (bytes : List UInt8) : Decidable (Headed bytes) :=
  inferInstanceAs (Decidable (_ <+: _))

/-- The octets of the base block sum to a multiple of 256. -/
def Balanced (bytes : List UInt8) : Prop :=
  256 ∣ ((bytes.take 128).map UInt8.toNat).sum

instance (bytes : List UInt8) : Decidable (Balanced bytes) :=
  inferInstanceAs (Decidable (256 ∣ _))

/-- The octets with the last one of the base block chosen such that the block sums to zero. -/
def reseal (bytes : List UInt8) : List UInt8 :=
  bytes.set 127 (0 - blockSum (bytes.take 127))

/-- Whole blocks are one block at least. -/
theorem Whole.le_length (h : Whole bytes) : 128 ≤ bytes.length :=
  Nat.le_of_dvd (Nat.pos_of_ne_zero h.1) h.2

section Sums

private theorem toNat_foldl_add (block : List UInt8) (n : UInt8) :
    (block.foldl (· + ·) n).toNat = (n.toNat + (block.map UInt8.toNat).sum) % 256 := by
  induction block generalizing n with
  | nil => exact (Nat.mod_eq_of_lt n.toNat_lt).symm
  | cons b block ih =>
    rw [List.foldl_cons, ih, UInt8.toNat_add, List.map_cons, List.sum_cons]
    omega

/-- The sum as an octet is zero exactly if the sum as a number is a multiple of 256. -/
theorem balanced_iff : Balanced bytes ↔ blockSum (bytes.take 128) = 0 := by
  rw [Balanced, ← UInt8.toNat_inj, blockSum, toNat_foldl_add, UInt8.toNat_zero, Nat.zero_add,
    Nat.dvd_iff_mod_eq_zero]

/-- The sum of a block is that of its octets. -/
theorem blockSum_eq_sum (block : List UInt8) : blockSum block = block.sum :=
  List.sum_eq_foldl.symm

/-- The sum changes by the difference of the octets. -/
theorem blockSum_set {block : List UInt8} (hp : p < block.length) (v : UInt8) :
    blockSum (block.set p v) = blockSum block + (-block[p] + v) := by
  rw [blockSum_eq_sum, blockSum_eq_sum, List.sum_set', dif_pos hp]

/-- No change of a single octet keeps the sum. -/
theorem not_balanced_set (h : Balanced bytes) (hp : p < 128) (hlength : p < bytes.length)
    (hv : bytes[p]? ≠ some v) : ¬ Balanced (bytes.set p v) := by
  rw [balanced_iff] at h ⊢
  have htake : p < (bytes.take 128).length := by
    rw [List.length_take]
    exact Nat.lt_min.mpr ⟨hp, hlength⟩
  rw [List.take_set, blockSum_set htake, h, zero_add, neg_add_eq_zero, List.getElem_take]
  intro heq
  exact hv (heq ▸ List.getElem?_eq_getElem hlength)

/-- The octet that seals a block makes its sum zero. -/
theorem balanced_reseal (h : 128 ≤ bytes.length) : Balanced (reseal bytes) := by
  have htake : (reseal bytes).take (127 + 1) =
      bytes.take 127 ++ [0 - blockSum (bytes.take 127)] := by
    rw [reseal, List.take_add_one, List.take_set_of_le (Nat.le_refl 127), List.getElem?_set_self h]
    rfl
  rw [balanced_iff, htake, blockSum_eq_sum, blockSum_eq_sum, List.sum_append, List.sum_singleton,
    zero_sub, add_neg_cancel]

end Sums

section Openings

/-- The opening stays unless one of its octets is replaced. -/
theorem headed_set (hp : 8 ≤ p) : Headed (bytes.set p v) ↔ Headed bytes := by
  rw [Headed, Headed, List.prefix_iff_eq_take, List.prefix_iff_eq_take]
  exact iff_of_eq (congrArg _ (List.take_set_of_le hp))

/-- Another octet among the first eight spoils the opening. -/
theorem not_headed_set (h : Headed bytes) (hp : p < 8) (hv : bytes[p]? ≠ some v) :
    ¬ Headed (bytes.set p v) := by
  intro h'
  rw [Headed, List.prefix_iff_getElem?] at h h'
  obtain ⟨hlength, -⟩ := List.getElem?_eq_some_iff.mp (h p hp)
  have hset : (bytes.set p v)[p]? = some v := List.getElem?_set_self hlength
  exact hv ((h p hp).trans ((h' p hp).symm.trans hset))

private theorem headed_append (h : 128 ≤ bytes.length) : Headed (bytes ++ more) ↔ Headed bytes := by
  rw [Headed, Headed, List.prefix_iff_eq_take, List.prefix_iff_eq_take]
  exact iff_of_eq (congrArg _ (List.take_append_of_le_length (Nat.le_trans (by decide) h)))

end Openings

section Judging

/-- Length, opening and sum are judged in this order. -/
theorem decode_eq (bytes : List UInt8) :
    decode bytes =
      if Whole bytes then
        if Headed bytes then
          if Balanced bytes then .ok (identityOf (bytes.take 128)) else .error .checksum
        else .error .header
      else .error (.length bytes.length) := by
  have hwhole : (bytes = [] ∨ bytes.length % blockSize ≠ 0) ↔ ¬ Whole bytes := by
    rw [Whole, Nat.dvd_iff_mod_eq_zero, ← List.length_eq_zero_iff, not_and_or, not_not]
    rfl
  have hheaded : (bytes.take blockSize).take 8 ≠ header ↔ ¬ Headed bytes := by
    rw [List.take_take, Headed, List.prefix_iff_eq_take, eq_comm]
    rfl
  have hbalanced : blockSum (bytes.take blockSize) ≠ 0 ↔ ¬ Balanced bytes := by
    rw [balanced_iff]
    rfl
  simp only [decode, hwhole, hheaded, hbalanced, ite_not]
  rfl

/-- Octets are decoded exactly if they are an EDID, and then to the identity in the base block. -/
theorem decode_eq_ok_iff :
    decode bytes = .ok i ↔
      (Whole bytes ∧ Headed bytes ∧ Balanced bytes) ∧ i = identityOf (bytes.take 128) := by
  rw [decode_eq]
  split_ifs with hwhole hheaded hbalanced
  · simp [hwhole, hheaded, hbalanced, eq_comm]
  · simp [hbalanced]
  · simp [hheaded]
  · simp [hwhole]

/-- What stands behind the base block does not matter as long as it makes whole blocks. -/
theorem decode_append (h : Whole bytes) (hmore : 128 ∣ more.length) :
    decode (bytes ++ more) = decode bytes := by
  have hwhole : Whole (bytes ++ more) := by
    rw [Whole, List.length_append]
    exact ⟨fun heq => h.1 (Nat.add_eq_zero_iff.mp heq).1, Nat.dvd_add h.2 hmore⟩
  have htake : (bytes ++ more).take 128 = bytes.take 128 :=
    List.take_append_of_le_length h.le_length
  have hbalanced : Balanced (bytes ++ more) ↔ Balanced bytes := by rw [Balanced, Balanced, htake]
  rw [decode_eq, decode_eq, if_pos hwhole, if_pos h, htake]
  exact if_congr (headed_append h.le_length) (if_congr hbalanced rfl rfl) rfl

/-- A change of a single octet does not go unnoticed. -/
theorem decode_set (h : decode bytes = .ok i) (hp : p < 128) (hv : bytes[p]? ≠ some v) :
    decode (bytes.set p v) = .error (if p < 8 then .header else .checksum) := by
  obtain ⟨⟨hwhole, hheaded, hbalanced⟩, -⟩ := decode_eq_ok_iff.mp h
  have hset : Whole (bytes.set p v) := by rwa [Whole, List.length_set]
  rw [decode_eq, if_pos hset]
  by_cases hlow : p < 8
  · rw [if_neg (not_headed_set hheaded hlow hv), if_pos hlow]
  · have hlength : p < bytes.length := Nat.lt_of_lt_of_le hp hwhole.le_length
    rw [if_pos ((headed_set (Nat.not_lt.mp hlow)).mpr hheaded),
      if_neg (not_balanced_set hbalanced hp hlength hv), if_neg hlow]

/-- A change of a single octet that is made up for goes unnoticed outside the opening only. -/
theorem decode_reseal_set (h : decode bytes = .ok i) (hv : bytes[p]? ≠ some v) :
    decode (reseal (bytes.set p v)) =
      if p < 8 then .error .header
      else .ok (identityOf ((reseal (bytes.set p v)).take 128)) := by
  obtain ⟨⟨hwhole, hheaded, -⟩, -⟩ := decode_eq_ok_iff.mp h
  have hset : Whole (reseal (bytes.set p v)) := by
    rwa [reseal, Whole, List.length_set, List.length_set]
  have hreseal : Headed (reseal (bytes.set p v)) ↔ Headed (bytes.set p v) := headed_set (by decide)
  have hbalanced : Balanced (reseal (bytes.set p v)) := by
    refine balanced_reseal ?_
    rw [List.length_set]
    exact hwhole.le_length
  rw [decode_eq, if_pos hset]
  by_cases hlow : p < 8
  · rw [if_neg (hreseal.not.mpr (not_headed_set hheaded hlow hv)), if_pos hlow]
  · rw [if_pos (hreseal.mpr ((headed_set (Nat.not_lt.mp hlow)).mpr hheaded)), if_pos hbalanced,
      if_neg hlow]

/-- Octets are an EDID exactly if they make whole blocks, open like a base block and the base block
sums to a multiple of 256, and of several defects the first in this order is reported. Further
blocks do not matter. No change of a single octet of the base block goes unnoticed, and one that is
made up for in the last octet does so outside the opening only. -/
theorem decode_judges (bytes : List UInt8) :
    (∀ size, decode bytes = .error (.length size) ↔ ¬ Whole bytes ∧ size = bytes.length) ∧
    (decode bytes = .error .header ↔ Whole bytes ∧ ¬ Headed bytes) ∧
    (decode bytes = .error .checksum ↔ Whole bytes ∧ Headed bytes ∧ ¬ Balanced bytes) ∧
    ((∃ i, decode bytes = .ok i) ↔ Whole bytes ∧ Headed bytes ∧ Balanced bytes) ∧
    (Whole bytes → ∀ more : List UInt8, 128 ∣ more.length → decode (bytes ++ more) = decode bytes) ∧
    ∀ i, decode bytes = .ok i → ∀ p v, p < 128 → bytes[p]? ≠ some v →
      decode (bytes.set p v) = .error (if p < 8 then .header else .checksum) ∧
      (p < 8 → decode (reseal (bytes.set p v)) = .error .header) ∧
      (8 ≤ p → p < 127 → ∃ j, decode (reseal (bytes.set p v)) = .ok j) := by
  refine ⟨?_, ?_, ?_, ?_, fun h more => decode_append h, fun i h p v hp hv => ?_⟩
  · rw [decode_eq]
    split_ifs with hwhole <;> simp [*, eq_comm]
  · rw [decode_eq]
    split_ifs <;> simp [*]
  · rw [decode_eq]
    split_ifs <;> simp [*]
  · simp only [decode_eq_ok_iff, exists_and_left, exists_eq, and_true]
  · have hreseal := decode_reseal_set h hv
    refine ⟨decode_set h hp hv, fun hlow => ?_, fun hlow _ => ?_⟩
    · rwa [if_pos hlow] at hreseal
    · rw [if_neg (Nat.not_lt.mpr hlow)] at hreseal
      exact ⟨_, hreseal⟩

/-- The EDID of a display that says nothing about itself. -/
def blank : List UInt8 :=
  header ++ List.replicate 119 0 ++ [6]

/-- A block that says nothing may be followed by any block. A change of its last octet but one, made
up for or not, is judged by the sum, and one of its second octet by the opening. -/
theorem decode_judges_blank :
    Whole blank ∧ Headed blank ∧ Balanced blank ∧
      decode (blank ++ List.replicate 128 7) = decode blank ∧
      decode (blank.set 126 1) = .error .checksum ∧
      (∃ j, decode (reseal (blank.set 126 1)) = .ok j) ∧
      decode (blank.set 1 0xfe) = .error .header ∧
      decode (reseal (blank.set 1 0xfe)) = .error .header := by
  have hwhole : Whole blank := by decide +kernel
  have hheaded : Headed blank := by decide
  have hbalanced : Balanced blank := by decide +kernel
  obtain ⟨-, -, -, haccepted, hmore, hset⟩ := decode_judges blank
  obtain ⟨i, hi⟩ := haccepted.mpr ⟨hwhole, hheaded, hbalanced⟩
  obtain ⟨hlast, -, hsealed⟩ := hset i hi 126 1 (by omega) (by decide)
  obtain ⟨hsecond, hbroken, -⟩ := hset i hi 1 0xfe (by omega) (by decide)
  exact ⟨hwhole, hheaded, hbalanced, hmore hwhole _ (by decide +kernel), hlast,
    hsealed (by omega) (by omega), hsecond, hbroken (by omega)⟩

end Judging

end Displays.Edid

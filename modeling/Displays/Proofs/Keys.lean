import Displays.Proofs.Acceptance
import Displays.Proofs.Messages
import Displays.Text.Hex

/-!
# Display ids

A display id is made of a vendor of three letters, the product code in four hexadecimal digits and
the serial number in decimal, with dashes between them. No part has a dash, and each is written in
one way only, so the id can be taken apart again. Two displays have the same id exactly if these
three are the same.
-/

namespace Displays

open Decimal (digitChars digitChars_ne_nil isDigit_of_mem_digitChars readNat readNat_digitChars)
open Text

/-- What a display id tells. -/
structure Key where
  /-- The letters for the maker. -/
  vendor : String
  /-- The maker's number of the product. -/
  productCode : Nat
  /-- The serial number of the display. -/
  serialNumber : Nat
  deriving DecidableEq, Repr

/-- The number that hexadecimal digits stand for. -/
def hexNumber? (digits : List Char) : Option Nat :=
  digits.foldlM (fun n c => (Hex.value? c).map (16 * n + ·)) 0

/-- Takes a display id apart at its dashes. -/
def Key.read? (id : String) : Option Key := do
  let (vendor, rest) ← splitAt? '-' id.toList
  let (code, number) ← splitAt? '-' rest
  let productCode ← hexNumber? code
  let serialNumber ← (readNat 32 number).toOption
  return ⟨String.ofList vendor, productCode, serialNumber⟩

/-- The form of the three parts of a display id. -/
structure IsKey (vendor code number : List Char) : Prop where
  /-- There are three letters for the maker. -/
  vendor_length : vendor.length = 3
  /-- A question mark stands for what is no letter. -/
  vendor_letters : ∀ c ∈ vendor, c = '?' ∨ 'A' ≤ c ∧ c ≤ 'Z'
  /-- There are four digits for the product. -/
  code_length : code.length = 4
  /-- The digits for the product are hexadecimal, in upper case. -/
  code_digits : ∀ c ∈ code, '0' ≤ c ∧ c ≤ '9' ∨ 'A' ≤ c ∧ c ≤ 'F'
  /-- There is a digit of the serial number. -/
  number_ne_nil : number ≠ []
  /-- The digits of the serial number are decimal. -/
  number_digits : ∀ c ∈ number, '0' ≤ c ∧ c ≤ '9'
  /-- A zero does not lead further digits. -/
  zero_alone : number.head? = some '0' → number = ['0']

/-- The identity is one that octets can tell. -/
structure Identity.Coded (i : Identity) : Prop where
  /-- The letters for the maker are packed into a number. -/
  vendor_eq : ∃ packed, i.vendor = Edid.decodeVendor packed
  /-- The product code has two octets. -/
  productCode_lt : i.productCode < 65536
  /-- The serial number has four octets. -/
  serialNumber_lt : i.serialNumber < Nat.pow 2 32

variable {c : Char} {n : Nat} {i j : Identity} {bytes : List UInt8}

section Letters

private theorem toNat_ofNat_of_lt (h : n < 0x80) : (Char.ofNat n).toNat = n := by
  rw [Char.ofNat, dif_pos (.inl (by omega))]
  rfl

private theorem ofNat_between {a b : Char} (ha : a.toNat ≤ n) (hb : n ≤ b.toNat) (h : n < 0x80) :
    a ≤ Char.ofNat n ∧ Char.ofNat n ≤ b := by
  have hvalue := toNat_ofNat_of_lt h
  constructor
  · change a.toNat ≤ (Char.ofNat n).toNat
    rwa [hvalue]
  · change (Char.ofNat n).toNat ≤ b.toNat
    rwa [hvalue]

/-- A letter for the maker is one of the alphabet, or a question mark. -/
theorem vendorLetter_cases (n : Nat) :
    Edid.vendorLetter n = '?' ∨ 'A' ≤ Edid.vendorLetter n ∧ Edid.vendorLetter n ≤ 'Z' := by
  rw [Edid.vendorLetter]
  split
  · rename_i h
    have hlow : 'A'.toNat ≤ 0x40 + n := Nat.add_le_add_left h.1 0x40
    have hhigh : 0x40 + n ≤ 'Z'.toNat := Nat.add_le_add_left h.2 0x40
    exact .inr (ofNat_between hlow hhigh (by omega))
  · exact .inl rfl

/-- A hexadecimal digit is in upper case. -/
theorem upperHexDigit_cases (h : n < 16) :
    '0' ≤ upperHexDigit n ∧ upperHexDigit n ≤ '9' ∨
      'A' ≤ upperHexDigit n ∧ upperHexDigit n ≤ 'F' := by
  rw [upperHexDigit]
  split
  · have hhigh : 0x30 + n ≤ '9'.toNat := by
      change 0x30 + n ≤ 0x39
      omega
    exact .inl (ofNat_between (Nat.le_add_right 0x30 n) hhigh (by omega))
  · have hlow : 'A'.toNat ≤ 0x37 + n := by
      change 0x41 ≤ 0x37 + n
      omega
    have hhigh : 0x37 + n ≤ 'F'.toNat := by
      change 0x37 + n ≤ 0x46
      omega
    exact .inr (ofNat_between hlow hhigh (by omega))

/-- A hexadecimal digit stands for the number for which it is written. -/
theorem value?_upperHexDigit (h : n < 16) : Hex.value? (upperHexDigit n) = some n := by
  rw [upperHexDigit]
  split
  · simp only [Hex.value?, toNat_ofNat_of_lt (show 0x30 + n < 0x80 by omega)]
    rw [if_pos (by omega), Nat.add_sub_cancel_left]
  · simp only [Hex.value?, toNat_ofNat_of_lt (show 0x37 + n < 0x80 by omega)]
    rw [if_neg (by omega), if_neg (by omega), if_pos (by omega), Nat.add_sub_cancel_left]

/-- Four hexadecimal digits are read as the number for which they are written. -/
theorem hexNumber?_upperHex4 (h : n < 65536) : hexNumber? (upperHex4 n) = some n := by
  have hvalue : 16 * (16 * (16 * (16 * 0 + n / 4096 % 16) + n / 256 % 16) + n / 16 % 16) + n % 16 =
      n := by omega
  simp only [hexNumber?, upperHex4, List.foldlM_cons, List.foldlM_nil, Option.bind_eq_bind,
    Option.bind_some, Option.map_some, Option.pure_def,
    value?_upperHexDigit (Nat.mod_lt _ (by omega : 16 > 0)), hvalue]

/-- The digits of a positive number do not begin with a zero. -/
theorem head?_digitChars_ne (h : 0 < n) : (digitChars n).head? ≠ some '0' := by
  induction n using Nat.strongRecOn with
  | ind n ih =>
    rw [digitChars]
    by_cases hn : n < 10
    · rw [Nat.toDigits_of_lt_base hn, List.head?_cons]
      intro heq
      have hzero := congrArg Char.toNat (Option.some.inj heq)
      rw [Nat.toNat_digitChar_of_lt_ten hn] at hzero
      change 48 + n = 48 at hzero
      omega
    · rw [Nat.toDigits_of_base_le (by omega) (by omega),
        List.head?_append_of_ne_nil _ Nat.toDigits_ne_nil]
      exact ih (n / 10) (by omega) (by omega)

end Letters

section Parts

variable {vendor code number : List Char}

/-- No part but the last one could hold a dash, and none does. -/
theorem IsKey.dash_not_mem (h : IsKey vendor code number) : '-' ∉ vendor ∧ '-' ∉ code := by
  constructor
  · intro hmem
    exact absurd (h.vendor_letters _ hmem) (by decide)
  · intro hmem
    exact absurd (h.code_digits _ hmem) (by decide)

private theorem octet_lt (bytes : List UInt8) (offset : Nat) : Edid.octet bytes offset < 256 :=
  UInt8.toNat_lt _

/-- Octets tell such identities only. -/
theorem coded_of_decode (h : Edid.decode bytes = .ok i) : i.Coded := by
  obtain ⟨-, rfl⟩ := Edid.decode_eq_ok_iff.mp h
  have hoctet := octet_lt (bytes.take 128)
  constructor
  · exact ⟨_, rfl⟩
  · have hlow := hoctet 10
    have hhigh := hoctet 11
    change Edid.octet _ 10 + 256 * Edid.octet _ 11 < 65536
    omega
  · have h₀ := hoctet 12
    have h₁ := hoctet 13
    have h₂ := hoctet 14
    have h₃ := hoctet 15
    change Edid.octet _ 12 + 256 * Edid.octet _ 13 + 65536 * Edid.octet _ 14 +
      16777216 * Edid.octet _ 15 < 4294967296
    omega

/-- A display id is vendor, product code and serial number with dashes between them. -/
theorem toList_displayId (i : Identity) :
    i.displayId.toList =
      i.vendor.toList ++ '-' :: (upperHex4 i.productCode ++ '-' :: digitChars i.serialNumber) := by
  rw [Identity.displayId, String.toList_ofList, List.append_assoc, List.cons_append]

/-- The parts of a display id have their form. -/
theorem Identity.Coded.isKey (h : i.Coded) :
    IsKey i.vendor.toList (upperHex4 i.productCode) (digitChars i.serialNumber) := by
  obtain ⟨packed, hvendor⟩ := h.vendor_eq
  rw [hvendor, Edid.decodeVendor, String.toList_ofList]
  refine ⟨rfl, ?_, rfl, ?_, digitChars_ne_nil _, ?_, ?_⟩
  · simp only [List.forall_mem_cons, vendorLetter_cases, true_and]
    exact fun c hc => absurd hc List.not_mem_nil
  · have hdigit : ∀ k, '0' ≤ upperHexDigit (k % 16) ∧ upperHexDigit (k % 16) ≤ '9' ∨
        'A' ≤ upperHexDigit (k % 16) ∧ upperHexDigit (k % 16) ≤ 'F' := fun k =>
      upperHexDigit_cases (Nat.mod_lt k (by omega))
    simp only [upperHex4, List.forall_mem_cons, hdigit, true_and]
    exact fun c hc => absurd hc List.not_mem_nil
  · intro c hc
    change 48 ≤ c.toNat ∧ c.toNat ≤ 57
    exact Char.isDigit_iff_toNat.mp (isDigit_of_mem_digitChars hc)
  · intro hhead
    rcases Nat.eq_zero_or_pos i.serialNumber with hzero | hpos
    · rw [hzero]
      rfl
    · exact absurd hhead (head?_digitChars_ne hpos)

/-- A display id can be taken apart. -/
theorem Identity.Coded.read?_displayId (h : i.Coded) :
    Key.read? i.displayId = some ⟨i.vendor, i.productCode, i.serialNumber⟩ := by
  obtain ⟨hvendor, hcode⟩ := h.isKey.dash_not_mem
  simp only [Key.read?, toList_displayId, Sway.splitAt?_append hvendor, Sway.splitAt?_append hcode,
    hexNumber?_upperHex4 h.productCode_lt, readNat_digitChars h.serialNumber_lt, Except.toOption,
    Option.bind_eq_bind, Option.bind_some, Option.pure_def, String.ofList_toList]

/-- The display ids of two identities are the same exactly if vendor, product code and serial number
are. A display id is three letters for the maker, four hexadecimal digits and a number without zeros
in front, with dashes between them, and tells the three. -/
theorem displayId_tells_apart :
    (∀ bytes bytes' i j, Edid.decode bytes = .ok i → Edid.decode bytes' = .ok j →
      (i.displayId = j.displayId ↔ i.vendor = j.vendor ∧ i.productCode = j.productCode ∧
        i.serialNumber = j.serialNumber)) ∧
    ∀ bytes i, Edid.decode bytes = .ok i →
      (∃ vendor code number, IsKey vendor code number ∧
        i.displayId.toList = vendor ++ '-' :: (code ++ '-' :: number)) ∧
      Key.read? i.displayId = some ⟨i.vendor, i.productCode, i.serialNumber⟩ := by
  constructor
  · intro bytes bytes' i j hi hj
    constructor
    · intro heq
      have hread := (coded_of_decode hi).read?_displayId
      rw [heq, (coded_of_decode hj).read?_displayId] at hread
      obtain ⟨hvendor, hcode, hnumber⟩ := Key.mk.inj (Option.some.inj hread)
      exact ⟨hvendor.symm, hcode.symm, hnumber.symm⟩
    · rintro ⟨hvendor, hcode, hnumber⟩
      rw [Identity.displayId, hvendor, hcode, hnumber]
      rfl
  · intro bytes i hi
    have hcoded := coded_of_decode hi
    exact ⟨⟨_, _, _, hcoded.isKey, toList_displayId i⟩, hcoded.read?_displayId⟩

/-- The EDID that says nothing but the numbers of product and display. -/
def numbered : List UInt8 :=
  Edid.reseal ((Edid.blank.set 10 0xcd).set 12 10)

/-- Makers without letters are alike, and their displays are told apart by the numbers. -/
theorem displayId_tells_apart_numbered :
    ∃ i j, Edid.decode Edid.blank = .ok i ∧ Edid.decode numbered = .ok j ∧
      i.vendor = j.vendor ∧ i.displayId ≠ j.displayId ∧
      Key.read? j.displayId = some ⟨"???", 0xcd, 10⟩ := by
  have hi : Edid.decode Edid.blank = .ok (Edid.identityOf (Edid.blank.take 128)) :=
    Edid.decode_eq_ok_iff.mpr ⟨by decide +kernel, rfl⟩
  have hj : Edid.decode numbered = .ok (Edid.identityOf (numbered.take 128)) :=
    Edid.decode_eq_ok_iff.mpr ⟨by decide +kernel, rfl⟩
  obtain ⟨hsame, htold⟩ := displayId_tells_apart
  refine ⟨_, _, hi, hj, rfl, fun heq => ?_, (htold _ _ hj).2⟩
  obtain ⟨-, hcode, -⟩ := (hsame _ _ _ _ hi hj).mp heq
  exact absurd hcode (by decide +kernel)

end Parts

end Displays

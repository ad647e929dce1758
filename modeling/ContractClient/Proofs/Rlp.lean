import ContractClient.Proofs.Bytes
import ContractClient.Rlp

/-!
# Encodings determine items

An encoding shows where it ends and which item it is of: whatever stands behind two encodings, they
are equal only if their items are (`Rlp.encode_append_inj`). It rests on the same fact about headers
(`Rlp.header_append_inj`). A header has room for eight bytes of a length, so payloads are shorter
than `Rlp.lengthLimit`.
-/

namespace ContractClient

namespace Rlp

/-- A header has no room for this length. -/
def lengthLimit : Nat := 256 ^ 8

/-- What stands behind the header of an item. -/
def payload : Rlp → Bytes
  | string octets => octets
  | list items => encodeAll items

/-- What is added to a length in the header of an item. -/
def offset : Rlp → Nat
  | string _ => 0x80
  | list _ => 0xc0

/-- Induction over the items of lists. -/
@[elab_as_elim, induction_eliminator]
theorem induction {motive : Rlp → Prop} (string : ∀ octets, motive (.string octets))
    (list : ∀ items, (∀ item ∈ items, motive item) → motive (.list items)) (item : Rlp) :
    motive item :=
  @Rlp.rec motive (fun items => ∀ item ∈ items, motive item)
    string list
    (fun _ absent => nomatch absent)
    (fun _ _ head tail => List.forall_mem_cons.mpr ⟨head, tail⟩)
    item

/-- The first byte of a header, and the bytes of the length if there are any. -/
inductive HasHeader (offset length : Nat) : Bytes → Prop where
  | short (small : length < 56) : HasHeader offset length [UInt8.ofNat (offset + length)]
  | long (large : 56 ≤ length) : HasHeader offset length
      (UInt8.ofNat (offset + 55 + Bytes.digitCount length) :: Bytes.ofNatMinimal length)

theorem hasHeader (offset length : Nat) : HasHeader offset length (header offset length) := by
  rw [header]
  split
  · next small => exact .short small
  · next large =>
      simp only [Bytes.length_ofNatMinimal]
      exact .long (Nat.le_of_not_lt large)

theorem digitCount_of_long {length : Nat} (large : 56 ≤ length) (fits : length < lengthLimit) :
    1 ≤ Bytes.digitCount length ∧ Bytes.digitCount length ≤ 8 :=
  ⟨Bytes.digitCount_pos (by omega), Bytes.digitCount_le fits⟩

theorem eq_of_ofNat_eq {first second : Nat} (same : UInt8.ofNat first = UInt8.ofNat second)
    (firstSmall : first < 256) (secondSmall : second < 256) : first = second := by
  have sameNumber := congrArg UInt8.toNat same
  rwa [UInt8.toNat_ofNat', UInt8.toNat_ofNat', Nat.mod_eq_of_lt firstSmall,
    Nat.mod_eq_of_lt secondSmall] at sameNumber

section Headers

variable {first second firstLength secondLength : Nat} {firstRest secondRest : Bytes}

/-- A header shows the kind and the length, and where it ends. -/
theorem header_append_inj (firstKind : first = 0x80 ∨ first = 0xc0)
    (secondKind : second = 0x80 ∨ second = 0xc0) (firstFits : firstLength < lengthLimit)
    (secondFits : secondLength < lengthLimit)
    (same : header first firstLength ++ firstRest = header second secondLength ++ secondRest) :
    first = second ∧ firstLength = secondLength ∧ firstRest = secondRest := by
  have firstHeader := hasHeader first firstLength
  have secondHeader := hasHeader second secondLength
  generalize header first firstLength = one at firstHeader same
  generalize header second secondLength = other at secondHeader same
  -- The first bytes of the four forms lie in four ranges that do not meet.
  cases firstHeader with
  | short firstSmall =>
      cases secondHeader with
      | short secondSmall =>
          rcases List.cons.inj same with ⟨sameByte, sameRest⟩
          have sameStart := eq_of_ofNat_eq sameByte (by omega) (by omega)
          exact ⟨by omega, by omega, sameRest⟩
      | long secondLarge =>
          have digits := digitCount_of_long secondLarge secondFits
          have sameStart := eq_of_ofNat_eq (List.cons.inj same).1 (by omega) (by omega)
          omega
  | long firstLarge =>
      have firstDigits := digitCount_of_long firstLarge firstFits
      cases secondHeader with
      | short secondSmall =>
          have sameStart := eq_of_ofNat_eq (List.cons.inj same).1 (by omega) (by omega)
          omega
      | long secondLarge =>
          have secondDigits := digitCount_of_long secondLarge secondFits
          rcases List.cons.inj same with ⟨sameByte, sameRest⟩
          have sameStart := eq_of_ofNat_eq sameByte (by omega) (by omega)
          have sameCount : (Bytes.ofNatMinimal firstLength).length =
              (Bytes.ofNatMinimal secondLength).length := by
            rw [Bytes.length_ofNatMinimal, Bytes.length_ofNatMinimal]
            omega
          rcases List.append_inj sameRest sameCount with ⟨sameLength, sameRest⟩
          exact ⟨by omega, Bytes.ofNatMinimal_inj sameLength, sameRest⟩

theorem header_append_ne {octet : UInt8} (small : octet < 0x80)
    (kind : first = 0x80 ∨ first = 0xc0) (fits : firstLength < lengthLimit) :
    octet :: secondRest ≠ header first firstLength ++ firstRest := by
  have low : octet.toNat < 0x80 := UInt8.lt_iff_toNat_lt.mp small
  have startsHigh : ∀ start : Nat, octet = UInt8.ofNat start → start < 256 → start < 0x80 := by
    rintro start rfl inByte
    rwa [UInt8.toNat_ofNat', Nat.mod_eq_of_lt inByte] at low
  intro same
  have found := hasHeader first firstLength
  generalize header first firstLength = start at found same
  cases found with
  | short small =>
      have start := startsHigh _ (List.cons.inj same).1 (by omega)
      omega
  | long large =>
      have digits := digitCount_of_long large fits
      have start := startsHigh _ (List.cons.inj same).1 (by omega)
      omega

end Headers

theorem offset_eq (item : Rlp) : item.offset = 0x80 ∨ item.offset = 0xc0 := by
  cases item with
  | string octets => exact Or.inl rfl
  | list items => exact Or.inr rfl

/-- A byte below `0x80` stands for itself; every other item has a header. -/
inductive HasForm : Rlp → Bytes → Prop where
  | byte {octet : UInt8} (small : octet < 0x80) : HasForm (.string [octet]) [octet]
  | headed (item : Rlp) : HasForm item (header item.offset item.payload.length ++ item.payload)

theorem hasForm (item : Rlp) : HasForm item item.encode := by
  cases item with
  | list items =>
      rw [encode]
      exact .headed (.list items)
  | string octets =>
      rw [encode]
      unfold encodeString
      split
      · next octet =>
          split
          · next small => exact .byte small
          · exact .headed (.string [octet])
      · exact .headed (.string octets)

theorem length_payload_le (item : Rlp) : item.payload.length ≤ item.encode.length := by
  have form := hasForm item
  generalize item.encode = octets at form
  cases form with
  | byte small => exact Nat.le_refl _
  | headed => simp

theorem encode_ne_nil (item : Rlp) : item.encode ≠ [] := by
  have form := hasForm item
  generalize item.encode = octets at form
  cases form with
  | byte small => simp
  | headed =>
      have start := hasHeader item.offset item.payload.length
      generalize header item.offset item.payload.length = octets at start
      cases start <;> simp

/-- Encodings with something behind them are equal only if the headers and what follows them are. -/
theorem payload_append_inj {item other : Rlp} {rest otherRest : Bytes}
    (fits : item.payload.length < lengthLimit) (otherFits : other.payload.length < lengthLimit)
    (same : item.encode ++ rest = other.encode ++ otherRest) :
    item.offset = other.offset ∧ item.payload = other.payload ∧ rest = otherRest := by
  have form := hasForm item
  have otherForm := hasForm other
  generalize item.encode = octets at form same
  generalize other.encode = otherOctets at otherForm same
  cases form with
  | byte small =>
      cases otherForm with
      | byte otherSmall =>
          rcases List.cons.inj same with ⟨rfl, sameRest⟩
          exact ⟨rfl, rfl, sameRest⟩
      | headed =>
          rw [List.append_assoc] at same
          exact absurd same (header_append_ne small (offset_eq other) otherFits)
  | headed =>
      cases otherForm with
      | byte otherSmall =>
          rw [List.append_assoc] at same
          exact absurd same.symm (header_append_ne otherSmall (offset_eq item) fits)
      | headed =>
          rw [List.append_assoc, List.append_assoc] at same
          rcases header_append_inj (offset_eq item) (offset_eq other) fits otherFits same with
            ⟨sameKind, sameLength, sameRest⟩
          rcases List.append_inj sameRest sameLength with ⟨samePayload, sameRest⟩
          exact ⟨sameKind, samePayload, sameRest⟩

theorem encodeAll_inj_of_forall {items others : List Rlp}
    (each : ∀ item ∈ items, ∀ other rest otherRest, item.payload.length < lengthLimit →
      other.payload.length < lengthLimit → item.encode ++ rest = other.encode ++ otherRest →
        item = other ∧ rest = otherRest)
    (fits : (encodeAll items).length < lengthLimit) (same : encodeAll items = encodeAll others) :
    items = others := by
  induction items generalizing others with
  | nil =>
      cases others with
      | nil => rfl
      | cons other others =>
          have empty : other.encode ++ encodeAll others = [] := same.symm
          exact absurd (List.append_eq_nil_iff.mp empty).1 (encode_ne_nil other)
  | cons item items ih =>
      cases others with
      | nil => exact absurd (List.append_eq_nil_iff.mp same).1 (encode_ne_nil item)
      | cons other others =>
          have otherFits : (encodeAll (other :: others)).length < lengthLimit := same ▸ fits
          simp only [encodeAll, List.length_append] at fits otherFits same
          have inItem := length_payload_le item
          have inOther := length_payload_le other
          rcases each item List.mem_cons_self other _ _ (by omega) (by omega) same with
            ⟨rfl, sameRest⟩
          rw [ih (fun item member => each item (List.mem_cons_of_mem _ member)) (by omega) sameRest]

/-- An encoding determines its item, and where it ends. -/
theorem encode_append_inj {item other : Rlp} {rest otherRest : Bytes}
    (fits : item.payload.length < lengthLimit) (otherFits : other.payload.length < lengthLimit)
    (same : item.encode ++ rest = other.encode ++ otherRest) : item = other ∧ rest = otherRest := by
  -- Only the encodings of the items of a list need the induction.
  induction item generalizing other rest otherRest with
  | string octets =>
      rcases payload_append_inj fits otherFits same with ⟨sameKind, samePayload, sameRest⟩
      cases other with
      | string otherOctets => exact ⟨congrArg string samePayload, sameRest⟩
      | list others => cases sameKind
  | list items ih =>
      rcases payload_append_inj fits otherFits same with ⟨sameKind, samePayload, sameRest⟩
      cases other with
      | string otherOctets => cases sameKind
      | list others =>
          have sameItems := encodeAll_inj_of_forall
            (fun item member other rest otherRest fits otherFits same =>
              ih item member fits otherFits same) fits samePayload
          exact ⟨congrArg list sameItems, sameRest⟩

/-- Encodings of lists are equal only if the lists are. A list that is too long has no encoding that
could be read. -/
theorem encode_list_inj {items others : List Rlp}
    (fits : (Rlp.list items).encode.length < lengthLimit)
    (same : (Rlp.list items).encode = (Rlp.list others).encode) : items = others := by
  have inItems := length_payload_le (.list items)
  have inOthers := length_payload_le (.list others)
  rw [same] at inItems fits
  have sameAppended : (Rlp.list items).encode ++ [] = (Rlp.list others).encode ++ [] := by rw [same]
  exact list.inj (encode_append_inj (by omega) (by omega) sameAppended).1

theorem encode_list_ne_cons {items : List Rlp} {octet : UInt8} {rest : Bytes}
    (fits : (Rlp.list items).encode.length < lengthLimit) (low : octet < 0x80) :
    octet :: rest ≠ (Rlp.list items).encode := by
  have inItems := length_payload_le (.list items)
  exact header_append_ne low (offset_eq (.list items)) (Nat.lt_of_le_of_lt inItems fits)

theorem nat_inj {first second : Nat} (same : nat first = nat second) : first = second :=
  Bytes.ofNatMinimal_inj (string.inj same)

end Rlp

end ContractClient

import ContractClient.Proofs.Abi.Type
import ContractClient.Proofs.Bytes

/-!
# Segments of data

A decoder works on positions of the whole data, an encoder on byte strings. `AbiType.StandsAt` joins
the two: it says that a byte string stands in the data at a position. A part of what stands there
stands at its own position (`AbiType.StandsAt.left`, `AbiType.StandsAt.right`), and it can be read
(`AbiType.StandsAt.readBytes`, `AbiType.StandsAt.readNat`, `AbiType.StandsAt.readContent`).
Conversely, what was read stands there (`AbiType.readBytes_eq_ok_iff` and its siblings).
-/

namespace ContractClient

namespace AbiType

/-- A byte string stands in the data at a position. -/
def StandsAt (content data : Bytes) (position : Nat) : Prop :=
  ∃ before after, before.length = position ∧ data = before ++ (content ++ after)

namespace StandsAt

variable {first second content data octets : Bytes} {position number : Nat}

theorem start (content : Bytes) : StandsAt content content 0 :=
  ⟨[], [], rfl, by simp⟩

theorem left (stands : StandsAt (first ++ second) data position) :
    StandsAt first data position := by
  rcases stands with ⟨before, after, beforeLength, rfl⟩
  exact ⟨before, second ++ after, beforeLength, by simp⟩

theorem right (stands : StandsAt (first ++ second) data position) :
    StandsAt second data (position + first.length) := by
  rcases stands with ⟨before, after, beforeLength, rfl⟩
  exact ⟨before ++ first, after, by simp [beforeLength], by simp⟩

theorem le_length (stands : StandsAt content data position) :
    position + content.length ≤ data.length := by
  rcases stands with ⟨before, after, rfl, rfl⟩
  simp only [List.length_append]
  omega

theorem readBytes (stands : StandsAt content data position) :
    readBytes data position content.length = .ok content := by
  rcases stands with ⟨before, after, rfl, rfl⟩
  simp [AbiType.readBytes]

theorem readNat (stands : StandsAt (Bytes.word number) data position) (fits : number < 2 ^ 256) :
    readNat data position = .ok number := by
  have read := stands.readBytes
  rw [Bytes.length_word] at read
  simp [AbiType.readNat, read, Bytes.toNat_word fits]

/-- The content of a byte string of any length is read back. -/
theorem readContent (stands : StandsAt (Bytes.word octets.length ++ Bytes.padRight octets)
      data position) (fits : octets.length < 2 ^ 256) :
    readContent data position = .ok octets := by
  have readLength := stands.left.readNat fits
  have readPadded := stands.right.readBytes
  rw [Bytes.length_word, Bytes.length_padRight] at readPadded
  simp [AbiType.readContent, readLength, readPadded, Bytes.padRight, Bytes.zeros]

theorem append (stands : StandsAt first data position)
    (behind : StandsAt second data (position + first.length)) :
    StandsAt (first ++ second) data position := by
  rcases stands with ⟨before, after, rfl, rfl⟩
  rcases behind with ⟨front, back, frontLength, same⟩
  have split : before ++ first ++ after = front ++ (second ++ back) := by simpa using same
  have sameLength : (before ++ first).length = front.length := by simp [frontLength]
  rcases List.append_inj split sameLength with ⟨rfl, rfl⟩
  exact ⟨before, back, rfl, by simp⟩

theorem extend (stands : StandsAt content data position) (suffix : Bytes) :
    StandsAt content (data ++ suffix) position := by
  rcases stands with ⟨before, after, beforeLength, rfl⟩
  exact ⟨before, after ++ suffix, beforeLength, by simp⟩

/-- What stands at the start is the start. -/
theorem eq_take (stands : StandsAt content data 0) : content = data.take content.length := by
  rcases stands with ⟨before, after, beforeLength, rfl⟩
  rw [List.length_eq_zero_iff] at beforeLength
  simp [beforeLength]

end StandsAt

section Reading

variable {content data : Bytes} {position count number : Nat}

theorem readBytes_eq_ok_iff :
    readBytes data position count = .ok content ↔
      content.length = count ∧ StandsAt content data position := by
  constructor
  · intro read
    rw [readBytes] at read
    split at read
    · next within =>
        cases read
        refine ⟨by simp; omega, data.take position, (data.drop position).drop count, ?_, ?_⟩
        · simp; omega
        · rw [List.take_append_drop, List.take_append_drop]
    · cases read
  · rintro ⟨rfl, stands⟩
    exact stands.readBytes

theorem readNat_eq_ok_iff :
    readNat data position = .ok number ↔
      number < 2 ^ 256 ∧ StandsAt (Bytes.word number) data position := by
  constructor
  · intro read
    rcases Outcome.bind_eq_ok_iff.mp read with ⟨word, readWord, found⟩
    rcases readBytes_eq_ok_iff.mp readWord with ⟨size, stands⟩
    cases found
    rw [Bytes.word_toNat size]
    exact ⟨Bytes.toNat_lt_of_word size, stands⟩
  · rintro ⟨fits, stands⟩
    exact stands.readNat fits

theorem eq_zeros_of_all {octets : Bytes} (zero : octets.all (· == 0) = true) :
    octets = Bytes.zeros octets.length := by
  rw [List.all_eq_true] at zero
  exact List.eq_replicate_of_mem fun octet member => by simpa using zero octet member

theorem readContent_eq_ok_iff :
    readContent data position = .ok content ↔
      content.length < 2 ^ 256 ∧
        StandsAt (Bytes.word content.length ++ Bytes.padRight content) data position := by
  constructor
  · intro read
    rcases Outcome.bind_eq_ok_iff.mp read with ⟨length, readLength, read⟩
    rcases Outcome.bind_eq_ok_iff.mp read with ⟨padded, readPadded, read⟩
    rcases readNat_eq_ok_iff.mp readLength with ⟨fits, lengthStands⟩
    rcases readBytes_eq_ok_iff.mp readPadded with ⟨paddedLength, paddedStands⟩
    split at read
    · next zero =>
        cases read
        have contentLength : (padded.take length).length = length := by simp; omega
        have padding := eq_zeros_of_all zero
        rw [List.length_drop, paddedLength, Nat.add_sub_cancel_left] at padding
        have split : Bytes.padRight (padded.take length) = padded := by
          rw [Bytes.padRight, contentLength, ← padding, List.take_append_drop]
        rw [contentLength, split]
        refine ⟨fits, lengthStands.append ?_⟩
        rwa [Bytes.length_word]
    · cases read
  · rintro ⟨fits, stands⟩
    exact stands.readContent fits

end Reading

end AbiType

end ContractClient

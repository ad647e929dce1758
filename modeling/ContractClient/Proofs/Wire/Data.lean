import ContractClient.Proofs.Wire.Quantity
import ContractClient.Wire.Data
import Mathlib.Algebra.Group.Even

/-!
# Data and the texts that are read as data

The bytes of a data text are written by pairs of digits (`Writes`), and every text of an even number
of hexadecimal digits behind the marker writes some bytes (`Data.isData_iff`). The reader takes all
of these texts, and besides them the same texts with a line break at the end
(`Data.toBytes_eq_ok_iff`); it is exact (`Data.IsExact`) on all texts but the latter.
-/

namespace ContractClient

namespace Hex

variable {characters : List Char} {octets : Bytes}

theorem map_toLower_encode (octets : Bytes) : (encode octets).map Char.toLower = encode octets := by
  have allDigits : ∀ value : Fin 16, (digit value).toLower = digit value := by decide
  rw [encode, List.map_flatMap]
  refine List.flatMap_congr fun octet _ => ?_
  have high := allDigits ⟨octet.toNat / 16 % 16, Nat.mod_lt _ (by decide)⟩
  have low := allDigits ⟨octet.toNat % 16, Nat.mod_lt _ (by decide)⟩
  simp [digits, high, low]

theorem toLower_eq_digit {character : Char} {value : Nat} (known : value? character = some value) :
    value < 16 ∧ character.toLower = digit value := by
  have allDigits : ∀ value : Fin 16, Nat.digitChar value = digit value := by decide
  rcases toLower_of_value? known with ⟨small, lower⟩
  exact ⟨small, lower.trans (allDigits ⟨value, small⟩)⟩

/-- Digits that are read are the digits of what they are read as. -/
theorem map_toLower_of_decode? (read : decode? characters = some octets) :
    characters.map Char.toLower = encode octets := by
  induction characters using decode?.induct generalizing octets with
  | case1 =>
      cases read
      rfl
  | case2 high low rest ih =>
      simp only [decode?, Option.bind_eq_bind, Option.bind_eq_some_iff, Option.some.injEq] at read
      rcases read with ⟨first, knownFirst, second, knownSecond, tail, readTail, rfl⟩
      rcases toLower_eq_digit knownFirst with ⟨smallFirst, lowerFirst⟩
      rcases toLower_eq_digit knownSecond with ⟨smallSecond, lowerSecond⟩
      have joined : (UInt8.ofNat (first * 16 + second)).toNat = first * 16 + second := by
        rw [UInt8.toNat_ofNat']
        omega
      have highDigit : (first * 16 + second) / 16 % 16 = first := by omega
      have lowDigit : (first * 16 + second) % 16 = second := by omega
      rw [encode_cons, joined, highDigit, lowDigit, List.map_cons, List.map_cons, lowerFirst,
        lowerSecond, ih readTail]
  | case3 digit => cases read

theorem decode?_eq_some_iff :
    decode? characters = some octets ↔ characters.map Char.toLower = encode octets := by
  refine ⟨map_toLower_of_decode?, fun lower => ?_⟩
  rw [← decode?_map_toLower, lower, decode?_encode]

end Hex

/-- A text writes bytes: `0x` and two digits for each, with letters in either case. -/
def Writes (text : String) (octets : Bytes) : Prop :=
  ∃ digits, text.toList = '0' :: 'x' :: digits ∧ digits.map Char.toLower = Hex.encode octets

namespace Data

/-- A text of an even number of hexadecimal digits behind the marker. -/
def IsData (text : String) : Prop :=
  ∃ digits, text.toList = '0' :: 'x' :: digits ∧ Even digits.length ∧
    ∀ digit ∈ digits, Hex.isDigit digit = true

/-- A text is read exactly if it is data, and then it is the text of what is read, but for the case
of its letters. Every other text is refused as invalid. -/
structure IsExact (text : String) : Prop where
  accepted : (∃ octets, toBytes (.text text) = .ok octets) ↔ IsData text
  written {octets : Bytes} (read : toBytes (.text text) = .ok octets) :
    (ofBytes octets).toList = text.toList.map Char.toLower
  refused {failure : Failure} (failed : toBytes (.text text) = .error failure) :
    ∃ fault, failure = .fault fault ∧ fault.kind = .validation

variable {text : String} {octets : Bytes}

theorem writes_ofBytes (octets : Bytes) : Writes (ofBytes octets) octets :=
  ⟨Hex.encode octets, String.toList_ofList, Hex.map_toLower_encode octets⟩

theorem map_toLower_of_writes (writes : Writes text octets) :
    text.toList.map Char.toLower = (ofBytes octets).toList := by
  rcases writes with ⟨digits, shape, lower⟩
  rw [shape, List.map_cons, List.map_cons, lower, ofBytes, Hex.text, String.toList_ofList]
  rfl

theorem isData_iff : IsData text ↔ ∃ octets, Writes text octets := by
  constructor
  · rintro ⟨digits, shape, ⟨half, even⟩, all⟩
    have paired : digits.length = 2 * half := by omega
    rcases Option.isSome_iff_exists.mp ((Hex.isSome_decode?_iff paired).mpr all) with
      ⟨octets, read⟩
    exact ⟨octets, digits, shape, Hex.map_toLower_of_decode? read⟩
  · rintro ⟨octets, digits, shape, lower⟩
    have read := Hex.decode?_eq_some_iff.mpr lower
    have paired := Hex.length_of_decode? read
    refine ⟨digits, shape, ⟨octets.length, by omega⟩, ?_⟩
    exact (Hex.isSome_decode?_iff paired).mp (by rw [read, Option.isSome_some])

theorem ofText?_of_writes (writes : Writes text octets) : ofText? text.toList = some octets := by
  rcases writes with ⟨digits, shape, lower⟩
  simp [shape, ofText?, Hex.decode?_eq_some_iff.mpr lower]

/-- The digits of bytes are not followed by a line break, which the reader takes away. -/
theorem ofText?_of_writes_lineBreak (writes : Writes text octets) :
    ofText? (text ++ "\n").toList = some octets := by
  rcases writes with ⟨digits, shape, lower⟩
  have read := Hex.decode?_eq_some_iff.mpr lower
  have odd : Hex.decode? (digits ++ ['\n']) = none := by
    by_contra readAgain
    rcases Option.ne_none_iff_exists'.mp readAgain with ⟨others, readOthers⟩
    have paired := Hex.length_of_decode? read
    have pairedOthers := Hex.length_of_decode? readOthers
    rw [List.length_append, List.length_singleton] at pairedOthers
    omega
  have shapeBroken : (text ++ "\n").toList = '0' :: 'x' :: (digits ++ ['\n']) := by
    rw [String.toList_append, shape]
    rfl
  simp [shapeBroken, ofText?, odd, read]

/-- What is read are the texts of the bytes, in any case of the letters, and the same texts with a
line break behind them. -/
theorem ofText?_eq_some_iff : ofText? text.toList = some octets ↔
    ∃ start, (text = start ∨ text = start ++ "\n") ∧ Writes start octets := by
  constructor
  · intro read
    unfold ofText? at read
    split at read
    · next digits shape =>
        split at read
        · next others readDigits =>
            cases read
            exact ⟨text, Or.inl rfl, digits, shape, Hex.map_toLower_of_decode? readDigits⟩
        · simp only [beq_iff_eq, Option.ite_none_right_eq_some] at read
          rcases read with ⟨broken, readDigits⟩
          refine ⟨String.ofList ('0' :: 'x' :: digits.dropLast), Or.inr ?_, digits.dropLast,
            String.toList_ofList, Hex.map_toLower_of_decode? readDigits⟩
          rw [← String.toList_inj, String.toList_append, String.toList_ofList, shape,
            List.cons_append, List.cons_append]
          exact congrArg (fun others => '0' :: 'x' :: others)
            (List.dropLast_append_getLast? '\n' broken).symm
    · cases read
  · rintro ⟨start, rfl | rfl, writes⟩
    · exact ofText?_of_writes writes
    · exact ofText?_of_writes_lineBreak writes

theorem toBytes_eq_ok_iff : toBytes (.text text) = .ok octets ↔
    ∃ start, (text = start ∨ text = start ++ "\n") ∧ Writes start octets := by
  rw [← ofText?_eq_some_iff, toBytes]
  split <;> simp [*, toBytes.invalid, Outcome.fault]

theorem toBytes_ofBytes (octets : Bytes) : toBytes (.text (ofBytes octets)) = .ok octets :=
  toBytes_eq_ok_iff.mpr ⟨_, Or.inl rfl, writes_ofBytes octets⟩

/-- A text that is not read is refused. -/
theorem eq_invalid_of_toBytes {failure : Failure} (failed : toBytes (.text text) = .error failure) :
    toBytes.invalid (.text text) = .error failure := by
  rw [toBytes] at failed
  split at failed
  · cases failed
  · exact failed

theorem isExact_iff : IsExact text ↔ ¬∃ start, text = start ++ "\n" ∧ IsData start := by
  constructor
  · rintro exact ⟨start, rfl, data⟩
    rcases isData_iff.mp data with ⟨octets, writes⟩
    have read : toBytes (.text (start ++ "\n")) = .ok octets :=
      toBytes_eq_ok_iff.mpr ⟨start, Or.inr rfl, writes⟩
    -- The text that would be written has the length of the start alone.
    have written := congrArg List.length (exact.written read)
    rw [← map_toLower_of_writes writes, List.length_map, List.length_map, String.toList_append,
      List.length_append] at written
    exact absurd written (by simp)
  · intro unbroken
    have whole : ∀ {octets}, toBytes (.text text) = .ok octets → Writes text octets := by
      intro octets read
      rcases toBytes_eq_ok_iff.mp read with ⟨start, rfl | rfl, writes⟩
      · exact writes
      · exact absurd ⟨start, rfl, isData_iff.mpr ⟨octets, writes⟩⟩ unbroken
    constructor
    case accepted =>
      rw [isData_iff]
      exact exists_congr fun octets =>
        ⟨whole, fun writes => toBytes_eq_ok_iff.mpr ⟨text, Or.inl rfl, writes⟩⟩
    case written => exact fun read => (map_toLower_of_writes (whole read)).symm
    case refused =>
      intro failure failed
      exact ⟨_, (Except.error.inj (eq_invalid_of_toBytes failed)).symm, rfl⟩

/-- The reader takes a text exactly if it is data, and gives the bytes that it writes, unless the
text is data with a line break behind it, which is read as if it ended before. Every byte string is
read from its text, and texts without an encoding are refused like all others. -/
theorem exact_unless_broken (text : String) :
    (IsExact text ↔ ¬∃ start, text = start ++ "\n" ∧ IsData start) ∧
    (∀ octets, toBytes (.text text) = .ok octets ↔
      ∃ start, (text = start ∨ text = start ++ "\n") ∧ Writes start octets) ∧
    (∀ octets, ofValue (.bytes octets) = .ok (ofBytes octets) ∧
      ofValue (.buffer octets) = .ok (ofBytes octets) ∧
      toBytes (.text (ofBytes octets)) = .ok octets) ∧
    ∀ codePoints, toBytes (.brokenText codePoints) = toBytes.invalid (.brokenText codePoints) :=
  ⟨isExact_iff, fun _ => toBytes_eq_ok_iff, fun octets => ⟨rfl, rfl, toBytes_ofBytes octets⟩,
    fun _ => rfl⟩

/-- A line break behind a byte is read away, although the text with it is no data. -/
theorem not_isExact_brokenByte : ¬IsExact "0x00\n" := by
  intro exact
  have read : toBytes (.text "0x00\n") = .ok [0] := by rfl
  rcases exact.accepted.mp ⟨[0], read⟩ with ⟨digits, shape, _, all⟩
  have known : digits = ['0', '0', '\n'] := by simpa using shape.symm
  exact absurd (all '\n' (by simp [known])) (by decide)

end Data

end ContractClient

import ContractClient.Wire.Address
import Mathlib.Data.List.Induction

/-!
# Laws of byte strings

Numbers, texts and hexadecimal digits are read back from what they were written as:
`Bytes.toNat_ofNat`, `Bytes.toNat_ofNatMinimal`, `Bytes.toText?_ofText` and `Hex.decode?_encode`. An
address is read back from its digits in lower case and from its text. Byte strings and texts are
written again as what they were read from: `Bytes.ofNat_toNat`, `Bytes.ofText_of_toText?`.
-/

namespace ContractClient

namespace Bytes

@[simp]
theorem length_ofNat (width value : Nat) : (ofNat width value).length = width := by
  induction width generalizing value with
  | zero => rfl
  | succ width ih => simp [ofNat, ih]

@[simp]
theorem length_word (value : Nat) : (word value).length = wordLength :=
  length_ofNat wordLength value

@[simp]
theorem length_zeros (count : Nat) : (zeros count).length = count :=
  List.length_replicate

theorem toNat_append_singleton (octets : Bytes) (octet : UInt8) :
    toNat (octets ++ [octet]) = toNat octets * 256 + octet.toNat := by
  simp [toNat]

theorem toNat_zeros (count : Nat) : toNat (zeros count) = 0 := by
  induction count with
  | zero => rfl
  | succ count ih =>
      have split : zeros (count + 1) = zeros count ++ [0] := List.replicate_succ'
      rw [split, toNat_append_singleton, ih]
      rfl

theorem toNat_ofNat (width value : Nat) : toNat (ofNat width value) = value % 256 ^ width := by
  induction width generalizing value with
  | zero => simp [ofNat, toNat, Nat.mod_one]
  | succ width ih =>
      have lastDigit : (UInt8.ofNat (value % 256)).toNat = value % 256 := by
        simp [UInt8.toNat_ofNat']
      rw [ofNat, toNat_append_singleton, ih, lastDigit, Nat.pow_succ, Nat.mul_comm (256 ^ width),
        Nat.mod_mul]
      omega

theorem toNat_word {value : Nat} (fits : value < 2 ^ 256) : toNat (word value) = value := by
  have limit : 256 ^ wordLength = 2 ^ 256 := by decide
  rw [word, toNat_ofNat, limit, Nat.mod_eq_of_lt fits]

theorem toNat_append (front back : Bytes) :
    toNat (front ++ back) = toNat front * 256 ^ back.length + toNat back := by
  induction back using List.reverseRecOn with
  | nil => simp [toNat]
  | append_singleton back octet ih =>
      rw [← List.append_assoc, toNat_append_singleton, toNat_append_singleton, ih,
        List.length_append, List.length_singleton, Nat.pow_succ, Nat.add_mul, Nat.mul_assoc,
        Nat.add_assoc]

theorem toNat_lt (octets : Bytes) : toNat octets < 256 ^ octets.length := by
  induction octets using List.reverseRecOn with
  | nil => simp [toNat]
  | append_singleton octets octet ih =>
      have small : octet.toNat < 256 := octet.toNat_lt
      rw [toNat_append_singleton, List.length_append, List.length_singleton, Nat.pow_succ]
      omega

/-- The digits of a byte string are its bytes. -/
theorem ofNat_toNat (octets : Bytes) : ofNat octets.length (toNat octets) = octets := by
  induction octets using List.reverseRecOn with
  | nil => rfl
  | append_singleton octets octet ih =>
      have small : octet.toNat < 256 := octet.toNat_lt
      have leading : (toNat octets * 256 + octet.toNat) / 256 = toNat octets := by omega
      have last : (toNat octets * 256 + octet.toNat) % 256 = octet.toNat := by omega
      rw [toNat_append_singleton, List.length_append, List.length_singleton, ofNat, leading, last,
        ih, UInt8.ofNat_toNat]

theorem toNat_inj {first second : Bytes} (sameLength : first.length = second.length)
    (same : toNat first = toNat second) : first = second := by
  rw [← ofNat_toNat first, ← ofNat_toNat second, sameLength, same]

theorem toNat_lt_of_word {octets : Bytes} (size : octets.length = wordLength) :
    toNat octets < 2 ^ 256 := by
  have limit : 256 ^ wordLength = 2 ^ 256 := by decide
  rw [← limit, ← size]
  exact toNat_lt octets

theorem word_toNat {octets : Bytes} (size : octets.length = wordLength) :
    word (toNat octets) = octets := by
  rw [word, ← size]
  exact ofNat_toNat octets

theorem lt_pow_digitCount (value : Nat) : value < 256 ^ digitCount value := by
  by_cases zero : value = 0
  · simp [digitCount, zero]
  · have bits : value < 2 ^ (value.log2 + 1) := Nat.lt_log2_self
    have width : value.log2 + 1 ≤ 8 * (value.log2 / 8 + 1) := by omega
    calc value < 2 ^ (value.log2 + 1) := bits
      _ ≤ 2 ^ (8 * (value.log2 / 8 + 1)) := Nat.pow_le_pow_right (by decide) width
      _ = 256 ^ digitCount value := by rw [Nat.pow_mul, digitCount, if_neg zero]

theorem digitCount_le {value width : Nat} (fits : value < 256 ^ width) :
    digitCount value ≤ width := by
  by_cases zero : value = 0
  · simp [digitCount, zero]
  · have bits : value < 2 ^ (8 * width) := by rwa [Nat.pow_mul]
    have small : value.log2 < 8 * width := (Nat.log2_lt zero).mpr bits
    rw [digitCount, if_neg zero]
    omega

theorem digitCount_pos {value : Nat} (positive : 0 < value) : 0 < digitCount value := by
  rw [digitCount, if_neg (Nat.ne_of_gt positive)]
  exact Nat.succ_pos _

@[simp]
theorem length_ofNatMinimal (value : Nat) : (ofNatMinimal value).length = digitCount value :=
  length_ofNat _ _

theorem toNat_ofNatMinimal (value : Nat) : toNat (ofNatMinimal value) = value := by
  rw [ofNatMinimal, toNat_ofNat, Nat.mod_eq_of_lt (lt_pow_digitCount value)]

theorem ofNatMinimal_inj {first second : Nat} (same : ofNatMinimal first = ofNatMinimal second) :
    first = second := by
  have sameNumber := congrArg toNat same
  rwa [toNat_ofNatMinimal, toNat_ofNatMinimal] at sameNumber

/-- A byte string with its padding occupies whole words. -/
theorem length_padRight (octets : Bytes) :
    (padRight octets).length = octets.length + wordPadding octets.length := by
  simp [padRight]

theorem length_wordOf {octets : Bytes} (fits : octets.length ≤ wordLength) :
    (wordOf octets).length = wordLength := by
  simp only [wordOf, List.length_append, length_zeros]
  omega

/-- A byte string in a word, completed to a size first. -/
theorem wordOf_eq_append {octets : Bytes} {size : Nat} (fits : octets.length ≤ size)
    (limit : size ≤ wordLength) :
    wordOf octets = (octets ++ zeros (size - octets.length)) ++ zeros (wordLength - size) := by
  rw [wordOf, List.append_assoc, zeros, zeros, zeros, List.replicate_append_replicate]
  congr 2
  omega

theorem toText?_ofText (text : String) : toText? (ofText text) = some text := by
  have sameBytes : (⟨text.toUTF8.data.toList.toArray⟩ : ByteArray) = text.toUTF8 := by simp
  have valid : text.toUTF8.IsValidUTF8 := text.isValidUTF8
  rw [toText?, ofText, sameBytes, String.fromUTF8?, dif_pos valid]
  rfl

theorem ofText_of_toText? {octets : Bytes} {text : String} (read : toText? octets = some text) :
    ofText text = octets := by
  rw [toText?, String.fromUTF8?] at read
  split at read
  · next valid =>
      cases read
      rfl
  · cases read

end Bytes

@[simp]
theorem Keccak.length_digest (message : Bytes) : (digest message).length = Bytes.wordLength := by
  simp [digest, bytesOfLane, Bytes.wordLength]

namespace Hex

theorem value?_digit {value : Nat} (small : value < 16) : value? (digit value) = some value := by
  have allDigits : ∀ value : Fin 16, value? (digit value) = some value.val := by decide
  exact allDigits ⟨value, small⟩

theorem encode_cons (octet : UInt8) (octets : Bytes) : encode (octet :: octets) =
    digit (octet.toNat / 16 % 16) :: digit (octet.toNat % 16) :: encode octets := rfl

@[simp]
theorem length_encode (octets : Bytes) : (encode octets).length = 2 * octets.length := by
  induction octets with
  | nil => rfl
  | cons octet octets ih =>
      rw [encode_cons, List.length_cons, List.length_cons, ih, List.length_cons]
      omega

theorem decode?_encode (octets : Bytes) : decode? (encode octets) = some octets := by
  induction octets with
  | nil => rfl
  | cons octet octets ih =>
      have small : octet.toNat < 256 := octet.toNat_lt
      have joined : octet.toNat / 16 % 16 * 16 + octet.toNat % 16 = octet.toNat := by omega
      rw [encode_cons, decode?, value?_digit (by omega), value?_digit (by omega), ih]
      change some (UInt8.ofNat (octet.toNat / 16 % 16 * 16 + octet.toNat % 16) :: octets) = _
      rw [joined, UInt8.ofNat_toNat]

theorem exists_digit_of_mem_encode {octets : Bytes} {character : Char}
    (inside : character ∈ encode octets) : ∃ value < 16, character = digit value := by
  simp only [encode, digits, List.nil_append, List.cons_append, List.mem_flatMap,
    List.mem_cons, List.not_mem_nil, or_false] at inside
  rcases inside with ⟨octet, _, rfl | rfl⟩
  · exact ⟨_, Nat.mod_lt _ (by decide), rfl⟩
  · exact ⟨_, Nat.mod_lt _ (by decide), rfl⟩

theorem length_of_decode? {characters : List Char} {octets : Bytes}
    (read : decode? characters = some octets) : characters.length = 2 * octets.length := by
  induction octets generalizing characters with
  | nil =>
      match characters with
      | [] => rfl
      | [_] => simp [decode?] at read
      | high :: low :: rest => simp [decode?, Option.bind_eq_some_iff] at read
  | cons octet octets ih =>
      match characters with
      | [] => simp [decode?] at read
      | [_] => simp [decode?] at read
      | high :: low :: rest =>
          simp only [decode?, Option.bind_eq_bind, Option.bind_eq_some_iff, Option.some.injEq,
            List.cons.injEq] at read
          rcases read with ⟨_, _, _, _, tail, readTail, _, rfl⟩
          have tailLength := ih readTail
          simp only [List.length_cons, tailLength]
          omega

theorem isSome_decode?_iff {count : Nat} {digits : List Char} (even : digits.length = 2 * count) :
    (decode? digits).isSome = true ↔ ∀ digit ∈ digits, isDigit digit = true := by
  induction count generalizing digits with
  | zero =>
      rw [Nat.mul_zero, List.length_eq_zero_iff] at even
      simp [even, decode?]
  | succ count ih =>
      rcases digits with _ | ⟨high, _ | ⟨low, digits⟩⟩
      · simp at even
      · simp only [List.length_cons, List.length_nil] at even
        omega
      have evenRest : digits.length = 2 * count := by
        simp only [List.length_cons] at even
        omega
      have rest := ih evenRest
      rw [List.forall_mem_cons, List.forall_mem_cons, ← rest, decode?, isDigit, isDigit]
      cases value? high <;> cases value? low <;> cases decode? digits <;> simp

theorem value?_toUpper_digit {value : Nat} (small : value < 16) :
    value? (digit value).toUpper = some value := by
  have allDigits : ∀ value : Fin 16, value? (digit value).toUpper = some value.val := by decide
  exact allDigits ⟨value, small⟩

/-- Only the capital letters have another form in lower case. -/
theorem toLower_cases (character : Char) :
    character.toLower = character ∨ ∃ position : Fin 26, character = .ofNat (65 + position) := by
  by_cases capital : character.val ≥ 'A'.val ∧ character.val ≤ 'Z'.val
  · have low : 65 ≤ character.toNat := capital.1
    have high : character.toNat ≤ 90 := capital.2
    have same : 65 + (character.toNat - 65) = character.toNat := by omega
    exact Or.inr ⟨⟨character.toNat - 65, by omega⟩, by simp only [same, Char.ofNat_toNat]⟩
  · exact Or.inl (dif_neg capital)

/-- A letter is the same digit in either case. -/
theorem value?_toLower (character : Char) : value? character.toLower = value? character := by
  have allCapitals : ∀ position : Fin 26, value? (Char.ofNat (65 + position)).toLower =
      value? (Char.ofNat (65 + position)) := by decide
  rcases toLower_cases character with same | ⟨position, rfl⟩
  · rw [same]
  · exact allCapitals position

theorem decode?_map_toLower (digits : List Char) :
    decode? (digits.map Char.toLower) = decode? digits := by
  induction digits using decode?.induct with
  | case1 => rfl
  | case2 high low rest ih => simp only [List.map_cons, decode?, value?_toLower, ih]
  | case3 digit => rfl

end Hex

namespace Address

theorem value?_capitalise_digit {value : Nat} (small : value < 16) (digestDigit : Nat) :
    Hex.value? (capitalise (Hex.digit value) digestDigit) = some value := by
  rw [capitalise]
  split
  · exact Hex.value?_toUpper_digit small
  · exact Hex.value?_digit small

/-- Digits are read back whichever of their letters are capitals. -/
theorem decode?_zipWith_capitalise {octets : Bytes} {digestDigits : List Nat}
    (enough : 2 * octets.length ≤ digestDigits.length) :
    Hex.decode? (List.zipWith capitalise (Hex.encode octets) digestDigits) = some octets := by
  induction octets generalizing digestDigits with
  | nil => rfl
  | cons octet octets ih =>
      rw [List.length_cons] at enough
      match digestDigits, enough with
      | high :: low :: digestDigits, enough =>
          simp only [List.length_cons] at enough
          have small : octet.toNat < 256 := octet.toNat_lt
          have joined : octet.toNat / 16 % 16 * 16 + octet.toNat % 16 = octet.toNat := by omega
          rw [Hex.encode_cons, List.zipWith_cons_cons, List.zipWith_cons_cons, Hex.decode?,
            value?_capitalise_digit (by omega), value?_capitalise_digit (by omega),
            ih (by omega)]
          change some (UInt8.ofNat (octet.toNat / 16 % 16 * 16 + octet.toNat % 16) :: octets) = _
          rw [joined, UInt8.ofNat_toNat]

theorem length_nibbles (octets : Bytes) : (nibbles octets).length = 2 * octets.length := by
  induction octets with
  | nil => rfl
  | cons octet octets ih =>
      have split : nibbles (octet :: octets) =
          octet.toNat / 16 :: octet.toNat % 16 :: nibbles octets := rfl
      rw [split, List.length_cons, List.length_cons, ih, List.length_cons]
      omega

theorem decode?_checksumDigits {octets : Bytes} (size : octets.length = length) :
    Hex.decode? (checksumDigits octets) = some octets := by
  refine decode?_zipWith_capitalise ?_
  rw [length_nibbles, Keccak.length_digest, size]
  decide

/-- An address is read back from its text. -/
theorem ofText?_toList_text {address : Address} (size : address.octets.length = length) :
    ofText? address.text.toList = some address := by
  have digits := decode?_checksumDigits size
  have digitCount : (checksumDigits address.octets).length = 2 * length := by
    rw [Hex.length_of_decode? digits, size]
  simp [text, ofText?, unmarked, digitCount, digits]

theorem ofValue_toValue {address : Address} (name : String)
    (size : address.octets.length = length) : ofValue address.toValue name = .ok address := by
  simp [ofValue, toValue, ofText?_toList_text size]

/-- Only the text of twenty bytes is read as an address, which is the same one. -/
theorem eq_of_ofValue_toValue {address other : Address} {name : String}
    (read : ofValue address.toValue name = .ok other) : other = address := by
  cases found : ofText? address.text.toList with
  | none =>
      simp only [ofValue, toValue, found] at read
      cases read
  | some again =>
      simp only [text, ofText?, unmarked, String.toList_ofList, Option.ite_none_right_eq_some,
        checksumDigits, List.length_zipWith, Hex.length_encode, length_nibbles,
        Keccak.length_digest] at found
      have size : address.octets.length = length := by
        have digitCount := found.1
        unfold length Bytes.wordLength at *
        omega
      rw [ofValue_toValue name size] at read
      exact (Except.ok.inj read).symm

/-- An address is read back from its digits, whatever the case of the letters was. -/
theorem ofText?_text {octets : Bytes} (size : octets.length = length) :
    ofText? (Hex.text octets).toList = some ⟨octets⟩ := by
  have digitCount : (Hex.encode octets).length = 2 * length := by
    rw [Hex.length_encode, size]
  simp [Hex.text, ofText?, unmarked, digitCount, Hex.decode?_encode]

/-- The marker of an address, in either case. -/
def IsMarked (characters : List Char) : Prop :=
  ∃ digits, characters = '0' :: 'x' :: digits ∨ characters = '0' :: 'X' :: digits

theorem unmarked_eq_self {characters : List Char} (bare : ¬IsMarked characters) :
    unmarked characters = characters := by
  unfold unmarked
  split
  · next digits => exact absurd ⟨digits, Or.inl rfl⟩ bare
  · next digits => exact absurd ⟨digits, Or.inr rfl⟩ bare
  · rfl

theorem ofText?_of_unmarked {characters : List Char} (bare : ¬IsMarked characters) :
    ofText? characters = if characters.length = 2 * length
      then (Hex.decode? characters).map Address.mk else none := by
  simp only [ofText?, unmarked_eq_self bare]

theorem isMarked_of_map_toLower {characters : List Char}
    (marked : IsMarked (characters.map Char.toLower)) : IsMarked characters := by
  have letters : ∀ position : Fin 26, (Char.ofNat (65 + position)).toLower ≠ '0' ∧
      (Char.ofNat (65 + position)).toLower ≠ 'X' ∧
        ((Char.ofNat (65 + position)).toLower = 'x' → Char.ofNat (65 + position) = 'X') := by
    decide
  have zero : ∀ first : Char, first.toLower = '0' → first = '0' := by
    intro first lower
    rcases Hex.toLower_cases first with same | ⟨position, rfl⟩
    · exact same.symm.trans lower
    · exact absurd lower (letters position).1
  have marker : ∀ second : Char, second.toLower = 'x' ∨ second.toLower = 'X' →
      second = 'x' ∨ second = 'X' := by
    intro second lower
    rcases Hex.toLower_cases second with same | ⟨position, rfl⟩
    · rwa [same] at lower
    · exact Or.inr ((letters position).2.2 (lower.resolve_right (letters position).2.1))
  have split : ∃ second digits, characters = '0' :: second :: digits ∧
      (second.toLower = 'x' ∨ second.toLower = 'X') := by
    rcases marked with ⟨digits, same | same⟩
    all_goals
      rcases List.map_eq_cons_iff.mp same with ⟨first, rest, rfl, isZero, same⟩
      rcases List.map_eq_cons_iff.mp same with ⟨second, rest, rfl, isMarker, _⟩
      exact ⟨second, rest, by rw [zero first isZero], by simp [isMarker]⟩
  rcases split with ⟨second, digits, rfl, lower⟩
  rcases marker second lower with rfl | rfl
  · exact ⟨digits, Or.inl rfl⟩
  · exact ⟨digits, Or.inr rfl⟩

/-- An address is read alike whatever the case of its letters is. -/
theorem ofText?_map_toLower (characters : List Char) :
    ofText? (characters.map Char.toLower) = ofText? characters := by
  by_cases marked : IsMarked characters
  · rcases marked with ⟨digits, rfl | rfl⟩
    all_goals
      change ofText? ('0' :: 'x' :: digits.map Char.toLower) = _
      simp [ofText?, unmarked, Hex.decode?_map_toLower]
  · rw [ofText?_of_unmarked marked, ofText?_of_unmarked (marked ∘ isMarked_of_map_toLower),
      List.length_map, Hex.decode?_map_toLower]

theorem length_of_ofText? {characters : List Char} {address : Address}
    (read : ofText? characters = some address) : address.octets.length = length := by
  simp only [ofText?, Option.ite_none_right_eq_some, Option.map_eq_some_iff] at read
  rcases read with ⟨digitCount, octets, readDigits, rfl⟩
  have pairs := Hex.length_of_decode? readDigits
  change octets.length = length
  omega

end Address

end ContractClient

import ContractClient.Proofs.Abi.Layout

/-!
# Normal forms

`AbiType.normalForm` is the value that callers get back for a value that they encoded: byte strings
that may not change, of the size that a fixed size demands; addresses as texts with capitals; the
items of an array as a list and the components of a tuple as a tuple, at every depth. All other
values are their own normal forms.

`AbiType.IsReadAs` says that a payload is read as a value wherever it stands. For the types that
have no items this follows from what their words hold; for arrays and tuples see
`ContractClient.Proofs.Abi.RoundTrip`.
-/

namespace ContractClient

namespace AbiType

mutual

/-- The value that callers get back for a value of a type. -/
def normalForm : AbiType → Value → Value
  | address, value => match addressOf? value with
    | some found => found.toValue
    | none => value
  | fixedBytes size, value => match value.octets? with
    | some octets => .bytes (octets ++ Bytes.zeros (size - octets.length))
    | none => value
  | bytes, value => match value.octets? with
    | some octets => .bytes octets
    | none => value
  | fixedArray item _, value => match value.items? with
    | some items => .list (items.map (normalForm item))
    | none => value
  | array item, value => match value.items? with
    | some items => .list (items.map (normalForm item))
    | none => value
  | tuple components, value => match value.items? with
    | some items => .tuple (normalForms components items)
    | none => value
  | _, value => value

/-- The values that callers get back for several values. -/
def normalForms : List AbiType → List Value → List Value
  | type :: types, value :: values => normalForm type value :: normalForms types values
  | _, _ => []

end

/-- A payload is read as a value wherever it stands. -/
def IsReadAs (type : AbiType) (content : Bytes) (value : Value) : Prop :=
  ∃ raw, (∀ data position, StandsAt content data position →
    decodeAt data type position = .ok raw) ∧ normalise type raw = value

section Words

attribute [local simp] decodeAt normalise normalForm

variable {bits size : Nat} {number : Int} {content : Bytes} {value : Value}

theorem readNat_integerWord {data : Bytes} {position : Nat}
    (stands : StandsAt (integerWord number) data position) :
    readNat data position = .ok (number % 2 ^ 256).toNat := by
  apply stands.readNat
  omega

theorem unsignedOfWord_of_fitsUnsigned (width : IsWidth bits)
    (fits : fitsUnsigned bits number = true) :
    unsignedOfWord bits (number % 2 ^ 256).toNat = .ok (.int number) := by
  simp only [fitsUnsigned, Bool.and_eq_true, decide_eq_true_eq] at fits
  rcases fits with ⟨nonnegative, below⟩
  rcases Int.eq_ofNat_of_zero_le nonnegative with ⟨natural, rfl⟩
  have belowWidth : natural < 2 ^ bits := by exact_mod_cast below
  have widthLimit : 2 ^ bits ≤ 2 ^ 256 := Nat.pow_le_pow_right (by decide) width.2.2
  have unchanged : ((natural : Int) % 2 ^ 256).toNat = natural := by omega
  rw [unchanged, unsignedOfWord, if_pos belowWidth]

theorem signedOfWord_of_fitsSigned (width : IsWidth bits)
    (fits : fitsSigned bits number = true) :
    signedOfWord bits (number % 2 ^ 256).toNat = .ok (.int number) := by
  simp only [fitsSigned, Bool.and_eq_true, decide_eq_true_eq] at fits
  rcases fits with ⟨above, below⟩
  have widthLimit : 2 ^ (bits - 1) ≤ 2 ^ 255 :=
    Nat.pow_le_pow_right (by decide) (by have := width.2.2; omega)
  have natural : (2 : Int) ^ (bits - 1) = ((2 ^ (bits - 1) : Nat) : Int) := by simp
  rw [natural] at above below
  rw [signedOfWord]
  generalize 2 ^ (bits - 1) = limit at above below widthLimit
  by_cases nonnegative : 0 ≤ number
  · have low : (number % 2 ^ 256).toNat < limit := by omega
    have same : ((number % 2 ^ 256).toNat : Int) = number := by omega
    rw [if_pos low, same]
  · have high : ¬(number % 2 ^ 256).toNat < limit := by omega
    have extended : 2 ^ 256 - limit ≤ (number % 2 ^ 256).toNat := by omega
    have same : ((number % 2 ^ 256).toNat : Int) - 2 ^ 256 = number := by omega
    rw [if_neg high, if_pos extended, same]

variable [AddressCheck]

theorem isReadAs_uint (width : IsWidth bits)
    (payload : payload? (.uint bits) value = some content) :
    IsReadAs (.uint bits) content (normalForm (.uint bits) value) := by
  rcases payload?_uint_eq_some_iff.mp payload with ⟨number, rfl, fits, rfl⟩
  refine ⟨.int number, ?_, by simp⟩
  intro data position stands
  rw [decodeAt, readNat_integerWord stands, Outcome.ok_bind]
  exact unsignedOfWord_of_fitsUnsigned width fits

theorem isReadAs_int (width : IsWidth bits)
    (payload : payload? (.int bits) value = some content) :
    IsReadAs (.int bits) content (normalForm (.int bits) value) := by
  rcases payload?_int_eq_some_iff.mp payload with ⟨number, rfl, fits, rfl⟩
  refine ⟨.int number, ?_, by simp⟩
  intro data position stands
  rw [decodeAt, readNat_integerWord stands, Outcome.ok_bind]
  exact signedOfWord_of_fitsSigned width fits

theorem isReadAs_bool (payload : payload? .bool value = some content) :
    IsReadAs .bool content (normalForm .bool value) := by
  rcases payload?_bool_eq_some_iff.mp payload with ⟨flag, rfl, rfl⟩
  refine ⟨.bool flag, ?_, by simp⟩
  intro data position stands
  rw [decodeAt, stands.readNat (by split <;> decide), Outcome.ok_bind]
  cases flag <;> rfl

/-- The decoder writes an address in lower case; callers get it with its capitals. -/
theorem isReadAs_address (payload : payload? .address value = some content) :
    IsReadAs .address content (normalForm .address value) := by
  rcases payload?_address_eq_some_iff.mp payload with ⟨address, found, rfl⟩
  have named := addressOf?_of_acceptedAddress? found
  have size := length_of_addressOf? named
  refine ⟨.text (Hex.text address.octets), ?_, ?_⟩
  · intro data position stands
    have read := stands.readBytes
    rw [length_addressWord size] at read
    rw [decodeAt, read, Outcome.ok_bind]
    simp [addressOfWord, addressWord, Bytes.zeros]
  · have reread : addressOf? (.text (Hex.text address.octets)) = some address :=
      Address.ofText?_text size
    simp [named, reread]

theorem isReadAs_fixedBytes (limit : size ≤ Bytes.wordLength)
    (payload : payload? (.fixedBytes size) value = some content) :
    IsReadAs (.fixedBytes size) content (normalForm (.fixedBytes size) value) := by
  rcases payload?_fixedBytes_eq_some_iff.mp payload with ⟨octets, found, fits, rfl⟩
  refine ⟨.bytes (octets ++ Bytes.zeros (size - octets.length)), ?_,
    by simp [found]⟩
  intro data position stands
  have read := stands.readBytes
  rw [Bytes.length_wordOf (Nat.le_trans fits limit)] at read
  have padding := Bytes.wordOf_eq_append fits limit
  have width : (octets ++ Bytes.zeros (size - octets.length)).length = size := by
    rw [List.length_append, Bytes.length_zeros]
    omega
  rw [decodeAt, read, Outcome.ok_bind, fixedBytesOfWord, padding, List.drop_left' width,
    List.take_left' width]
  simp [Bytes.zeros]

theorem isReadAs_bytes (payload : payload? .bytes value = some content) :
    IsReadAs .bytes content (normalForm .bytes value) := by
  rcases payload?_bytes_eq_some_iff.mp payload with ⟨octets, found, fits, rfl⟩
  refine ⟨.bytes octets, ?_, by simp [found]⟩
  intro data position stands
  rw [decodeAt, stands.readContent fits]
  rfl

theorem isReadAs_string (payload : payload? .string value = some content) :
    IsReadAs .string content (normalForm .string value) := by
  rcases payload?_string_eq_some_iff.mp payload with ⟨text, rfl, fits, rfl⟩
  refine ⟨.text text, ?_, by simp⟩
  intro data position stands
  rw [decodeAt, stands.readContent fits, Outcome.ok_bind, textOfContent, Bytes.toText?_ofText]

end Words

end AbiType

end ContractClient

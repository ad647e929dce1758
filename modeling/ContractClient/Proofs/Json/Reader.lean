import ContractClient.Json.Reader

/-!
# What is read from JSON can be shown

Integers with too many digits have no text. They are not read from JSON either, so that every value
that is read can be shown in a message (`Json.isShowable_of_readBytes?`).
-/

namespace ContractClient

namespace Text

theorem isDigit_of_separatedDigits? {isDigit : Char → Bool} {characters digits : List Char}
    (read : separatedDigits? isDigit characters = some digits) :
    ∀ digit ∈ digits, isDigit digit = true := by
  induction characters using separatedDigits?.induct isDigit generalizing digits with
  | case1 => cases read
  | case2 character decimal =>
      simp [separatedDigits?, decimal] at read
      simp [← read, decimal]
  | case3 character notDecimal => simp [separatedDigits?, notDecimal] at read
  | case4 character rest decimal ih =>
      simp only [separatedDigits?, decimal, if_true, Option.map_eq_some_iff] at read
      rcases read with ⟨others, readRest, rfl⟩
      simpa [decimal] using ih readRest
  | case5 character rest notDecimal => simp [separatedDigits?, notDecimal] at read
  | case6 character rest notLast noSeparator decimal ih =>
      simp only [separatedDigits?, decimal, if_true, Option.map_eq_some_iff] at read
      rcases read with ⟨others, readRest, rfl⟩
      simpa [decimal] using ih readRest
  | case7 character rest notLast noSeparator notDecimal =>
      simp [separatedDigits?, notDecimal] at read

theorem digit_le_nine {digit : Char} (decimal : digit.isDigit = true) :
    digit.toNat - '0'.toNat ≤ 9 := by
  simp only [Char.isDigit, Bool.and_eq_true, decide_eq_true_eq] at decimal
  have : digit.toNat ≤ 57 := decimal.2
  have : '0'.toNat = 48 := rfl
  omega

theorem foldl_digits_lt {digits : List Char} (decimal : ∀ digit ∈ digits, digit.isDigit = true)
    (total : Nat) :
    digits.foldl (fun total digit => total * 10 + (digit.toNat - '0'.toNat)) total <
      (total + 1) * 10 ^ digits.length := by
  induction digits generalizing total with
  | nil => simp
  | cons digit digits ih =>
      rcases List.forall_mem_cons.mp decimal with ⟨first, others⟩
      have small := digit_le_nine first
      calc (digit :: digits).foldl (fun total digit => total * 10 + (digit.toNat - '0'.toNat)) total
          < (total * 10 + (digit.toNat - '0'.toNat) + 1) * 10 ^ digits.length := ih others _
        _ ≤ (total + 1) * 10 * 10 ^ digits.length :=
          Nat.mul_le_mul_right _ (by omega)
        _ = (total + 1) * 10 ^ (digit :: digits).length := by
          rw [List.length_cons, Nat.pow_succ']
          ac_rfl

/-- An integer that is read has not too many digits. -/
theorem natAbs_lt_of_integer? {characters : List Char} {number : Int}
    (read : integer? characters = some number) : number.natAbs < 10 ^ digitLimit := by
  simp only [integer?, Option.bind_eq_bind, Option.bind_eq_some_iff] at read
  rcases read with ⟨digits, separated, read⟩
  split at read
  · cases read
  · next short =>
      have value := foldl_digits_lt (isDigit_of_separatedDigits? separated) 0
      have bound : 10 ^ digits.length ≤ 10 ^ digitLimit :=
        Nat.pow_le_pow_right (by decide) (Nat.le_of_not_lt short)
      simp only [Option.some.injEq] at read
      rw [Nat.zero_add, Nat.one_mul] at value
      rw [← read]
      split
      · rw [Int.natAbs_neg]
        exact Nat.lt_of_lt_of_le value bound
      · exact Nat.lt_of_lt_of_le value bound

end Text

namespace Value

theorem allEntriesShowable_iff {entries : Dict} :
    allEntriesShowable entries = true ↔ ∀ entry ∈ entries, entry.2.isShowable = true := by
  induction entries with
  | nil => simp [allEntriesShowable]
  | cons entry entries ih => simp [allEntriesShowable, ih]

/-- What a dictionary that can be shown has under a key can be shown. -/
theorem isShowable_of_get? {entries : Dict} {key : String} {value : Value}
    (showable : (dict entries).isShowable = true) (found : Dict.get? entries key = some value) :
    value.isShowable = true := by
  rcases Option.map_eq_some_iff.mp found with ⟨entry, first, rfl⟩
  exact allEntriesShowable_iff.mp showable entry (List.mem_of_find?_eq_some first)

theorem allEntriesShowable_set {entries : Dict} {key : String} {value : Value}
    (known : allEntriesShowable entries = true) (added : value.isShowable = true) :
    allEntriesShowable (entries.set key value) = true := by
  rw [allEntriesShowable_iff] at known ⊢
  intro entry member
  unfold Dict.set at member
  split at member
  · rcases List.mem_map.mp member with ⟨old, oldMember, rfl⟩
    split
    · exact added
    · exact known old oldMember
  · rcases List.mem_append.mp member with old | new
    · exact known entry old
    · rw [List.mem_singleton.mp new]
      exact added

theorem allEntriesShowable_merge {entries others : Dict}
    (known : allEntriesShowable entries = true) (added : allEntriesShowable others = true) :
    allEntriesShowable (Dict.merge entries others) = true := by
  induction others generalizing entries with
  | nil => exact known
  | cons entry others ih =>
      simp only [allEntriesShowable, Bool.and_eq_true] at added
      exact ih (allEntriesShowable_set known added.1) added.2

end Value

namespace Json

theorem isShowable_of_readText? {characters rest : List Char} {value : Value}
    (read : readText? characters = some (value, rest)) : value.isShowable = true := by
  simp only [readText?, Option.bind_eq_bind, Option.bind_eq_some_iff, Option.some.injEq,
    Prod.mk.injEq] at read
  rcases read with ⟨_, _, rfl, _⟩
  unfold Value.ofCodePoints
  split <;> rfl

theorem isShowable_of_readNumber? {characters rest : List Char} {value : Value}
    (read : readNumber? characters = some (value, rest)) : value.isShowable = true := by
  unfold readNumber? at read
  simp only [Option.bind_eq_bind, Option.bind_eq_some_iff] at read
  rcases read with ⟨⟨whole, afterWhole⟩, _, read⟩
  dsimp only at read
  split at read
  · rcases Option.bind_eq_some_iff.mp read with ⟨number, found, read⟩
    cases read
    rw [Value.isShowable, decide_eq_true_eq]
    exact Text.natAbs_lt_of_integer? found
  · rcases Option.bind_eq_some_iff.mp read with ⟨number, _, read⟩
    cases read
    rfl

theorem isShowable_of_mem_words : ∀ word ∈ words, word.2.isShowable = true := by
  simp [words, Value.isShowable]

theorem isShowable_of_readScalar? {characters rest : List Char} {value : Value}
    (read : readScalar? characters = some (value, rest)) : value.isShowable = true := by
  unfold readScalar? at read
  split at read
  · next reading found =>
      cases read
      rcases List.exists_of_findSome?_eq_some found with ⟨word, member, found⟩
      simp only [Option.map_eq_some_iff, Prod.mk.injEq] at found
      rcases found with ⟨_, _, rfl, _⟩
      exact isShowable_of_mem_words word member
  · exact isShowable_of_readNumber? read

/-- What is read with any fuel can be shown. -/
theorem showable_of_read (fuel : Nat) :
    (∀ {characters rest value}, readValue? fuel characters = some (value, rest) →
        value.isShowable = true) ∧
      (∀ {characters rest items}, readItems? fuel characters = some (items, rest) →
        Value.allShowable items = true) ∧
      ∀ {characters rest entries}, readEntries? fuel characters = some (entries, rest) →
        Value.allEntriesShowable entries = true := by
  induction fuel with
  | zero => exact ⟨nofun, nofun, nofun⟩
  | succ fuel ih =>
      rcases ih with ⟨values, items, entries⟩
      refine ⟨?_, ?_, ?_⟩
      · intro characters rest value read
        unfold readValue? at read
        split at read
        · exact isShowable_of_readText? read
        · split at read
          · cases read
            rfl
          · rcases Option.bind_eq_some_iff.mp read with ⟨⟨read, _⟩, found, same⟩
            cases same
            exact items found
        · split at read
          · cases read
            rfl
          · rcases Option.bind_eq_some_iff.mp read with ⟨⟨read, _⟩, found, same⟩
            cases same
            exact Value.allEntriesShowable_merge rfl (entries found)
        · exact isShowable_of_readScalar? read
      · intro characters rest read readAll
        unfold readItems? at readAll
        rcases Option.bind_eq_some_iff.mp readAll with ⟨⟨item, afterItem⟩, found, readAll⟩
        dsimp only at readAll
        split at readAll
        · rcases Option.bind_eq_some_iff.mp readAll with ⟨⟨others, _⟩, foundOthers, same⟩
          cases same
          simp [Value.allShowable, values found, items foundOthers]
        · cases readAll
          simp [Value.allShowable, values found]
        · cases readAll
      · intro characters rest read readAll
        unfold readEntries? at readAll
        split at readAll
        · rcases Option.bind_eq_some_iff.mp readAll with ⟨⟨key, afterKey⟩, _, readAll⟩
          dsimp only at readAll
          split at readAll
          · rcases Option.bind_eq_some_iff.mp readAll with ⟨⟨value, afterValue⟩, found, readAll⟩
            dsimp only at readAll
            split at readAll
            · rcases Option.bind_eq_some_iff.mp readAll with ⟨⟨others, _⟩, foundOthers, same⟩
              cases same
              simp [Value.allEntriesShowable, values found, entries foundOthers]
            · cases readAll
              simp [Value.allEntriesShowable, values found]
            · cases readAll
          · cases readAll
        · cases readAll

theorem isShowable_of_readBytes? {octets : Bytes} {value : Value}
    (read : readBytes? octets = some value) : value.isShowable = true := by
  rcases Option.bind_eq_some_iff.mp read with ⟨characters, _, read⟩
  simp only [read?, Option.bind_eq_bind, Option.bind_eq_some_iff] at read
  rcases read with ⟨⟨other, rest⟩, found, read⟩
  rw [Option.ite_none_right_eq_some] at read
  cases read.2
  exact (showable_of_read _).1 found

end Json

end ContractClient

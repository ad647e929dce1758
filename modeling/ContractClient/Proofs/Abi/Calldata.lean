import ContractClient.Proofs.Abi.Declarations
import ContractClient.Proofs.Abi.RoundTrip
import ContractClient.Proofs.Bytes
import Mathlib.Data.List.Nodup

/-!
# Call data

Call data is the selector of a function before its encoded arguments. If no two functions of an
interface have one selector, call data belongs to the function that it was made for and to no other:
the interface finds the function by it, the function reads its arguments back, and every other
function refuses it (`ContractAbi.callData_separates`).
-/

namespace ContractClient

@[simp]
theorem length_selectorOf {signature : String} :
    (selectorOf signature).length = selectorLength := by
  rw [selectorOf, List.length_take, Keccak.digestText, Keccak.length_digest]
  rfl

theorem take_selectorOf_append {signature : String} {rest : Bytes} :
    (selectorOf signature ++ rest).take selectorLength = selectorOf signature :=
  List.take_left' length_selectorOf

theorem drop_selectorOf_append {signature : String} {rest : Bytes} :
    (selectorOf signature ++ rest).drop selectorLength = rest :=
  List.drop_left' length_selectorOf

theorem take_eq_selectorOf_iff {signature : String} {data : Bytes} :
    data.take selectorLength = selectorOf signature ↔ selectorOf signature <+: data := by
  constructor
  · intro same
    rw [← same]
    exact List.take_prefix _ _
  · rintro ⟨rest, rfl⟩
    exact take_selectorOf_append

/-- What is encoded behind a selector is read back. -/
theorem decode_drop_selectorOf {signature : String} {types : List AbiType} {values : List Value}
    {block : Bytes} (constructed : ∀ type ∈ types, type.Constructed)
    (encoded : encode types values = .ok block) :
    decode types ((selectorOf signature ++ block).drop selectorLength) =
      .ok (AbiType.normalForms types values) := by
  rcases encode_eq_ok_iff.mp encoded with ⟨_, nonempty, encodedBlock⟩
  rw [drop_selectorOf_append]
  exact decode_block? constructed (by simpa using nonempty) encodedBlock

namespace ContractFunction

variable {function other : ContractFunction} {arguments : List Value} {data : Bytes}

/-- How a function refuses the call data of other functions. -/
def foreignCallData (function : ContractFunction) : Fault :=
  .decode s!"Call data does not start with the selector of {function.canonical}" "INVALID_VALUE"

theorem encodeCall_eq_ok_iff :
    function.encodeCall arguments = .ok data ↔
      ∃ block, encode (Param.types function.inputs) arguments = .ok block ∧
        data = function.selector ++ block := by
  simp [encodeCall, Outcome.bind_eq_ok_iff, @eq_comm _ _ data]

theorem decodeInput_of_foreign (foreign : ¬function.selector <+: data) :
    function.decodeInput data = Outcome.fault function.foreignCallData := by
  rw [decodeInput, selector, if_pos (mt take_eq_selectorOf_iff.mp foreign)]
  rfl

/-- A function reads its arguments back from its call data. -/
theorem decodeInput_encodeCall
    (constructed : ∀ type ∈ Param.types function.inputs, type.Constructed)
    (encoded : function.encodeCall arguments = .ok data) :
    function.decodeInput data =
      .ok (AbiType.normalForms (Param.types function.inputs) arguments) := by
  rcases encodeCall_eq_ok_iff.mp encoded with ⟨block, encodedArguments, rfl⟩
  rw [decodeInput, selector, if_neg (not_not_intro take_selectorOf_append)]
  exact decode_drop_selectorOf constructed encodedArguments

theorem selector_prefix_of_encodeCall (encoded : function.encodeCall arguments = .ok data) :
    function.selector <+: data := by
  rcases encodeCall_eq_ok_iff.mp encoded with ⟨block, _, rfl⟩
  exact List.prefix_append _ _

/-- Call data starts with one selector only. -/
theorem selector_eq_of_starts (first : function.selector <+: data)
    (second : other.selector <+: data) : function.selector = other.selector :=
  (take_eq_selectorOf_iff.mpr first).symm.trans (take_eq_selectorOf_iff.mpr second)

end ContractFunction

namespace ContractAbi

variable {abi : ContractAbi} {entries : List AbiEntry} {function : ContractFunction}

/-- Where no two functions have one selector, a function is found by everything that starts with
its selector. -/
theorem functionBySelector?_of_starts {data : Bytes}
    (distinct : (abi.functions.map ContractFunction.selector).Nodup)
    (member : function ∈ abi.functions) (starts : function.selector <+: data) :
    abi.functionBySelector? data = some function := by
  have selected : (function.selector == data.take selectorLength) = true :=
    beq_iff_eq.mpr (take_eq_selectorOf_iff.mpr starts).symm
  cases found : abi.functionBySelector? data with
  | none =>
      rw [functionBySelector?, List.find?_eq_none] at found
      exact absurd selected (found function member)
  | some other =>
      have sameSelector : other.selector = function.selector := by
        have otherSelected := List.find?_some found
        rw [beq_iff_eq] at selected otherSelected
        rw [selected, otherSelected]
      rw [List.inj_on_of_nodup_map distinct (List.mem_of_find?_eq_some found) member sameSelector]

/-- If the selectors of an interface are distinct, then by its call data every function is found,
gets back its arguments in their normal forms, and is told from all other functions. A function
takes nothing that does not start with its selector. -/
theorem callData_separates (loaded : ofEntries entries = .ok abi)
    (distinct : (abi.functions.map ContractFunction.selector).Nodup)
    (member : function ∈ abi.functions) :
    (∀ arguments data, function.encodeCall arguments = .ok data →
      abi.functionBySelector? data = some function ∧
      function.decodeInput data =
        .ok (AbiType.normalForms (Param.types function.inputs) arguments) ∧
      ∀ other ∈ abi.functions, other ≠ function →
        other.decodeInput data = Outcome.fault other.foreignCallData) ∧
    ∀ data, ¬function.selector <+: data →
      function.decodeInput data = Outcome.fault function.foreignCallData := by
  rcases declares_of_ofEntries loaded with ⟨functions, events, errors, declares⟩
  have constructed := declares.constructed_of_mem_functions (declares.perm_functions.subset member)
  refine ⟨?_, fun data => ContractFunction.decodeInput_of_foreign⟩
  intro arguments data encoded
  have starts := ContractFunction.selector_prefix_of_encodeCall encoded
  refine ⟨functionBySelector?_of_starts distinct member starts,
    ContractFunction.decodeInput_encodeCall constructed encoded, ?_⟩
  intro other otherMember different
  refine ContractFunction.decodeInput_of_foreign fun otherStarts => different ?_
  exact List.inj_on_of_nodup_map distinct otherMember member
    (ContractFunction.selector_eq_of_starts otherStarts starts)

/-- Payments of an amount each. -/
def paymentsType (bits : Nat) : AbiType :=
  .array (.tuple [.address, .uint bits])

def pay (bits : Nat) : ContractFunction where
  name := "pay"
  inputs := [{ name := "payments", type := paymentsType bits }]

/-- The entry of a function of payments. -/
def payEntry (bits : Nat) : AbiEntry :=
  .plain "function" "pay" [.mk "payments" "tuple[]" false
    (some [.mk "payee" "address" false none, .mk "amount" s!"uint{bits}" false none])]

theorem toFunction_payEntry {bits : Nat} (built : AbiType.uintOf (.int bits) = .ok (.uint bits))
    (spelled : s!"uint{bits}" = String.ofList (AbiType.uint bits).documentSpelling) :
    (payEntry bits).toFunction = .ok (pay bits) := by
  have components : ∀ component ∈ [AbiType.address, .uint bits], component.Constructed := by
    rw [List.forall_mem_cons, List.forall_mem_singleton]
    exact ⟨.address, .uint (.int bits) built⟩
  have constructed : (paymentsType bits).Constructed := .array (.tuple components rfl) rfl
  have listed : (paymentsType bits).IsListedBy (ParamEntry.componentsValue
      (some [.mk "payee" "address" false none, .mk "amount" s!"uint{bits}" false none])) :=
    ⟨_, rfl, ⟨⟨_, "payee", false, rfl, rfl, rfl⟩, rfl, rfl⟩,
      ⟨⟨_, "amount", false, rfl, rfl, rfl⟩, congrArg Value.text spelled, rfl⟩, trivial⟩
  have read := ParamEntry.toParam_of_isListedBy constructed listed "payments" false
  exact AbiEntry.toFunction_plain (.cons read .nil)

theorem ofEntries_pay : ofEntries [payEntry 256, payEntry 8] =
    .ok { functionsByName := [("pay", [pay 256, pay 8])] } := by
  have wide : (payEntry 256).toFunction = .ok (pay 256) := toFunction_payEntry rfl (by decide)
  have narrow : (payEntry 8).toFunction = .ok (pay 8) := toFunction_payEntry rfl (by decide)
  rw [ofEntries, List.foldlM_cons, add_function rfl wide, Outcome.ok_bind, List.foldlM_cons,
    add_function rfl narrow]
  rfl

set_option maxRecDepth 100000 in
theorem selector_pay_ne : (pay 256).selector ≠ (pay 8).selector := by
  decide +kernel

theorem callData_separates_overloads :
    let account : Bytes := List.replicate 20 0xab
    let payments : Value := .list [.list [.bytes account, .int 7]]
    ∃ abi data, ofEntries [payEntry 256, payEntry 8] = .ok abi ∧
      abi.functions = [pay 256, pay 8] ∧
      (abi.functions.map ContractFunction.selector).Nodup ∧
      (pay 256).encodeCall [payments] = .ok data ∧
      abi.functionBySelector? data = some (pay 256) ∧
      (pay 256).decodeInput data =
        .ok [.list [.tuple [(Address.mk account).toValue, .int 7]]] ∧
      (pay 8).decodeInput data = Outcome.fault (pay 8).foreignCallData ∧
      (pay 8).decodeInput [] = Outcome.fault (pay 8).foreignCallData := by
  intro account payments
  have distinct : ([pay 256, pay 8].map ContractFunction.selector).Nodup := by
    simpa using selector_pay_ne
  obtain ⟨block, encoded⟩ : ∃ block, encode [paymentsType 256] [payments] = .ok block := ⟨_, rfl⟩
  have called : (pay 256).encodeCall [payments] = .ok ((pay 256).selector ++ block) :=
    ContractFunction.encodeCall_eq_ok_iff.mpr ⟨block, encoded, rfl⟩
  have different : pay 8 ≠ pay 256 := fun same =>
    selector_pay_ne (congrArg ContractFunction.selector same).symm
  have wide : pay 256 ∈ [pay 256, pay 8] := List.mem_cons_self
  have narrow : pay 8 ∈ [pay 256, pay 8] := List.mem_cons_of_mem _ List.mem_cons_self
  rcases (callData_separates ofEntries_pay distinct wide).1 _ _ called with
    ⟨found, readBack, refused⟩
  have tooShort : ¬(pay 8).selector <+: [] := by
    intro short
    exact absurd short.length_le (by simp [ContractFunction.selector, selectorLength])
  exact ⟨_, _, ofEntries_pay, rfl, distinct, called, found, readBack,
    refused (pay 8) narrow different,
    (callData_separates ofEntries_pay distinct narrow).2 [] tooShort⟩

end ContractAbi

end ContractClient

import ContractClient.Proofs.Dict
import ContractClient.Proofs.Event.Selection
import Mathlib.Data.List.Nodup

/-!
# Fields of decoded events

The values of a decoded event stand under the names of their parameters; a parameter without a name
is numbered by its position. The names that come about in this way need not be distinct: a declared
name may look like a number that is given (`ContractEvent.HasNamesake`). Then a value takes the
place of another one. If no name does, nothing is lost (`decodeLog_losesNothing_iff`).
-/

namespace ContractClient

/-- The fields of a decoded event hold all of its values in order, and every value is found at its
position and under the name of its parameter. -/
structure DecodedEvent.LosesNothing (params : List Param) (decoded : DecodedEvent) : Prop where
  count : decoded.fields.length = params.length
  values : decoded.fields.map Prod.snd = decoded.values
  named : ∀ (position : Nat) (param : Param), params[position]? = some param →
    param.name.isEmpty = false →
    ∃ value, decoded.values[position]? = some value ∧
      decoded.get (.text param.name) = .ok value
  numbered : ∀ (position : Nat) (field : String × Value),
    decoded.fields[position]? = some field → decoded.get (.int position) = .ok field.2

/-- No two parameters have the same name. Several of them may have none. -/
def ContractEvent.HasDistinctNames (event : ContractEvent) : Prop :=
  ((event.params.map Param.name).filter (! ·.isEmpty)).Nodup

instance (event : ContractEvent) : Decidable event.HasDistinctNames :=
  inferInstanceAs (Decidable (List.Nodup _))

/-- The number that a parameter without a name gets is the name of another parameter. -/
def ContractEvent.HasNamesake (event : ContractEvent) : Prop :=
  ∃ (position : Nat) (unnamed named : Param), event.params[position]? = some unnamed ∧
    unnamed.name.isEmpty = true ∧ named ∈ event.params ∧ named.name = s!"arg{position}"

section Names

variable {params : List Param} {start position other : Nat} {param : Param}

theorem numberedName_inj (same : s!"arg{position}" = s!"arg{other}") : position = other := by
  have sameDigits : Nat.toDigits 10 position = Nat.toDigits 10 other := by
    simpa using String.toList_inj.mpr same
  have read : ∀ number, Nat.ofDigitChars 10 (Nat.toDigits 10 number) 0 = number :=
    fun number => Nat.ofDigitChars_toDigits (by decide) (by decide)
  rw [← read position, sameDigits, read other]

theorem isEmpty_numberedName : (s!"arg{position}").isEmpty = false := by
  simp

theorem fieldName_of_unnamed (unnamed : param.name.isEmpty = true) :
    fieldName position param = s!"arg{position}" := by
  rw [fieldName, if_pos unnamed]

theorem fieldName_of_named (named : param.name.isEmpty = false) :
    fieldName position param = param.name := by
  rw [fieldName, if_neg (by simp [named])]

theorem getElem?_fieldNames :
    (fieldNames start params)[position]? =
      params[position]?.map (fieldName (start + position)) := by
  induction params generalizing start position with
  | nil => rfl
  | cons param params ih =>
      cases position with
      | zero => rfl
      | succ position =>
          rw [fieldNames, List.getElem?_cons_succ, List.getElem?_cons_succ, ih,
            Nat.add_assoc, Nat.add_comm 1]

theorem length_fieldNames : (fieldNames start params).length = params.length := by
  induction params generalizing start with
  | nil => rfl
  | cons param params ih => rw [fieldNames, List.length_cons, List.length_cons, ih]

/-- Two parameters with names have different ones. -/
theorem ContractEvent.HasDistinctNames.ne {event : ContractEvent} {first second : Param}
    (distinct : event.HasDistinctNames) (before : position < other)
    (atPosition : event.params[position]? = some first)
    (atOther : event.params[other]? = some second) (named : first.name.isEmpty = false)
    (alsoNamed : second.name.isEmpty = false) : first.name ≠ second.name := by
  rw [HasDistinctNames, List.Nodup, List.pairwise_filter, List.pairwise_map,
    List.pairwise_iff_getElem] at distinct
  rcases List.getElem?_eq_some_iff.mp atPosition with ⟨short, rfl⟩
  rcases List.getElem?_eq_some_iff.mp atOther with ⟨alsoShort, rfl⟩
  exact distinct position other short alsoShort before (by simp [named]) (by simp [alsoNamed])

/-- The names of fields are distinct unless a numbered parameter has a namesake. -/
theorem nodup_fieldNames_iff {event : ContractEvent} (distinct : event.HasDistinctNames) :
    (fieldNames 0 event.params).Nodup ↔ ¬event.HasNamesake := by
  rw [List.nodup_iff_getElem?_ne_getElem?]
  constructor
  · rintro different ⟨position, unnamed, named, atPosition, isUnnamed, member, same⟩
    rcases List.getElem?_of_mem member with ⟨other, atOther⟩
    have isNamed : named.name.isEmpty = false := same ▸ isEmpty_numberedName
    have sameField :
        (fieldNames 0 event.params)[position]? = (fieldNames 0 event.params)[other]? := by
      rw [getElem?_fieldNames, getElem?_fieldNames, atPosition, atOther, Option.map_some,
        Option.map_some, fieldName_of_unnamed isUnnamed, fieldName_of_named isNamed, same,
        Nat.zero_add]
    have short := (List.getElem?_eq_some_iff.mp atPosition).1
    have alsoShort := (List.getElem?_eq_some_iff.mp atOther).1
    rw [← @length_fieldNames _ 0] at short alsoShort
    rcases Nat.lt_trichotomy position other with before | rfl | behind
    · exact different position other before alsoShort sameField
    · rw [atPosition, Option.some.injEq] at atOther
      rw [atOther, isNamed] at isUnnamed
      cases isUnnamed
    · exact different other position behind short sameField.symm
  · intro noNamesake position other before short same
    rw [length_fieldNames] at short
    have atOther := List.getElem?_eq_getElem short
    have atPosition := List.getElem?_eq_getElem (Nat.lt_trans before short)
    rw [getElem?_fieldNames, getElem?_fieldNames, atPosition, atOther, Option.map_some,
      Option.map_some, Option.some.injEq, Nat.zero_add, Nat.zero_add] at same
    -- Either both names are declared, or both are numbers, or one is the number of the other.
    cases named : event.params[position].name.isEmpty with
    | false =>
        cases alsoNamed : event.params[other].name.isEmpty with
        | false =>
            rw [fieldName_of_named named, fieldName_of_named alsoNamed] at same
            exact distinct.ne before atPosition atOther named alsoNamed same
        | true =>
            rw [fieldName_of_named named, fieldName_of_unnamed alsoNamed] at same
            exact noNamesake ⟨other, _, _, atOther, alsoNamed, List.getElem_mem _, same⟩
    | true =>
        cases alsoNamed : event.params[other].name.isEmpty with
        | false =>
            rw [fieldName_of_unnamed named, fieldName_of_named alsoNamed] at same
            exact noNamesake ⟨position, _, _, atPosition, named, List.getElem_mem _, same.symm⟩
        | true =>
            rw [fieldName_of_unnamed named, fieldName_of_unnamed alsoNamed] at same
            exact Nat.ne_of_lt before (numberedName_inj same)

end Names

section Decoded

variable {event : ContractEvent} {log : EventLog} {decoded : DecodedEvent}

theorem AreTakenFrom.length_eq {params : List Param} {topics : List Bytes}
    {stored found : List Value} (taken : AreTakenFrom params topics stored found) :
    found.length = params.length := by
  induction taken with
  | nil => rfl
  | topic _ _ _ ih | data _ _ ih => rw [List.length_cons, List.length_cons, ih]

/-- A log that is decoded has one value for each parameter, set under the name of its field. -/
theorem fields_of_decodeLog (read : decodeLog event log = .ok decoded) :
    decoded.values.length = event.params.length ∧
      decoded.fields = Dict.merge [] ((fieldNames 0 event.params).zip decoded.values) := by
  rcases decodeLog_parts read with ⟨topics, stored, _, _, taken, fields⟩
  exact ⟨taken.length_eq, fields⟩

theorem atPosition_of_getElem? {position : Nat} {value : Value}
    (found : decoded.values[position]? = some value) :
    decoded.get (.int position) = .ok value := by
  have forward : ¬(position : Int) < 0 := by omega
  simp [DecodedEvent.get, DecodedEvent.atPosition, forward, found]

/-- Where the names of fields are distinct, nothing is lost. -/
theorem losesNothing_of_nodup (count : decoded.values.length = event.params.length)
    (fields : decoded.fields = Dict.merge [] ((fieldNames 0 event.params).zip decoded.values))
    (distinct : (fieldNames 0 event.params).Nodup) : decoded.LosesNothing event.params := by
  have nameCount : (fieldNames 0 event.params).length = decoded.values.length := by
    rw [length_fieldNames, count]
  have keys : ((fieldNames 0 event.params).zip decoded.values).map Prod.fst =
      fieldNames 0 event.params := List.map_fst_zip (Nat.le_of_eq nameCount)
  rw [← keys] at distinct
  rw [Dict.merge_of_nodup (by simpa using distinct), List.nil_append] at fields
  refine ⟨?_, ?_, ?_, ?_⟩
  · rw [fields, List.length_zip, nameCount, Nat.min_self, count]
  · rw [fields]
    exact List.map_snd_zip (Nat.le_of_eq nameCount.symm)
  · intro position param atPosition named
    have short := (List.getElem?_eq_some_iff.mp atPosition).1
    rw [← count] at short
    have found := List.getElem?_eq_getElem short
    refine ⟨decoded.values[position], found, ?_⟩
    have field : (param.name, decoded.values[position]) ∈ decoded.fields := by
      rw [fields]
      apply List.mem_of_getElem? (i := position)
      rw [List.getElem?_zip_eq_some, getElem?_fieldNames, atPosition, Option.map_some,
        fieldName_of_named named]
      exact ⟨rfl, found⟩
    rw [← fields] at distinct
    rw [DecodedEvent.get, Value.member, Dict.get?_of_mem distinct field]
  · intro position field atPosition
    rw [fields, List.getElem?_zip_eq_some] at atPosition
    exact atPosition_of_getElem? atPosition.2

/-- **Fields.** If the declared names are distinct, the fields of a decoded log hold all of its
values exactly if no declared name is the number that a parameter without a name gets. -/
theorem decodeLog_losesNothing_iff (distinct : event.HasDistinctNames)
    (read : decodeLog event log = .ok decoded) :
    decoded.LosesNothing event.params ↔ ¬event.HasNamesake := by
  rcases fields_of_decodeLog read with ⟨count, fields⟩
  rw [← nodup_fieldNames_iff distinct]
  constructor
  · intro complete
    have nameCount : (fieldNames 0 event.params).length = decoded.values.length := by
      rw [length_fieldNames, count]
    have keys : ((fieldNames 0 event.params).zip decoded.values).map Prod.fst =
        fieldNames 0 event.params := List.map_fst_zip (Nat.le_of_eq nameCount)
    have kept : decoded.fields.length =
        ((fieldNames 0 event.params).zip decoded.values).length := by
      rw [complete.count, ← count, List.length_zip, nameCount, Nat.min_self]
    rw [fields] at kept
    rw [← keys]
    apply @Dict.nodup_of_length_merge [] ((fieldNames 0 event.params).zip decoded.values)
    · exact List.nodup_nil
    · simp [kept]
  · exact losesNothing_of_nodup count fields

/-- The parameter of the posting without a name has no namesake. -/
theorem decodeLog_losesNothing_posted : postedEvent.HasDistinctNames ∧
    decodeLog postedEvent postedLog = .ok decodedPosted ∧
    decodedPosted.LosesNothing postedEvent.params := by
  have distinct : postedEvent.HasDistinctNames := by decide
  have noNamesake : ¬postedEvent.HasNamesake := by
    rintro ⟨position, unnamed, named, atPosition, isUnnamed, member, same⟩
    have noNumber : ∀ param ∈ postedEvent.params, param.name ≠ "arg1" := by decide
    have others :
        ∀ other ≠ 1, ∀ param ∈ postedEvent.params[other]?, param.name.isEmpty = false := by
      rintro (_ | _ | _ | _ | other) different param found
      · cases found; rfl
      · exact absurd rfl different
      · cases found; rfl
      · cases found; rfl
      · cases found
    by_cases second : position = 1
    · subst second
      exact noNumber named member same
    · rw [others position second unnamed atPosition] at isUnnamed
      cases isUnnamed
  exact ⟨distinct, decodeLog_posted,
    (decodeLog_losesNothing_iff distinct decodeLog_posted).mpr noNamesake⟩

end Decoded

section Namesakes

/-- An event with a parameter that is called like the number of the next one. -/
def movedEvent : ContractEvent where
  name := "Moved"
  params := [{ name := "arg1", type := .uint 256 }, { type := .uint 256 }]

def movedLog : EventLog where
  address := ⟨List.replicate 19 0 ++ [0xaa]⟩
  topics := [movedEvent.topic]
  data := Bytes.word 5 ++ Bytes.word 7

def decodedMoved : DecodedEvent where
  name := "Moved"
  fields := [("arg1", .int 7)]
  values := [.int 5, .int 7]
  log := movedLog

/-- The second value takes the place of the first one. -/
theorem not_losesNothing_moved : movedEvent.HasDistinctNames ∧
    decodeLog movedEvent movedLog = .ok decodedMoved ∧
    ¬decodedMoved.LosesNothing movedEvent.params := by
  refine ⟨by decide, ?_, ?_⟩
  · have data : decode (Param.types movedEvent.dataParams) movedLog.data = .ok [.int 5, .int 7] :=
      rfl
    exact decodeLog_eq_ok_iff.mpr ⟨[], _, [.int 5, .int 7], rfl, rfl, data, rfl, rfl⟩
  · intro complete
    have count := complete.count
    cases count

end Namesakes

end ContractClient

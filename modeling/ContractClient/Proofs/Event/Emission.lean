import ContractClient.Event.Log
import ContractClient.Proofs.Abi.Reading
import ContractClient.Proofs.Abi.RoundTrip

/-!
# Logs are decoded to what was emitted

A contract emits an event with one value for each parameter. The topics of the log are the topic of
the event, unless it is anonymous, and the topics of the indexed values in order
(`ContractEvent.emittedTopics`); its data is the encoding of the other values
(`ContractEvent.emittedData`).

`Param.IsRecoveredAs` says what is known of a value afterwards: the digest of an indexed value that
is no single word, and the normal form of every other value. Decoding follows the declaration and
takes one value after the other from the topics and from the data, so what it finds for a parameter
is what was emitted for it (`decodeLog_of_emitted`).
-/

namespace ContractClient

namespace ContractEvent

/-- The parameters of an event with the values that are emitted for them. -/
def emissions (event : ContractEvent) (values : List Value) : List (Param × Value) :=
  event.params.zip values

/-- The topics of the log of an event that is emitted with the given values. -/
def emittedTopics (event : ContractEvent) (values : List Value) : Outcome (List Bytes) := do
  let own := if event.anonymous then [] else [event.topic]
  let indexed := (event.emissions values).filter fun emission => emission.1.indexed
  return own ++ (← indexed.mapM fun emission => encodeTopic emission.1.type emission.2)

/-- The data of the log of an event that is emitted with the given values. -/
def emittedData (event : ContractEvent) (values : List Value) : Outcome Bytes :=
  let stored := (event.emissions values).filter fun emission => !emission.1.indexed
  encode (Param.types event.dataParams) (stored.map Prod.snd)

end ContractEvent

/-- What a log tells about a value that was emitted for a parameter. -/
def Param.IsRecoveredAs (param : Param) (value recovered : Value) : Prop :=
  if param.indexed = true ∧ param.type.isValueType = false then
    ∃ digest, encodeTopic param.type value = .ok digest ∧ recovered = .hash digest
  else recovered = param.type.normalForm value

section Words

variable {type : AbiType} {value : Value} {topic : Bytes}

theorem length_of_encodeSingle (wellFormed : type.WellFormed) (single : type.isValueType = true)
    (encoded : encodeSingle type value = .ok topic) : topic.length = Bytes.wordLength := by
  rcases encode_eq_ok_iff.mp encoded with ⟨_, _, block⟩
  have static : AbiType.anyDynamic [type] = false := by
    cases type <;> simp_all [AbiType.isValueType, AbiType.anyDynamic, AbiType.isDynamic]
  have sizes : ∀ member ∈ [type], ∀ value content, member.payload? value = some content →
      member.isDynamic = false → content.length = member.staticSize := by
    simp only [List.mem_singleton, forall_eq]
    exact fun value content payload static =>
      AbiType.length_payload_of_static wellFormed static payload
  rw [AbiType.length_block_of_static sizes static block]
  cases type <;> first | rfl | simp [AbiType.isValueType] at single

/-- An indexed value of a single word is read back from its topic. -/
theorem decodeTopic_encodeTopic (constructed : type.Constructed) (single : type.isValueType = true)
    (encoded : encodeTopic type value = .ok topic) :
    decodeTopic type topic = .ok (type.normalForm value) := by
  rw [encodeTopic, if_pos single] at encoded
  have width := length_of_encodeSingle constructed.wellFormed single encoded
  simp [decodeTopic, width, single, decodeSingle_encodeSingle constructed encoded]

end Words

/-- What is found for parameters is what was emitted for them: the topics and the values that were
stored are taken up in the order of the declaration. -/
theorem valuesOfLog_of_emitted {params : List Param} {values : List Value} {topics : List Bytes}
    (count : values.length = params.length)
    (constructed : ∀ param ∈ params, param.type.Constructed)
    (indexed : ((params.zip values).filter fun emission => emission.1.indexed).mapM
      (fun emission => encodeTopic emission.1.type emission.2) = .ok topics) :
    let stored := (params.zip values).filter fun emission => !emission.1.indexed
    ∃ recovered,
      valuesOfLog params topics (AbiType.normalForms (Param.types (params.filter (! ·.indexed)))
        (stored.map Prod.snd)) = .ok recovered ∧
      List.Forall₂ (fun emission found => emission.1.IsRecoveredAs emission.2 found)
        (params.zip values) recovered := by
  induction params generalizing values topics with
  | nil => exact ⟨[], rfl, .nil⟩
  | cons param params ih =>
      cases values with
      | nil => cases count
      | cons value values =>
          have countRest : values.length = params.length := by simpa using count
          rw [List.forall_mem_cons] at constructed
          cases isIndexed : param.indexed with
          | true =>
              simp only [List.zip_cons_cons, List.filter_cons, isIndexed, if_true, List.mapM_cons,
                Outcome.bind_eq_ok_iff, Outcome.pure_eq_ok, Except.ok.injEq] at indexed
              rcases indexed with ⟨topic, first, others, rest, rfl⟩
              rcases ih countRest constructed.2 rest with ⟨recovered, found, each⟩
              cases single : param.type.isValueType with
              | true =>
                  have read := decodeTopic_encodeTopic constructed.1 single first
                  refine ⟨param.type.normalForm value :: recovered, ?_, .cons ?_ each⟩
                  · simp [valuesOfLog, isIndexed, single, read, found]
                  · simp [Param.IsRecoveredAs, single]
              | false =>
                  refine ⟨.hash topic :: recovered, ?_, .cons ?_ each⟩
                  · simp [valuesOfLog, isIndexed, single, found]
                  · simp [Param.IsRecoveredAs, isIndexed, single, first]
          | false =>
              simp only [List.zip_cons_cons, List.filter_cons, isIndexed, Bool.false_eq_true,
                if_false] at indexed
              rcases ih countRest constructed.2 indexed with ⟨recovered, found, each⟩
              refine ⟨param.type.normalForm value :: recovered, ?_, .cons ?_ each⟩
              · rw [Param.types] at found
                simp [valuesOfLog, isIndexed, found, Param.types, AbiType.normalForms]
              · simp [Param.IsRecoveredAs, isIndexed]

/-- Decoding inverts emission: the log of an event that was emitted with some values is accepted,
and what is known of the values is found in the order of the declaration. -/
theorem decodeLog_of_emitted {event : ContractEvent} {values : List Value} {log : EventLog}
    (count : values.length = event.params.length)
    (constructed : ∀ param ∈ event.params, param.type.Constructed)
    (nonempty : ∀ param ∈ event.params, param.type.isEmptyTuple = false)
    (topics : event.emittedTopics values = .ok log.topics)
    (data : event.emittedData values = .ok log.data) :
    ∃ decoded, decodeLog event log = .ok decoded ∧ decoded.name = event.name ∧
      decoded.log = log ∧
      List.Forall₂ (fun emission found => emission.1.IsRecoveredAs emission.2 found)
        (event.emissions values) decoded.values := by
  rcases Outcome.bind_eq_ok_iff.mp topics with ⟨indexedTopics, indexed, allTopics⟩
  simp only [Outcome.pure_eq_ok, Except.ok.injEq] at allTopics
  have indexedParams : ((event.emissions values).filter fun emission =>
      emission.1.indexed).map Prod.fst = event.indexedParams := by
    have declared : (event.emissions values).map Prod.fst = event.params :=
      List.map_fst_zip (Nat.le_of_eq count.symm)
    rw [ContractEvent.indexedParams, ← declared, List.filter_map]
    rfl
  have topicCount : indexedTopics.length = event.indexedParams.length := by
    rw [← (Outcome.mapM_eq_ok_iff.mp indexed).length_eq, ← indexedParams, List.length_map]
  have isParam : ∀ type ∈ Param.types event.dataParams,
      ∃ param ∈ event.params, param.type = type := by
    intro type member
    rcases List.mem_map.mp member with ⟨param, stored, rfl⟩
    exact ⟨param, List.mem_of_mem_filter stored, rfl⟩
  have dataConstructed : ∀ type ∈ Param.types event.dataParams, type.Constructed := by
    intro type member
    rcases isParam type member with ⟨param, declared, rfl⟩
    exact constructed param declared
  have dataNonempty : ∀ type ∈ Param.types event.dataParams, type.isEmptyTuple = false := by
    intro type member
    rcases isParam type member with ⟨param, declared, rfl⟩
    exact nonempty param declared
  have decodedData := decode_block? dataConstructed dataNonempty (encode_eq_ok_iff.mp data).2.2
  rcases valuesOfLog_of_emitted count constructed indexed with ⟨recovered, found, each⟩
  rw [← ContractEvent.dataParams, ← ContractEvent.emissions] at found
  let decoded : DecodedEvent := {
    name := event.name, values := recovered, log
    fields := Dict.merge [] ((fieldNames 0 event.params).zip recovered) }
  have read : decodeLog event log = .ok decoded := by
    cases anonymous : event.anonymous with
    | true =>
        have sameTopics : log.topics = indexedTopics := by simp [← allTopics, anonymous]
        simp [decodeLog, anonymous, sameTopics, topicCount, decodedData, found, decoded]
    | false =>
        have sameTopics : log.topics = event.topic :: indexedTopics := by
          simp [← allTopics, anonymous]
        simp [decodeLog, anonymous, sameTopics, topicCount, decodedData, found, decoded]
  exact ⟨decoded, read, rfl, rfl, each⟩

/-- An event whose indexed parameters stand between the others. -/
def postedEvent : ContractEvent where
  name := "Posted"
  params := [{ name := "topic", type := .string, indexed := true }, { type := .uint 8 },
    { name := "author", type := .uint 16, indexed := true }, { name := "body", type := .bytes }]

theorem decodeLog_of_emitted_posted :
    let values : List Value := [.text "news", .int 5, .int 700, .buffer [1]]
    ∃ log decoded, postedEvent.emittedTopics values = .ok log.topics ∧
      postedEvent.emittedData values = .ok log.data ∧ decodeLog postedEvent log = .ok decoded ∧
      decoded.values =
        [.hash (Keccak.digest (Bytes.ofText "news")), .int 5, .int 700, .bytes [1]] := by
  intro values
  have constructed : ∀ param ∈ postedEvent.params, param.type.Constructed := by
    simp only [postedEvent, List.forall_mem_cons, List.not_mem_nil, false_implies, implies_true,
      and_true]
    exact ⟨.string, .uint (.int 8) rfl, .uint (.int 16) rfl, .bytes⟩
  have nonempty : ∀ param ∈ postedEvent.params, param.type.isEmptyTuple = false := by decide
  have topics : postedEvent.emittedTopics values =
      .ok [postedEvent.topic, Keccak.digest (Bytes.ofText "news"), AbiType.integerWord 700] := by
    rfl
  have data : postedEvent.emittedData values = .ok _ := rfl
  rcases @decodeLog_of_emitted postedEvent values { address := default, topics := _, data := _ } rfl
    constructed nonempty topics data with ⟨decoded, read, _, _, each⟩
  refine ⟨_, decoded, topics, data, read, ?_⟩
  simp only [ContractEvent.emissions, postedEvent, values, List.zip_cons_cons, List.zip_nil_right,
    List.forall₂_cons_left_iff, List.forall₂_nil_left_iff] at each
  rcases each with ⟨title, _, titleKnown, ⟨kind, _, kindKnown, ⟨author, _, authorKnown,
    ⟨body, _, bodyKnown, rfl, rfl⟩, rfl⟩, rfl⟩, recovered⟩
  have digest : encodeTopic .string (.text "news") =
      .ok (Keccak.digest (Bytes.ofText "news")) := rfl
  simp only [Param.IsRecoveredAs, AbiType.isValueType, digest] at titleKnown
  rcases titleKnown with ⟨_, same, rfl⟩
  cases same
  cases kindKnown
  cases authorKnown
  cases bodyKnown
  exact recovered

end ContractClient

import ContractClient.Proofs.Abi.Reencoding
import ContractClient.Proofs.Event.Emission

/-!
# Filters select what they name

A filter for the logs of an event names values of its first indexed parameters. A log that is
decoded has these values exactly if it has the topics that the filter asks for
(`LogFilter.admitsLog_iff_names`): two values of a single word have the same topic only if they are
read back alike, and of every other value a log tells no more than its topic.
-/

namespace ContractClient

/-- A list of topics has those that a filter asks for. -/
def Admits (asked : List (Option Bytes)) (topics : List Bytes) : Prop :=
  ∀ (position : Nat) (topic : Bytes), asked[position]? = some (some topic) →
    topics[position]? = some topic

/-- A log has the topics that a filter asks for. -/
def LogFilter.AdmitsLog (filter : LogFilter) (log : EventLog) : Prop :=
  Admits filter.topics log.topics

/-- What was found for a parameter is what it is bound to: the same value, if values of its type are
stored as they are, and the digest of the value otherwise. A digest stands for itself. -/
def Param.IsNamed (param : Param) (bound found : Value) : Prop :=
  if param.type.isValueType then found = param.type.normalForm bound
  else match bound with
    | .hash digest => found = .hash digest
    | _ => ∃ digest, encodeTopic param.type bound = .ok digest ∧ found = .hash digest

/-- The indexed parameters of an event with what was found for them. -/
def ContractEvent.findings (event : ContractEvent) (decoded : DecodedEvent) :
    List (Param × Value) :=
  (event.params.zip decoded.values).filter fun finding => finding.1.indexed

/-- What was found for parameters is what they are bound to. Null binds nothing. -/
def Names (findings : List (Param × Value)) (values : List Value) : Prop :=
  ∀ (position : Nat) (bound : Value), values[position]? = some bound → bound ≠ .null →
    ∃ finding, findings[position]? = some finding ∧ finding.1.IsNamed bound finding.2

section Topics

variable {param : Param} {bound found : Value} {topic asked : Bytes}

/-- What is found for an indexed parameter in its topic. -/
def Param.IsReadFrom (param : Param) (topic : Bytes) (found : Value) : Prop :=
  if param.type.isValueType then decodeTopic param.type topic = .ok found else found = .hash topic

theorem topicOfValue_of_plain (plain : ∀ digest, bound ≠ .hash digest) :
    LogFilter.topicOfValue param.type bound = encodeTopic param.type bound := by
  unfold LogFilter.topicOfValue
  split
  · next digest => exact absurd rfl (plain digest)
  · rfl

theorem isNamed_of_plain (stored : param.type.isValueType = false)
    (plain : ∀ digest, bound ≠ .hash digest) : param.IsNamed bound found ↔
      ∃ digest, encodeTopic param.type bound = .ok digest ∧ found = .hash digest := by
  unfold Param.IsNamed
  rw [if_neg (by simp [stored])]
  split
  · next digest => exact absurd rfl (plain digest)
  · rfl

/-- Values of a single word are told apart by their topics. -/
theorem topic_eq_iff_of_single (constructed : param.type.Constructed)
    (single : param.type.isValueType = true) (plain : ∀ digest, bound ≠ .hash digest)
    (encoded : LogFilter.topicOfValue param.type bound = .ok asked)
    (read : param.IsReadFrom topic found) : topic = asked ↔ param.IsNamed bound found := by
  rw [topicOfValue_of_plain plain] at encoded
  rw [Param.IsReadFrom, if_pos single] at read
  unfold Param.IsNamed
  rw [if_pos single]
  have reread := decodeTopic_encodeTopic constructed single encoded
  constructor
  · rintro rfl
    rw [read, Except.ok.injEq] at reread
    exact reread
  · rintro rfl
    have first := encodeTopic_of_decodeTopic constructed read
    rw [encodeTopic_of_decodeTopic constructed reread, Except.ok.injEq] at first
    exact first.symm

/-- Of other values the topics are all that is known. -/
theorem topic_eq_iff_of_stored (stored : param.type.isValueType = false)
    (encoded : LogFilter.topicOfValue param.type bound = .ok asked)
    (read : param.IsReadFrom topic found) : topic = asked ↔ param.IsNamed bound found := by
  rw [Param.IsReadFrom, if_neg (by simp [stored])] at read
  subst read
  by_cases plain : ∀ digest, bound ≠ .hash digest
  · rw [topicOfValue_of_plain plain] at encoded
    simp [isNamed_of_plain stored plain, encoded]
  · simp only [not_forall, not_not] at plain
    rcases plain with ⟨digest, rfl⟩
    cases encoded
    simp [Param.IsNamed, stored]

/-- A parameter has the topic that is asked for exactly if what is found for it is what it is bound
to. -/
theorem topic_eq_iff (constructed : param.type.Constructed)
    (plain : param.type.isValueType = true → ∀ digest, bound ≠ .hash digest)
    (encoded : LogFilter.topicOfValue param.type bound = .ok asked)
    (read : param.IsReadFrom topic found) : topic = asked ↔ param.IsNamed bound found := by
  cases single : param.type.isValueType with
  | true => exact topic_eq_iff_of_single constructed single (plain single) encoded read
  | false => exact topic_eq_iff_of_stored single encoded read

end Topics

section Positions

variable {findings : List (Param × Value)} {finding : Param × Value} {values : List Value}
  {bound : Value} {asked : List (Option Bytes)} {slot : Option Bytes} {topics : List Bytes}
  {topic : Bytes}

theorem admits_cons_iff : Admits (slot :: asked) (topic :: topics) ↔
    (∀ first, slot = some first → topic = first) ∧ Admits asked topics := by
  constructor
  · intro admits
    refine ⟨fun first same => ?_, fun position => admits (position + 1)⟩
    simpa using admits 0 first (by simp [same])
  · rintro ⟨first, others⟩ position
    cases position with
    | zero => simpa using first
    | succ position => exact others position

theorem names_cons_iff : Names (finding :: findings) (bound :: values) ↔
    (bound ≠ .null → finding.1.IsNamed bound finding.2) ∧ Names findings values := by
  constructor
  · intro names
    refine ⟨fun given => ?_, fun position => names (position + 1)⟩
    simpa using names 0 bound rfl given
  · rintro ⟨first, others⟩ position
    cases position with
    | zero => simpa using first
    | succ position => exact others position

theorem admits_nil : Admits [] topics := by
  intro position topic given
  simp at given

theorem names_nil : Names findings [] := by
  intro position bound given
  simp at given

/-- A parameter that is bound asks for the topic of its value, and one that is not for none; behind
it none is bound. -/
theorem topicsFor_cons_inv {event : ContractEvent} {position : Nat} {isOpen : Bool}
    {param : Param} {params : List Param}
    (made : LogFilter.topicsFor event position isOpen (param :: params) values = .ok asked) :
    ∃ slot rest stillOpen, asked = slot :: rest ∧
      LogFilter.topicsFor event (position + 1) stillOpen params values.tail = .ok rest ∧
      ((values.headD .null = .null ∧ slot = none ∧ stillOpen = true) ∨
        (values.headD .null ≠ .null ∧ isOpen = false ∧ stillOpen = false ∧
          ∃ topic, slot = some topic ∧
            LogFilter.topicOfValue param.type (values.headD .null) = .ok topic)) := by
  rw [LogFilter.topicsFor] at made
  split at made
  · next unbound =>
      rcases Outcome.bind_eq_ok_iff.mp made with ⟨rest, others, same⟩
      cases same
      exact ⟨none, rest, true, rfl, others, Or.inl ⟨unbound, rfl, rfl⟩⟩
  · next bound =>
      simp only [Outcome.fault_bind, Outcome.refuse_fault_eq_ok_iff] at made
      rcases made with ⟨closed, made⟩
      rcases Outcome.bind_eq_ok_iff.mp made with ⟨topic, encoded, made⟩
      rcases Outcome.bind_eq_ok_iff.mp made with ⟨rest, others, same⟩
      cases same
      rw [Bool.not_eq_true] at closed
      exact ⟨some topic, rest, isOpen, rfl, others,
        Or.inr ⟨bound, closed, closed, topic, rfl, encoded⟩⟩

/-- No digest is bound to a parameter whose values are stored as they are. -/
def HashesStored (params : List Param) (values : List Value) : Prop :=
  ∀ (position : Nat) (param : Param) (digest : Bytes), params[position]? = some param →
    values[position]? = some (.hash digest) → param.type.isValueType = false

/-- Topics are those that are asked for exactly if what is read from them is what is bound. -/
theorem admits_iff_of_read {event : ContractEvent} {position : Nat} {isOpen : Bool}
    (constructed : ∀ finding ∈ findings, finding.1.type.Constructed)
    (stored : HashesStored (findings.map Prod.fst) values)
    (made : LogFilter.topicsFor event position isOpen (findings.map Prod.fst) values = .ok asked)
    (read : List.Forall₂ (fun finding topic => finding.1.IsReadFrom topic finding.2) findings
      topics)
    (few : values.length ≤ findings.length) : Admits asked topics ↔ Names findings values := by
  induction read generalizing position isOpen values asked with
  | nil =>
      cases made
      cases values with
      | nil => exact iff_of_true admits_nil names_nil
      | cons => simp at few
  | @cons finding topic _ _ first _ ih =>
      rw [List.forall_mem_cons] at constructed
      rw [List.map_cons] at made stored
      rcases topicsFor_cons_inv made with ⟨slot, rest, stillOpen, rfl, others, bound⟩
      cases values with
      | nil =>
          rcases bound with ⟨_, rfl, _⟩ | ⟨given, _⟩
          · have admitsRest := (ih constructed.2 (by simp [HashesStored]) others (by simp)).mpr
              names_nil
            exact iff_of_true (admits_cons_iff.mpr ⟨nofun, admitsRest⟩) names_nil
          · exact absurd rfl given
      | cons value values =>
          have storedRest := fun position => stored (position + 1)
          rw [admits_cons_iff, names_cons_iff,
            ih constructed.2 storedRest others (by simpa using few)]
          refine and_congr_left' ?_
          rcases bound with ⟨unbound, rfl, _⟩ | ⟨given, _, _, asked, rfl, encoded⟩
          · exact iff_of_true nofun fun given => absurd unbound given
          · have plain : finding.1.type.isValueType = true → ∀ digest, value ≠ .hash digest := by
              intro single digest same
              have isStored := stored 0 _ digest rfl (congrArg some same)
              rw [single] at isStored
              cases isStored
            rw [← topic_eq_iff constructed.1 plain encoded first]
            exact ⟨fun admits _ => admits asked rfl, fun same _ again =>
              (same given).trans (Option.some.inj again)⟩

end Positions

theorem valuesOfLog_cons_inv {param : Param} {params : List Param} {topic : Bytes}
    {topics : List Bytes} {values found : List Value} (isIndexed : param.indexed = true)
    (read : valuesOfLog (param :: params) (topic :: topics) values = .ok found) :
    ∃ value rest, found = value :: rest ∧ param.IsReadFrom topic value ∧
      valuesOfLog params topics values = .ok rest := by
  unfold Param.IsReadFrom
  cases single : param.type.isValueType with
  | true =>
      simp only [valuesOfLog, isIndexed, single, if_true, Outcome.bind_eq_ok_iff,
        Outcome.pure_eq_ok, Except.ok.injEq] at read
      rcases read with ⟨value, first, rest, others, rfl⟩
      exact ⟨value, rest, rfl, first, others⟩
  | false =>
      simp only [valuesOfLog, isIndexed, single, if_true, Bool.false_eq_true, if_false,
        Outcome.pure_eq_ok, Outcome.ok_bind, Outcome.bind_eq_ok_iff, Except.ok.injEq] at read
      rcases read with ⟨rest, others, rfl⟩
      exact ⟨.hash topic, rest, rfl, rfl, others⟩

/-- The values of parameters are taken one after the other: those of indexed ones from topics, the
others from the values of the data. -/
inductive AreTakenFrom : List Param → List Bytes → List Value → List Value → Prop
  | nil : AreTakenFrom [] [] [] []
  | topic {param : Param} {params : List Param} {topic : Bytes} {topics : List Bytes}
      {stored : List Value} {value : Value} {found : List Value} (isIndexed : param.indexed = true)
      (read : param.IsReadFrom topic value) (others : AreTakenFrom params topics stored found) :
      AreTakenFrom (param :: params) (topic :: topics) stored (value :: found)
  | data {param : Param} {params : List Param} {topics : List Bytes} {value : Value}
      {stored found : List Value} (isStored : param.indexed = false)
      (others : AreTakenFrom params topics stored found) :
      AreTakenFrom (param :: params) topics (value :: stored) (value :: found)

/-- With one topic for each indexed parameter and one value for each of the others none is missing
and none is left over. -/
theorem areTakenFrom_of_valuesOfLog {params : List Param} {topics : List Bytes}
    {stored found : List Value} (read : valuesOfLog params topics stored = .ok found)
    (topicCount : topics.length = (params.filter Param.indexed).length)
    (storedCount : stored.length = (params.filter (! ·.indexed)).length) :
    AreTakenFrom params topics stored found := by
  induction params generalizing topics stored found with
  | nil =>
      cases List.eq_nil_of_length_eq_zero topicCount
      cases List.eq_nil_of_length_eq_zero storedCount
      cases read
      exact .nil
  | cons param params ih =>
      cases isIndexed : param.indexed with
      | true =>
          rw [List.filter_cons, if_pos isIndexed] at topicCount
          rw [List.filter_cons, if_neg (by simp [isIndexed])] at storedCount
          cases topics with
          | nil => cases topicCount
          | cons topic topics =>
              rcases valuesOfLog_cons_inv isIndexed read with ⟨value, rest, rfl, first, others⟩
              exact .topic isIndexed first (ih others (Nat.succ.inj topicCount) storedCount)
      | false =>
          rw [List.filter_cons, if_neg (by simp [isIndexed])] at topicCount
          rw [List.filter_cons, if_pos (by simp [isIndexed])] at storedCount
          cases stored with
          | nil => cases storedCount
          | cons value stored =>
              simp only [valuesOfLog, isIndexed, Bool.false_eq_true, if_false,
                Outcome.bind_eq_ok_iff, Outcome.pure_eq_ok, Except.ok.injEq] at read
              rcases read with ⟨rest, others, rfl⟩
              exact .data isIndexed (ih others topicCount (Nat.succ.inj storedCount))

/-- What is found for the indexed parameters is read from the topics in order. -/
theorem AreTakenFrom.readFrom {params : List Param} {topics : List Bytes}
    {stored found : List Value} (taken : AreTakenFrom params topics stored found) :
    let findings := (params.zip found).filter fun finding => finding.1.indexed
    findings.map Prod.fst = params.filter Param.indexed ∧
      List.Forall₂ (fun finding topic => finding.1.IsReadFrom topic finding.2) findings topics := by
  induction taken with
  | nil => exact ⟨rfl, .nil⟩
  | topic isIndexed read _ ih =>
      rcases ih with ⟨sameParams, each⟩
      simp only [List.zip_cons_cons, List.filter_cons, isIndexed, if_true, List.map_cons]
      exact ⟨congrArg _ sameParams, .cons read each⟩
  | data isStored _ ih =>
      simp only [List.zip_cons_cons, List.filter_cons, isStored, Bool.false_eq_true, if_false]
      exact ih

/-- The topics of an event itself. -/
def ContractEvent.ownTopics (event : ContractEvent) : List Bytes :=
  if event.anonymous then [] else [event.topic]

/-- A log is decoded exactly if it has the topics of the event in front of one topic for each
indexed parameter, and data with the values of the others, and if the values can be read from
both. -/
theorem decodeLog_eq_ok_iff {event : ContractEvent} {log : EventLog} {decoded : DecodedEvent} :
    decodeLog event log = .ok decoded ↔
      ∃ topics stored values, log.topics = event.ownTopics ++ topics ∧
        topics.length = event.indexedParams.length ∧
        decode (Param.types event.dataParams) log.data = .ok stored ∧
        valuesOfLog event.params topics stored = .ok values ∧
        decoded = {
          name := event.name, log, values
          fields := Dict.merge [] ((fieldNames 0 event.params).zip values) } := by
  constructor
  · intro read
    simp only [decodeLog, Outcome.fault_bind, Outcome.refuse_fault_eq_ok_iff,
      Outcome.bind_eq_ok_iff, Outcome.pure_eq_ok, Except.ok.injEq] at read
    rcases read with ⟨topicCount, ownTopic, stored, dataRead, values, valuesRead, rfl⟩
    rw [ne_eq, not_not] at topicCount
    cases anonymous : event.anonymous with
    | true =>
        simp only [anonymous, if_true, List.drop_zero, Nat.add_zero] at topicCount valuesRead
        have own : log.topics = event.ownTopics ++ log.topics := by
          simp [ContractEvent.ownTopics, anonymous]
        exact ⟨log.topics, stored, values, own, topicCount, dataRead, valuesRead, rfl⟩
    | false =>
        simp only [anonymous, Bool.false_eq_true, if_false] at topicCount valuesRead
        cases given : log.topics with
        | nil => simp [given] at topicCount
        | cons first rest =>
            have own : first = event.topic := by simpa [anonymous, given] using ownTopic
            rw [given, List.length_cons, Nat.add_right_cancel_iff] at topicCount
            rw [given, List.drop_succ_cons, List.drop_zero] at valuesRead
            have front : first :: rest = event.ownTopics ++ rest := by
              simp [ContractEvent.ownTopics, anonymous, own]
            exact ⟨rest, stored, values, front, topicCount, dataRead, valuesRead, rfl⟩
  · rintro ⟨topics, stored, values, own, topicCount, dataRead, valuesRead, rfl⟩
    cases anonymous : event.anonymous <;>
      simp [decodeLog, ContractEvent.ownTopics, anonymous, own, topicCount, dataRead, valuesRead]

/-- The values of a log that is decoded are taken from its topics behind those of the event, and
from its data. -/
theorem decodeLog_parts {event : ContractEvent} {log : EventLog} {decoded : DecodedEvent}
    (read : decodeLog event log = .ok decoded) :
    ∃ topics stored, log.topics = event.ownTopics ++ topics ∧
      decode (Param.types event.dataParams) log.data = .ok stored ∧
      AreTakenFrom event.params topics stored decoded.values ∧
      decoded.fields = Dict.merge [] ((fieldNames 0 event.params).zip decoded.values) := by
  rcases decodeLog_eq_ok_iff.mp read with
    ⟨topics, stored, values, own, topicCount, dataRead, valuesRead, rfl⟩
  have storedCount := length_of_decode dataRead
  rw [Param.types, List.length_map] at storedCount
  exact ⟨topics, stored, own, dataRead,
    areTakenFrom_of_valuesOfLog valuesRead topicCount storedCount, rfl⟩

/-- What is found for the indexed parameters of a log is read from its topics in order. -/
theorem decodeLog_inv {event : ContractEvent} {log : EventLog} {decoded : DecodedEvent}
    (read : decodeLog event log = .ok decoded) :
    ∃ topics, log.topics = event.ownTopics ++ topics ∧
      (event.findings decoded).map Prod.fst = event.indexedParams ∧
      List.Forall₂ (fun finding topic => finding.1.IsReadFrom topic finding.2)
        (event.findings decoded) topics := by
  rcases decodeLog_parts read with ⟨topics, stored, own, _, taken, _⟩
  exact ⟨topics, own, taken.readFrom⟩

theorem admits_append_iff {own : List Bytes} {asked : List (Option Bytes)} {topics : List Bytes} :
    Admits (own.map some ++ asked) (own ++ topics) ↔ Admits asked topics := by
  induction own with
  | nil => rfl
  | cons first own ih =>
      rw [List.map_cons, List.cons_append, List.cons_append, admits_cons_iff, ih]
      exact and_iff_right fun _ same => Option.some.inj same

/-- **Selection.** A filter for the logs of an event admits a log that is decoded exactly if the log
has the values that the filter names: the same values, as callers get them back, where values are
stored as they are, and values of the same digest elsewhere. -/
theorem LogFilter.admitsLog_iff_names {event : ContractEvent} {addresses values : List Value}
    {fromBlock toBlock : Value} {filter : LogFilter} {log : EventLog} {decoded : DecodedEvent}
    (constructed : ∀ param ∈ event.params, param.type.Constructed)
    (stored : HashesStored event.indexedParams values)
    (built : LogFilter.build event addresses values fromBlock toBlock = .ok filter)
    (read : decodeLog event log = .ok decoded) :
    filter.AdmitsLog log ↔ Names (event.findings decoded) values := by
  simp only [LogFilter.build, Outcome.fault_bind, Outcome.refuse_fault_eq_ok_iff,
    Outcome.bind_eq_ok_iff, Outcome.pure_eq_ok, Except.ok.injEq, Nat.not_lt] at built
  rcases built with ⟨few, asked, made, _, _, rfl⟩
  rcases decodeLog_inv read with ⟨topics, sameTopics, sameParams, readFrom⟩
  have own : (if event.anonymous then [] else [some event.topic]) = event.ownTopics.map some := by
    cases anonymous : event.anonymous <;> simp [ContractEvent.ownTopics, anonymous]
  rw [LogFilter.AdmitsLog, own, sameTopics, admits_append_iff]
  rw [← sameParams] at stored made few
  refine admits_iff_of_read ?_ stored made readFrom (by simpa using few)
  intro finding member
  exact constructed finding.1 (List.of_mem_zip (List.mem_of_mem_filter member)).1

section Examples

def newsDigest : Bytes := Keccak.digest (Bytes.ofText "news")

def postedValues : List Value := [.hash newsDigest, .int 5, .int 700, .bytes [1]]

/-- A log of the posting of some news by the author with the number 700. -/
def postedLog : EventLog where
  address := default
  topics := [postedEvent.topic, newsDigest, AbiType.integerWord 700]
  data := AbiType.integerWord 5 ++ Bytes.word 64 ++ Bytes.word 1 ++ Bytes.padRight [1]

def decodedPosted : DecodedEvent where
  name := "Posted"
  fields := Dict.merge [] ((fieldNames 0 postedEvent.params).zip postedValues)
  values := postedValues
  log := postedLog

theorem postedEvent_constructed : ∀ param ∈ postedEvent.params, param.type.Constructed := by
  simp only [postedEvent, List.forall_mem_cons, List.not_mem_nil, false_implies, implies_true,
    and_true]
  exact ⟨.string, .uint (.int 8) rfl, .uint (.int 16) rfl, .bytes⟩

theorem decodeLog_posted : decodeLog postedEvent postedLog = .ok decodedPosted := by
  have block : AbiType.block? [.uint 8, .bytes] [.int 5, .bytes [1]] = some postedLog.data := rfl
  have dataConstructed : ∀ type ∈ [AbiType.uint 8, .bytes], type.Constructed := by
    simp only [List.forall_mem_cons, List.not_mem_nil, false_implies, implies_true, and_true]
    exact ⟨.uint (.int 8) rfl, .bytes⟩
  have data : decode (Param.types postedEvent.dataParams) postedLog.data =
      .ok [.int 5, .bytes [1]] := decode_block? dataConstructed (by decide) block
  have number : decodeTopic (.uint 16) (AbiType.integerWord 700) = .ok (.int 700) :=
    @decodeTopic_encodeTopic _ (.int 700) _ (.uint (.int 16) rfl) rfl rfl
  have found : valuesOfLog postedEvent.params [newsDigest, AbiType.integerWord 700]
      [.int 5, .bytes [1]] = .ok postedValues := by
    simp [valuesOfLog, postedEvent, AbiType.isValueType, number, postedValues]
  exact decodeLog_eq_ok_iff.mpr ⟨[newsDigest, AbiType.integerWord 700], [.int 5, .bytes [1]],
    postedValues, rfl, rfl, data, found, rfl⟩

/-- The filter for the news of an author selects them. -/
theorem LogFilter.admitsLog_iff_names_posted : ∃ filter,
    LogFilter.build postedEvent [] [.text "news", .int 700] = .ok filter ∧
      decodeLog postedEvent postedLog = .ok decodedPosted ∧ filter.AdmitsLog postedLog := by
  have stored : HashesStored postedEvent.indexedParams [.text "news", .int 700] := by
    rintro (_ | _ | position) param digest _ bound <;> cases bound
  have built : LogFilter.build postedEvent [] [.text "news", .int 700] = .ok _ := rfl
  have named : Names (postedEvent.findings decodedPosted) [.text "news", .int 700] := by
    rintro (_ | _ | position) bound given _
    · cases given
      exact ⟨_, rfl, newsDigest, rfl, rfl⟩
    · cases given
      exact ⟨_, rfl, rfl⟩
    · cases given
  exact ⟨_, built, decodeLog_posted,
    (LogFilter.admitsLog_iff_names postedEvent_constructed stored built decodeLog_posted).mpr named⟩

end Examples

end ContractClient

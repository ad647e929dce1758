import ContractClient.Proofs.Event.Selection

/-!
# Widths of topics

The topics of an event are words: its own topic and the digests of values are digests, and the
values that are stored as they are take a word each. A filter asks for the topic of the event, then
for the topics of the parameters that are bound, and leaves all others open
(`LogFilter.HasShape`). Nobody checks the width of digests that callers bind themselves, and of
topics that a node sends in place of digests: the topics of a filter are words exactly if the bound
digests are, and the digests in a decoded log are words exactly if its topics are
(`ContractEvent.widths_iff`).
-/

namespace ContractClient

/-- A digest is a value, or an item or entry somewhere inside it. -/
inductive Value.Holds (digest : Bytes) : Value → Prop
  | hash : Holds digest (.hash digest)
  | list {items : List Value} {item : Value} (member : item ∈ items) (inner : Holds digest item) :
      Holds digest (.list items)
  | tuple {items : List Value} {item : Value} (member : item ∈ items) (inner : Holds digest item) :
      Holds digest (.tuple items)
  | sequence {kind : String} {shown : Option String} {items : List Value} {item : Value}
      (member : item ∈ items) (inner : Holds digest item) :
      Holds digest (.sequence kind shown items)
  | dict {entries : Dict} {entry : String × Value} (member : entry ∈ entries)
      (inner : Holds digest entry.2) : Holds digest (.dict entries)

/-- All of several byte strings have the width of a word. -/
def AreWords (topics : List Bytes) : Prop :=
  ∀ topic ∈ topics, topic.length = Bytes.wordLength

/-- All digests that several values hold, at any depth, have the width of a word. -/
def HoldWords (values : List Value) : Prop :=
  ∀ value ∈ values, ∀ digest, value.Holds digest → digest.length = Bytes.wordLength

/-- All digests that parameters are bound to have the width of a word. -/
def BindWords (values : List Value) : Prop :=
  ∀ digest, Value.hash digest ∈ values → digest.length = Bytes.wordLength

/-- A filter asks for the topic of the event itself and has a slot for each indexed parameter. The
slots that are bound to a topic stand in front of those that match anything. -/
structure LogFilter.HasShape (event : ContractEvent) (bound : List Bytes) (wildcards : Nat)
    (filter : LogFilter) : Prop where
  slots : filter.topics =
    event.ownTopics.map some ++ (bound.map some ++ List.replicate wildcards none)
  count : bound.length + wildcards = event.indexedParams.length
  limit : filter.topics.length ≤ 4

section Plain

variable {value : Value} {items : List Value} {digest : Bytes}

theorem Value.Holds.of_items? (holds : value.Holds digest) (found : value.items? = some items) :
    ∃ item ∈ items, item.Holds digest := by
  cases holds with
  | hash | dict => cases found
  | list member inner | tuple member inner | sequence member inner =>
      cases found
      exact ⟨_, member, inner⟩

theorem Value.not_holds_of_octets? {octets : Bytes} (found : value.octets? = some octets) :
    ¬value.Holds digest := by
  intro holds
  cases holds <;> cases found

theorem AbiType.not_holds_of_fitsAll {types : List AbiType}
    (each : ∀ type ∈ types, ∀ value, Fits Value.HasEncoding type value → ¬value.Holds digest)
    (fits : FitsAll Value.HasEncoding types items) : ∀ item ∈ items, ¬item.Holds digest := by
  induction types generalizing items with
  | nil =>
      cases items with
      | nil => simp
      | cons => cases fits
  | cons type types ih =>
      rw [List.forall_mem_cons] at each
      rcases fitsAll_cons_iff.mp fits with ⟨item, rest, rfl, first, others⟩
      rw [List.forall_mem_cons]
      exact ⟨each.1 item first, ih each.2 others⟩

/-- No type has values that are digests, so that none stands inside a value that fits. -/
theorem AbiType.not_holds_of_fits (type : AbiType) (value : Value)
    (fits : Fits Value.HasEncoding type value) : ¬value.Holds digest := by
  induction type generalizing value with
  | uint bits | int bits =>
      rcases fits with ⟨number, rfl, _⟩
      nofun
  | bool | string =>
      rcases fits with ⟨content, rfl⟩
      nofun
  | address =>
      rcases fits with ⟨octets, found, _⟩ | ⟨text, rfl, _⟩
      · exact Value.not_holds_of_octets? found
      · nofun
  | fixedBytes size =>
      rcases fits with ⟨octets, found, _⟩
      exact Value.not_holds_of_octets? found
  | bytes =>
      rcases fits with ⟨octets, found⟩
      exact Value.not_holds_of_octets? found
  | fixedArray item length ih =>
      rcases fits with ⟨items, found, _, each⟩
      intro holds
      rcases holds.of_items? found with ⟨entry, member, inner⟩
      exact ih entry (each entry member) inner
  | array item ih =>
      rcases fits with ⟨items, found, each⟩
      intro holds
      rcases holds.of_items? found with ⟨entry, member, inner⟩
      exact ih entry (each entry member) inner
  | tuple components ih =>
      rcases fits with ⟨items, found, each⟩
      intro holds
      rcases holds.of_items? found with ⟨entry, member, inner⟩
      exact not_holds_of_fitsAll ih each entry member inner

/-- What is decoded from data holds no digest. -/
theorem not_holds_of_decode {types : List AbiType} {data : Bytes}
    (constructed : ∀ type ∈ types, type.Constructed) (decoded : decode types data = .ok items) :
    ∀ item ∈ items, ¬item.Holds digest := by
  have fits := (isNormal_of_decode constructed (nonempty_of_decode decoded) decoded).1
  exact AbiType.not_holds_of_fitsAll (fun type _ => AbiType.not_holds_of_fits type) fits

end Plain

section Filters

variable {event : ContractEvent} {param : Param} {params : List Param} {bound : Value}
  {values : List Value} {topic : Bytes}

theorem bindWords_cons_iff : BindWords (bound :: values) ↔
    (∀ digest, bound = .hash digest → digest.length = Bytes.wordLength) ∧ BindWords values := by
  constructor
  · intro words
    refine ⟨?_, fun digest member => words digest (List.mem_cons_of_mem _ member)⟩
    rintro digest rfl
    exact words digest List.mem_cons_self
  · rintro ⟨first, others⟩ digest member
    rcases List.mem_cons.mp member with same | member
    · exact first digest same.symm
    · exact others digest member

theorem length_of_encodeTopic {type : AbiType} (constructed : type.Constructed)
    (encoded : encodeTopic type bound = .ok topic) : topic.length = Bytes.wordLength := by
  rw [encodeTopic] at encoded
  split at encoded
  · next single => exact length_of_encodeSingle constructed.wellFormed single encoded
  · rcases Outcome.bind_eq_ok_iff.mp encoded with ⟨content, _, same⟩
    cases same
    exact Keccak.length_digest content

/-- The topic of a bound value is a word unless the value is a digest of another width. -/
theorem length_topicOfValue_iff (constructed : param.type.Constructed)
    (encoded : LogFilter.topicOfValue param.type bound = .ok topic) :
    topic.length = Bytes.wordLength ↔
      ∀ digest, bound = .hash digest → digest.length = Bytes.wordLength := by
  by_cases plain : ∀ digest, bound ≠ .hash digest
  · rw [topicOfValue_of_plain plain] at encoded
    apply iff_of_true (length_of_encodeTopic constructed encoded)
    exact fun digest same => absurd same (plain digest)
  · simp only [not_forall, not_not] at plain
    rcases plain with ⟨digest, rfl⟩
    cases encoded
    simp

/-- The topics of bound parameters stand in front of those that match anything. -/
theorem shape_of_topicsFor {position : Nat} {isOpen : Bool} {asked : List (Option Bytes)}
    (constructed : ∀ param ∈ params, param.type.Constructed)
    (made : LogFilter.topicsFor event position isOpen params values = .ok asked)
    (few : values.length ≤ params.length) :
    ∃ topics wildcards, asked = topics.map some ++ List.replicate wildcards none ∧
      topics.length + wildcards = params.length ∧ (isOpen = true → topics = []) ∧
      (AreWords topics ↔ BindWords values) := by
  induction params generalizing position isOpen values asked with
  | nil =>
      cases made
      cases List.eq_nil_of_length_eq_zero (Nat.le_zero.mp few)
      exact ⟨[], 0, rfl, rfl, fun _ => rfl, by simp [AreWords, BindWords]⟩
  | cons param params ih =>
      rw [List.forall_mem_cons] at constructed
      rcases topicsFor_cons_inv made with ⟨slot, rest, stillOpen, rfl, others, bound⟩
      have fewRest : values.tail.length ≤ params.length := by
        rw [List.length_tail]
        exact Nat.sub_le_of_le_add few
      rcases ih constructed.2 others fewRest with ⟨topics, wildcards, rfl, count, closed, words⟩
      rcases bound with ⟨unbound, rfl, rfl⟩ | ⟨given, rfl, rfl, topic, rfl, encoded⟩
      · -- Behind a parameter that matches anything nothing is bound.
        cases closed rfl
        refine ⟨[], wildcards + 1, rfl, ?_, fun _ => rfl, words.trans ?_⟩
        · rw [List.length_cons, ← count]
          exact (Nat.add_assoc _ _ _).symm
        · cases values with
          | nil => exact Iff.rfl
          | cons value values =>
              rw [bindWords_cons_iff]
              rw [List.headD_cons] at unbound
              subst unbound
              exact (and_iff_right nofun).symm
      · refine ⟨topic :: topics, wildcards, rfl, ?_, nofun, ?_⟩
        · rw [List.length_cons, List.length_cons, ← count]
          exact Nat.succ_add _ _
        · cases values with
          | nil => exact absurd rfl given
          | cons value values =>
              rw [bindWords_cons_iff, AreWords, List.forall_mem_cons]
              exact and_congr (length_topicOfValue_iff constructed.1 encoded) words

/-- An event takes four topics at most: one of its own unless it is anonymous, and those of its
indexed parameters. -/
theorem ContractEvent.count_le_of_create {name : String} {anonymous : Bool}
    (created : ContractEvent.create name params anonymous = .ok event) :
    event.ownTopics.length + event.indexedParams.length ≤ 4 := by
  rw [create, Outcome.refuse_fault_eq_ok_iff] at created
  rcases created with ⟨few, same⟩
  cases same
  cases anonymous with
  | true =>
      simp only [indexedLimit, ownTopics, if_true, List.length_nil] at few ⊢
      omega
  | false =>
      simp only [indexedLimit, ownTopics, Bool.false_eq_true, if_false,
        List.length_singleton] at few ⊢
      omega

/-- The topics of a filter have the shape of the event, and those of bound parameters are words
exactly if the bound digests are. -/
theorem LogFilter.hasShape_of_build {addresses : List Value} {fromBlock toBlock : Value}
    {filter : LogFilter} (limit : event.ownTopics.length + event.indexedParams.length ≤ 4)
    (constructed : ∀ param ∈ event.params, param.type.Constructed)
    (built : LogFilter.build event addresses values fromBlock toBlock = .ok filter) :
    ∃ topics wildcards, filter.HasShape event topics wildcards ∧
      (AreWords topics ↔ BindWords values) := by
  simp only [LogFilter.build, Outcome.fault_bind, Outcome.refuse_fault_eq_ok_iff,
    Outcome.bind_eq_ok_iff, Outcome.pure_eq_ok, Except.ok.injEq, Nat.not_lt] at built
  rcases built with ⟨few, asked, made, _, _, rfl⟩
  have indexedConstructed : ∀ param ∈ event.indexedParams, param.type.Constructed :=
    fun param member => constructed param (List.mem_of_mem_filter member)
  rcases shape_of_topicsFor indexedConstructed made few with
    ⟨topics, wildcards, rfl, count, _, words⟩
  have own : (if event.anonymous then [] else [some event.topic]) = event.ownTopics.map some := by
    cases anonymous : event.anonymous <;> simp [ContractEvent.ownTopics, anonymous]
  refine ⟨topics, wildcards, ⟨congrArg (· ++ _) own, count, ?_⟩, words⟩
  rw [own, List.length_append, List.length_append, List.length_map, List.length_map,
    List.length_replicate, count]
  exact limit

end Filters

section Logs

variable {event : ContractEvent} {log : EventLog} {decoded : DecodedEvent}

theorem not_holds_of_encodeTopic {type : AbiType} {value : Value} {topic digest : Bytes}
    (single : type.isValueType = true) (encoded : encodeTopic type value = .ok topic) :
    ¬value.Holds digest := by
  rw [encodeTopic, if_pos single] at encoded
  have block := (encode_eq_ok_iff.mp encoded).2.2
  have fits := (AbiType.exists_block_iff_fitsAll.mp ⟨topic, block⟩).1
  exact AbiType.not_holds_of_fits type value fits.1

/-- The digests among the values of parameters are words exactly if their topics are, provided that
the data brings no digests. -/
theorem AreTakenFrom.holdWords_iff {params : List Param} {topics : List Bytes}
    {stored found : List Value} (taken : AreTakenFrom params topics stored found)
    (constructed : ∀ param ∈ params, param.type.Constructed)
    (plain : ∀ value ∈ stored, ∀ digest, ¬value.Holds digest) :
    HoldWords found ↔ AreWords topics := by
  induction taken with
  | nil => simp [HoldWords, AreWords]
  | @topic param _ topic _ _ value _ _ read _ ih =>
      rw [List.forall_mem_cons] at constructed
      rw [HoldWords, AreWords, List.forall_mem_cons, List.forall_mem_cons]
      apply and_congr ?_ (ih constructed.2 plain)
      cases single : param.type.isValueType with
      | true =>
          rw [Param.IsReadFrom, if_pos single] at read
          have encoded := encodeTopic_of_decodeTopic constructed.1 read
          apply iff_of_true
          · exact fun digest holds => absurd holds (not_holds_of_encodeTopic single encoded)
          · exact length_of_encodeTopic constructed.1 encoded
      | false =>
          rw [Param.IsReadFrom, if_neg (by simp [single])] at read
          subst read
          constructor
          · intro words
            exact words topic .hash
          · rintro width digest ⟨⟩
            exact width
  | data _ _ ih =>
      rw [List.forall_mem_cons] at constructed plain
      rw [HoldWords, List.forall_mem_cons, ← HoldWords, ih constructed.2 plain.2]
      exact and_iff_right fun digest holds => absurd holds (plain.1 digest)

/-- The digests in a decoded log are words exactly if its topics are. -/
theorem holdWords_of_decodeLog_iff (constructed : ∀ param ∈ event.params, param.type.Constructed)
    (read : decodeLog event log = .ok decoded) :
    HoldWords decoded.values ↔ AreWords log.topics := by
  rcases decodeLog_parts read with ⟨topics, stored, own, dataRead, taken, _⟩
  have dataConstructed : ∀ type ∈ Param.types event.dataParams, type.Constructed := by
    intro type member
    rcases List.mem_map.mp member with ⟨param, isStored, rfl⟩
    exact constructed param (List.mem_of_mem_filter isStored)
  have plain : ∀ value ∈ stored, ∀ digest, ¬value.Holds digest :=
    fun value member digest => not_holds_of_decode dataConstructed dataRead value member
  have ownWords : AreWords event.ownTopics := by
    intro topic member
    rw [ContractEvent.ownTopics] at member
    split at member
    · cases member
    · cases List.mem_singleton.mp member
      exact Keccak.length_digest _
  rw [taken.holdWords_iff constructed plain, own, AreWords, AreWords, List.forall_mem_append]
  exact (and_iff_right ownWords).symm

/-- **Widths.** The topics of every filter for an event have its shape, and those of bound
parameters are words exactly if the digests that are bound are. The digests in every decoded log of
the event are words exactly if the topics of the log are. -/
theorem ContractEvent.widths_iff {name : String} {params : List Param} {anonymous : Bool}
    (created : ContractEvent.create name params anonymous = .ok event)
    (constructed : ∀ param ∈ event.params, param.type.Constructed) :
    (∀ addresses values fromBlock toBlock filter,
      LogFilter.build event addresses values fromBlock toBlock = .ok filter →
        ∃ topics wildcards, filter.HasShape event topics wildcards ∧
          (AreWords topics ↔ BindWords values)) ∧
    ∀ log decoded, decodeLog event log = .ok decoded →
      (HoldWords decoded.values ↔ AreWords log.topics) := by
  have limit := count_le_of_create created
  constructor
  · intro addresses values fromBlock toBlock filter built
    exact LogFilter.hasShape_of_build limit constructed built
  · intro log decoded read
    exact holdWords_of_decodeLog_iff constructed read

/-- The topics of the posting of some news are words. -/
theorem ContractEvent.widths_iff_posted :
    ContractEvent.create "Posted" postedEvent.params = .ok postedEvent ∧
      decodeLog postedEvent postedLog = .ok decodedPosted ∧ HoldWords decodedPosted.values ∧
      ∃ filter topics wildcards,
        LogFilter.build postedEvent [] [.hash newsDigest] = .ok filter ∧
          filter.HasShape postedEvent topics wildcards ∧ AreWords topics := by
  have created : ContractEvent.create "Posted" postedEvent.params = .ok postedEvent := rfl
  have built : LogFilter.build postedEvent [] [.hash newsDigest] = .ok _ := rfl
  rcases ContractEvent.widths_iff created postedEvent_constructed with ⟨filters, logs⟩
  rcases filters [] [.hash newsDigest] .null .null _ built with ⟨topics, wildcards, shape, words⟩
  have newsWidth : newsDigest.length = Bytes.wordLength := Keccak.length_digest _
  refine ⟨created, decodeLog_posted, ?_, _, topics, wildcards, built, shape, ?_⟩
  · rw [logs _ _ decodeLog_posted]
    simp only [AreWords, postedLog, List.forall_mem_cons, List.not_mem_nil, false_implies,
      implies_true, and_true]
    exact ⟨Keccak.length_digest _, newsWidth, rfl⟩
  · apply words.mpr
    intro digest member
    cases List.mem_singleton.mp member
    exact newsWidth

end Logs

section ShortTopics

/-- An event with a parameter of which only the digest is known. -/
def namedEvent : ContractEvent where
  name := "Named"
  params := [{ name := "name", type := .string, indexed := true }]

/-- A log with a topic of one byte in place of the digest. -/
def namedLog : EventLog where
  address := ⟨List.replicate 19 0 ++ [0xaa]⟩
  topics := [namedEvent.topic, [1]]
  data := []

def decodedNamed : DecodedEvent where
  name := "Named"
  fields := [("name", .hash [1])]
  values := [.hash [1]]
  log := namedLog

/-- A byte passes for a digest, both in a log that is decoded and in a filter. -/
theorem not_areWords_named : ContractEvent.create "Named" namedEvent.params = .ok namedEvent ∧
    decodeLog namedEvent namedLog = .ok decodedNamed ∧ ¬HoldWords decodedNamed.values ∧
    ∃ filter, LogFilter.build namedEvent [] [.hash [1]] = .ok filter ∧
      filter.topics = [some namedEvent.topic, some [1]] := by
  refine ⟨rfl, ?_, ?_, _, rfl, rfl⟩
  · exact decodeLog_eq_ok_iff.mpr ⟨[[1]], [], [.hash [1]], rfl, rfl, rfl, rfl, rfl⟩
  · intro words
    have width := words (.hash [1]) List.mem_cons_self [1] .hash
    cases width

end ShortTopics

end ContractClient

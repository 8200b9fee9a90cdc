/-
  THE DEAD LETTER — the message that `process_payload` publishes in place of one that was delivered too
  often.

  It is put together from the metadata field by field: a null value from its flag, the key from three
  fields (`from_metadata`), and the properties, which are a list on the wire and a map in the message.

  1. `Properties.collect`, `Properties.orInsert` — the map: the last value of a key counts, and the two
     system properties come in only where their keys are free (`get?_collect`, `get?_orInsert`).

  2. `deadLetter` — the message, and `republished_deadLetter` — what it says, against what was consumed.
-/
import PulsarClient.Producer.PartitionKey

namespace PulsarClient.Batching.Properties

open Proto

/-! ## Properties as a map -/

/-- `HashMap::insert` -/
def insert (p : Properties) (key value : String) : Properties where
  entries := (p.entries.filter fun entry => entry.1 ≠ key) ++ [(key, value)]
  nodup := by
    have hkeys : ((p.entries.filter fun entry => entry.1 ≠ key).map Prod.fst).Sublist
        (p.entries.map Prod.fst) := List.filter_sublist.map Prod.fst
    rw [List.map_append, List.map_singleton]
    refine List.nodup_append.mpr ⟨p.nodup.sublist hkeys, List.nodup_singleton key, ?_⟩
    intro k hk k' hk' heq
    obtain ⟨entry, hentry, rfl⟩ := List.mem_map.mp hk
    have hne : entry.1 ≠ key := of_decide_eq_true (List.mem_filter.mp hentry).2
    exact hne (heq.trans (List.mem_singleton.mp hk'))

/-- `entry(key).or_insert_with(value)` -/
def orInsert (p : Properties) (key value : String) : Properties :=
  if (p.get? key).isSome then p else p.insert key value

/-- `collect::<HashMap<_, _>>()`, of the properties of a message that was received. -/
def collect (properties : List KeyValue) : Properties :=
  properties.foldl (fun p kv => p.insert kv.key kv.value) empty

/-- The last value of a key. -/
def lastValue (properties : List KeyValue) (key : String) : Option String :=
  ((properties.filter fun kv => kv.key = key).getLast?).map (·.value)

theorem lookup_filter_ne (entries : List (String × String)) (key : String) :
    (entries.filter fun entry => entry.1 ≠ key).lookup key = none := by
  induction entries with
  | nil => rfl
  | cons entry entries ih =>
    rw [List.filter_cons]
    by_cases h : entry.1 = key
    · rw [if_neg (by simp [h])]
      exact ih
    · rw [if_pos (by simp [h]), List.lookup_cons]
      have hne : (key == entry.1) = false := by
        rw [beq_eq_false_iff_ne]
        exact fun heq => h heq.symm
      rw [hne]
      exact ih

theorem lookup_filter_of_ne {key key' : String} (hne : key' ≠ key) (entries : List (String × String)) :
    (entries.filter fun entry => entry.1 ≠ key).lookup key' = entries.lookup key' := by
  induction entries with
  | nil => rfl
  | cons entry entries ih =>
    rw [List.filter_cons]
    by_cases h : entry.1 = key
    · have hother : (key' == entry.1) = false := by
        rw [beq_eq_false_iff_ne, h]
        exact hne
      rw [if_neg (by simp [h]), List.lookup_cons, hother]
      exact ih
    · rw [if_pos (by simp [h]), List.lookup_cons, List.lookup_cons, ih]

theorem get?_insert (p : Properties) (key value key' : String) :
    (p.insert key value).get? key' = if key' = key then some value else p.get? key' := by
  unfold get? insert
  rw [List.lookup_append]
  by_cases h : key' = key
  · rw [if_pos h, h, lookup_filter_ne, Option.none_or, List.lookup_cons_self]
  · have hother : (key' == key) = false := beq_eq_false_iff_ne.mpr h
    rw [if_neg h, lookup_filter_of_ne h, List.lookup_cons, hother]
    exact Option.or_none

theorem get?_orInsert (p : Properties) (key value key' : String) :
    (p.orInsert key value).get? key' =
      if key' = key then some ((p.get? key).getD value) else p.get? key' := by
  unfold orInsert
  cases h : p.get? key with
  | none =>
    rw [if_neg (by simp)]
    exact get?_insert p key value key'
  | some existing =>
    rw [if_pos Option.isSome_some]
    split
    next heq =>
      rw [heq, h]
      rfl
    next => rfl

theorem lastValue_cons (kv : KeyValue) (properties : List KeyValue) (key : String) :
    lastValue (kv :: properties) key =
      (lastValue properties key).or (if key = kv.key then some kv.value else none) := by
  unfold lastValue
  rw [List.filter_cons]
  by_cases h : kv.key = key
  · rw [if_pos (by simp [h]), if_pos h.symm, List.getLast?_cons]
    cases (properties.filter fun kv => kv.key = key).getLast? with
    | none => rfl
    | some last => rfl
  · rw [if_neg (by simp [h]), if_neg (fun heq => h heq.symm), Option.or_none]

/-- **The last value counts.** -/
theorem get?_collect (properties : List KeyValue) (key : String) :
    (collect properties).get? key = lastValue properties key := by
  have hfold : ∀ p : Properties,
      (properties.foldl (fun p kv => p.insert kv.key kv.value) p).get? key =
        (lastValue properties key).or (p.get? key) := by
    induction properties with
    | nil => exact fun p => rfl
    | cons kv properties ih =>
      intro p
      rw [List.foldl_cons, ih, get?_insert, lastValue_cons, Option.or_assoc]
      congr 1
      split
      next => rfl
      next => exact Option.none_or.symm
  rw [collect, hfold]
  exact Option.or_none

end PulsarClient.Batching.Properties

namespace PulsarClient.Consumer

open Proto Batching Partitions

/-! ## The message -/

/-- `ORIGIN_MESSAGE_ID` -/
def originMessageId (messageId : MessageIdData) : String :=
  match messageId.batchIndex with
  | some batchIndex =>
    s!"{messageId.ledgerId}:{messageId.entryId}:{messageId.partition.getD (-1)}:{batchIndex}"
  | none => s!"{messageId.ledgerId}:{messageId.entryId}:{messageId.partition.getD (-1)}"

/-- The message that `process_payload` sends to the dead-letter topic. -/
def deadLetter (decode : String → Option Bytes) (topic : String) (messageId : MessageIdData)
    (payload : Payload) : Batching.Message where
  payload := if payload.metadata.nullValue.getD false then none else some payload.data
  properties :=
    ((Properties.collect payload.metadata.properties).orInsert "REAL_TOPIC" topic).orInsert
      "ORIGIN_MESSAGE_ID" (originMessageId messageId)
  partitionKey :=
    fromMetadata decode payload.metadata.partitionKey payload.metadata.partitionKeyB64Encoded
      payload.metadata.nullPartitionKey
  orderingKey := payload.metadata.orderingKey
  eventTime := payload.metadata.eventTime

/-- The fields of a key, as they were received. -/
def keyOf (metadata : MessageMetadata) : KeyFields where
  partitionKey := metadata.partitionKey
  partitionKeyB64Encoded := metadata.partitionKeyB64Encoded
  nullPartitionKey := metadata.nullPartitionKey

/-! ## What it says -/

/-- A message that is published again in place of a consumed one says the same, on the wire, and where it
    comes from. -/
structure Republished (lib : Libraries) (decode : String → Option Bytes) (topic : String)
    (messageId : MessageIdData) (payload : Payload) (m : Batching.Message) : Prop where
  nullValue : (m.into lib).nullValue.getD false = payload.metadata.nullValue.getD false
  data : payload.metadata.nullValue.getD false = false → (m.into lib).payload = payload.data
  /-- the text of the key in any case, and its form wherever the flags make sense -/
  key : (m.into lib).partitionKey = payload.metadata.partitionKey
  keyForm : (wireKey lib m).Equivalent (keyOf payload.metadata) ↔ (keyOf payload.metadata).Consistent decode
  orderingKey : (m.into lib).orderingKey = payload.metadata.orderingKey
  eventTime : (m.into lib).eventTime = payload.metadata.eventTime
  realTopic : valueOf (m.into lib).properties.keyValues "REAL_TOPIC" =
    some ((Properties.lastValue payload.metadata.properties "REAL_TOPIC").getD topic)
  originMessageId : valueOf (m.into lib).properties.keyValues "ORIGIN_MESSAGE_ID" =
    some ((Properties.lastValue payload.metadata.properties "ORIGIN_MESSAGE_ID").getD
      (originMessageId messageId))
  properties : ∀ key, key ≠ "REAL_TOPIC" → key ≠ "ORIGIN_MESSAGE_ID" →
    valueOf (m.into lib).properties.keyValues key =
      Properties.lastValue payload.metadata.properties key

/-- **A dead letter says what the consumed message said.** -/
theorem republished_deadLetter {lib : Libraries} {decode : String → Option Bytes}
    (hengine : Base64Engine lib.base64 decode) (topic : String) (messageId : MessageIdData)
    (payload : Payload) :
    Republished lib decode topic messageId payload (deadLetter decode topic messageId payload) := by
  have hkey : (deadLetter decode topic messageId payload).partitionKey =
      (keyOf payload.metadata).rebuilt decode := rfl
  have horigin : ((Properties.collect payload.metadata.properties).orInsert "REAL_TOPIC" topic).get?
      "ORIGIN_MESSAGE_ID" = Properties.lastValue payload.metadata.properties "ORIGIN_MESSAGE_ID" := by
    rw [Properties.get?_orInsert, if_neg (by decide), Properties.get?_collect]
  have hpayload : (deadLetter decode topic messageId payload).payload =
      if payload.metadata.nullValue.getD false then none else some payload.data := rfl
  have hproperties : ∀ key,
      valueOf ((deadLetter decode topic messageId payload).into lib).properties.keyValues key =
        if key = "ORIGIN_MESSAGE_ID" then
          some ((Properties.lastValue payload.metadata.properties "ORIGIN_MESSAGE_ID").getD
            (originMessageId messageId))
        else if key = "REAL_TOPIC" then
          some ((Properties.lastValue payload.metadata.properties "REAL_TOPIC").getD topic)
        else Properties.lastValue payload.metadata.properties key := by
    intro key
    rw [Properties.valueOf_keyValues]
    show Properties.get? (Properties.orInsert (Properties.orInsert _ _ _) _ _) key = _
    rw [Properties.get?_orInsert, horigin, Properties.get?_orInsert, Properties.get?_collect,
      Properties.get?_collect]
  constructor
  case nullValue =>
    unfold Message.into
    rw [hpayload]
    cases payload.metadata.nullValue.getD false with
    | true => rfl
    | false => rfl
  case data =>
    intro hnull
    unfold Message.into
    rw [hpayload, hnull]
    rfl
  case key => exact partitionKey_wireKey hengine hkey
  case keyForm => exact equivalent_iff_consistent hengine hkey
  case orderingKey => rfl
  case eventTime => rfl
  case realTopic => rw [hproperties, if_neg (by decide), if_pos rfl]
  case originMessageId => rw [hproperties, if_pos rfl]
  case properties =>
    intro key hreal horigin
    rw [hproperties, if_neg horigin, if_neg hreal]

end PulsarClient.Consumer

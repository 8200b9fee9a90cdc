/-
  PARTITION KEYS ON THE WIRE (`src/producer.rs`).

  Three optional fields carry four cases: no key, a null key, text, and bytes as base64 text with a flag.
  `From<Message>` writes them; `PartitionKey::from_metadata` reads them when a consumed message is
  published again, where a binary key must not come out as text.

  1. `rebuilt_wireKey` — writing, then reading, is the identity.

  2. `equivalent_iff_consistent` — reading, then writing, leaves the fields as they were exactly when
     their flags make sense.  An absent flag and a flag that is `false` say the same.

  3. The field `partition_key` itself survives in every case, so that the message is routed as it was.

  base64 is a parameter; `Lib/Base64` is one that keeps its promises.
-/
import PulsarClient.Lib.Base64
import PulsarClient.Producer.Routing

namespace PulsarClient.Partitions

open Batching

/-! ## The fields -/

/-- `partition_key`, `partition_key_b64_encoded` and `null_partition_key` -/
structure KeyFields where
  partitionKey : Option String
  partitionKeyB64Encoded : Option Bool
  nullPartitionKey : Option Bool
  deriving DecidableEq, Repr

/-- What `From<Message>` writes. -/
def wireKey (lib : Libraries) (m : Batching.Message) : KeyFields where
  partitionKey := (m.into lib).partitionKey
  partitionKeyB64Encoded := (m.into lib).partitionKeyB64Encoded
  nullPartitionKey := (m.into lib).nullPartitionKey

/-- `PartitionKey::from_metadata`: "If it somehow is not valid base64, keep the text rather than losing
the key entirely." -/
def fromMetadata (decode : String → Option Bytes) (key : Option String)
    (b64Encoded nullKey : Option Bool) : Option PartitionKey :=
  match key, b64Encoded with
  | some key, some true =>
    match decode key with
    | some bytes => some (.Bytes bytes)
    | none => some (.Text key)
  | some key, _ => some (.Text key)
  | none, _ => if nullKey.getD false then some .Null else none

/-- … of three fields. -/
def KeyFields.rebuilt (decode : String → Option Bytes) (f : KeyFields) : Option PartitionKey :=
  fromMetadata decode f.partitionKey f.partitionKeyB64Encoded f.nullPartitionKey

/-- The flags make sense: "null flag only without a key, b64 flag only on valid canonical base64 text". -/
structure KeyFields.Consistent (decode : String → Option Bytes) (f : KeyFields) : Prop where
  null_flag : f.nullPartitionKey.getD false = true → f.partitionKey = none
  b64_flag : f.partitionKeyB64Encoded.getD false = true →
    ∃ text bytes, f.partitionKey = some text ∧ decode text = some bytes

/-- Protobuf does not tell a flag that is `false` from one that is absent. -/
structure KeyFields.Equivalent (f g : KeyFields) : Prop where
  partitionKey : f.partitionKey = g.partitionKey
  partitionKeyB64Encoded : f.partitionKeyB64Encoded.getD false = g.partitionKeyB64Encoded.getD false
  nullPartitionKey : f.nullPartitionKey.getD false = g.nullPartitionKey.getD false

section Cases

variable (decode : String → Option Bytes) (f : KeyFields)

/-- Bytes come out of valid base64 that is flagged as such. -/
theorem rebuilt_bytes_iff (bytes : Bytes) : f.rebuilt decode = some (.Bytes bytes) ↔
    f.partitionKeyB64Encoded.getD false = true ∧
      ∃ text, f.partitionKey = some text ∧ decode text = some bytes := by
  obtain ⟨key, b64, null⟩ := f
  unfold KeyFields.rebuilt fromMetadata
  cases key with
  | none => by_cases hnull : null.getD false = true <;> simp [hnull]
  | some text =>
    match b64 with
    | none => simp
    | some false => simp
    | some true => cases hdecode : decode text <;> simp [hdecode]

/-- A null key comes out of the flag, where there is no key. -/
theorem rebuilt_null_iff : f.rebuilt decode = some .Null ↔
    f.partitionKey = none ∧ f.nullPartitionKey.getD false = true := by
  obtain ⟨key, b64, null⟩ := f
  unfold KeyFields.rebuilt fromMetadata
  cases key with
  | none => by_cases hnull : null.getD false = true <;> simp [hnull]
  | some text =>
    match b64 with
    | none => simp
    | some false => simp
    | some true => cases hdecode : decode text <;> simp [hdecode]

/-- No key comes out only where there is none. -/
theorem rebuilt_text {text : String} (h : f.partitionKey = some text) :
    f.rebuilt decode = some (.Text text) ∨
      ∃ bytes, decode text = some bytes ∧ f.rebuilt decode = some (.Bytes bytes) := by
  obtain ⟨key, b64, null⟩ := f
  obtain rfl : key = some text := h
  unfold KeyFields.rebuilt fromMetadata
  match b64 with
  | none => exact Or.inl rfl
  | some false => exact Or.inl rfl
  | some true =>
    cases hdecode : decode text with
    | none => exact Or.inl (by simp only [hdecode])
    | some bytes => exact Or.inr ⟨bytes, rfl, by simp only [hdecode]⟩

theorem rebuilt_none (h : f.partitionKey = none) :
    f.rebuilt decode = some .Null ∨ f.rebuilt decode = none := by
  obtain ⟨key, b64, null⟩ := f
  obtain rfl : key = none := h
  unfold KeyFields.rebuilt fromMetadata
  by_cases hnull : null.getD false = true
  · exact Or.inl (if_pos hnull)
  · exact Or.inr (if_neg hnull)

end Cases

/-- What the base64 engine promises: decoding inverts encoding, and accepts only canonical text. -/
structure Base64Engine (encode : Bytes → String) (decode : String → Option Bytes) : Prop where
  inverts : ∀ bytes, decode (encode bytes) = some bytes
  canonical : ∀ text bytes, decode text = some bytes → encode bytes = text

theorem base64Engine : Base64Engine Base64.encode Base64.decode where
  inverts := Base64.decode_encode
  canonical := fun _ _ h => Base64.encode_decode h

/-! ## Both ways -/

section

variable {lib : Libraries} {decode : String → Option Bytes}

/-- **What is written is read back.** -/
theorem rebuilt_wireKey (hengine : Base64Engine lib.base64 decode) (m : Batching.Message) :
    (wireKey lib m).rebuilt decode = m.partitionKey := by
  unfold KeyFields.rebuilt wireKey Message.into
  cases m.partitionKey with
  | none => rfl
  | some key =>
    cases key with
    | Text key => rfl
    | Bytes bytes =>
      show (match decode (lib.base64 bytes) with
        | some bytes => some (PartitionKey.Bytes bytes)
        | none => some (.Text (lib.base64 bytes))) = _
      rw [hengine.inverts]
    | Null => rfl

/-- The flag for bytes is written with bytes … -/
theorem wireKey_b64 (lib : Libraries) (m : Batching.Message) :
    (wireKey lib m).partitionKeyB64Encoded.getD false = true ↔
      ∃ bytes, m.partitionKey = some (.Bytes bytes) := by
  unfold wireKey Message.into
  cases m.partitionKey with
  | none => simp
  | some key => cases key <;> simp

/-- … and the flag for a null key with a null key. -/
theorem wireKey_null (lib : Libraries) (m : Batching.Message) :
    (wireKey lib m).nullPartitionKey.getD false = true ↔ m.partitionKey = some .Null := by
  unfold wireKey Message.into
  cases m.partitionKey with
  | none => simp
  | some key => cases key <;> simp

/-- The text of a key survives even where its flags do not. -/
theorem partitionKey_wireKey (hengine : Base64Engine lib.base64 decode) {m : Batching.Message}
    {f : KeyFields} (h : m.partitionKey = f.rebuilt decode) :
    (m.into lib).partitionKey = f.partitionKey := by
  rw [into_partitionKey, h]
  cases hkey : f.partitionKey with
  | none =>
    rcases rebuilt_none decode f hkey with hrebuilt | hrebuilt
    · rw [hrebuilt]
      rfl
    · rw [hrebuilt]
      rfl
  | some text =>
    rcases rebuilt_text decode f hkey with hrebuilt | ⟨bytes, hdecode, hrebuilt⟩
    · rw [hrebuilt]
      rfl
    · rw [hrebuilt]
      exact congrArg some (hengine.canonical text bytes hdecode)

/-- **What is read is written back**, exactly if the flags made sense. -/
theorem equivalent_iff_consistent (hengine : Base64Engine lib.base64 decode) {m : Batching.Message}
    {f : KeyFields} (h : m.partitionKey = f.rebuilt decode) :
    (wireKey lib m).Equivalent f ↔ f.Consistent decode := by
  have hb64 := wireKey_b64 lib m
  have hnull := wireKey_null lib m
  simp only [h, rebuilt_bytes_iff] at hb64
  rw [h, rebuilt_null_iff] at hnull
  constructor
  · intro heq
    rw [heq.partitionKeyB64Encoded] at hb64
    rw [heq.nullPartitionKey] at hnull
    refine ⟨fun hflag => (hnull.mp hflag).1, fun hflag => ?_⟩
    obtain ⟨bytes, -, text, hkey, hdecode⟩ := hb64.mp hflag
    exact ⟨text, bytes, hkey, hdecode⟩
  · intro hconsistent
    refine ⟨partitionKey_wireKey hengine h, Bool.eq_iff_iff.mpr ?_, Bool.eq_iff_iff.mpr ?_⟩
    · refine hb64.trans ⟨fun ⟨_, hflag, _⟩ => hflag, fun hflag => ?_⟩
      obtain ⟨text, bytes, hkey, hdecode⟩ := hconsistent.b64_flag hflag
      exact ⟨bytes, hflag, text, hkey, hdecode⟩
    · exact hnull.trans ⟨fun hflag => hflag.2, fun hflag => ⟨hconsistent.null_flag hflag, hflag⟩⟩

end

/-- **Partition keys survive the wire both ways**, and a message that is published again goes to the
partition that every client computes for its key. -/
theorem keys_survive (lib : Libraries) (decode : String → Option Bytes)
    (hengine : Base64Engine lib.base64 decode) :
    (∀ m : Batching.Message, (wireKey lib m).rebuilt decode = m.partitionKey) ∧
      ∀ (received : KeyFields) (m : Batching.Message), m.partitionKey = received.rebuilt decode →
        (received.Consistent decode → (wireKey lib m).Equivalent received) ∧
        ∀ (murmur3_32 : Murmur3) (inner : ProducerInner) (key : String),
          (∀ route, inner.options.routingPolicy ≠ some (.Custom route)) →
          received.partitionKey = some key →
          (inner.choose lib murmur3_32 m).1 =
            inner.producers[javaPartition murmur3_32 inner.options.hashingScheme key
              inner.producers.length]? := by
  refine ⟨rebuilt_wireKey hengine, fun received m h => ⟨?_, ?_⟩⟩
  · exact (equivalent_iff_consistent hengine h).mpr
  · intro murmur3_32 inner key hpolicy hkey
    rw [choose_javaPartition inner m hpolicy ((partitionKey_wireKey hengine h).trans hkey)]

/-- Bytes that are no text, there and back again. -/
theorem keys_survive_bytes :
    let lib : Libraries := { threeLibraries with base64 := Base64.encode }
    let fields : KeyFields := { partitionKey := some "AAH/", partitionKeyB64Encoded := some true,
                                nullPartitionKey := some false }
    let m : Batching.Message := { partitionKey := fields.rebuilt Base64.decode }
    m.partitionKey = some (.Bytes [0, 1, 255]) ∧ (wireKey lib m).Equivalent fields := by
  intro lib fields m
  have hengine : Base64Engine lib.base64 Base64.decode := base64Engine
  have hconsistent : fields.Consistent Base64.decode := by
    refine ⟨fun hnull => ?_, fun _ => ⟨"AAH/", [0, 1, 255], rfl, by decide +kernel⟩⟩
    cases hnull
  exact ⟨by decide +kernel, ((keys_survive lib Base64.decode hengine).2 fields m rfl).1 hconsistent⟩

end PulsarClient.Partitions

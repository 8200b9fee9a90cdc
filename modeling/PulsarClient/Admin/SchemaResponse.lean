/-
  A SCHEMA over HTTP: what `get_schema` makes of the JSON that a broker answers.

  The binary protocol has a schema as bytes, the admin API has it as text.  These are the bytes of the
  text for all types but one: a KEY_VALUE schema is a JSON object over HTTP, and in the protocol it is
  two schemas behind one another, each with its length in front.

  1. THE PROGRAM — `schema_type_from_admin`, `key_value_schema_data_from_admin`,
     `parse_schema_response` and `get_schema_with_version`.

  2. `schemaTypeFromAdmin_iff` — the names of a type; `schemaData_iff` — the bytes of the two schemas,
     which are the counted records of `Records`.

  3. `schema_told` — the schema that is returned is read back, from its bytes, as the one that the broker
     has answered; and which answers are refused.
-/
import PulsarClient.Admin.Calls
import PulsarClient.Codec
import PulsarClient.Lib.Records

namespace PulsarClient.Admin.Calls.SchemaResponse

open Authenticated OAuth2

/-! ## The program -/

/-- `proto::schema::Type` -/
inductive SchemaType where
  | None
  | String
  | Json
  | Protobuf
  | Avro
  | Bool
  | Int8
  | Int16
  | Int32
  | Int64
  | Float
  | Double
  | Date
  | Time
  | Timestamp
  | KeyValue
  | Instant
  | LocalDate
  | LocalTime
  | LocalDateTime
  | ProtobufNative
  | AutoConsume
  | External
  deriving DecidableEq, Repr

/-- `serde_json::Value`; a number is as it is written. -/
inductive Value where
  | Null
  | Bool (b : Bool)
  | Number (text : String)
  | String (s : String)
  | Array (values : List Value)
  | Object (fields : List (String × Value))

/-- `Value::as_str` -/
def asStr : Value → Option String
  | .String s => some s
  | _ => none

/-- `Value::as_object`, and `Map::get`. -/
def asObject : Value → Option (String → Option Value)
  | .Object fields => some fun name => fields.lookup name
  | _ => none

structure AdminSchemaResponse where
  /-- "type" -/
  schemaType : String
  data : String := ""
  /-- in the order of the `HashMap` -/
  properties : List (String × String) := []
  deriving DecidableEq, Repr

/-- What is used of `serde_json`. -/
structure SerdeJson where
  fromStr : String → Except String Value
  fromStrResponse : String → Except String AdminSchemaResponse
  toVec : Value → Except String Bytes
  /-- for a client that reads a schema out of its bytes -/
  fromSlice : Bytes → Option Value

/-- `proto::Schema` -/
structure Schema where
  name : String := ""
  schemaData : Bytes
  type : SchemaType
  properties : List (String × String)
  deriving DecidableEq, Repr

/-- `to_ascii_uppercase` -/
def toAsciiUppercase (s : String) : String := String.ofList (s.toList.map Char.toUpper)

def schemaTypeFromAdmin (schemaType : String) : Except Error SchemaType :=
  match toAsciiUppercase schemaType with
  | "NONE" => .ok .None
  | "STRING" => .ok .String
  | "JSON" => .ok .Json
  | "PROTOBUF" => .ok .Protobuf
  | "AVRO" => .ok .Avro
  | "BOOL" | "BOOLEAN" => .ok .Bool
  | "INT8" => .ok .Int8
  | "INT16" => .ok .Int16
  | "INT32" => .ok .Int32
  | "INT64" => .ok .Int64
  | "FLOAT" => .ok .Float
  | "DOUBLE" => .ok .Double
  | "DATE" => .ok .Date
  | "TIME" => .ok .Time
  | "TIMESTAMP" => .ok .Timestamp
  | "KEYVALUE" | "KEY_VALUE" => .ok .KeyValue
  | "INSTANT" => .ok .Instant
  | "LOCALDATE" | "LOCAL_DATE" => .ok .LocalDate
  | "LOCALTIME" | "LOCAL_TIME" => .ok .LocalTime
  | "LOCALDATETIME" | "LOCAL_DATE_TIME" => .ok .LocalDateTime
  | "PROTOBUFNATIVE" | "PROTOBUF_NATIVE" => .ok .ProtobufNative
  | _ => .error (.Admin (.InvalidSchemaType schemaType))

section

variable (serde : SerdeJson)

/-- `map_err(|e| AdminError::SchemaDecode(e.to_string()))` -/
def schemaDecode {α : Type} : Except String α → Except Error α
  | .ok a => .ok a
  | .error e => .error (.Admin (.SchemaDecode e))

def keyValueSchemaPartBytes (value : Value) : Except Error Bytes :=
  if asStr value = some "" then .ok [] else schemaDecode (serde.toVec value)

def appendKeyValueSchemaPart (schemaData part : Bytes) : Except Error Bytes :=
  if part.length < 2 ^ 32 then .ok (schemaData ++ (putU32 part.length ++ part))
  else .error (.Admin (.SchemaDecode "KEY_VALUE schema part is too large to encode"))

/-- `ok_or_else(|| AdminError::SchemaDecode(..))` -/
def okOrElse {α : Type} (missing : String) : Option α → Except Error α
  | some a => .ok a
  | none => .error (.Admin (.SchemaDecode missing))

def keyValueSchemaDataFromAdmin (data : String) : Except Error Bytes := do
  let value ← schemaDecode (serde.fromStr data)
  let object ← okOrElse "KEY_VALUE schema data must be a JSON object" (asObject value)
  let key ← okOrElse "KEY_VALUE schema data missing key" (object "key")
  let value ← okOrElse "KEY_VALUE schema data missing value" (object "value")
  let key ← keyValueSchemaPartBytes serde key
  let value ← keyValueSchemaPartBytes serde value
  let schemaData ← appendKeyValueSchemaPart [] key
  appendKeyValueSchemaPart schemaData value

def parseSchemaResponse (body : String) : Except Error Schema := do
  let response ← schemaDecode (serde.fromStrResponse body)
  let schemaType ← schemaTypeFromAdmin response.schemaType
  let schemaData ← (if schemaType = .KeyValue then keyValueSchemaDataFromAdmin serde response.data
    else .ok (intoBytes response.data))
  .ok { type := schemaType, schemaData, properties := response.properties }

/-- `get_schema_with_version` -/
def getSchemaWithVersion (c : AdminClient) (servers : Servers) (topic : String)
    (version : Option UInt64) : Except Error (Option Schema) := do
  let url ← ofTopic (schemaUrl c.adminUrl topic version)
  let resp ← c.send servers .GET url [] (none : Option Unit)
  if resp.status = 404 then .ok none
  else do
    let resp ← c.requireSuccess resp
    let body ← resp.read
    (parseSchemaResponse serde body.text).map some

/-- `get_schema` -/
def getSchema (c : AdminClient) (servers : Servers) (topic : String) : Except Error (Option Schema) :=
  getSchemaWithVersion serde c servers topic none

/-- `get_schema_at_version` -/
def getSchemaAtVersion (c : AdminClient) (servers : Servers) (topic : String) (version : UInt64) :
    Except Error (Option Schema) :=
  getSchemaWithVersion serde c servers topic (some version)

end

theorem bind_eq_ok_iff {α β : Type} {x : Except Error α} {f : α → Except Error β} {b : β} :
    (x >>= f) = .ok b ↔ ∃ a, x = .ok a ∧ f a = .ok b := by
  cases x with
  | error e =>
    refine iff_of_false (fun h => nomatch h) ?_
    rintro ⟨a, ha, -⟩
    cases ha
  | ok a =>
    constructor
    · exact fun h => ⟨a, rfl, h⟩
    · rintro ⟨a', ha, h⟩
      obtain rfl := Except.ok.inj ha
      exact h

/-! ## The names of a type -/

/-- In capitals. -/
def names : SchemaType → List String
  | .None => ["NONE"]
  | .String => ["STRING"]
  | .Json => ["JSON"]
  | .Protobuf => ["PROTOBUF"]
  | .Avro => ["AVRO"]
  | .Bool => ["BOOL", "BOOLEAN"]
  | .Int8 => ["INT8"]
  | .Int16 => ["INT16"]
  | .Int32 => ["INT32"]
  | .Int64 => ["INT64"]
  | .Float => ["FLOAT"]
  | .Double => ["DOUBLE"]
  | .Date => ["DATE"]
  | .Time => ["TIME"]
  | .Timestamp => ["TIMESTAMP"]
  | .KeyValue => ["KEYVALUE", "KEY_VALUE"]
  | .Instant => ["INSTANT"]
  | .LocalDate => ["LOCALDATE", "LOCAL_DATE"]
  | .LocalTime => ["LOCALTIME", "LOCAL_TIME"]
  | .LocalDateTime => ["LOCALDATETIME", "LOCAL_DATE_TIME"]
  | .ProtobufNative => ["PROTOBUFNATIVE", "PROTOBUF_NATIVE"]
  -- no schema that is registered is of these
  | .AutoConsume => []
  | .External => []

/-- A name is that of one type, whatever its case is. -/
theorem schemaTypeFromAdmin_iff {schemaType : String} {t : SchemaType} :
    schemaTypeFromAdmin schemaType = .ok t ↔ toAsciiUppercase schemaType ∈ names t := by
  unfold schemaTypeFromAdmin
  generalize toAsciiUppercase schemaType = name
  constructor
  · intro h
    split at h <;> cases h <;> simp [names]
  · intro h
    cases t <;> simp only [names, List.mem_cons, List.not_mem_nil, or_false] at h <;>
      first | (subst h; rfl) | (rcases h with rfl | rfl <;> rfl)

/-! ## Two schemas in one -/

/-- A part with its length in front. -/
def counted (part : Bytes) : Bytes := putU32 part.length ++ part

/-- … as a client takes it off. -/
def takePart (i : Bytes) : Option (Bytes × Bytes) := do
  let (n, i) ← beU32 i
  takeBytes n i

theorem reads_counted {part : Bytes} (h : part.length < 2 ^ 32) :
    Records.Reads takePart counted part where
  whole rest := by
    unfold takePart counted
    rw [List.append_assoc, beU32_putU32 h]
    exact takeBytes_eq_some_iff.mpr ⟨rfl, rfl⟩
  cut p q hcut hq := by
    unfold takePart
    by_cases hshort : p.length < 4
    · rw [beU32_eq_none_iff.mpr hshort]
      rfl
    · -- the length is there whole, but not as many bytes behind it
      obtain ⟨tail, rfl⟩ : ∃ tail, p = putU32 part.length ++ tail :=
        List.prefix_iff_exists_eq_append.mp (List.prefix_of_prefix_length_le ⟨part, hcut⟩ ⟨q, rfl⟩
          (by rw [length_putU32]; omega))
      unfold counted at hcut
      rw [List.append_assoc] at hcut
      have hpart := List.append_cancel_left hcut
      have hlength := List.length_pos_of_ne_nil hq
      have htake : takeBytes part.length tail = none := by
        refine if_neg ?_
        rw [hpart, List.length_append]
        omega
      rw [beU32_putU32 h]
      exact htake

section

variable {serde : SerdeJson}

/-- It is written in bytes that a length of 32 bits is enough for. -/
def Fits (serde : SerdeJson) (value : Value) (bytes : Bytes) : Prop :=
  keyValueSchemaPartBytes serde value = .ok bytes ∧ bytes.length < 2 ^ 32

/-- The object of a KEY_VALUE schema. -/
def Pair (serde : SerdeJson) (data : String) (key value : Value) : Prop :=
  ∃ json object, serde.fromStr data = .ok json ∧ asObject json = some object ∧
    object "key" = some key ∧ object "value" = some value

theorem schemaDecode_eq_ok_iff {α : Type} {r : Except String α} {a : α} :
    schemaDecode r = .ok a ↔ r = .ok a := by
  cases r with
  | ok a' => exact ⟨fun h => congrArg Except.ok (Except.ok.inj h), fun h => by cases h; rfl⟩
  | error e => exact iff_of_false (fun h => nomatch h) (fun h => nomatch h)

theorem okOrElse_eq_ok_iff {α : Type} {missing : String} {part : Option α} {a : α} :
    okOrElse missing part = .ok a ↔ part = some a := by
  cases part with
  | none => exact iff_of_false (fun h => nomatch h) (fun h => nomatch h)
  | some part => exact ⟨fun h => congrArg some (Except.ok.inj h), fun h => by cases h; rfl⟩

theorem append_eq_ok_iff {schemaData part after : Bytes} :
    appendKeyValueSchemaPart schemaData part = .ok after ↔
      part.length < 2 ^ 32 ∧ schemaData ++ counted part = after := by
  unfold appendKeyValueSchemaPart
  split
  · rename_i h
    exact ⟨fun hok => ⟨h, Except.ok.inj hok⟩, fun hok => congrArg Except.ok hok.2⟩
  · rename_i h
    exact iff_of_false (fun hok => nomatch hok) fun hok => h hok.1

/-- **The bytes are two counted records.** -/
theorem schemaData_iff {data : String} {schemaData : Bytes} :
    keyValueSchemaDataFromAdmin serde data = .ok schemaData ↔
      ∃ key value keyBytes valueBytes, Pair serde data key value ∧ Fits serde key keyBytes ∧
        Fits serde value valueBytes ∧ [keyBytes, valueBytes].flatMap counted = schemaData := by
  unfold keyValueSchemaDataFromAdmin
  simp only [bind_eq_ok_iff, schemaDecode_eq_ok_iff, okOrElse_eq_ok_iff, append_eq_ok_iff]
  constructor
  · rintro ⟨json, hjson, object, hobject, key, hkey, value, hvalue, keyBytes, hkeyBytes, valueBytes,
      hvalueBytes, front, ⟨hkeyFits, rfl⟩, hvalueFits, rfl⟩
    refine ⟨key, value, keyBytes, valueBytes, ⟨json, object, hjson, hobject, hkey, hvalue⟩,
      ⟨hkeyBytes, hkeyFits⟩, ⟨hvalueBytes, hvalueFits⟩, ?_⟩
    simp
  · rintro ⟨key, value, keyBytes, valueBytes, ⟨json, object, hjson, hobject, hkey, hvalue⟩, hkeyFits,
      hvalueFits, rfl⟩
    refine ⟨json, hjson, object, hobject, key, hkey, value, hvalue, keyBytes, hkeyFits.1, valueBytes,
      hvalueFits.1, _, ⟨hkeyFits.2, rfl⟩, hvalueFits.2, ?_⟩
    simp

/-! ## What a client reads -/

/-- A schema of no bytes is the empty text. -/
def partValue (serde : SerdeJson) (part : Bytes) : Option Value :=
  if part = [] then some (.String "") else serde.fromSlice part

/-- The two schemas of a KEY_VALUE schema. -/
def readKeyValue (serde : SerdeJson) (schemaData : Bytes) : Option (Value × Value) :=
  match Records.count takePart 2 schemaData with
  | some [key, value] => do
    let key ← partValue serde key
    let value ← partValue serde value
    some (key, value)
  | _ => none

/-- `to_vec` writes a value that `from_slice` reads. -/
def Inverts (serde : SerdeJson) (value : Value) : Prop :=
  ∀ bytes, serde.toVec value = .ok bytes → bytes ≠ [] ∧ serde.fromSlice bytes = some value

theorem partValue_of_fits {value : Value} {bytes : Bytes} (hserde : Inverts serde value)
    (h : Fits serde value bytes) : partValue serde bytes = some value := by
  have hbytes := h.1
  unfold keyValueSchemaPartBytes at hbytes
  unfold partValue
  split at hbytes
  · rename_i hempty
    rw [if_pos (Except.ok.inj hbytes).symm]
    cases value <;> cases hempty
    rfl
  · obtain ⟨hne, hslice⟩ := hserde bytes (schemaDecode_eq_ok_iff.mp hbytes)
    rw [if_neg hne]
    exact hslice

theorem reads_parts {keyBytes valueBytes : Bytes} (hkey : keyBytes.length < 2 ^ 32)
    (hvalue : valueBytes.length < 2 ^ 32) :
    ∀ part ∈ [keyBytes, valueBytes], Records.Reads takePart counted part := by
  intro part hpart
  rcases List.mem_cons.mp hpart with rfl | hpart
  · exact reads_counted hkey
  · obtain rfl := List.mem_singleton.mp hpart
    exact reads_counted hvalue

theorem readKeyValue_of_fits {key value : Value} {keyBytes valueBytes : Bytes}
    (hkey : Fits serde key keyBytes) (hvalue : Fits serde value valueBytes)
    (hkeySerde : Inverts serde key) (hvalueSerde : Inverts serde value) :
    readKeyValue serde ([keyBytes, valueBytes].flatMap counted) = some (key, value) := by
  have hcount := Records.count_flatMap (reads_parts hkey.2 hvalue.2) []
  rw [List.append_nil] at hcount
  unfold readKeyValue
  rw [show 2 = [keyBytes, valueBytes].length from rfl, hcount]
  simp only [partValue_of_fits hkeySerde hkey, partValue_of_fits hvalueSerde hvalue]
  rfl

/-- Of less than all of it nothing is read. -/
theorem readKeyValue_cut {keyBytes valueBytes p q : Bytes} (hkey : keyBytes.length < 2 ^ 32)
    (hvalue : valueBytes.length < 2 ^ 32) (hcut : [keyBytes, valueBytes].flatMap counted = p ++ q)
    (hq : q ≠ []) : readKeyValue serde p = none := by
  have hcount := Records.count_cut (reads_parts hkey hvalue) hcut hq
  unfold readKeyValue
  rw [show 2 = [keyBytes, valueBytes].length from rfl, hcount]

/-! ## The schema of a topic -/

/-- `schema` is that of `response`, in the terms of the binary protocol. -/
structure Says (serde : SerdeJson) (response : AdminSchemaResponse) (schema : Schema) : Prop where
  name : toAsciiUppercase response.schemaType ∈ names schema.type
  properties : schema.properties = response.properties
  text : schema.type ≠ .KeyValue → fromUtf8 schema.schemaData = some response.data
  keyValue : schema.type = .KeyValue → ∃ key value, Pair serde response.data key value ∧
    (Inverts serde key → Inverts serde value →
      readKeyValue serde schema.schemaData = some (key, value)) ∧
    ∀ p q, schema.schemaData = p ++ q → q ≠ [] → readKeyValue serde p = none

/-- … and there is one. -/
def Sound (serde : SerdeJson) (response : AdminSchemaResponse) : Prop :=
  ∃ type, toAsciiUppercase response.schemaType ∈ names type ∧
    (type = .KeyValue → ∃ key value, Pair serde response.data key value ∧
      (∃ bytes, Fits serde key bytes) ∧ ∃ bytes, Fits serde value bytes)

theorem parse_ok_iff {body : String} {schema : Schema} :
    parseSchemaResponse serde body = .ok schema ↔
      ∃ response type schemaData, serde.fromStrResponse body = .ok response ∧
        toAsciiUppercase response.schemaType ∈ names type ∧
        (if type = .KeyValue then keyValueSchemaDataFromAdmin serde response.data
          else .ok (intoBytes response.data)) = .ok schemaData ∧
        { type, schemaData, properties := response.properties } = schema := by
  unfold parseSchemaResponse
  simp only [bind_eq_ok_iff, schemaDecode_eq_ok_iff, schemaTypeFromAdmin_iff]
  constructor
  · rintro ⟨response, hresponse, type, htype, schemaData, hdata, hschema⟩
    exact ⟨response, type, schemaData, hresponse, htype, hdata, Except.ok.inj hschema⟩
  · rintro ⟨response, type, schemaData, hresponse, htype, hdata, hschema⟩
    exact ⟨response, hresponse, type, htype, schemaData, hdata, congrArg Except.ok hschema⟩

theorem says_of_parse {body : String} {schema : Schema}
    (h : parseSchemaResponse serde body = .ok schema) :
    ∃ response, serde.fromStrResponse body = .ok response ∧ Says serde response schema := by
  obtain ⟨response, type, schemaData, hresponse, htype, hdata, rfl⟩ := parse_ok_iff.mp h
  refine ⟨response, hresponse, htype, rfl, fun hplain => ?_, fun hkeyValue => ?_⟩
  · rw [if_neg hplain] at hdata
    obtain rfl := Except.ok.inj hdata
    exact fromUtf8_intoBytes response.data
  · rw [if_pos hkeyValue] at hdata
    obtain ⟨key, value, keyBytes, valueBytes, hpair, hkey, hvalue, rfl⟩ := schemaData_iff.mp hdata
    exact ⟨key, value, hpair, readKeyValue_of_fits hkey hvalue,
      fun p q => readKeyValue_cut hkey.2 hvalue.2⟩

theorem exists_parse_iff {body : String} :
    (∃ schema, parseSchemaResponse serde body = .ok schema) ↔
      ∃ response, serde.fromStrResponse body = .ok response ∧ Sound serde response := by
  constructor
  · rintro ⟨schema, h⟩
    obtain ⟨response, type, schemaData, hresponse, htype, hdata, -⟩ := parse_ok_iff.mp h
    refine ⟨response, hresponse, type, htype, fun hkeyValue => ?_⟩
    rw [if_pos hkeyValue] at hdata
    obtain ⟨key, value, keyBytes, valueBytes, hpair, hkey, hvalue, -⟩ := schemaData_iff.mp hdata
    exact ⟨key, value, hpair, ⟨keyBytes, hkey⟩, valueBytes, hvalue⟩
  · rintro ⟨response, hresponse, type, htype, hkeyValue⟩
    by_cases hkind : type = .KeyValue
    · obtain ⟨key, value, hpair, ⟨keyBytes, hkey⟩, valueBytes, hvalue⟩ := hkeyValue hkind
      have hdata := schemaData_iff.mpr ⟨key, value, keyBytes, valueBytes, hpair, hkey, hvalue, rfl⟩
      exact ⟨_, parse_ok_iff.mpr
        ⟨response, type, _, hresponse, htype, (if_pos hkind).trans hdata, rfl⟩⟩
    · exact ⟨_, parse_ok_iff.mpr ⟨response, type, _, hresponse, htype, if_neg hkind, rfl⟩⟩

section

variable {c : AdminClient} {servers : Servers} {topic : String} {version : Option UInt64}

/-- What the broker at the end of the redirects answers for the topic. -/
def Answered (c : AdminClient) (servers : Servers) (topic : String) (version : Option UInt64)
    (resp : Response) : Prop :=
  ∃ url j, schemaUrl c.adminUrl topic version = .ok url ∧
    c.EndsAt servers url j (.ok resp.status) ∧ servers.bodies j = resp.body

theorem ofTopic_eq_ok_iff {α : Type} {r : Except Admin.AdminError α} {a : α} :
    ofTopic r = .ok a ↔ r = .ok a := by
  cases r with
  | ok a' => exact ⟨fun h => congrArg Except.ok (Except.ok.inj h), fun h => by cases h; rfl⟩
  | error e =>
    cases e
    exact iff_of_false (fun h => nomatch h) (fun h => nomatch h)

theorem requireSuccess_eq_ok_iff {resp resp' : Response} :
    c.requireSuccess resp = .ok resp' ↔ isSuccess resp.status = true ∧ resp = resp' := by
  unfold AdminClient.requireSuccess
  split
  · rename_i h
    exact ⟨fun hok => ⟨h, Except.ok.inj hok⟩, fun hok => congrArg Except.ok hok.2⟩
  · rename_i h
    exact iff_of_false (fun hok => nomatch hok) fun hok => h hok.1

theorem read_eq_ok_iff {resp : Response} {body : Body} :
    resp.read = .ok body ↔ resp.body = .ok body := by
  obtain ⟨status, read⟩ := resp
  cases read with
  | ok read => exact ⟨fun h => congrArg Except.ok (Except.ok.inj h), fun h => by cases h; rfl⟩
  | error e => exact iff_of_false (fun h => nomatch h) (fun h => nomatch h)

theorem map_some_eq_ok_iff {α : Type} {r : Except Error α} {answer : Option α} :
    r.map some = .ok answer ↔ ∃ a, r = .ok a ∧ some a = answer := by
  cases r with
  | ok a =>
    constructor
    · exact fun h => ⟨a, rfl, Except.ok.inj h⟩
    · rintro ⟨a', ha, rfl⟩
      obtain rfl := Except.ok.inj ha
      rfl
  | error e =>
    refine iff_of_false (fun h => nomatch h) ?_
    rintro ⟨a, ha, -⟩
    cases ha

theorem get_ok_iff {answer : Option Schema} :
    getSchemaWithVersion serde c servers topic version = .ok answer ↔
      ∃ resp, Answered c servers topic version resp ∧
        (resp.status = 404 ∧ none = answer ∨ isSuccess resp.status = true ∧ ∃ body schema,
          resp.body = .ok body ∧ parseSchemaResponse serde body.text = .ok schema ∧
            some schema = answer) := by
  unfold getSchemaWithVersion
  simp only [bind_eq_ok_iff, ofTopic_eq_ok_iff, send_ok_iff]
  constructor
  · rintro ⟨url, hurl, resp, ⟨j, status, hj, rfl⟩, h⟩
    refine ⟨{ status, body := servers.bodies j }, ⟨url, j, hurl, hj, rfl⟩, ?_⟩
    split at h
    · rename_i habsent
      exact .inl ⟨habsent, Except.ok.inj h⟩
    · simp only [bind_eq_ok_iff, requireSuccess_eq_ok_iff, read_eq_ok_iff, map_some_eq_ok_iff] at h
      obtain ⟨resp, ⟨hsuccess, rfl⟩, body, hbody, schema, hschema, hanswer⟩ := h
      exact .inr ⟨hsuccess, body, schema, hbody, hschema, hanswer⟩
  · rintro ⟨⟨status, body⟩, ⟨url, j, hurl, hj, rfl⟩, h⟩
    refine ⟨url, hurl, _, ⟨j, status, hj, rfl⟩, ?_⟩
    rcases h with ⟨habsent, rfl⟩ | ⟨hsuccess, body, schema, hbody, hschema, hanswer⟩
    · exact if_pos habsent
    · have hthere : status ≠ 404 := by
        rintro rfl
        cases hsuccess
      rw [if_neg hthere]
      simp only [bind_eq_ok_iff, requireSuccess_eq_ok_iff, read_eq_ok_iff, map_some_eq_ok_iff]
      exact ⟨_, ⟨hsuccess, rfl⟩, body, hbody, schema, hschema, hanswer⟩

end

/-- **A schema is told as it is.**  `get_schema` returns none exactly if the broker at the end of its
    redirects answers 404.  A schema that it returns is that of a 2xx, with the type of that name, the
    same properties, and the text out of its bytes again: for a KEY_VALUE schema, the two schemas of the
    object, which nothing short of all the bytes holds.  And it returns one exactly if the answer names a
    type and, for KEY_VALUE, has an object with a key and a value that can be written. -/
theorem schema_told (serde : SerdeJson) (c : AdminClient) (servers : Servers) (topic : String)
    (version : Option UInt64) :
    (getSchemaWithVersion serde c servers topic version = .ok none ↔
      ∃ resp, Answered c servers topic version resp ∧ resp.status = 404) ∧
    (∀ schema, getSchemaWithVersion serde c servers topic version = .ok (some schema) →
      ∃ resp body response, Answered c servers topic version resp ∧ isSuccess resp.status = true ∧
        resp.body = .ok body ∧ serde.fromStrResponse body.text = .ok response ∧
        Says serde response schema) ∧
    ((∃ schema, getSchemaWithVersion serde c servers topic version = .ok (some schema)) ↔
      ∃ resp body response, Answered c servers topic version resp ∧ isSuccess resp.status = true ∧
        resp.body = .ok body ∧ serde.fromStrResponse body.text = .ok response ∧
        Sound serde response) := by
  refine ⟨?_, fun schema h => ?_, ?_⟩
  · rw [get_ok_iff]
    constructor
    · rintro ⟨resp, hresp, ⟨habsent, -⟩ | ⟨-, body, schema, -, -, hsome⟩⟩
      · exact ⟨resp, hresp, habsent⟩
      · cases hsome
    · rintro ⟨resp, hresp, habsent⟩
      exact ⟨resp, hresp, .inl ⟨habsent, rfl⟩⟩
  · obtain ⟨resp, hresp, ⟨-, hnone⟩ | ⟨hsuccess, body, schema, hbody, hschema, hsome⟩⟩ :=
      get_ok_iff.mp h
    · cases hnone
    · obtain rfl := Option.some.inj hsome
      obtain ⟨response, hresponse, hsays⟩ := says_of_parse hschema
      exact ⟨resp, body, response, hresp, hsuccess, hbody, hresponse, hsays⟩
  · constructor
    · rintro ⟨schema, h⟩
      obtain ⟨resp, hresp, ⟨-, hnone⟩ | ⟨hsuccess, body, schema, hbody, hschema, -⟩⟩ :=
        get_ok_iff.mp h
      · cases hnone
      · obtain ⟨response, hresponse, hsound⟩ := exists_parse_iff.mp ⟨schema, hschema⟩
        exact ⟨resp, body, response, hresp, hsuccess, hbody, hresponse, hsound⟩
    · rintro ⟨resp, body, response, hresp, hsuccess, hbody, hresponse, hsound⟩
      obtain ⟨schema, hschema⟩ := exists_parse_iff.mpr ⟨response, hresponse, hsound⟩
      exact ⟨schema, get_ok_iff.mpr
        ⟨resp, hresp, .inr ⟨hsuccess, body, schema, hbody, hschema, rfl⟩⟩⟩

/-- Two schemas, the second of which is empty. -/
def intKeys : String := "\x7b\"key\":\"int32\",\"value\":\"\"\x7d"

/-- … in an answer. -/
def intKeysAnswer : String :=
  "\x7b\"version\":0,\"type\":\"KEY_VALUE\",\"timestamp\":0,\"data\":" ++
    "\"\x7b\\\"key\\\":\\\"int32\\\",\\\"value\\\":\\\"\\\"\x7d\",\"properties\":\x7b\x7d\x7d"

/-- `serde_json` on these texts, and on strings without escapes. -/
def texts : SerdeJson where
  fromStr s :=
    if s = intKeys then .ok (.Object [("key", .String "int32"), ("value", .String "")])
    else .error "expected value at line 1 column 1"
  fromStrResponse s :=
    if s = intKeysAnswer then .ok { schemaType := "KEY_VALUE", data := intKeys }
    else .error "expected value at line 1 column 1"
  toVec
    | .String s => .ok (34 :: (intoBytes s ++ [34]))
    | _ => .error "no text"
  fromSlice bytes := (fromUtf8 bytes.tail.dropLast).map .String

theorem texts_fromStr {s : String} {json : Value} : texts.fromStr s = .ok json ↔
    s = intKeys ∧ json = .Object [("key", .String "int32"), ("value", .String "")] := by
  show (if s = intKeys then _ else _) = _ ↔ _
  split
  · rename_i hs
    rw [Except.ok.injEq, eq_comm]
    exact (and_iff_right hs).symm
  · rename_i hs
    exact iff_of_false (fun h => nomatch h) fun h => hs h.1

theorem texts_response {s : String} {response : AdminSchemaResponse} :
    texts.fromStrResponse s = .ok response ↔
      s = intKeysAnswer ∧ response = { schemaType := "KEY_VALUE", data := intKeys } := by
  show (if s = intKeysAnswer then _ else _) = _ ↔ _
  split
  · rename_i hs
    rw [Except.ok.injEq, eq_comm]
    exact (and_iff_right hs).symm
  · rename_i hs
    exact iff_of_false (fun h => nomatch h) fun h => hs h.1

theorem texts_inverts (s : String) : Inverts texts (.String s) := by
  intro bytes hbytes
  obtain rfl := Except.ok.inj hbytes
  refine ⟨List.cons_ne_nil _ _, ?_⟩
  show (fromUtf8 (intoBytes s ++ [34]).dropLast).map Value.String = _
  rw [List.dropLast_concat, fromUtf8_intoBytes]
  rfl

/-- … come back from the owner of the topic. -/
theorem schema_told_moved :
    ∃ schema, getSchema texts plain (movedTo 307 200 intKeysAnswer) "public/default/t" = .ok (some schema) ∧
      readKeyValue texts schema.schemaData = some (.String "int32", .String "") := by
  obtain ⟨-, hsays, hsound⟩ := schema_told texts plain (movedTo 307 200 intKeysAnswer)
    "public/default/t" none
  have hread := texts_response.mpr ⟨rfl, rfl⟩
  have hpair := texts_fromStr.mpr ⟨rfl, rfl⟩
  have hanswered : Answered plain (movedTo 307 200 intKeysAnswer) "public/default/t" none
      ⟨200, .ok { bytes := intoBytes intKeysAnswer, text := intKeysAnswer }⟩ :=
    ⟨_, 1, rfl, movedTo_ends rfl rfl _, rfl⟩
  obtain ⟨schema, hschema⟩ := hsound.mpr
    ⟨_, _, { schemaType := "KEY_VALUE", data := intKeys }, hanswered, rfl, rfl, hread, .KeyValue,
      by decide +kernel, fun _ => ⟨.String "int32", .String "", ⟨_, _, hpair, rfl, rfl, rfl⟩,
        ⟨_, rfl, by decide +kernel⟩, _, rfl, by decide +kernel⟩⟩
  refine ⟨schema, hschema, ?_⟩
  obtain ⟨resp, body, response, -, -, -, hresponse, hsaid⟩ := hsays schema hschema
  obtain ⟨-, rfl⟩ := texts_response.mp hresponse
  have hkind : schema.type = .KeyValue := by
    have hnamed := schemaTypeFromAdmin_iff.mpr hsaid.name
    have hknown : schemaTypeFromAdmin "KEY_VALUE" = .ok .KeyValue :=
      schemaTypeFromAdmin_iff.mpr (by decide +kernel)
    exact Except.ok.inj (hnamed.symm.trans hknown)
  obtain ⟨key, value, ⟨json, object, hjson, hobject, hkey, hvalue⟩, hread, -⟩ := hsaid.keyValue hkind
  obtain ⟨-, rfl⟩ := texts_fromStr.mp hjson
  obtain rfl := Option.some.inj hobject
  obtain rfl := Option.some.inj hkey
  obtain rfl := Option.some.inj hvalue
  exact hread (texts_inverts "int32") (texts_inverts "")

end

end PulsarClient.Admin.Calls.SchemaResponse

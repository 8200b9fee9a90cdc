/-
  TWO GENERATIONS OF URL BUILDERS — `topic_policy_url` and `schema_url` of `AdminClient`
  (`src/admin/mod.rs`) beside those of its groups (`src/admin/topic_policies.rs`, `src/admin/schemas.rs`).

  The groups escape every part of a topic.  The flat methods write the parts of a policy URL as they are,
  and escape only the local name in a schema URL.

  1. Both generations, as texts over the parts of the topic.

  2. `encodeSegment_eq_self_iff` — a name is its own escape exactly if it has unreserved bytes only: every
     other byte becomes three.

  3. `flatUrls_agree_iff` — where the two write the same URL.
-/
import PulsarClient.Admin.TopicNames

namespace PulsarClient.Admin

open PulsarClient.Url Split

/-! ## The builders -/

/-- `AdminClient::topic_policy_url` -/
def topicPolicyUrl (adminUrl topic policy : String) : Except AdminError String :=
  match parseTopic topic with
  | .error e => .error e
  | .ok (scheme, tenant, ns, name) =>
    .ok s!"{adminUrl}/admin/v2/{scheme}/{tenant}/{ns}/{name}/{policy}"

def encodeTopicLocalName (name : String) : String := encodeSegment name

/-- `AdminClient::schema_url` -/
def schemaUrl (adminUrl topic : String) (version : Option UInt64) : Except AdminError String :=
  match parseTopic topic with
  | .error e => .error e
  | .ok (_, tenant, ns, name) =>
    let name := encodeTopicLocalName name
    let url := s!"{adminUrl}/admin/v2/schemas/{tenant}/{ns}/{name}/schema"
    .ok (match version with
      | some version => s!"{url}/{version}"
      | none => url)

/-- `TopicPolicies::policy_url` -/
def TopicPolicies.policyUrl (isGlobal : Bool) (adminUrl topic policy : String) :
    Except AdminError String :=
  (parseTopicPath topic).map fun segments =>
    let url := url adminUrl (segments ++ [policy])
    if isGlobal then s!"{url}?isGlobal=true" else url

/-- `Schemas::schema_url`: "The schema endpoints omit the `persistent`/`non-persistent` domain that every
other topic path carries." -/
def Schemas.schemaUrl (adminUrl topic : String) (extra : List String) : Except AdminError String :=
  match parseTopic topic with
  | .error e => .error e
  | .ok (_, tenant, ns, name) =>
    .ok (url adminUrl
      (["schemas", encodeSegment tenant, encodeSegment ns, encodeSegment name] ++ extra))

/-- What `get_schema_info` and `get_schema_info_at_version` ask for. -/
def Schemas.extra : Option UInt64 → List String
  | none => ["schema"]
  | some version => ["schema", toString version]

/-! ## What the flat builders write -/

variable {adminUrl topic scheme tenant ns name : String}

theorem topicPolicyUrl_eq (h : parseTopic topic = .ok (scheme, tenant, ns, name)) (policy : String) :
    topicPolicyUrl adminUrl topic policy = .ok (url adminUrl [scheme, tenant, ns, name, policy]) := by
  unfold topicPolicyUrl
  rw [h]
  apply congrArg Except.ok
  apply String.toList_inj.mp
  simp [url, toString]

theorem schemaUrl_eq (h : parseTopic topic = .ok (scheme, tenant, ns, name)) (version : Option UInt64) :
    schemaUrl adminUrl topic version =
      .ok (url adminUrl (["schemas", tenant, ns, encodeSegment name] ++ Schemas.extra version)) := by
  unfold schemaUrl
  rw [h]
  apply congrArg Except.ok
  apply String.toList_inj.mp
  cases version with
  | none => simp [url, Schemas.extra, encodeTopicLocalName, toString]
  | some version => simp [url, Schemas.extra, encodeTopicLocalName, toString]

theorem TopicPolicies.policyUrl_eq (h : parseTopic topic = .ok (scheme, tenant, ns, name))
    (policy : String) :
    TopicPolicies.policyUrl false adminUrl topic policy =
      .ok (url adminUrl
        [scheme, encodeSegment tenant, encodeSegment ns, encodeSegment name, policy]) := by
  unfold TopicPolicies.policyUrl parseTopicPath
  rw [h]
  rfl

theorem Schemas.schemaUrl_eq (h : parseTopic topic = .ok (scheme, tenant, ns, name))
    (extra : List String) :
    Schemas.schemaUrl adminUrl topic extra =
      .ok (url adminUrl
        (["schemas", encodeSegment tenant, encodeSegment ns, encodeSegment name] ++ extra)) := by
  unfold Schemas.schemaUrl
  rw [h]

/-! ## Names that are their own escape -/

/-- Every byte is one that `encode_segment` keeps. -/
def Unreserved (name : String) : Prop := ∀ b ∈ bytes name, isUnreserved b = true

/-- An escape sequence takes three bytes. -/
theorem encodeByte_length_below : ∀ n < 256,
    ((encodeByte (UInt8.ofNat n)).flatMap String.utf8EncodeChar).length =
      if isUnreserved (UInt8.ofNat n) = true then 1 else 3 := by
  decide +kernel

theorem encodeByte_length (b : UInt8) :
    ((encodeByte b).flatMap String.utf8EncodeChar).length =
      if isUnreserved b = true then 1 else 3 := by
  have hb := encodeByte_length_below b.toNat b.toNat_lt
  rwa [UInt8.ofNat_toNat] at hb

theorem bytes_ofList (s : List Char) :
    bytes (String.ofList s) = s.flatMap String.utf8EncodeChar := by
  unfold bytes
  rw [String.toByteArray_ofList, List.utf8Encode]
  simp

theorem bytes_encodeSegment (name : String) :
    bytes (encodeSegment name) =
      (bytes name).flatMap fun b => (encodeByte b).flatMap String.utf8EncodeChar := by
  unfold encodeSegment
  rw [bytes_ofList, List.flatMap_assoc]

/-- The escape of bytes is no shorter than they are, and longer if one of them is reserved. -/
theorem length_flatMap_encodeByte (bs : List UInt8) :
    bs.length ≤ (bs.flatMap fun b => (encodeByte b).flatMap String.utf8EncodeChar).length ∧
      ((bs.flatMap fun b => (encodeByte b).flatMap String.utf8EncodeChar).length = bs.length →
        ∀ b ∈ bs, isUnreserved b = true) := by
  induction bs with
  | nil => exact ⟨Nat.le_refl 0, fun _ b hb => absurd hb List.not_mem_nil⟩
  | cons b bs ih =>
    obtain ⟨hle, hall⟩ := ih
    rw [List.flatMap_cons, List.length_append, encodeByte_length, List.length_cons]
    split
    next hb =>
      refine ⟨by omega, fun hlength c hc => ?_⟩
      rcases List.mem_cons.mp hc with rfl | hc
      · exact hb
      · exact hall (by omega) c hc
    next => exact ⟨by omega, fun hlength => by omega⟩

/-- **A name is its own escape** exactly if it has nothing to escape. -/
theorem encodeSegment_eq_self_iff (name : String) : encodeSegment name = name ↔ Unreserved name := by
  constructor
  · intro h
    have hlength : (bytes (encodeSegment name)).length = (bytes name).length := by rw [h]
    rw [bytes_encodeSegment] at hlength
    exact (length_flatMap_encodeByte (bytes name)).2 hlength
  · intro h
    apply bytes_inj
    rw [bytes_encodeSegment]
    have hsingle : ∀ b ∈ bytes name, (encodeByte b).flatMap String.utf8EncodeChar = [b] := by
      intro b hb
      unfold encodeByte
      rw [if_pos (h b hb), List.flatMap_singleton, (unreserved (h b hb)).1]
    rw [List.flatMap_congr hsingle, List.flatMap_singleton']

theorem encodeSegment_noSlash (name : String) : '/' ∉ (encodeSegment name).toList := by
  intro hmem
  exact absurd (escape_plain name '/' hmem) (by decide)

/-! ## The two generations -/

/-- **URLs that differ in a topic only** are the same if the topic's parts are. -/
theorem url_eq_iff {front tenant' ns' name' : String} (extra : List String)
    (htenant : '/' ∉ tenant.toList) (htenant' : '/' ∉ tenant'.toList) (hns : '/' ∉ ns.toList)
    (hns' : '/' ∉ ns'.toList) :
    url adminUrl ([front, tenant, ns, name] ++ extra) =
        url adminUrl ([front, tenant', ns', name'] ++ extra) ↔
      tenant = tenant' ∧ ns = ns' ∧ name = name' := by
  constructor
  · intro h
    have hlist := congrArg String.toList h
    rw [toList_url, toList_url] at hlist
    have hparts := List.append_cancel_left hlist
    simp only [List.cons_append, List.nil_append, List.map_cons, render, List.flatMap_cons,
      List.cons.injEq, true_and, List.append_cancel_left_eq] at hparts
    obtain ⟨htenant_eq, hrest⟩ := cut_inj htenant htenant' hparts
    obtain ⟨hns_eq, hlast⟩ := cut_inj hns hns' hrest
    have hname_eq := List.append_cancel_right hlast
    exact ⟨String.toList_inj.mp htenant_eq, String.toList_inj.mp hns_eq,
      String.toList_inj.mp hname_eq⟩
  · rintro ⟨rfl, rfl, rfl⟩
    rfl

/-- **Where the two generations agree**: on policy URLs if the topic has unreserved bytes only, on schema
URLs if its tenant and namespace have. -/
theorem flatUrls_agree_iff (adminUrl : String) {topic scheme tenant ns name : String}
    (h : parseTopic topic = .ok (scheme, tenant, ns, name)) :
    (∀ policy, topicPolicyUrl adminUrl topic policy =
        TopicPolicies.policyUrl false adminUrl topic policy ↔
      Unreserved tenant ∧ Unreserved ns ∧ Unreserved name) ∧
    ∀ version, schemaUrl adminUrl topic version =
        Schemas.schemaUrl adminUrl topic (Schemas.extra version) ↔
      Unreserved tenant ∧ Unreserved ns := by
  obtain ⟨-, -, htenant, hns, -⟩ := parseTopic_eq_ok_iff.mp h
  have htenant' := encodeSegment_noSlash tenant
  have hns' := encodeSegment_noSlash ns
  simp only [← encodeSegment_eq_self_iff]
  constructor
  · intro policy
    rw [topicPolicyUrl_eq h, TopicPolicies.policyUrl_eq h, Except.ok.injEq]
    refine (url_eq_iff [policy] htenant.2 htenant' hns.2 hns').trans ?_
    exact and_congr eq_comm (and_congr eq_comm eq_comm)
  · intro version
    rw [schemaUrl_eq h, Schemas.schemaUrl_eq h, Except.ok.injEq,
      url_eq_iff (Schemas.extra version) htenant.2 htenant' hns.2 hns']
    refine and_congr eq_comm ?_
    rw [and_iff_left rfl]
    exact eq_comm

/-- A topic of letters. -/
theorem flatUrls_plain :
    topicPolicyUrl "http://localhost:8080" "public/default/my-topic" "maxConsumers" =
      TopicPolicies.policyUrl false "http://localhost:8080" "public/default/my-topic"
        "maxConsumers" := by
  have hparse : parseTopic "public/default/my-topic" =
      .ok ("persistent", "public", "default", "my-topic") := by rfl
  have hplain : Unreserved "public" ∧ Unreserved "default" ∧ Unreserved "my-topic" :=
    ⟨List.all_eq_true.mp (by rfl), List.all_eq_true.mp (by rfl), List.all_eq_true.mp (by rfl)⟩
  exact ((flatUrls_agree_iff "http://localhost:8080" hparse).1 "maxConsumers").mpr hplain

/-- A topic with a slash in its name: the flat URL has a segment more.  A tenant with a `?`: it ends the
path of the flat URL. -/
theorem flatUrls_diverge :
    (parseTopic "public/default/a/b" = .ok ("persistent", "public", "default", "a/b") ∧
      topicPolicyUrl "http://localhost:8080" "public/default/a/b" "retention" =
        .ok "http://localhost:8080/admin/v2/persistent/public/default/a/b/retention" ∧
      TopicPolicies.policyUrl false "http://localhost:8080" "public/default/a/b" "retention" ≠
        topicPolicyUrl "http://localhost:8080" "public/default/a/b" "retention") ∧
    parseTopic "a?b/default/t" = .ok ("persistent", "a?b", "default", "t") ∧
      schemaUrl "http://localhost:8080" "a?b/default/t" none =
        .ok "http://localhost:8080/admin/v2/schemas/a?b/default/t/schema" ∧
      Schemas.schemaUrl "http://localhost:8080" "a?b/default/t" (Schemas.extra none) ≠
        schemaUrl "http://localhost:8080" "a?b/default/t" none := by
  have hpolicy : TopicPolicies.policyUrl false "http://localhost:8080" "public/default/a/b"
      "retention" =
        .ok "http://localhost:8080/admin/v2/persistent/public/default/a%2Fb/retention" := by rfl
  have hschema : Schemas.schemaUrl "http://localhost:8080" "a?b/default/t" (Schemas.extra none) =
      .ok "http://localhost:8080/admin/v2/schemas/a%3Fb/default/t/schema" := by rfl
  refine ⟨⟨rfl, rfl, fun h => ?_⟩, rfl, rfl, fun h => ?_⟩
  · exact absurd (Except.ok.inj (hpolicy.symm.trans h)) (by decide)
  · exact absurd (Except.ok.inj (hschema.symm.trans h)) (by decide)

end PulsarClient.Admin

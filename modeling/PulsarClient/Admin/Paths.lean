/-
  ADMIN REQUEST PATHS (`src/admin/mod.rs`, `src/admin/topics.rs`).

  The admin client writes its request URLs as text: the base, `/admin/v2`, and the segments, each escaped
  by `encode_segment` so that "a name containing a slash cannot inject extra path segments".  What the
  broker is sent is the path of that text as the HTTP client's URL parser reads it (`Lib/Url`).

  1. `encodeSegment` and the builders of the request URLs, down to `delete_subscription`.

  2. `percentDecode_encodeSegment` — an escaped name decodes to the name's bytes, whatever they are, and
     the parser leaves every character of it alone.

  3. The hole is the dot: `encode_segment` keeps it, as escaping it would not help, and the parser takes
     the segments `.` and `..` for steps in the path.  `addresses_iff_noDots`: exactly these two names
     redirect a request.
-/
import PulsarClient.Lib.Url

namespace PulsarClient.Admin

open PulsarClient.Url

/-! ## `encode_segment` -/

/-- `b'A'..=b'Z' | b'a'..=b'z' | b'0'..=b'9' | b'-' | b'.' | b'_' | b'~'` -/
def isUnreserved (byte : UInt8) : Bool :=
  (0x41 ≤ byte && byte ≤ 0x5A) || (0x61 ≤ byte && byte ≤ 0x7A) || (0x30 ≤ byte && byte ≤ 0x39) ||
    byte == 0x2D || byte == 0x2E || byte == 0x5F || byte == 0x7E

/-- One turn of the loop: the byte as it is, or `%{byte:02X}`. -/
def encodeByte (byte : UInt8) : List Char :=
  if isUnreserved byte then [Char.ofNat byte.toNat] else percentEncode byte

/-- `str::bytes` -/
def bytes (name : String) : List UInt8 := name.toByteArray.data.toList

def encodeSegment (name : String) : String := String.ofList ((bytes name).flatMap encodeByte)

/-- The escaped name as the parser reads it. -/
def escape (name : String) : List Char := (encodeSegment name).toList

/-! ## The builders of request URLs -/

inductive AdminError
  | InvalidTopic (message : String)
  deriving DecidableEq, Repr

/-- `str::strip_prefix` -/
def stripPrefix (s pre : String) : Option String :=
  (List.isPrefixOf? pre.toList s.toList).map String.ofList

/-- `str::splitn`, on the characters. -/
def splitnChars (sep : Char) : Nat → List Char → List (List Char)
  | 0, _ => []
  | 1, s => [s]
  | n + 2, s =>
    match s.dropWhile fun c => c != sep with
    | [] => [s]
    | _ :: rest => (s.takeWhile fun c => c != sep) :: splitnChars sep (n + 1) rest

def splitn (n : Nat) (sep : Char) (s : String) : List String :=
  (splitnChars sep n s.toList).map String.ofList

/-- The domain and what follows it: "a bare `tenant/namespace/topic` string […] defaults to
`persistent://`". -/
def splitScheme (topic : String) : String × String :=
  match stripPrefix topic "persistent://" with
  | some rest => ("persistent", rest)
  | none =>
    match stripPrefix topic "non-persistent://" with
    | some rest => ("non-persistent", rest)
    | none => ("persistent", topic)

/-- `parts.next().filter(|s| !s.is_empty())` -/
def part (parts : List String) (i : Nat) : Option String := (parts[i]?).filter fun s => !s.isEmpty

/-- "Parses a Pulsar topic URL into (scheme, tenant, namespace, topic_name)." -/
def parseTopic (topic : String) : Except AdminError (String × String × String × String) :=
  match part (splitn 3 '/' (splitScheme topic).2) 0, part (splitn 3 '/' (splitScheme topic).2) 1,
    part (splitn 3 '/' (splitScheme topic).2) 2 with
  | some tenant, some ns, some name => .ok ((splitScheme topic).1, tenant, ns, name)
  | _, _, _ =>
    .error (.InvalidTopic
      s!"expected tenant/namespace/topic or a fully-qualified topic URL, got: {topic}")

/-- "Splits a topic into the encoded path segments the admin API expects" -/
def parseTopicPath (topic : String) : Except AdminError (List String) :=
  match parseTopic topic with
  | .error e => .error e
  | .ok (scheme, tenant, ns, name) =>
    .ok [scheme, encodeSegment tenant, encodeSegment ns, encodeSegment name]

/-- "Splits a `tenant/namespace` string into its two parts." -/
def splitNamespace (ns : String) : Except AdminError (String × String) :=
  match splitn 2 '/' ns with
  | [tenant, name] =>
    if tenant.isEmpty || name.isEmpty || name.toList.contains '/' then
      .error (.InvalidTopic s!"expected tenant/namespace, got: {ns}")
    else .ok (tenant, name)
  | _ => .error (.InvalidTopic s!"expected tenant/namespace, got: {ns}")

/-- `AdminClient::url`: "Builds an `/admin/v2`-rooted URL from already-encoded path segments." -/
def url (adminUrl : String) (segments : List String) : String :=
  segments.foldl (fun url segment => url ++ "/" ++ segment) (adminUrl ++ "/admin/v2")

def topicUrl (adminUrl topic : String) (extra : List String) : Except AdminError String :=
  match parseTopicPath topic with
  | .error e => .error e
  | .ok segments => .ok (url adminUrl (segments ++ extra))

def subUrl (adminUrl topic subscription : String) (extra : List String) : Except AdminError String :=
  topicUrl adminUrl topic ("subscription" :: encodeSegment subscription :: extra)

def nsUrl (adminUrl domain ns : String) (extra : List String) : Except AdminError String :=
  match splitNamespace ns with
  | .error e => .error e
  | .ok (tenant, name) => .ok (url adminUrl (domain :: encodeSegment tenant :: encodeSegment name :: extra))

/-- The URL that `delete_subscription` sends its DELETE to; the HTTP client adds the query. -/
def deleteSubscription (adminUrl topic subscription : String) : Except AdminError String :=
  subUrl adminUrl topic subscription []

/-! ## An escaped name -/

/-- An unreserved byte is a character of its own, and the parser keeps it. -/
theorem unreserved_below : ∀ n < 256, isUnreserved (UInt8.ofNat n) = true →
    String.utf8EncodeChar (Char.ofNat n) = [UInt8.ofNat n] ∧ Char.ofNat n ≠ '%' ∧
      isPlain (Char.ofNat n) = true := by
  decide +kernel

theorem unreserved {b : UInt8} (h : isUnreserved b = true) :
    String.utf8EncodeChar (Char.ofNat b.toNat) = [b] ∧ Char.ofNat b.toNat ≠ '%' ∧
      isPlain (Char.ofNat b.toNat) = true := by
  have hb := unreserved_below b.toNat b.toNat_lt
  rw [UInt8.ofNat_toNat] at hb
  exact hb h

theorem encodeByte_plain (b : UInt8) : Plain (encodeByte b) := by
  unfold encodeByte
  split
  next hb =>
    intro c hc
    rw [List.mem_singleton.mp hc]
    exact (unreserved hb).2.2
  next => exact percentEncode_plain b

/-- An escaped byte is read back. -/
theorem percentDecode_encodeByte (b : UInt8) (rest : List Char) :
    percentDecode (encodeByte b ++ rest) = b :: percentDecode rest := by
  unfold encodeByte
  split
  next hb =>
    rw [List.singleton_append, percentDecode_cons (unreserved hb).2.1, (unreserved hb).1]
    rfl
  next => exact percentDecode_percentEncode b rest

theorem percentDecode_flatMap (bs : List UInt8) : percentDecode (bs.flatMap encodeByte) = bs := by
  induction bs with
  | nil => rfl
  | cons b bs ih => rw [List.flatMap_cons, percentDecode_encodeByte, ih]

theorem escape_eq (name : String) : escape name = (bytes name).flatMap encodeByte := by
  unfold escape encodeSegment
  rw [String.toList_ofList]

/-- **An escaped name decodes to the name.** -/
theorem percentDecode_escape (name : String) : percentDecode (escape name) = bytes name := by
  rw [escape_eq, percentDecode_flatMap]

/-- **The parser finds nothing in it** that would end the segment. -/
theorem escape_plain (name : String) : Plain (escape name) := by
  intro c hc
  rw [escape_eq] at hc
  obtain ⟨b, -, hc⟩ := List.mem_flatMap.mp hc
  exact encodeByte_plain b c hc

theorem bytes_inj {s t : String} (h : bytes s = bytes t) : s = t := by
  apply String.toByteArray_inj.mp
  exact ByteArray.ext (Array.toList_inj.mp h)

/-- Only a dot is escaped as a dot segment. -/
theorem escape_kept_iff (name : String) : Kept (escape name) ↔ name ≠ "." ∧ name ≠ ".." := by
  constructor
  · intro h
    constructor
    · rintro rfl
      exact absurd h.1 (by decide)
    · rintro rfl
      exact absurd h.2 (by decide)
  · intro h
    constructor
    · cases hdot : isSingleDot (escape name) with
      | false => rfl
      | true =>
        have hbytes := percentDecode_of_isSingleDot hdot
        rw [percentDecode_escape] at hbytes
        exact absurd (bytes_inj (hbytes.trans (by decide : [0x2E] = bytes "."))) h.1
    · cases hdots : isDoubleDot (escape name) with
      | false => rfl
      | true =>
        have hbytes := percentDecode_of_isDoubleDot hdots
        rw [percentDecode_escape] at hbytes
        exact absurd (bytes_inj (hbytes.trans (by decide : [0x2E, 0x2E] = bytes ".."))) h.2

/-! ## The text of a request URL -/

/-- The URL without any segment. -/
def base (adminUrl : String) : List Char :=
  adminUrl.toList ++ '/' :: 'a' :: ['d', 'm', 'i', 'n'] ++ '/' :: ['v', '2']

theorem toList_foldl (segments : List String) (front : String) :
    (segments.foldl (fun url segment => url ++ "/" ++ segment) front).toList =
      front.toList ++ render (segments.map String.toList) := by
  induction segments generalizing front with
  | nil =>
    show front.toList = front.toList ++ []
    rw [List.append_nil]
  | cons s segments ih =>
    rw [List.foldl_cons, ih, String.toList_append, String.toList_append, List.append_assoc,
      List.append_assoc]
    rfl

theorem toList_url (adminUrl : String) (segments : List String) :
    (url adminUrl segments).toList = base adminUrl ++ render (segments.map String.toList) := by
  have hprefix : "/admin/v2".toList = '/' :: 'a' :: ['d', 'm', 'i', 'n'] ++ '/' :: ['v', '2'] := by
    decide
  unfold url base
  rw [toList_foldl, String.toList_append, hprefix]
  simp only [List.append_assoc]

theorem toList_url_nil (adminUrl : String) : (url adminUrl []).toList = base adminUrl := by
  rw [toList_url]
  exact List.append_nil _

theorem toList_url_names (adminUrl : String) (names : List String) :
    (url adminUrl (names.map encodeSegment)).toList =
      base adminUrl ++ render (names.map escape) := by
  rw [toList_url, List.map_map]
  rfl

theorem escapes_plain (names : List String) : ∀ s ∈ names.map escape, Plain s := by
  intro s hs
  obtain ⟨name, -, rfl⟩ := List.mem_map.mp hs
  exact escape_plain name

/-- A base URL either keeps what is appended to its path, or has a query or fragment that takes it. -/
theorem base_continues_or_absorbs (adminUrl : String) :
    Continues (base adminUrl) ['v', '2'] ∨ Absorbs (base adminUrl) := by
  have hall : ('a' :: ['d', 'm', 'i', 'n']).all (fun c => decide (0x20 < c.toNat)) = true := by decide
  have hadmin : Visible ('a' :: ['d', 'm', 'i', 'n']) := fun c hc =>
    of_decide_eq_true (List.all_eq_true.mp hall c hc)
  have hv2 : Plain ['v', '2'] := List.all_eq_true.mp (by decide)
  exact continues_or_absorbs (by decide) hadmin hv2

/-! ## Requests address what they name -/

/-- The parser reads the base of the request URL, and behind it one segment for each name, which
decodes to the name. -/
def Addresses (adminUrl : String) (names : List String) : Prop :=
  ∃ front request segments,
    parse (url adminUrl []).toList = some front ∧
      parse (url adminUrl (names.map encodeSegment)).toList = some request ∧
      request.scheme = front.scheme ∧ request.authority = front.authority ∧
      request.path = front.path ++ segments ∧ segments.map percentDecode = names.map bytes ∧
      request.tail = []

/-- The base is a URL without a query or fragment. -/
def BaseUrl (adminUrl : String) : Prop :=
  ∃ front, parse (url adminUrl []).toList = some front ∧ front.tail = []

theorem continues_of_tail {adminUrl : String} (names : List String) {u : Parsed}
    (hparse : parse (url adminUrl (names.map encodeSegment)).toList = some u) (htail : u.tail = []) :
    Continues (base adminUrl) ['v', '2'] := by
  rcases base_continues_or_absorbs adminUrl with h | h
  · exact h
  · rw [toList_url_names] at hparse
    exact absurd htail (h _ (escapes_plain names) u hparse)

theorem kept_last : Kept ['v', '2'] := by decide

/-- **A dot segment is missed**: the path has as many segments as there are names only if none of them
is a dot segment, or if the last is `.` and comes out empty. -/
theorem noDots_of_path {path segments : List (List Char)} {names : List String}
    (hpath : close path ['v', '2'] (names.map escape) = close path ['v', '2'] [] ++ segments)
    (hdecode : segments.map percentDecode = names.map bytes) :
    ∀ n ∈ names, n ≠ "." ∧ n ≠ ".." := by
  have hnil : close path ['v', '2'] [] = path ++ [['v', '2']] := commit_of_kept kept_last false
  have hcount : segments.length = names.length := by
    have h := congrArg List.length hdecode
    rwa [List.length_map, List.length_map] at h
  have hlength : (close path ['v', '2'] (names.map escape)).length =
      path.length + 1 + (names.map escape).length := by
    rw [hpath, hnil, List.length_append, List.length_append, List.length_singleton, hcount,
      List.length_map]
  rcases close_of_length (Or.inr kept_last) hlength with hall | ⟨front, last, hsplit, hdot, hclose⟩
  · intro n hn
    exact (escape_kept_iff n).mp
      (hall _ (List.mem_cons_of_mem _ (List.mem_map_of_mem hn)))
  · -- the names spell the path twice: as it came out, and as it was written
    rw [hpath, hnil, List.append_assoc, List.append_assoc] at hclose
    have hcame := congrArg (List.map percentDecode) (List.append_cancel_left hclose)
    have hwritten := congrArg (List.map percentDecode) hsplit
    rw [List.map_append, List.map_append, hdecode] at hcame
    rw [List.map_cons, List.map_map, List.map_append] at hwritten
    have hnames : List.map (percentDecode ∘ escape) names = names.map bytes :=
      List.map_congr_left fun n _ => percentDecode_escape n
    rw [hnames] at hwritten
    have hends := List.append_cancel_left (hcame.symm.trans hwritten)
    rw [List.map_singleton, List.map_singleton, percentDecode_of_isSingleDot hdot] at hends
    cases hends

/-- **Which requests address what they name**: those with a proper base and no name that is a dot
segment. -/
theorem addresses_iff_noDots (adminUrl : String) (names : List String) :
    Addresses adminUrl names ↔ BaseUrl adminUrl ∧ ∀ n ∈ names, n ≠ "." ∧ n ≠ ".." := by
  constructor
  · rintro ⟨front, request, segments, hfront, hrequest, -, -, hpath, hdecode, htail⟩
    obtain ⟨scheme, authority, path, hcontinues⟩ := continues_of_tail names hrequest htail
    rw [toList_url_nil] at hfront
    rw [toList_url_names, hcontinues _ (escapes_plain names)] at hrequest
    have hnil := hcontinues [] (fun s hs => absurd hs List.not_mem_nil)
    rw [show base adminUrl ++ render [] = base adminUrl from List.append_nil _, hfront] at hnil
    cases hrequest
    cases hnil
    exact ⟨⟨_, (toList_url_nil adminUrl).symm ▸ hfront, rfl⟩, noDots_of_path hpath hdecode⟩
  · rintro ⟨⟨front, hfront, htail⟩, hnames⟩
    obtain ⟨scheme, authority, path, hcontinues⟩ := continues_of_tail [] hfront htail
    have hkept : ∀ s ∈ names.map escape, Kept s := by
      intro s hs
      obtain ⟨n, hn, rfl⟩ := List.mem_map.mp hs
      exact (escape_kept_iff n).mpr (hnames n hn)
    have hnil := hcontinues [] (fun s hs => absurd hs List.not_mem_nil)
    rw [show base adminUrl ++ render [] = base adminUrl from List.append_nil _,
      ← toList_url_nil] at hnil
    have hrequest := hcontinues _ (escapes_plain names)
    rw [← toList_url_names] at hrequest
    refine ⟨_, _, names.map escape, hnil, hrequest, rfl, rfl, ?_, ?_, rfl⟩
    · show close path ['v', '2'] (names.map escape) = close path ['v', '2'] [] ++ _
      rw [close_of_kept kept_last hkept]
      show _ = commit path ['v', '2'] false ++ _
      rw [commit_of_kept kept_last, List.append_assoc]
      rfl
    · rw [List.map_map]
      exact List.map_congr_left fun n _ => percentDecode_escape n

/-- Deleting the subscription `..` of a topic sends the DELETE to the path of the topic. -/
theorem subscription_of_dots :
    (deleteSubscription "http://localhost:8080" "persistent://public/default/t" "..").toOption.bind
        (fun url => (parse url.toList).map (·.path)) =
      some (["admin", "v2", "persistent", "public", "default", "t", ""].map String.toList) ∧
    ¬ Addresses "http://localhost:8080"
        ["persistent", "public", "default", "t", "subscription", ".."] := by
  refine ⟨by decide +kernel, ?_⟩
  rintro ⟨front, request, segments, hfront, hrequest, -, -, hpath, hdecode, -⟩
  have hlong := congrArg List.length hpath
  have hcount := congrArg List.length hdecode
  have hshort : (parse (url "http://localhost:8080"
      (["persistent", "public", "default", "t", "subscription", ".."].map encodeSegment)).toList).map
        (·.path.length) = some 7 := by decide +kernel
  have hbase : (parse (url "http://localhost:8080" []).toList).map (·.path.length) = some 2 := by
    decide +kernel
  rw [hrequest] at hshort
  rw [hfront] at hbase
  have hseven : request.path.length = 7 := Option.some.inj hshort
  have htwo : front.path.length = 2 := Option.some.inj hbase
  rw [List.length_append] at hlong
  rw [List.length_map] at hcount
  simp only [List.length_map, List.length_cons, List.length_nil] at hcount
  omega

/-! ## The builders name what they are given -/

theorem encode_persistent : encodeSegment "persistent" = "persistent" := by decide

theorem encode_nonPersistent : encodeSegment "non-persistent" = "non-persistent" := by decide

theorem encode_scheme (topic : String) :
    encodeSegment (splitScheme topic).1 = (splitScheme topic).1 := by
  unfold splitScheme
  split
  next => exact encode_persistent
  next =>
    split
    next => exact encode_nonPersistent
    next => exact encode_persistent

theorem encode_subscription : encodeSegment "subscription" = "subscription" := by decide

/-- **A topic's URL** names the parts of the topic, and what is asked of it. -/
theorem topicUrl_names {adminUrl topic u : String} (extra : List String)
    (h : topicUrl adminUrl topic (extra.map encodeSegment) = .ok u) :
    ∃ scheme tenant ns name, parseTopic topic = .ok (scheme, tenant, ns, name) ∧
      u = url adminUrl ((scheme :: tenant :: ns :: name :: extra).map encodeSegment) := by
  unfold topicUrl parseTopicPath at h
  cases hparse : parseTopic topic with
  | error e =>
    rw [hparse] at h
    cases h
  | ok parts =>
    obtain ⟨scheme, tenant, ns, name⟩ := parts
    rw [hparse] at h
    have hscheme : encodeSegment scheme = scheme := by
      unfold parseTopic at hparse
      split at hparse
      · cases hparse
        exact encode_scheme topic
      · cases hparse
    refine ⟨scheme, tenant, ns, name, rfl, ?_⟩
    rw [List.map_cons, hscheme]
    exact (Except.ok.inj h).symm

/-- **A subscription's URL** names the topic's parts and the subscription. -/
theorem deleteSubscription_names {adminUrl topic subscription u : String}
    (h : deleteSubscription adminUrl topic subscription = .ok u) :
    ∃ scheme tenant ns name, parseTopic topic = .ok (scheme, tenant, ns, name) ∧
      u = url adminUrl
        ([scheme, tenant, ns, name, "subscription", subscription].map encodeSegment) := by
  unfold deleteSubscription subUrl at h
  rw [← encode_subscription] at h
  exact topicUrl_names ["subscription", subscription] h

theorem nsUrl_names {adminUrl domain ns u : String} {extra : List String}
    (hdomain : encodeSegment domain = domain)
    (h : nsUrl adminUrl domain ns (extra.map encodeSegment) = .ok u) :
    ∃ tenant name, splitNamespace ns = .ok (tenant, name) ∧
      u = url adminUrl ((domain :: tenant :: name :: extra).map encodeSegment) := by
  unfold nsUrl at h
  cases hsplit : splitNamespace ns with
  | error e =>
    rw [hsplit] at h
    cases h
  | ok parts =>
    obtain ⟨tenant, name⟩ := parts
    rw [hsplit] at h
    refine ⟨tenant, name, rfl, ?_⟩
    rw [List.map_cons, hdomain]
    exact (Except.ok.inj h).symm

end PulsarClient.Admin

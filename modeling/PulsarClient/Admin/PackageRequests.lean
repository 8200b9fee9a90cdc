/-
  PACKAGES: what is uploaded under a name is downloaded under it.

  A package is named by a text, and stored under a path.  Each operation of `Packages` parses the text
  and builds a URL of it, and the server takes the URL apart again.

  1. THE PROGRAM — `packages_url`, `versioned`, and the operations.

  2. `Resource` — what a request is about, and the names in its path; `operations_about` has a resource for
     each operation.

  3. `requests_apart` — a server reads the names of the resource out of the URL, so that two requests meet
     exactly if they are about one resource; as long as no name is a dot segment.
-/
import PulsarClient.Admin.Calls
import PulsarClient.Admin.Packages

namespace PulsarClient.Admin.Calls.Packages

open Redirects OAuth2

/-! ## The program -/

/-- `packages_url` -/
def packagesUrl (adminUrl : String) (segments : List String) : String :=
  segments.foldl (fun url segment => url ++ "/" ++ segment) (adminUrl ++ "/admin/v3/packages")

/-- `versioned` -/
def versioned (adminUrl : String) (name : PackageName) (extra : List String) : String :=
  packagesUrl adminUrl (name.segments ++ encodeSegment name.version :: extra)

section

variable (c : AdminClient) (servers : Servers) (debug : String → String)

/-- `list_packages` -/
def listPackages (fromStr : String → Except String (List String)) (packageType : PackageType)
    (ns : String) : Except Error (List String) := do
  let (tenant, ns) ← ofTopic (splitNamespace ns)
  c.sendJson servers fromStr .GET
    (packagesUrl c.adminUrl [packageType.asStr, encodeSegment tenant, encodeSegment ns]) []
    (none : Option Unit)

/-- `list_package_versions` -/
def listPackageVersions (fromStr : String → Except String (List String)) (packageName : String) :
    Except Error (List String) := do
  let name ← ofTopic (PackageName.parse debug packageName)
  c.sendJson servers fromStr .GET (packagesUrl c.adminUrl name.segments) [] (none : Option Unit)

/-- `get_metadata`, the metadata of type `M`. -/
def getMetadata {M : Type} (fromStr : String → Except String M) (packageName : String) :
    Except Error M := do
  let name ← ofTopic (PackageName.parse debug packageName)
  c.sendJson servers fromStr .GET (versioned c.adminUrl name ["metadata"]) [] (none : Option Unit)

/-- `update_metadata` -/
def updateMetadata {M : Type} (packageName : String) (metadata : M) : Except Error Unit := do
  let name ← ofTopic (PackageName.parse debug packageName)
  c.sendEmpty servers .PUT (versioned c.adminUrl name ["metadata"]) [] (some metadata)

/-- `upload`; `toString` is `serde_json::to_string`. -/
def upload {M : Type} (toString : M → Except String String) (packageName : String) (metadata : M)
    (fileName : String) (contents : Bytes) : Except Error Unit := do
  let name ← ofTopic (PackageName.parse debug packageName)
  match toString metadata with
  | .error e => .error (.Custom ("could not serialize PackageMetadata: " ++ e))
  | .ok json =>
    c.sendMultipart servers .POST (versioned c.adminUrl name []) [] [("metadata", json)] []
      (some ("file", fileName, contents))

/-- `download` -/
def download (packageName : String) : Except Error Bytes := do
  let name ← ofTopic (PackageName.parse debug packageName)
  c.sendBytes servers .GET (versioned c.adminUrl name []) []

/-- `delete` -/
def delete (packageName : String) : Except Error Unit := do
  let name ← ofTopic (PackageName.parse debug packageName)
  c.sendEmpty servers .DELETE (versioned c.adminUrl name []) [] (none : Option Unit)

end

/-! ## What a request is about -/

inductive Resource where
  | packages (packageType : PackageType) (tenant ns : String)
  | versions (packageType : PackageType) (tenant ns name : String)
  | version (p : PackageName)
  | metadata (p : PackageName)
  deriving DecidableEq, Repr

namespace Resource

/-- The names behind `packages`, as they are. -/
def names : Resource → List String
  | packages packageType tenant ns => [packageType.asStr, tenant, ns]
  | versions packageType tenant ns name => [packageType.asStr, tenant, ns, name]
  | version p => [p.packageType.asStr, p.tenant, p.ns, p.name, p.version]
  | metadata p => [p.packageType.asStr, p.tenant, p.ns, p.name, p.version, "metadata"]

/-- The URL that is asked for. -/
def url (adminUrl : String) : Resource → String
  | packages packageType tenant ns =>
    packagesUrl adminUrl [packageType.asStr, encodeSegment tenant, encodeSegment ns]
  | versions packageType tenant ns name =>
    packagesUrl adminUrl (PackageName.segments ⟨packageType, tenant, ns, name, "latest"⟩)
  | version p => versioned adminUrl p []
  | metadata p => versioned adminUrl p ["metadata"]

theorem encode_type (packageType : PackageType) :
    encodeSegment packageType.asStr = packageType.asStr := by
  cases packageType <;> decide

theorem encode_metadata : encodeSegment "metadata" = "metadata" := by decide

/-- **Every name is escaped**, where it is not written as it stands. -/
theorem url_eq (adminUrl : String) (r : Resource) :
    r.url adminUrl = packagesUrl adminUrl (r.names.map encodeSegment) := by
  cases r <;>
    simp only [url, names, versioned, PackageName.segments, List.map_cons, List.map_nil, encode_type,
      encode_metadata, List.cons_append, List.nil_append]

theorem asStr_inj {t t' : PackageType} (h : t.asStr = t'.asStr) : t = t' := by
  revert h
  cases t <;> cases t' <;> decide

/-- Resources of different kinds have paths of different lengths. -/
theorem names_inj {r r' : Resource} (h : r.names = r'.names) : r = r' := by
  cases r <;> cases r' <;> simp only [names, List.cons.injEq, reduceCtorEq, and_false, and_true] at h
  · obtain ⟨htype, rfl, rfl⟩ := h
    rw [asStr_inj htype]
  · obtain ⟨htype, rfl, rfl, rfl⟩ := h
    rw [asStr_inj htype]
  · obtain ⟨htype, htenant, hns, hname, hversion⟩ := h
    exact congrArg version (PackageName.ext (asStr_inj htype) htenant hns hname hversion)
  · obtain ⟨htype, htenant, hns, hname, hversion⟩ := h
    exact congrArg metadata (PackageName.ext (asStr_inj htype) htenant hns hname hversion)

/-- No name is one that the parser of URLs takes for a step in the path. -/
def Undotted (r : Resource) : Prop := ∀ n ∈ r.names, n ≠ "." ∧ n ≠ ".."

instance (r : Resource) : Decidable r.Undotted := inferInstanceAs (Decidable (∀ n ∈ r.names, _))

end Resource

/-! ## What an operation is about -/

section

variable {c : AdminClient} {servers : Servers} {debug : String → String} {packageName : String}
  {p : PackageName}

/-- **Each operation is a call for its resource.** -/
theorem operations_about (h : PackageName.parse debug packageName = .ok p) :
    (∀ packageType {ns tenant name : String}, splitNamespace ns = .ok (tenant, name) → ∀ fromStr,
      listPackages c servers fromStr packageType ns =
        c.sendJson servers fromStr .GET ((Resource.packages packageType tenant name).url c.adminUrl) []
          (none : Option Unit)) ∧
    (∀ fromStr, listPackageVersions c servers debug fromStr packageName =
      c.sendJson servers fromStr .GET
        ((Resource.versions p.packageType p.tenant p.ns p.name).url c.adminUrl) [] (none : Option Unit)) ∧
    (∀ (M : Type) (fromStr : String → Except String M),
      getMetadata c servers debug fromStr packageName =
        c.sendJson servers fromStr .GET ((Resource.metadata p).url c.adminUrl) [] (none : Option Unit)) ∧
    (∀ (M : Type) (metadata : M), updateMetadata c servers debug packageName metadata =
      c.sendEmpty servers .PUT ((Resource.metadata p).url c.adminUrl) [] (some metadata)) ∧
    (∀ (M : Type) (toString : M → Except String String) (metadata : M) (json fileName : String)
      (contents : Bytes), toString metadata = .ok json →
      upload c servers debug toString packageName metadata fileName contents =
        c.sendMultipart servers .POST ((Resource.version p).url c.adminUrl) [] [("metadata", json)] []
          (some ("file", fileName, contents))) ∧
    download c servers debug packageName =
      c.sendBytes servers .GET ((Resource.version p).url c.adminUrl) [] ∧
    delete c servers debug packageName =
      c.sendEmpty servers .DELETE ((Resource.version p).url c.adminUrl) [] (none : Option Unit) := by
  unfold listPackages listPackageVersions getMetadata updateMetadata upload download delete
  rw [h]
  refine ⟨fun _ ns tenant name hns _ => ?_, fun _ => rfl, fun _ _ => rfl, fun _ _ => rfl,
    fun M toString metadata json _ _ hjson => ?_, rfl, rfl⟩
  · rw [hns]
    rfl
  · show (match toString metadata with | .error e => _ | .ok json => _) = _
    rw [hjson]
    rfl

end

/-! ## What a server reads -/

/-- The URL without any name. -/
def base (adminUrl : String) : List Char :=
  adminUrl.toList ++ '/' :: 'a' :: ['d', 'm', 'i', 'n', '/', 'v', '3'] ++
    '/' :: ['p', 'a', 'c', 'k', 'a', 'g', 'e', 's']

/-- The base is a URL without a query or fragment. -/
def BaseUrl (adminUrl : String) : Prop :=
  ∃ front, Url.parse (base adminUrl) = some front ∧ front.tail = []

theorem toList_packagesUrl (adminUrl : String) (segments : List String) :
    (packagesUrl adminUrl segments).toList =
      base adminUrl ++ Url.render (segments.map String.toList) := by
  have hpath : "/admin/v3/packages".toList =
      '/' :: 'a' :: ['d', 'm', 'i', 'n', '/', 'v', '3'] ++
        '/' :: ['p', 'a', 'c', 'k', 'a', 'g', 'e', 's'] := by decide
  unfold packagesUrl base
  rw [toList_foldl, String.toList_append, hpath]
  simp only [List.append_assoc]

theorem toList_url (adminUrl : String) (r : Resource) :
    (r.url adminUrl).toList = base adminUrl ++ Url.render (r.names.map escape) := by
  rw [Resource.url_eq, toList_packagesUrl, List.map_map]
  rfl

theorem kept_last : Url.Kept ['p', 'a', 'c', 'k', 'a', 'g', 'e', 's'] := by decide

theorem continues_of_baseUrl {adminUrl : String} (h : BaseUrl adminUrl) :
    Url.Continues (base adminUrl) ['p', 'a', 'c', 'k', 'a', 'g', 'e', 's'] := by
  have hall : ('a' :: ['d', 'm', 'i', 'n', '/', 'v', '3']).all (fun c => decide (0x20 < c.toNat)) =
      true := by decide
  have hvisible : Url.Visible ('a' :: ['d', 'm', 'i', 'n', '/', 'v', '3']) := fun c hc =>
    of_decide_eq_true (List.all_eq_true.mp hall c hc)
  have hplain : Url.Plain ['p', 'a', 'c', 'k', 'a', 'g', 'e', 's'] := List.all_eq_true.mp (by decide)
  rcases Url.continues_or_absorbs (by decide) hvisible hplain with hcontinues | habsorbs
  · exact hcontinues
  · obtain ⟨front, hfront, htail⟩ := h
    have hnone := habsorbs [] (fun s hs => absurd hs List.not_mem_nil) front
      (by rw [show Url.render [] = [] from rfl, List.append_nil]; exact hfront)
    exact absurd htail hnone

/-- **Behind the base**, a URL has one segment for each name. -/
theorem parse_url {adminUrl : String} (hbase : BaseUrl adminUrl) :
    ∃ u, Url.parse (base adminUrl) = some u ∧ ∀ r : Resource, r.Undotted →
      Url.parse (r.url adminUrl).toList = some { u with path := u.path ++ r.names.map escape } := by
  obtain ⟨scheme, authority, path, hcontinues⟩ := continues_of_baseUrl hbase
  have hfront := hcontinues [] (fun s hs => absurd hs List.not_mem_nil)
  rw [show Url.render [] = [] from rfl, List.append_nil] at hfront
  refine ⟨_, hfront, fun r hr => ?_⟩
  have hkept : ∀ s ∈ r.names.map escape, Url.Kept s := by
    intro s hs
    obtain ⟨n, hn, rfl⟩ := List.mem_map.mp hs
    exact (escape_kept_iff n).mpr (hr n hn)
  rw [toList_url, hcontinues _ (escapes_plain r.names), Url.close_of_kept kept_last hkept,
    Url.close_of_kept kept_last (fun s hs => absurd hs List.not_mem_nil), List.append_assoc]
  rfl

theorem escape_inj {s t : String} (h : escape s = escape t) : s = t := by
  apply bytes_inj
  rw [← percentDecode_escape, h, percentDecode_escape]

/-- **Two requests meet exactly if they are about one resource.**  On a base without a query or fragment,
    and with no name that is a dot segment, a server finds behind the base one segment for each name,
    which decodes to the name; so the requests for two resources reach it under one path only if they are
    one. -/
theorem requests_apart {adminUrl : String} (hbase : BaseUrl adminUrl) (r r' : Resource)
    (hr : r.Undotted) (hr' : r'.Undotted) :
    (∃ u segments, Url.parse (base adminUrl) = some u ∧
      Url.parse (r.url adminUrl).toList = some { u with path := u.path ++ segments } ∧
      segments.map Url.percentDecode = r.names.map bytes) ∧
    (Url.parse (r.url adminUrl).toList = Url.parse (r'.url adminUrl).toList ↔ r = r') := by
  obtain ⟨u, hu, hparse⟩ := parse_url hbase
  refine ⟨⟨u, r.names.map escape, hu, hparse r hr, ?_⟩, fun h => ?_, fun h => by rw [h]⟩
  · rw [List.map_map]
    exact List.map_congr_left fun n _ => percentDecode_escape n
  · rw [hparse r hr, hparse r' hr'] at h
    have hpath := congrArg Url.Parsed.path (Option.some.inj h)
    have hescaped := List.append_cancel_left hpath
    exact Resource.names_inj (List.map_injective_iff.mpr (fun _ _ => escape_inj) hescaped)

/-- A version that looks like a path is not taken for the metadata of another. -/
theorem requests_apart_nested :
    Url.parse ((Resource.version ⟨.Function, "t", "ns", "f", "v1/metadata"⟩).url
        "http://localhost:8080").toList ≠
      Url.parse ((Resource.metadata ⟨.Function, "t", "ns", "f", "v1"⟩).url
        "http://localhost:8080").toList := by
  have hbase : BaseUrl "http://localhost:8080" := ⟨_, by rfl, by rfl⟩
  intro h
  cases (requests_apart hbase (.version ⟨.Function, "t", "ns", "f", "v1/metadata"⟩)
    (.metadata ⟨.Function, "t", "ns", "f", "v1"⟩) (by decide) (by decide)).2.mp h

end PulsarClient.Admin.Calls.Packages

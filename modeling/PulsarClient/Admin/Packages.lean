/-
  PACKAGE NAMES — `PackageName::parse` (`src/admin/packages.rs`).

  Three separators are split off in a fixed order: the type at the first `://`, the version at the `@`s of
  what follows, and the path at its slashes.

  1. `PackageName.parse`, with its errors.  How Rust prints a string for debugging is a parameter: only
     the error texts depend on it.

  2. `PackageName.Spells` — the grammar, and `PackageName.parse_eq_ok_iff`: one lemma for each split.

  3. `PackageName.parse_grammar` — a parsed name has a version without `@`, so that rendering it spells it.
-/
import PulsarClient.Admin.TopicNames

namespace PulsarClient.Admin

open Split

/-! ## The program -/

inductive PackageType
  | Function
  | Sink
  | Source
  deriving DecidableEq, Repr

def PackageType.asStr : PackageType → String
  | .Function => "function"
  | .Sink => "sink"
  | .Source => "source"

@[ext]
structure PackageName where
  packageType : PackageType
  tenant : String
  ns : String
  name : String
  version : String
  deriving DecidableEq, Repr

/-- `str::to_ascii_lowercase` -/
def toAsciiLowercase (s : String) : String := String.ofList (s.toList.map Char.toLower)

/-- `str::split_once` -/
def splitOnce (s pattern : String) : Option (String × String) :=
  (Split.splitOnce pattern.toList s.toList).map fun parts =>
    (String.ofList parts.1, String.ofList parts.2)

/-- `str::split` -/
def split (s : String) (sep : Char) : List String := (s.toList.splitOn sep).map String.ofList

/-- "Java compares the type case-insensitively" -/
def PackageType.ofScheme (scheme : String) : Option PackageType :=
  match toAsciiLowercase scheme with
  | "function" => some .Function
  | "sink" => some .Sink
  | "source" => some .Source
  | _ => none

/-- "Exactly one version separator": what the parts between the `@`s say of the version. -/
def packageVersion : List String → Option String
  | _ :: _ :: _ :: _ => none
  | [_, v] => some (if v.isEmpty then "latest" else v)
  | _ => some "latest"

namespace PackageName

def invalid (debug : String → String) (packageName why : String) : AdminError :=
  .InvalidTopic s!"invalid package name {debug packageName}: {why}"

/-- `PackageName::parse` -/
def parse (debug : String → String) (packageName : String) : Except AdminError PackageName :=
  match splitOnce packageName "://" with
  | none =>
    .error (invalid debug packageName
      "expected \x7btype\x7d://\x7btenant\x7d/\x7bnamespace\x7d/\x7bname\x7d")
  | some (scheme, rest) =>
    match PackageType.ofScheme scheme with
    | none =>
      .error (invalid debug packageName s!"unknown package type {debug (toAsciiLowercase scheme)}")
    | some packageType =>
      match packageVersion (split rest '@') with
      | none => .error (invalid debug packageName "expected at most one '@' before the version")
      | some version =>
        match split ((split rest '@').headD "") '/' with
        | [tenant, ns, name] =>
          if tenant.isEmpty || ns.isEmpty || name.isEmpty then
            .error (invalid debug packageName "expected exactly tenant/namespace/name")
          else .ok ⟨packageType, tenant, ns, name, version⟩
        | _ => .error (invalid debug packageName "expected exactly tenant/namespace/name")

/-- "The REST path segments this name maps to, without the version." -/
def segments (p : PackageName) : List String :=
  [p.packageType.asStr, encodeSegment p.tenant, encodeSegment p.ns, encodeSegment p.name]

/-! ## The grammar -/

/-- `type://tenant/namespace/name@version` -/
def render (p : PackageName) : String :=
  p.packageType.asStr ++ "://" ++ path p.tenant p.ns p.name ++ "@" ++ p.version

/-- A part of the path. -/
def Part (s : String) : Prop := Segment s ∧ '@' ∉ s.toList

/-- What may stand behind the path: nothing or a bare `@` for the latest version, or the version. -/
def Versioned (suffix version : String) : Prop :=
  (suffix = "" ∨ suffix = "@") ∧ version = "latest" ∨
    suffix = "@" ++ version ∧ version ≠ "" ∧ '@' ∉ version.toList

/-- The texts that spell the name. -/
def Spells (p : PackageName) (s : String) : Prop :=
  ∃ scheme suffix, s = scheme ++ "://" ++ path p.tenant p.ns p.name ++ suffix ∧
    toAsciiLowercase scheme = p.packageType.asStr ∧ Part p.tenant ∧ Part p.ns ∧ Part p.name ∧
    Versioned suffix p.version

end PackageName

/-! ## One lemma for each split -/

/-- **The parts of a text** are the only way to write it with the separator between parts without. -/
theorem split_eq_iff {s : String} {sep : Char} {parts : List String} :
    split s sep = parts ↔
      parts ≠ [] ∧ s.toList = [sep].intercalate (parts.map String.toList) ∧
        ∀ part ∈ parts, sep ∉ part.toList := by
  have hmap : split s sep = parts ↔ s.toList.splitOn sep = parts.map String.toList := by
    unfold split
    constructor
    · rintro rfl
      rw [List.map_map]
      exact (List.map_id'' (fun l => String.toList_ofList) _).symm
    · intro h
      rw [h, List.map_map]
      exact List.map_id'' (fun t => String.ofList_toList) _
  rw [hmap, splitOn_eq_iff]
  simp

theorem split_eq_singleton_iff {s : String} {sep : Char} {a : String} :
    split s sep = [a] ↔ s = a ∧ sep ∉ a.toList := by
  rw [split_eq_iff]
  simp [String.toList_inj]

theorem split_eq_pair_iff {s : String} {sep : Char} {a b : String} :
    split s sep = [a, b] ↔
      s = a ++ String.singleton sep ++ b ∧ sep ∉ a.toList ∧ sep ∉ b.toList := by
  rw [split_eq_iff, ← String.toList_inj]
  simp [List.intercalate]

theorem split_eq_three_iff {s : String} {sep : Char} {a b c : String} :
    split s sep = [a, b, c] ↔
      s = a ++ String.singleton sep ++ b ++ String.singleton sep ++ c ∧
        sep ∉ a.toList ∧ sep ∉ b.toList ∧ sep ∉ c.toList := by
  rw [split_eq_iff, ← String.toList_inj]
  simp [List.intercalate]

theorem splitOnce_append {front : String} (hfront : ':' ∉ front.toList) (back : String) :
    splitOnce (front ++ "://" ++ back) "://" = some (front, back) := by
  have hlist : (front ++ "://" ++ back).toList = front.toList ++ ("://".toList ++ back.toList) := by
    rw [String.toList_append, String.toList_append, List.append_assoc]
  have hsplit : Split.splitOnce "://".toList (front ++ "://" ++ back).toList =
      some (front.toList, back.toList) := by
    rw [hlist]
    exact Split.splitOnce_append hfront back.toList
  unfold splitOnce
  rw [hsplit, Option.map_some, String.ofList_toList, String.ofList_toList]

theorem append_of_splitOnce {s front back : String} (h : splitOnce s "://" = some (front, back)) :
    s = front ++ "://" ++ back := by
  unfold splitOnce at h
  obtain ⟨parts, hparts, hback⟩ := Option.map_eq_some_iff.mp h
  cases hback
  apply String.toList_inj.mp
  rw [Split.append_of_splitOnce hparts]
  simp only [String.toList_append, String.toList_ofList, List.append_assoc]

/-- No letter case has a colon in its type. -/
theorem noColon_of_lowercase {scheme : String} {t : PackageType}
    (h : toAsciiLowercase scheme = t.asStr) : ':' ∉ scheme.toList := by
  intro hmem
  have hlower : ':' ∈ (toAsciiLowercase scheme).toList := by
    unfold toAsciiLowercase
    rw [String.toList_ofList]
    exact List.mem_map.mpr ⟨':', hmem, rfl⟩
  rw [h] at hlower
  cases t with
  | Function => exact absurd hlower (by decide)
  | Sink => exact absurd hlower (by decide)
  | Source => exact absurd hlower (by decide)

theorem ofScheme_eq_some_iff {scheme : String} {t : PackageType} :
    PackageType.ofScheme scheme = some t ↔ toAsciiLowercase scheme = t.asStr := by
  unfold PackageType.ofScheme
  constructor
  · intro h
    split at h
    next heq =>
      cases h
      exact heq
    next heq =>
      cases h
      exact heq
    next heq =>
      cases h
      exact heq
    next => cases h
  · intro h
    rw [h]
    cases t with
    | Function => rfl
    | Sink => rfl
    | Source => rfl

/-- An escaped name is read back. -/
theorem encodeSegment_inj {s t : String} (h : encodeSegment s = encodeSegment t) : s = t := by
  have hbytes := percentDecode_escape s
  rw [escape, h, ← escape, percentDecode_escape] at hbytes
  exact bytes_inj hbytes.symm

open PackageName

/-- **The version** is what stands behind the one `@`. -/
theorem packageVersion_iff {rest pkg version : String} :
    packageVersion (split rest '@') = some version ∧ (split rest '@').headD "" = pkg ↔
      ∃ suffix, rest = pkg ++ suffix ∧ '@' ∉ pkg.toList ∧ Versioned suffix version := by
  constructor
  · rintro ⟨hversion, hpath⟩
    match hparts : split rest '@' with
    | [] => exact absurd hparts (split_eq_iff.not.mpr (fun h => h.1 rfl))
    | [a] =>
      rw [hparts] at hversion hpath
      obtain ⟨hrest, ha⟩ := split_eq_singleton_iff.mp hparts
      cases hversion
      subst hpath
      exact ⟨"", by rw [hrest, String.append_empty]; rfl, ha, Or.inl ⟨Or.inl rfl, rfl⟩⟩
    | [a, v] =>
      rw [hparts] at hversion hpath
      obtain ⟨hrest, ha, hv⟩ := split_eq_pair_iff.mp hparts
      subst hpath
      refine ⟨"@" ++ v, by rw [hrest, String.append_assoc]; rfl, ha, ?_⟩
      have hsome : (if v.isEmpty then "latest" else v) = version := Option.some.inj hversion
      by_cases hempty : v = ""
      · rw [hempty] at hsome
        left
        rw [hempty]
        exact ⟨Or.inr rfl, hsome.symm⟩
      · rw [if_neg (fun h => hempty (String.isEmpty_iff.mp h))] at hsome
        right
        rw [← hsome]
        exact ⟨rfl, hempty, hv⟩
    | _ :: _ :: _ :: _ =>
      rw [hparts] at hversion
      cases hversion
  · rintro ⟨suffix, hrest, hpkg, ⟨hlatest | hlatest, rfl⟩ | ⟨rfl, hversion, hat⟩⟩
    · have hsplit : split rest '@' = [pkg] := by
        rw [split_eq_singleton_iff, hrest, hlatest, String.append_empty]
        exact ⟨rfl, hpkg⟩
      rw [hsplit]
      exact ⟨rfl, rfl⟩
    · have hsplit : split rest '@' = [pkg, ""] := by
        rw [split_eq_pair_iff, hrest, hlatest, String.append_empty]
        exact ⟨rfl, hpkg, List.not_mem_nil⟩
      rw [hsplit]
      exact ⟨rfl, rfl⟩
    · have hsplit : split rest '@' = [pkg, version] := by
        rw [split_eq_pair_iff, hrest, ← String.append_assoc]
        exact ⟨rfl, hpkg, hat⟩
      rw [hsplit]
      refine ⟨?_, rfl⟩
      show some (if version.isEmpty then "latest" else version) = some version
      rw [if_neg (fun h => hversion (String.isEmpty_iff.mp h))]

/-! ## Reading a name -/

namespace PackageName

variable {debug : String → String} {s : String} {p : PackageName}

theorem at_notMem_path_iff {tenant ns name : String} :
    '@' ∉ (path tenant ns name).toList ↔
      '@' ∉ tenant.toList ∧ '@' ∉ ns.toList ∧ '@' ∉ name.toList := by
  have hslash : '@' ∉ "/".toList := by decide
  unfold path
  simp only [String.toList_append, List.mem_append, not_or]
  constructor
  · rintro ⟨⟨⟨⟨htenant, -⟩, hns⟩, -⟩, hname⟩
    exact ⟨htenant, hns, hname⟩
  · rintro ⟨htenant, hns, hname⟩
    exact ⟨⟨⟨⟨htenant, hslash⟩, hns⟩, hslash⟩, hname⟩

/-- Every spelling is read, -/
theorem parse_of_spells (h : p.Spells s) : parse debug s = .ok p := by
  obtain ⟨scheme, suffix, rfl, hscheme, htenant, hns, hname, hversioned⟩ := h
  have hpath : '@' ∉ (path p.tenant p.ns p.name).toList := by
    rw [at_notMem_path_iff]
    exact ⟨htenant.2, hns.2, hname.2⟩
  obtain ⟨hversion, hhead⟩ := packageVersion_iff.mpr ⟨suffix, rfl, hpath, hversioned⟩
  have hparts : split (path p.tenant p.ns p.name) '/' = [p.tenant, p.ns, p.name] :=
    split_eq_three_iff.mpr ⟨rfl, htenant.1.2, hns.1.2, hname.1.2⟩
  have hok : ¬ (p.tenant.isEmpty || p.ns.isEmpty || p.name.isEmpty) = true := by
    simp only [Bool.or_eq_true, not_or, String.isEmpty_iff]
    exact ⟨⟨htenant.1.1, hns.1.1⟩, hname.1.1⟩
  unfold parse
  rw [String.append_assoc, splitOnce_append (noColon_of_lowercase hscheme)]
  dsimp only
  rw [ofScheme_eq_some_iff.mpr hscheme]
  dsimp only
  rw [hversion]
  dsimp only
  rw [hhead, hparts]
  exact if_neg hok

/-- and what is read is spelled. -/
theorem spells_of_parse (h : parse debug s = .ok p) : p.Spells s := by
  unfold parse at h
  split at h
  next => cases h
  next scheme rest hsplit =>
    split at h
    next => cases h
    next t htype =>
      split at h
      next => cases h
      next version hversion =>
        split at h
        next tenant ns name hparts =>
          split at h
          next => cases h
          next hok =>
            cases h
            simp only [Bool.or_eq_true, not_or, String.isEmpty_iff] at hok
            obtain ⟨hpath, htenant, hns, hname⟩ := split_eq_three_iff.mp hparts
            obtain ⟨suffix, hrest, hat, hversioned⟩ := packageVersion_iff.mp ⟨hversion, hpath⟩
            have hats : '@' ∉ tenant.toList ∧ '@' ∉ ns.toList ∧ '@' ∉ name.toList :=
              at_notMem_path_iff.mp hat
            refine ⟨scheme, suffix, ?_, ofScheme_eq_some_iff.mp htype, ?_, ?_, ?_, hversioned⟩
            · rw [append_of_splitOnce hsplit, hrest, ← String.append_assoc]
              rfl
            · exact ⟨⟨hok.1.1, htenant⟩, hats.1⟩
            · exact ⟨⟨hok.1.2, hns⟩, hats.2.1⟩
            · exact ⟨⟨hok.2, hname⟩, hats.2.2⟩
        next => cases h

theorem parse_eq_ok_iff : parse debug s = .ok p ↔ p.Spells s :=
  ⟨spells_of_parse, parse_of_spells⟩

theorem asStr_lowercase (t : PackageType) : toAsciiLowercase t.asStr = t.asStr := by
  cases t with
  | Function => rfl
  | Sink => rfl
  | Source => rfl

/-- **A parsed name has a version** that can be written behind an `@`, also where it was not. -/
theorem Versioned.version {suffix version : String} (h : Versioned suffix version) :
    Versioned ("@" ++ version) version := by
  rcases h with ⟨-, rfl⟩ | ⟨-, hversion, hat⟩
  · exact Or.inr ⟨rfl, by decide, by decide⟩
  · exact Or.inr ⟨rfl, hversion, hat⟩

theorem Spells.render (h : p.Spells s) : p.Spells p.render := by
  obtain ⟨scheme, suffix, -, -, htenant, hns, hname, hversioned⟩ := h
  refine ⟨p.packageType.asStr, "@" ++ p.version, ?_, asStr_lowercase p.packageType, htenant, hns,
    hname, hversioned.version⟩
  rw [PackageName.render, ← String.append_assoc]

/-- **Package names parse as their grammar**, and a parsed name is rendered to a text that parses as it. -/
theorem parse_grammar (debug : String → String) (s : String) :
    (∀ p, parse debug s = .ok p ↔ p.Spells s) ∧
      ∀ p, parse debug s = .ok p → parse debug p.render = .ok p := by
  refine ⟨fun p => parse_eq_ok_iff, fun p h => ?_⟩
  exact parse_of_spells (spells_of_parse h).render

/-- A version may look like a path, and the type may be in any case. -/
theorem parse_nested :
    parse id (render ⟨.Sink, "t", "ns", "s", "a://b/c"⟩) = .ok ⟨.Sink, "t", "ns", "s", "a://b/c"⟩ :=
  (parse_grammar id "Sink://t/ns/s@a://b/c").2 ⟨.Sink, "t", "ns", "s", "a://b/c"⟩ (by rfl)

/-! ## What it is requested by -/

/-- **The path names the package**: two names with the same segments differ in their versions only. -/
theorem segments_inj {p q : PackageName} (h : p.segments = q.segments) :
    p.packageType = q.packageType ∧ p.tenant = q.tenant ∧ p.ns = q.ns ∧ p.name = q.name := by
  unfold segments at h
  simp only [List.cons.injEq, and_true] at h
  obtain ⟨htype, htenant, hns, hname⟩ := h
  have hcode : PackageType.ofScheme p.packageType.asStr =
      PackageType.ofScheme q.packageType.asStr := by rw [htype]
  rw [ofScheme_eq_some_iff.mpr (asStr_lowercase p.packageType),
    ofScheme_eq_some_iff.mpr (asStr_lowercase q.packageType)] at hcode
  exact ⟨Option.some.inj hcode, encodeSegment_inj htenant, encodeSegment_inj hns,
    encodeSegment_inj hname⟩

end PackageName

end PulsarClient.Admin

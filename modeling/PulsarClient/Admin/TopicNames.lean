/-
  TOPIC NAMES — `parse_topic` and `split_namespace` (`src/admin/mod.rs`).

  `parse_topic` strips one of two prefixes, of which one is the end of the other, and splits what is left
  at its first two slashes.

  1. `TopicName` — a name of the grammar: a tenant and a namespace without a slash, a local name that may
     have some, and none of the three empty.  `TopicName.Spells`: the texts that spell it.

  2. `parts_iff` — what the bounded split makes of a path.

  3. `not_prefixed` — a bare name that begins with `persistent://` would have an empty namespace.  This is
     why no text has two readings, and why stripping a prefix misreads no bare name.
-/
import PulsarClient.Admin.Paths
import PulsarClient.Lib.Split

namespace PulsarClient.Admin

open Split

/-! ## The grammar -/

/-- A part between slashes. -/
def Segment (s : String) : Prop := s ≠ "" ∧ '/' ∉ s.toList

/-- `tenant/namespace/name` -/
def path (tenant ns name : String) : String := tenant ++ "/" ++ ns ++ "/" ++ name

inductive Domain
  | persistent
  | nonPersistent
  deriving DecidableEq, Repr

def Domain.asStr : Domain → String
  | .persistent => "persistent"
  | .nonPersistent => "non-persistent"

@[ext]
structure TopicName where
  domain : Domain
  tenant : String
  ns : String
  name : String
  tenant_ok : Segment tenant
  ns_ok : Segment ns
  name_ne : name ≠ ""

namespace TopicName

def path (t : TopicName) : String := Admin.path t.tenant t.ns t.name

def render (t : TopicName) : String := t.domain.asStr ++ "://" ++ t.path

/-- With its prefix, or bare if it is persistent. -/
def Spells (t : TopicName) (topic : String) : Prop :=
  topic = t.render ∨ t.domain = .persistent ∧ topic = t.path

def parts (t : TopicName) : String × String × String × String :=
  (t.domain.asStr, t.tenant, t.ns, t.name)

end TopicName

/-! ## The bounded split -/

theorem splitnChars_cut {sep : Char} {front : List Char} (hfront : sep ∉ front) (back : List Char)
    (n : Nat) :
    splitnChars sep (n + 2) (front ++ sep :: back) = front :: splitnChars sep (n + 1) back := by
  rw [splitnChars, dropWhile_cut hfront, takeWhile_cut hfront]

theorem splitnChars_last {sep : Char} {s : List Char} (hs : sep ∉ s) (n : Nat) :
    splitnChars sep (n + 1) s = [s] := by
  cases n with
  | zero => rfl
  | succ n =>
    rw [splitnChars, dropWhile_eq_nil hs]

theorem splitn_cut {s front back : String} (hs : s = front ++ "/" ++ back)
    (hfront : '/' ∉ front.toList) (n : Nat) :
    splitn (n + 2) '/' s = front :: splitn (n + 1) '/' back := by
  have hlist : s.toList = front.toList ++ '/' :: back.toList := by
    rw [hs, String.toList_append, String.toList_append, List.append_assoc]
    rfl
  unfold splitn
  rw [hlist, splitnChars_cut hfront, List.map_cons, String.ofList_toList]

theorem splitn_one (s : String) : splitn 1 '/' s = [s] := by
  show [String.ofList s.toList] = [s]
  rw [String.ofList_toList]

theorem splitn_last {s : String} (hs : '/' ∉ s.toList) (n : Nat) : splitn (n + 1) '/' s = [s] := by
  unfold splitn
  rw [splitnChars_last hs, List.map_singleton, String.ofList_toList]

/-- A text with a slash has a front without one. -/
theorem exists_cut {s : String} (h : '/' ∈ s.toList) :
    ∃ front back, s = front ++ "/" ++ back ∧ '/' ∉ front.toList := by
  obtain ⟨front, back, hs, hfront⟩ := List.eq_append_cons_of_mem h
  refine ⟨String.ofList front, String.ofList back, ?_, ?_⟩
  · apply String.toList_inj.mp
    rw [hs]
    simp only [String.toList_append, String.toList_ofList, List.append_assoc]
    rfl
  · rwa [String.toList_ofList]

theorem part_eq_some_iff {parts : List String} {i : Nat} {s : String} :
    part parts i = some s ↔ parts[i]? = some s ∧ s ≠ "" := by
  unfold part
  rw [Option.filter_eq_some_iff, Bool.not_eq_true', ← Bool.not_eq_true, String.isEmpty_iff]

/-- **What the split makes of a path**: its three parts, and nothing of a text that is no path. -/
theorem parts_iff {rest tenant ns name : String} :
    (part (splitn 3 '/' rest) 0 = some tenant ∧ part (splitn 3 '/' rest) 1 = some ns ∧
        part (splitn 3 '/' rest) 2 = some name) ↔
      rest = path tenant ns name ∧ Segment tenant ∧ Segment ns ∧ name ≠ "" := by
  simp only [part_eq_some_iff]
  constructor
  · rintro ⟨⟨h0, htenant⟩, ⟨h1, hns⟩, h2, hname⟩
    by_cases hrest : '/' ∈ rest.toList
    · obtain ⟨front, back, hcut, hfront⟩ := exists_cut hrest
      rw [splitn_cut hcut hfront] at h0 h1 h2
      by_cases hback : '/' ∈ back.toList
      · obtain ⟨middle, last, hcut', hmiddle⟩ := exists_cut hback
        rw [splitn_cut hcut' hmiddle, splitn_one] at h1 h2
        cases h0
        cases h1
        cases h2
        refine ⟨?_, ⟨htenant, hfront⟩, ⟨hns, hmiddle⟩, hname⟩
        rw [hcut, hcut']
        simp only [path, String.append_assoc]
      · rw [splitn_last hback] at h2
        cases h2
    · rw [splitn_last hrest] at h1
      cases h1
  · rintro ⟨rfl, htenant, hns, hname⟩
    have hcut : path tenant ns name = tenant ++ "/" ++ (ns ++ "/" ++ name) := by
      simp only [path, String.append_assoc]
    rw [splitn_cut hcut htenant.2, splitn_cut rfl hns.2, splitn_one]
    exact ⟨⟨rfl, htenant.1⟩, ⟨rfl, hns.1⟩, rfl, hname⟩

/-! ## The prefix -/

theorem stripPrefix_eq_some_iff {s pre rest : String} :
    stripPrefix s pre = some rest ↔ s = pre ++ rest := by
  unfold stripPrefix
  rw [Option.map_eq_some_iff]
  constructor
  · rintro ⟨chars, hchars, rfl⟩
    apply String.toList_inj.mp
    rw [isPrefixOf?_eq_some_iff.mp hchars, String.toList_append, String.toList_ofList]
  · rintro rfl
    refine ⟨rest.toList, isPrefixOf?_eq_some_iff.mpr String.toList_append, String.ofList_toList⟩

/-- **A bare name has no prefix**: behind `persistent:/` its namespace would be empty. -/
theorem not_prefixed {tenant ns name front rest : String} (htenant : Segment tenant) (hns : Segment ns)
    (hfront : '/' ∉ front.toList) : path tenant ns name ≠ front ++ "://" ++ rest := by
  intro h
  have hlist := congrArg String.toList h
  have hleft : (path tenant ns name).toList =
      tenant.toList ++ '/' :: (ns.toList ++ '/' :: name.toList) := by
    unfold path
    simp only [String.toList_append, List.append_assoc]
    rfl
  have hright : (front ++ "://" ++ rest).toList =
      (front.toList ++ [':']) ++ '/' :: ([] ++ '/' :: rest.toList) := by
    simp only [String.toList_append, List.append_assoc]
    rfl
  have hcolon : '/' ∉ front.toList ++ [':'] := by
    rw [List.mem_append, List.mem_singleton]
    rintro (hmem | hmem)
    · exact hfront hmem
    · exact absurd hmem (by decide)
  rw [hleft, hright] at hlist
  have hbehind := (cut_inj htenant.2 hcolon hlist).2
  have hempty := (cut_inj hns.2 List.not_mem_nil hbehind).1
  exact hns.1 (String.toList_eq_nil_iff.mp hempty)

theorem Domain.asStr_noSlash (d : Domain) : '/' ∉ d.asStr.toList := by
  cases d with
  | persistent => decide
  | nonPersistent => decide

theorem persistent_ne_nonPersistent (rest rest' : String) :
    "persistent://" ++ rest ≠ "non-persistent://" ++ rest' := by
  intro h
  have hlist := congrArg String.toList h
  rw [String.toList_append, String.toList_append] at hlist
  exact absurd (List.cons.inj hlist).1 (by decide)

/-- **A prefix is recognised**, -/
theorem splitScheme_prefixed (d : Domain) (rest : String) :
    splitScheme (d.asStr ++ "://" ++ rest) = (d.asStr, rest) := by
  cases d with
  | persistent =>
    have hstrip : stripPrefix ("persistent" ++ "://" ++ rest) "persistent://" = some rest :=
      stripPrefix_eq_some_iff.mpr rfl
    simp only [Domain.asStr, splitScheme, hstrip]
  | nonPersistent =>
    have hother : stripPrefix ("non-persistent" ++ "://" ++ rest) "persistent://" = none := by
      rw [Option.eq_none_iff_forall_not_mem]
      intro rest' hrest'
      exact persistent_ne_nonPersistent rest' rest (stripPrefix_eq_some_iff.mp hrest').symm
    have hstrip : stripPrefix ("non-persistent" ++ "://" ++ rest) "non-persistent://" = some rest :=
      stripPrefix_eq_some_iff.mpr rfl
    simp only [Domain.asStr, splitScheme, hother, hstrip]

/-- and a text without one is left as it is. -/
theorem splitScheme_bare {topic : String}
    (hbare : ∀ (d : Domain) (rest : String), topic ≠ d.asStr ++ "://" ++ rest) :
    splitScheme topic = ("persistent", topic) := by
  have hpersistent : stripPrefix topic "persistent://" = none := by
    rw [Option.eq_none_iff_forall_not_mem]
    exact fun rest hrest => hbare .persistent rest (stripPrefix_eq_some_iff.mp hrest)
  have hnonPersistent : stripPrefix topic "non-persistent://" = none := by
    rw [Option.eq_none_iff_forall_not_mem]
    exact fun rest hrest => hbare .nonPersistent rest (stripPrefix_eq_some_iff.mp hrest)
  simp only [splitScheme, hpersistent, hnonPersistent]

/-- What is stripped was there. -/
theorem splitScheme_cases (topic : String) :
    (∃ (d : Domain) (rest : String), topic = d.asStr ++ "://" ++ rest ∧
        splitScheme topic = (d.asStr, rest)) ∨
      splitScheme topic = (Domain.persistent.asStr, topic) := by
  by_cases h : ∃ (d : Domain) (rest : String), topic = d.asStr ++ "://" ++ rest
  · obtain ⟨d, rest, rfl⟩ := h
    exact Or.inl ⟨d, rest, rfl, splitScheme_prefixed d rest⟩
  · exact Or.inr (splitScheme_bare fun d rest heq => h ⟨d, rest, heq⟩)

/-! ## Reading a name -/

theorem parseTopic_eq_ok_iff {topic scheme tenant ns name : String} :
    parseTopic topic = .ok (scheme, tenant, ns, name) ↔
      (splitScheme topic).1 = scheme ∧ (splitScheme topic).2 = path tenant ns name ∧
        Segment tenant ∧ Segment ns ∧ name ≠ "" := by
  rw [← parts_iff]
  unfold parseTopic
  constructor
  · intro h
    split at h
    next h0 h1 h2 =>
      cases h
      exact ⟨rfl, h0, h1, h2⟩
    next => cases h
  · rintro ⟨hscheme, h0, h1, h2⟩
    rw [h0, h1, h2, ← hscheme]

namespace TopicName

variable {t t' : TopicName} {topic : String}

theorem splitScheme_of_spells (h : t.Spells topic) :
    splitScheme topic = (t.domain.asStr, t.path) := by
  rcases h with rfl | ⟨hdomain, rfl⟩
  · exact splitScheme_prefixed t.domain t.path
  · rw [hdomain]
    apply splitScheme_bare
    intro d rest
    exact not_prefixed t.tenant_ok t.ns_ok d.asStr_noSlash

/-- Every spelling is read, -/
theorem parseTopic_of_spells (h : t.Spells topic) : parseTopic topic = .ok t.parts := by
  unfold parts
  rw [parseTopic_eq_ok_iff, splitScheme_of_spells h]
  exact ⟨rfl, rfl, t.tenant_ok, t.ns_ok, t.name_ne⟩

/-- and what is read is spelled. -/
theorem exists_of_parseTopic {parts : String × String × String × String}
    (h : parseTopic topic = .ok parts) : ∃ t : TopicName, t.Spells topic ∧ t.parts = parts := by
  obtain ⟨scheme, tenant, ns, name⟩ := parts
  obtain ⟨hscheme, hpath, htenant, hns, hname⟩ := parseTopic_eq_ok_iff.mp h
  rcases splitScheme_cases topic with ⟨d, rest, htopic, hsplit⟩ | hsplit
  · rw [hsplit] at hscheme hpath
    refine ⟨⟨d, tenant, ns, name, htenant, hns, hname⟩, Or.inl ?_, ?_⟩
    · rw [htopic]
      exact congrArg _ hpath
    · exact congrArg (·, tenant, ns, name) hscheme
  · rw [hsplit] at hscheme hpath
    refine ⟨⟨.persistent, tenant, ns, name, htenant, hns, hname⟩, Or.inr ⟨rfl, hpath⟩, ?_⟩
    exact congrArg (·, tenant, ns, name) hscheme

theorem parts_inj (h : t.parts = t'.parts) : t = t' := by
  unfold parts at h
  simp only [Prod.mk.injEq] at h
  obtain ⟨hdomain, htenant, hns, hname⟩ := h
  refine TopicName.ext ?_ htenant hns hname
  revert hdomain
  generalize t.domain = d
  generalize t'.domain = d'
  cases d <;> cases d' <;> decide

end TopicName

/-- **Topic names parse as their grammar.** -/
theorem parseTopic_grammar (topic : String) :
    (∀ parts, parseTopic topic = .ok parts ↔ ∃ t : TopicName, t.Spells topic ∧ t.parts = parts) ∧
    (∀ t t' : TopicName, t.Spells topic → t'.Spells topic → t = t') ∧
    ∀ scheme tenant ns name, parseTopic topic = .ok (scheme, tenant, ns, name) →
      parseTopic (scheme ++ "://" ++ tenant ++ "/" ++ ns ++ "/" ++ name) =
        .ok (scheme, tenant, ns, name) := by
  refine ⟨fun parts => ⟨TopicName.exists_of_parseTopic, ?_⟩, fun t t' h h' => ?_, ?_⟩
  · rintro ⟨t, ht, rfl⟩
    exact TopicName.parseTopic_of_spells ht
  · have hparts := (TopicName.parseTopic_of_spells h).symm.trans (TopicName.parseTopic_of_spells h')
    exact TopicName.parts_inj (Except.ok.inj hparts)
  · intro scheme tenant ns name h
    obtain ⟨t, -, hparts⟩ := TopicName.exists_of_parseTopic h
    have hrender : scheme ++ "://" ++ tenant ++ "/" ++ ns ++ "/" ++ name = t.render := by
      cases hparts
      simp only [TopicName.render, TopicName.path, path, String.append_assoc]
    rw [hrender, TopicName.parseTopic_of_spells (Or.inl rfl), hparts]

/-- A local name may look like a topic. -/
theorem parseTopic_nested :
    parseTopic "non-persistent://t/ns/persistent://a" =
      .ok ("non-persistent", "t", "ns", "persistent://a") :=
  (parseTopic_grammar "non-persistent://t/ns/persistent://a").2.2 "non-persistent" "t" "ns"
    "persistent://a" (by rfl)

/-! ## Namespaces -/

/-- **Namespaces parse as theirs**, which has no slash in its last part. -/
theorem splitNamespace_eq_ok_iff {s tenant name : String} :
    splitNamespace s = .ok (tenant, name) ↔
      s = tenant ++ "/" ++ name ∧ Segment tenant ∧ Segment name := by
  unfold splitNamespace
  constructor
  · intro h
    by_cases hs : '/' ∈ s.toList
    · obtain ⟨front, back, hcut, hfront⟩ := exists_cut hs
      rw [splitn_cut hcut hfront, splitn_one] at h
      dsimp only at h
      split at h
      next => cases h
      next hok =>
        cases h
        simp only [Bool.or_eq_true, not_or, String.isEmpty_iff, List.contains_iff_mem] at hok
        exact ⟨hcut, ⟨hok.1.1, hfront⟩, hok.1.2, hok.2⟩
    · rw [splitn_last hs] at h
      cases h
  · rintro ⟨hcut, htenant, hname⟩
    have hok : ¬ (tenant.isEmpty || name.isEmpty || name.toList.contains '/') = true := by
      simp only [Bool.or_eq_true, not_or, String.isEmpty_iff, List.contains_iff_mem]
      exact ⟨⟨htenant.1, hname.1⟩, hname.2⟩
    rw [splitn_cut hcut htenant.2, splitn_one]
    exact if_neg hok

end PulsarClient.Admin

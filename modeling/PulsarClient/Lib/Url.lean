/-
  URL PATHS as the WHATWG URL standard parses them, for the special schemes `http` and `https`.

  A parser of URLs does not hand a path through as it is written: it splits it at `/` and at `\`, escapes
  what may not stand in it, and REMOVES DOT SEGMENTS — `.` is dropped, `..` takes the segment before it
  along, and so do their escaped forms.

  1. `percentEncode`, `percentDecode` — bytes as `%XX`, and back.

  2. `parse` — the parser, from the cleaning of its input to the path: the host is left as text, since
     nothing below depends on it.

  3. `close` — what becomes of segments appended to a path.  They stay exactly when none of them is a dot
     segment: `close_of_noDots`, and `close_of_length`, since every dot segment makes the path shorter
     than it should be, or leaves an empty segment at its end.

  4. `parse_append` — appending escaped segments to a URL.
-/
import Mathlib.Data.List.Basic

namespace PulsarClient.Url

/-! ## Percent-encoding -/

/-- The upper-case hexadecimal digit. -/
def hexDigit (n : Nat) : Char := Char.ofNat (if n < 10 then 48 + n else 55 + n)

/-- `%XX` -/
def percentEncode (b : UInt8) : List Char :=
  ['%', hexDigit (b.toNat / 16), hexDigit (b.toNat % 16)]

def hexValue (c : Char) : Option Nat :=
  if '0' ≤ c ∧ c ≤ '9' then some (c.toNat - 48)
  else if 'A' ≤ c ∧ c ≤ 'F' then some (c.toNat - 55)
  else if 'a' ≤ c ∧ c ≤ 'f' then some (c.toNat - 87)
  else none

/-- The byte that the two digits after a `%` stand for. -/
def escaped : List Char → Option UInt8
  | a :: b :: _ =>
    match hexValue a, hexValue b with
    | some x, some y => some (UInt8.ofNat (16 * x + y))
    | _, _ => none
  | _ => none

/-- `percentDecode`, after `skip` characters. -/
def percentDecodeFrom : Nat → List Char → List UInt8
  | _, [] => []
  | skip + 1, _ :: rest => percentDecodeFrom skip rest
  | 0, c :: rest =>
    match if c = '%' then escaped rest else none with
    | some b => b :: percentDecodeFrom 2 rest
    | none => String.utf8EncodeChar c ++ percentDecodeFrom 0 rest

/-- The bytes an escaped string stands for: every `%XX` is one, all else is UTF-8. -/
def percentDecode (s : List Char) : List UInt8 := percentDecodeFrom 0 s

theorem hexValue_hexDigit : ∀ n < 16, hexValue (hexDigit n) = some n := by decide

/-- An escaped byte is read back. -/
theorem percentDecode_percentEncode (b : UInt8) (rest : List Char) :
    percentDecode (percentEncode b ++ rest) = b :: percentDecode rest := by
  have hlt : b.toNat < 256 := b.toNat_lt
  have hhigh := hexValue_hexDigit (b.toNat / 16) (by omega)
  have hlow := hexValue_hexDigit (b.toNat % 16) (by omega)
  have hsum : 16 * (b.toNat / 16) + b.toNat % 16 = b.toNat := Nat.div_add_mod b.toNat 16
  have hescaped : escaped (hexDigit (b.toNat / 16) :: hexDigit (b.toNat % 16) :: rest) = some b := by
    unfold escaped
    simp only [hhigh, hlow, hsum, UInt8.ofNat_toNat]
  show percentDecodeFrom 0 ('%' :: hexDigit _ :: hexDigit _ :: rest) = _
  rw [percentDecodeFrom, if_pos rfl, hescaped]
  rfl

theorem percentDecode_cons {c : Char} (hc : c ≠ '%') (rest : List Char) :
    percentDecode (c :: rest) = String.utf8EncodeChar c ++ percentDecode rest := by
  unfold percentDecode
  rw [percentDecodeFrom, if_neg hc]

/-! ## The parser -/

/-- "C0 control or space" -/
def isControlOrSpace (c : Char) : Bool := c.toNat ≤ 0x20

def isTabOrNewline (c : Char) : Bool := c = '\t' || c = '\n' || c = '\r'

/-- What stands around the URL is stripped, and tabs and newlines are removed. -/
def clean (input : List Char) : List Char :=
  (((input.dropWhile isControlOrSpace).reverse.dropWhile isControlOrSpace).reverse).filter
    fun c => !isTabOrNewline c

/-- A special URL may have either. -/
def isSlash (c : Char) : Bool := c = '/' || c = '\\'

/-- What ends a path. -/
def endsPath (c : Char) : Bool := c = '?' || c = '#'

/-- What ends the authority. -/
def endsAuthority (c : Char) : Bool := isSlash c || endsPath c

/-- The path percent-encode set. -/
def pathSet (c : Char) : Bool :=
  c.toNat < 0x20 || 0x7E < c.toNat || [' ', '"', '#', '<', '>', '?', '^', '`', '\x7b', '\x7d'].contains c

def encodePathChar (c : Char) : List Char :=
  if pathSet c then (String.utf8EncodeChar c).flatMap percentEncode else [c]

/-- The spellings of `.` -/
def singleDots : List (List Char) := [['.'], ['%', '2', 'e'], ['%', '2', 'E']]

/-- The spellings of `..` -/
def doubleDots : List (List Char) :=
  [['.', '.'], ['.', '%', '2', 'e'], ['.', '%', '2', 'E'], ['%', '2', 'e', '.'], ['%', '2', 'E', '.'],
    ['%', '2', 'e', '%', '2', 'e'], ['%', '2', 'e', '%', '2', 'E'], ['%', '2', 'E', '%', '2', 'e'],
    ['%', '2', 'E', '%', '2', 'E']]

def isSingleDot (s : List Char) : Bool := singleDots.contains s

def isDoubleDot (s : List Char) : Bool := doubleDots.contains s

theorem percentDecode_singleDots : ∀ s ∈ singleDots, percentDecode s = [0x2E] := by decide

theorem percentDecode_doubleDots : ∀ s ∈ doubleDots, percentDecode s = [0x2E, 0x2E] := by decide

theorem percentDecode_of_isSingleDot {s : List Char} (h : isSingleDot s = true) :
    percentDecode s = [0x2E] :=
  percentDecode_singleDots s (List.contains_iff_mem.mp h)

theorem percentDecode_of_isDoubleDot {s : List Char} (h : isDoubleDot s = true) :
    percentDecode s = [0x2E, 0x2E] :=
  percentDecode_doubleDots s (List.contains_iff_mem.mp h)

/-- The end of a segment, at a slash or at the end of the path. -/
def commit (path : List (List Char)) (buffer : List Char) (slash : Bool) : List (List Char) :=
  if isDoubleDot buffer then
    if slash then path.dropLast else path.dropLast ++ [[]]
  else if isSingleDot buffer then
    if slash then path else path ++ [[]]
  else path ++ [buffer]

/-- "path state": the path, and what is left of the input. -/
def pathState : List (List Char) → List Char → List Char → List (List Char) × List Char
  | path, buffer, [] => (commit path buffer false, [])
  | path, buffer, c :: input =>
    if isSlash c then pathState (commit path buffer true) [] input
    else if endsPath c then (commit path buffer false, c :: input)
    else pathState path (buffer ++ encodePathChar c) input

/-- "path start state" -/
def pathStart : List Char → List (List Char) × List Char
  | [] => pathState [] [] []
  | c :: input => if isSlash c then pathState [] [] input else pathState [] [] (c :: input)

/-- A URL parsed: `tail` is its query and fragment, with the `?` or `#` before them. -/
structure Parsed where
  scheme : List Char
  authority : List Char
  path : List (List Char)
  tail : List Char
  deriving DecidableEq, Repr

/-- What follows `scheme`, in whatever case it is written. -/
def stripScheme : List Char → List Char → Option (List Char)
  | [], input => some input
  | _ :: _, [] => none
  | s :: scheme, c :: input => if c.toLower = s then stripScheme scheme input else none

/-- "scheme state", for the schemes `http` and `https`. -/
def takeScheme (input : List Char) : Option (List Char × List Char) :=
  match stripScheme ['h', 't', 't', 'p', ':'] input with
  | some rest => some (['h', 't', 't', 'p'], rest)
  | none =>
    match stripScheme ['h', 't', 't', 'p', 's', ':'] input with
    | some rest => some (['h', 't', 't', 'p', 's'], rest)
    | none => none

/-- "special authority ignore slashes state" and "authority state" -/
def authorityOf (rest : List Char) : List Char :=
  (rest.dropWhile isSlash).takeWhile fun c => !endsAuthority c

def behindAuthority (rest : List Char) : List Char :=
  (rest.dropWhile isSlash).dropWhile fun c => !endsAuthority c

/-- Everything after the scheme; a host is required. -/
def parseRest (scheme rest : List Char) : Option Parsed :=
  if (authorityOf rest).isEmpty then none
  else
    some
      { scheme
        authority := authorityOf rest
        path := (pathStart (behindAuthority rest)).1
        tail := (pathStart (behindAuthority rest)).2 }

/-- The parser. -/
def parse (input : List Char) : Option Parsed :=
  match takeScheme (clean input) with
  | none => none
  | some (scheme, rest) => parseRest scheme rest

/-! ## Dot segments -/

/-- A segment that the parser keeps. -/
def Kept (s : List Char) : Prop := isSingleDot s = false ∧ isDoubleDot s = false

instance (s : List Char) : Decidable (Kept s) := inferInstanceAs (Decidable (_ ∧ _))

section Commit

variable {path : List (List Char)} {buffer : List Char}

theorem commit_of_kept (h : Kept buffer) (slash : Bool) :
    commit path buffer slash = path ++ [buffer] := by
  unfold commit
  rw [h.1, h.2]
  rfl

/-- A segment makes the path longer by one, unless it is a dot segment. -/
theorem length_commit_slash (path : List (List Char)) (buffer : List Char) :
    (commit path buffer true).length ≤ path.length + 1 ∧
      ((commit path buffer true).length = path.length + 1 → Kept buffer) := by
  unfold commit
  cases hdouble : isDoubleDot buffer with
  | true =>
    simp only [if_true, List.length_dropLast]
    constructor <;> omega
  | false =>
    cases hsingle : isSingleDot buffer with
    | true =>
      simp only [if_true, Bool.false_eq_true, if_false]
      constructor <;> omega
    | false =>
      simp only [Bool.false_eq_true, if_false, List.length_append, List.length_singleton]
      exact ⟨Nat.le_refl _, fun _ => ⟨hsingle, hdouble⟩⟩

/-- At the end of the path `.` leaves an empty segment, and `..` makes it shorter. -/
theorem length_commit_end :
    (commit path buffer false).length ≤ path.length + 1 ∧
      ((commit path buffer false).length = path.length + 1 →
        Kept buffer ∨ (isSingleDot buffer = true ∧ commit path buffer false = path ++ [[]]) ∨
          (isDoubleDot buffer = true ∧ path = [])) := by
  unfold commit
  cases hdouble : isDoubleDot buffer with
  | true =>
    simp only [if_true, Bool.false_eq_true, if_false, List.length_append, List.length_dropLast,
      List.length_singleton]
    refine ⟨by omega, fun hlength => Or.inr (Or.inr ⟨trivial, ?_⟩)⟩
    apply List.eq_nil_of_length_eq_zero
    omega
  | false =>
    cases hsingle : isSingleDot buffer with
    | true =>
      simp only [if_true, Bool.false_eq_true, if_false, List.length_append, List.length_singleton]
      exact ⟨Nat.le_refl _, fun _ => Or.inr (Or.inl ⟨trivial, trivial⟩)⟩
    | false =>
      simp only [Bool.false_eq_true, if_false, List.length_append, List.length_singleton]
      exact ⟨Nat.le_refl _, fun _ => Or.inl ⟨hsingle, hdouble⟩⟩

end Commit

/-! ## Segments behind a path -/

/-- The path when the segments `segments` come behind the segment `buffer`. -/
def close (path : List (List Char)) : List Char → List (List Char) → List (List Char)
  | buffer, [] => commit path buffer false
  | buffer, s :: segments => close (commit path buffer true) s segments

/-- **What is no dot segment stays.** -/
theorem close_of_kept {path : List (List Char)} {buffer : List Char} {segments : List (List Char)}
    (hbuffer : Kept buffer) (h : ∀ s ∈ segments, Kept s) :
    close path buffer segments = path ++ buffer :: segments := by
  induction segments generalizing path buffer with
  | nil => exact commit_of_kept hbuffer false
  | cons s segments ih =>
    show close (commit path buffer true) s segments = _
    rw [commit_of_kept hbuffer, ih (h s List.mem_cons_self)
      fun s' hs' => h s' (List.mem_cons_of_mem s hs'), List.append_assoc]
    rfl

theorem length_close_le (path : List (List Char)) (buffer : List Char)
    (segments : List (List Char)) :
    (close path buffer segments).length ≤ path.length + 1 + segments.length := by
  induction segments generalizing path buffer with
  | nil => exact length_commit_end.1
  | cons s segments ih =>
    have hcommit := (length_commit_slash path buffer).1
    have hrest := ih (commit path buffer true) s
    show (close (commit path buffer true) s segments).length ≤ _
    rw [List.length_cons]
    omega

/-- **A dot segment shows**: the path is too short, or ends in an empty segment in place of a `.`. -/
theorem close_of_length {path : List (List Char)} {buffer : List Char}
    {segments : List (List Char)} (hbuffer : path ≠ [] ∨ Kept buffer)
    (hlength : (close path buffer segments).length = path.length + 1 + segments.length) :
    (∀ s ∈ buffer :: segments, Kept s) ∨
      ∃ front last, buffer :: segments = front ++ [last] ∧ isSingleDot last = true ∧
        close path buffer segments = path ++ front ++ [[]] := by
  induction segments generalizing path buffer with
  | nil =>
    rcases length_commit_end.2 hlength with hkept | ⟨hsingle, heq⟩ | ⟨hdouble, hempty⟩
    · refine Or.inl fun s hs => ?_
      rw [List.mem_singleton.mp hs]
      exact hkept
    · refine Or.inr ⟨[], buffer, rfl, hsingle, ?_⟩
      rw [List.append_nil]
      exact heq
    · rcases hbuffer with hne | hkept
      · exact absurd hempty hne
      · rw [hkept.2] at hdouble
        cases hdouble
  | cons s segments ih =>
    have hcommit := length_commit_slash path buffer
    have hrest := length_close_le (commit path buffer true) s segments
    have hlength' : (close (commit path buffer true) s segments).length =
      path.length + 1 + (segments.length + 1) := hlength
    have hkept := hcommit.2 (by omega)
    have heq : commit path buffer true = path ++ [buffer] := commit_of_kept hkept true
    have hcount : (commit path buffer true).length = path.length + 1 := by
      rw [heq, List.length_append, List.length_singleton]
    have hne : commit path buffer true ≠ [] := by
      rw [heq]
      exact List.append_ne_nil_of_right_ne_nil _ (List.cons_ne_nil _ _)
    have hstep : (close (commit path buffer true) s segments).length =
        (commit path buffer true).length + 1 + segments.length := by omega
    rcases ih (Or.inl hne) hstep with hall | ⟨front, last, hsplit, hsingle, hclose⟩
    · refine Or.inl fun s' hs' => ?_
      rcases List.mem_cons.mp hs' with rfl | hs'
      · exact hkept
      · exact hall s' hs'
    · refine Or.inr ⟨buffer :: front, last, congrArg _ hsplit, hsingle, ?_⟩
      show close (commit path buffer true) s segments = _
      rw [hclose, heq]
      simp only [List.append_assoc, List.singleton_append]

/-! ## Appending segments to a URL -/

/-- The segments, each behind a slash. -/
def render (segments : List (List Char)) : List Char := segments.flatMap ('/' :: ·)

/-- What the parser leaves as it is, inside a segment. -/
def isPlain (c : Char) : Bool := 0x20 < c.toNat && !isSlash c && !pathSet c

def Plain (s : List Char) : Prop := ∀ c ∈ s, isPlain c = true

theorem isPlain_iff {c : Char} :
    isPlain c = true ↔ 0x20 < c.toNat ∧ isSlash c = false ∧ pathSet c = false := by
  unfold isPlain
  rw [Bool.and_eq_true, Bool.and_eq_true, decide_eq_true_iff, Bool.not_eq_true', Bool.not_eq_true',
    and_assoc]

theorem hexDigit_plain : ∀ n < 16, isPlain (hexDigit n) = true := by decide +kernel

theorem percentEncode_plain (b : UInt8) : Plain (percentEncode b) := by
  have hb : b.toNat < 256 := b.toNat_lt
  intro c hc
  simp only [percentEncode, List.mem_cons, List.not_mem_nil, or_false] at hc
  rcases hc with rfl | rfl | rfl
  · decide
  · exact hexDigit_plain _ (by omega)
  · exact hexDigit_plain _ (by omega)

theorem endsPath_of_plain {c : Char} (h : isPlain c = true) : endsPath c = false := by
  cases hends : endsPath c with
  | false => rfl
  | true =>
    have hset : c = '?' ∨ c = '#' := by
      unfold endsPath at hends
      rwa [Bool.or_eq_true, decide_eq_true_iff, decide_eq_true_iff] at hends
    rcases hset with rfl | rfl <;> exact absurd h (by decide)

/-- Plain characters go into the segment. -/
theorem pathState_plain {s : List Char} (h : Plain s) (path : List (List Char))
    (buffer input : List Char) :
    pathState path buffer (s ++ input) = pathState path (buffer ++ s) input := by
  induction s generalizing buffer with
  | nil => rw [List.append_nil, List.nil_append]
  | cons c s ih =>
    have hc := isPlain_iff.mp (h c List.mem_cons_self)
    have hends := endsPath_of_plain (h c List.mem_cons_self)
    have hencode : encodePathChar c = [c] := by
      unfold encodePathChar
      rw [hc.2.2]
      rfl
    rw [List.cons_append, pathState, hc.2.1, hends, hencode]
    show pathState path (buffer ++ [c]) (s ++ input) = _
    rw [ih (fun c' hc' => h c' (List.mem_cons_of_mem c hc')), List.append_assoc,
      List.singleton_append]

/-- **Appended segments are closed one by one.** -/
theorem pathState_render {segments : List (List Char)} (h : ∀ s ∈ segments, Plain s)
    (path : List (List Char)) (buffer : List Char) :
    pathState path buffer (render segments) = (close path buffer segments, []) := by
  induction segments generalizing path buffer with
  | nil => rfl
  | cons s segments ih =>
    show pathState (commit path buffer true) [] (s ++ render segments) = _
    rw [pathState_plain (h s List.mem_cons_self), List.nil_append]
    exact ih (fun s' hs' => h s' (List.mem_cons_of_mem s hs')) _ _

/-- What stands in front either ends the path already, or leaves the parser inside it. -/
theorem pathState_append (path : List (List Char)) (buffer input : List Char) :
    (∃ path' tail, tail ≠ [] ∧ ∀ r, pathState path buffer (input ++ r) = (path', tail ++ r)) ∨
      ∃ path' buffer', ∀ r, pathState path buffer (input ++ r) = pathState path' buffer' r := by
  induction input generalizing path buffer with
  | nil => exact Or.inr ⟨path, buffer, fun _ => rfl⟩
  | cons c input ih =>
    cases hslash : isSlash c with
    | true =>
      rcases ih (commit path buffer true) [] with ⟨path', tail, hne, h⟩ | ⟨path', buffer', h⟩
      · refine Or.inl ⟨path', tail, hne, fun r => ?_⟩
        rw [List.cons_append, pathState, hslash]
        exact h r
      · refine Or.inr ⟨path', buffer', fun r => ?_⟩
        rw [List.cons_append, pathState, hslash]
        exact h r
    | false =>
      cases hends : endsPath c with
      | true =>
        refine Or.inl ⟨commit path buffer false, c :: input, List.cons_ne_nil _ _, fun r => ?_⟩
        rw [List.cons_append, pathState, hslash, hends]
        rfl
      | false =>
        rcases ih path (buffer ++ encodePathChar c) with ⟨path', tail, hne, h⟩ | ⟨path', buffer', h⟩
        · refine Or.inl ⟨path', tail, hne, fun r => ?_⟩
          rw [List.cons_append, pathState, hslash, hends]
          exact h r
        · refine Or.inr ⟨path', buffer', fun r => ?_⟩
          rw [List.cons_append, pathState, hslash, hends]
          exact h r

theorem pathStart_append (input : List Char) :
    (∃ path tail, tail ≠ [] ∧ ∀ r, pathStart (input ++ '/' :: r) = (path, tail ++ '/' :: r)) ∨
      ∃ path, ∀ r, pathStart (input ++ '/' :: r) = pathState path [] r := by
  cases input with
  | nil => exact Or.inr ⟨[], fun _ => rfl⟩
  | cons c input =>
    have hstart : ∃ rest, ∀ r, pathStart (c :: input ++ r) = pathState [] [] (rest ++ r) := by
      cases hslash : isSlash c with
      | true =>
        refine ⟨input, fun r => ?_⟩
        rw [List.cons_append, pathStart, hslash]
        rfl
      | false =>
        refine ⟨c :: input, fun r => ?_⟩
        rw [List.cons_append, pathStart, hslash]
        rfl
    obtain ⟨rest, hstart⟩ := hstart
    rcases pathState_append [] [] rest with ⟨path, tail, hne, h⟩ | ⟨path, buffer, h⟩
    · exact Or.inl ⟨path, tail, hne, fun r => (hstart _).trans (h _)⟩
    · exact Or.inr ⟨commit path buffer true, fun r => (hstart _).trans (h _)⟩

section Prefix

variable {p : Char → Bool} {c : Char}

/-- What stops the scan stops it whatever comes behind. -/
theorem dropWhile_append_cons (hc : p c = false) (s r : List Char) :
    (s ++ c :: r).dropWhile p = s.dropWhile p ++ c :: r := by
  induction s with
  | nil => rw [List.nil_append, List.dropWhile_cons, hc]; rfl
  | cons d s ih =>
    rw [List.cons_append, List.dropWhile_cons, List.dropWhile_cons]
    cases hd : p d with
    | true => exact ih
    | false => rfl

theorem takeWhile_append_cons (hc : p c = false) (s r : List Char) :
    (s ++ c :: r).takeWhile p = s.takeWhile p := by
  induction s with
  | nil => rw [List.nil_append, List.takeWhile_cons, hc]; rfl
  | cons d s ih =>
    rw [List.cons_append, List.takeWhile_cons, List.takeWhile_cons]
    cases hd : p d with
    | true => exact congrArg (d :: ·) ih
    | false => rfl

end Prefix

/-- Neither a control character nor a space. -/
def Visible (s : List Char) : Prop := ∀ c ∈ s, 0x20 < c.toNat

/-- Cleaning does not reach behind a visible character. -/
theorem clean_append (a : List Char) {c : Char} {s : List Char} (h : Visible (c :: s)) :
    clean (a ++ c :: s) =
      (a.dropWhile isControlOrSpace).filter (fun c => !isTabOrNewline c) ++ c :: s := by
  have hcontrol : ∀ d ∈ c :: s, isControlOrSpace d = false := fun d hd =>
    decide_eq_false (Nat.not_le_of_lt (h d hd))
  have htab : ∀ d ∈ c :: s, (!isTabOrNewline d) = true := by
    intro d hd
    have hd := h d hd
    cases htab : isTabOrNewline d with
    | false => rfl
    | true =>
      unfold isTabOrNewline at htab
      simp only [Bool.or_eq_true, decide_eq_true_eq] at htab
      rcases htab with (rfl | rfl) | rfl <;> exact absurd hd (by decide)
  have hback : ∀ x : List Char, ((x ++ c :: s).reverse.dropWhile isControlOrSpace).reverse =
      x ++ c :: s := by
    intro x
    obtain ⟨front, last, hsplit⟩ : ∃ front last, c :: s = front ++ [last] :=
      ⟨_, _, (List.dropLast_concat_getLast (List.cons_ne_nil c s)).symm⟩
    have hlast := hcontrol last (by rw [hsplit]; exact List.mem_append_right _ List.mem_cons_self)
    rw [hsplit, ← List.append_assoc, List.reverse_append, List.reverse_singleton,
      List.singleton_append, List.dropWhile_cons, hlast]
    show (last :: (x ++ front).reverse).reverse = _
    rw [List.reverse_cons, List.reverse_reverse]
  unfold clean
  rw [dropWhile_append_cons (hcontrol c List.mem_cons_self), hback, List.filter_append,
    List.filter_eq_self.mpr htab]

theorem stripScheme_append {scheme : List Char} (h : '/' ∉ scheme) (a r : List Char) :
    stripScheme scheme (a ++ '/' :: r) = (stripScheme scheme a).map (· ++ '/' :: r) := by
  induction scheme generalizing a with
  | nil => rfl
  | cons s scheme ih =>
    cases a with
    | nil =>
      have hne : ('/' : Char).toLower ≠ s := fun heq => h (heq ▸ List.mem_cons_self)
      show (if ('/' : Char).toLower = s then stripScheme scheme r else none) = none
      rw [if_neg hne]
    | cons c a =>
      rw [List.cons_append, stripScheme, stripScheme]
      split
      · exact ih (fun hmem => h (List.mem_cons_of_mem s hmem)) a
      · rfl

/-- The scheme is read before the first slash. -/
theorem takeScheme_append (a r : List Char) :
    takeScheme (a ++ '/' :: r) = (takeScheme a).map fun x => (x.1, x.2 ++ '/' :: r) := by
  unfold takeScheme
  rw [stripScheme_append (by decide), stripScheme_append (by decide)]
  cases stripScheme ['h', 't', 't', 'p', ':'] a with
  | some rest => rfl
  | none =>
    cases stripScheme ['h', 't', 't', 'p', 's', ':'] a with
    | some rest => rfl
    | none => rfl

/-- A URL whose path goes on when segments are appended, and whose last segment is `last`. -/
def Continues (base last : List Char) : Prop :=
  ∃ scheme authority path, ∀ segments : List (List Char), (∀ s ∈ segments, Plain s) →
    parse (base ++ render segments) =
      some { scheme, authority, path := close path last segments, tail := [] }

/-- A URL that is none, or whose query or fragment takes what is appended. -/
def Absorbs (base : List Char) : Prop :=
  ∀ segments : List (List Char), (∀ s ∈ segments, Plain s) →
    ∀ u, parse (base ++ render segments) = some u → u.tail ≠ []

/-- The authority ends before the second of two slashes, if there is a segment between them. -/
theorem authority_append {c : Char} (hc : isSlash c = false) (x w : List Char) :
    ∃ authority behind, ∀ r, authorityOf (x ++ '/' :: c :: w ++ '/' :: r) = authority ∧
      behindAuthority (x ++ '/' :: c :: w ++ '/' :: r) = behind ++ '/' :: r := by
  let y := (x ++ ['/']).dropWhile isSlash ++ c :: w
  have hdrop : ∀ r, (x ++ '/' :: c :: w ++ '/' :: r).dropWhile isSlash = y ++ '/' :: r := by
    intro r
    have hsplit : x ++ '/' :: c :: w ++ '/' :: r = (x ++ ['/']) ++ c :: (w ++ '/' :: r) := by
      simp only [List.append_assoc, List.cons_append, List.nil_append]
    rw [hsplit, dropWhile_append_cons hc]
    simp only [y, List.append_assoc, List.cons_append]
  have hslash : (!endsAuthority '/') = false := rfl
  refine ⟨y.takeWhile fun c => !endsAuthority c, y.dropWhile fun c => !endsAuthority c, fun r => ?_⟩
  unfold authorityOf behindAuthority
  rw [hdrop]
  exact ⟨takeWhile_append_cons hslash y r, dropWhile_append_cons hslash y r⟩

section Append

variable {a w : List Char} {c : Char}

/-- A slash in the path ends the same segments whatever comes behind it. -/
theorem parse_append (hc : isSlash c = false) (hvisible : Visible (c :: w)) :
    (∃ scheme authority path, ∀ r, Visible r →
      parse (a ++ '/' :: c :: w ++ '/' :: r) =
        some { scheme, authority, path := (pathState path [] r).1, tail := (pathState path [] r).2 }) ∨
      ∀ r, Visible r → ∀ u, parse (a ++ '/' :: c :: w ++ '/' :: r) = some u → u.tail ≠ [] := by
  let front := (a.dropWhile isControlOrSpace).filter fun c => !isTabOrNewline c
  have hclean : ∀ r, Visible r →
      clean (a ++ '/' :: c :: w ++ '/' :: r) = front ++ '/' :: (c :: w ++ '/' :: r) := by
    intro r hr
    rw [List.append_assoc]
    refine clean_append a (s := c :: w ++ '/' :: r) fun d hd => ?_
    rcases List.mem_cons.mp hd with rfl | hd
    · decide
    rcases List.mem_append.mp hd with hd | hd
    · exact hvisible d hd
    rcases List.mem_cons.mp hd with rfl | hd
    · decide
    · exact hr d hd
  cases hscheme : takeScheme front with
  | none =>
    refine Or.inr fun r hr u hu => ?_
    unfold parse at hu
    rw [hclean r hr, takeScheme_append, hscheme] at hu
    cases hu
  | some x =>
    obtain ⟨scheme, x⟩ := x
    have hparse : ∀ r, Visible r → parse (a ++ '/' :: c :: w ++ '/' :: r) =
        parseRest scheme (x ++ '/' :: c :: w ++ '/' :: r) := by
      intro r hr
      unfold parse
      rw [hclean r hr, takeScheme_append, hscheme, List.append_assoc x]
      rfl
    obtain ⟨authority, behind, hauthority⟩ := authority_append hc x w
    cases hempty : authority.isEmpty with
    | true =>
      refine Or.inr fun r hr u hu => ?_
      unfold parseRest at hparse
      rw [hparse r hr, (hauthority r).1, hempty] at hu
      cases hu
    | false =>
      have hsome : ∀ r, Visible r → parse (a ++ '/' :: c :: w ++ '/' :: r) =
          some { scheme, authority, path := (pathStart (behind ++ '/' :: r)).1,
                 tail := (pathStart (behind ++ '/' :: r)).2 } := by
        intro r hr
        unfold parseRest at hparse
        rw [hparse r hr, (hauthority r).1, (hauthority r).2, hempty]
        rfl
      rcases pathStart_append behind with ⟨path, tail, hne, hstart⟩ | ⟨path, hstart⟩
      · refine Or.inr fun r hr u hu => ?_
        rw [hsome r hr, hstart r] at hu
        cases hu
        exact List.append_ne_nil_of_left_ne_nil hne _
      · refine Or.inl ⟨scheme, authority, path, fun r hr => ?_⟩
        rw [hsome r hr, hstart r]

variable {last : List Char}

theorem visible_of_plain {s : List Char} (h : Plain s) : Visible s := fun c hc =>
  (isPlain_iff.mp (h c hc)).1

theorem visible_render {segments : List (List Char)} (h : ∀ s ∈ segments, Plain s) :
    Visible (render segments) := by
  intro c hc
  obtain ⟨s, hs, hc⟩ := List.mem_flatMap.mp hc
  rcases List.mem_cons.mp hc with rfl | hc
  · decide
  · exact visible_of_plain (h s hs) c hc

/-- **Appending plain segments**: to a URL without a query or fragment they are closed behind its path;
of any other they become the query or the fragment. -/
theorem continues_or_absorbs (hc : isSlash c = false) (hvisible : Visible (c :: w))
    (hlast : Plain last) :
    Continues (a ++ '/' :: c :: w ++ '/' :: last) last ∨
      Absorbs (a ++ '/' :: c :: w ++ '/' :: last) := by
  have hvis : ∀ segments : List (List Char), (∀ s ∈ segments, Plain s) →
      Visible (last ++ render segments) := by
    intro segments hsegments d hd
    rcases List.mem_append.mp hd with hd | hd
    · exact visible_of_plain hlast d hd
    · exact visible_render hsegments d hd
  have happend : ∀ segments, (a ++ '/' :: c :: w ++ '/' :: last) ++ render segments =
      a ++ '/' :: c :: w ++ '/' :: (last ++ render segments) := fun segments => by
    rw [List.append_assoc, List.cons_append]
  rcases parse_append (a := a) hc hvisible with ⟨scheme, authority, path, h⟩ | h
  · refine Or.inl ⟨scheme, authority, path, fun segments hsegments => ?_⟩
    rw [happend, h _ (hvis segments hsegments), pathState_plain hlast, List.nil_append,
      pathState_render hsegments]
  · refine Or.inr fun segments hsegments u hu => ?_
    rw [happend] at hu
    exact h _ (hvis segments hsegments) u hu

end Append

end PulsarClient.Url

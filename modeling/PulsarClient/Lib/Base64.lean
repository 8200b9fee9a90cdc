/-
  BASE64 with the standard alphabet and padding: three bytes as four digits, the last one or two bytes
  filled up with `=`.

  A decoder may be lenient about the bits that the padding leaves over, or about the padding itself; the
  one here is CANONICAL: it accepts what `encode` writes and nothing else.

  1. `digit`, `value` — the alphabet, and back.

  2. `decode_encode` and `encode_decode` — each inverts the other, by induction on groups.
-/
import Mathlib.Data.List.Basic

namespace PulsarClient.Base64

/-! ## The alphabet -/

/-- `A`–`Z`, `a`–`z`, `0`–`9`, `+`, `/` -/
def digit (n : Nat) : Char :=
  if n < 26 then Char.ofNat (65 + n)
  else if n < 52 then Char.ofNat (71 + n)
  else if n < 62 then Char.ofNat (n - 4)
  else if n = 62 then '+'
  else '/'

def value (c : Char) : Option Nat :=
  if 65 ≤ c.toNat ∧ c.toNat ≤ 90 then some (c.toNat - 65)
  else if 97 ≤ c.toNat ∧ c.toNat ≤ 122 then some (c.toNat - 71)
  else if 48 ≤ c.toNat ∧ c.toNat ≤ 57 then some (c.toNat + 4)
  else if c = '+' then some 62
  else if c = '/' then some 63
  else none

theorem value_digit : ∀ n < 64, value (digit n) = some n ∧ digit n ≠ '=' := by decide +kernel

theorem digit_value {c : Char} {n : Nat} (h : value c = some n) : n < 64 ∧ digit n = c := by
  have hc : Char.ofNat c.toNat = c := Char.ofNat_toNat c
  unfold value at h
  split at h
  next hupper =>
    obtain rfl := Option.some.inj h
    unfold digit
    rw [if_pos (by omega), show 65 + (c.toNat - 65) = c.toNat by omega]
    exact ⟨by omega, hc⟩
  split at h
  next hlower =>
    obtain rfl := Option.some.inj h
    unfold digit
    rw [if_neg (by omega), if_pos (by omega), show 71 + (c.toNat - 71) = c.toNat by omega]
    exact ⟨by omega, hc⟩
  split at h
  next hdigit =>
    obtain rfl := Option.some.inj h
    unfold digit
    rw [if_neg (by omega), if_neg (by omega), if_pos (by omega),
      show c.toNat + 4 - 4 = c.toNat by omega]
    exact ⟨by omega, hc⟩
  split at h
  next hplus =>
    obtain rfl := Option.some.inj h
    exact ⟨by decide, hplus.symm⟩
  split at h
  next hslash =>
    obtain rfl := Option.some.inj h
    exact ⟨by decide, hslash.symm⟩
  · cases h

/-! ## Encoding -/

def encodeChars : List UInt8 → List Char
  | [] => []
  | [a] => [digit (a.toNat / 4), digit (a.toNat % 4 * 16), '=', '=']
  | [a, b] =>
    [digit (a.toNat / 4), digit (a.toNat % 4 * 16 + b.toNat / 16), digit (b.toNat % 16 * 4), '=']
  | a :: b :: c :: rest =>
    digit (a.toNat / 4) :: digit (a.toNat % 4 * 16 + b.toNat / 16) ::
      digit (b.toNat % 16 * 4 + c.toNat / 64) :: digit (c.toNat % 64) :: encodeChars rest

def encode (bytes : List UInt8) : String := String.ofList (encodeChars bytes)

/-! ## Decoding -/

/-- The byte before `==`, if the bits left over are zero. -/
def decodeOne (w x : Char) : Option (List UInt8) :=
  match value w, value x with
  | some p, some q => if q % 16 = 0 then some [UInt8.ofNat (p * 4 + q / 16)] else none
  | _, _ => none

/-- The two bytes before `=`. -/
def decodeTwo (w x y : Char) : Option (List UInt8) :=
  match value w, value x, value y with
  | some p, some q, some r =>
    if r % 4 = 0 then
      some [UInt8.ofNat (p * 4 + q / 16), UInt8.ofNat (q % 16 * 16 + r / 4)]
    else none
  | _, _, _ => none

/-- A whole group. -/
def decodeThree (w x y z : Char) : Option (List UInt8) :=
  match value w, value x, value y, value z with
  | some p, some q, some r, some t =>
    some [UInt8.ofNat (p * 4 + q / 16), UInt8.ofNat (q % 16 * 16 + r / 4),
      UInt8.ofNat (r % 4 * 64 + t)]
  | _, _, _, _ => none

def decodeChars : List Char → Option (List UInt8)
  | [] => some []
  | w :: x :: y :: z :: rest =>
    if z = '=' then
      if rest = [] then if y = '=' then decodeOne w x else decodeTwo w x y
      else none
    else
      match decodeThree w x y z, decodeChars rest with
      | some group, some bytes => some (group ++ bytes)
      | _, _ => none
  | _ => none

def decode (text : String) : Option (List UInt8) := decodeChars text.toList

/-! ## Each inverts the other -/

theorem decodeChars_encodeChars (bytes : List UInt8) : decodeChars (encodeChars bytes) = some bytes := by
  induction bytes using encodeChars.induct with
  | case1 => rfl
  | case2 a =>
    have ha := a.toNat_lt
    show decodeOne (digit (a.toNat / 4)) (digit (a.toNat % 4 * 16)) = _
    unfold decodeOne
    rw [(value_digit (a.toNat / 4) (by omega)).1, (value_digit (a.toNat % 4 * 16) (by omega)).1]
    have hzero : a.toNat % 4 * 16 % 16 = 0 := by omega
    have hbyte : a.toNat / 4 * 4 + a.toNat % 4 * 16 / 16 = a.toNat := by omega
    simp only [hzero, hbyte, if_true, UInt8.ofNat_toNat]
  | case3 a b =>
    have ha := a.toNat_lt
    have hb := b.toNat_lt
    obtain ⟨hx, -⟩ := value_digit (a.toNat % 4 * 16 + b.toNat / 16) (by omega)
    obtain ⟨hy, hpad⟩ := value_digit (b.toNat % 16 * 4) (by omega)
    show (if digit (b.toNat % 16 * 4) = '=' then _ else decodeTwo _ _ _) = _
    rw [if_neg hpad]
    unfold decodeTwo
    rw [(value_digit (a.toNat / 4) (by omega)).1, hx, hy]
    have hzero : b.toNat % 16 * 4 % 4 = 0 := by omega
    have hfirst : a.toNat / 4 * 4 + (a.toNat % 4 * 16 + b.toNat / 16) / 16 = a.toNat := by omega
    have hsecond : (a.toNat % 4 * 16 + b.toNat / 16) % 16 * 16 + b.toNat % 16 * 4 / 4 = b.toNat := by
      omega
    simp only [hzero, hfirst, hsecond, if_true, UInt8.ofNat_toNat]
  | case4 a b c rest ih =>
    have ha := a.toNat_lt
    have hb := b.toNat_lt
    have hc := c.toNat_lt
    obtain ⟨hx, -⟩ := value_digit (a.toNat % 4 * 16 + b.toNat / 16) (by omega)
    obtain ⟨hy, -⟩ := value_digit (b.toNat % 16 * 4 + c.toNat / 64) (by omega)
    obtain ⟨hz, hpad⟩ := value_digit (c.toNat % 64) (by omega)
    have hfirst : a.toNat / 4 * 4 + (a.toNat % 4 * 16 + b.toNat / 16) / 16 = a.toNat := by omega
    have hsecond : (a.toNat % 4 * 16 + b.toNat / 16) % 16 * 16 +
        (b.toNat % 16 * 4 + c.toNat / 64) / 4 = b.toNat := by omega
    have hthird : (b.toNat % 16 * 4 + c.toNat / 64) % 4 * 64 + c.toNat % 64 = c.toNat := by omega
    rw [encodeChars, decodeChars, if_neg hpad, ih]
    unfold decodeThree
    rw [(value_digit (a.toNat / 4) (by omega)).1, hx, hy, hz]
    simp only [hfirst, hsecond, hthird, UInt8.ofNat_toNat]
    rfl

/-- **What has been encoded is decoded.** -/
theorem decode_encode (bytes : List UInt8) : decode (encode bytes) = some bytes := by
  unfold decode encode
  rw [String.toList_ofList, decodeChars_encodeChars]

theorem toNat_ofNat_lt {n : Nat} (h : n < 256) : (UInt8.ofNat n).toNat = n := by
  rw [UInt8.toNat_ofNat']
  exact Nat.mod_eq_of_lt h

theorem encodeChars_decodeOne {w x : Char} {bytes : List UInt8} (h : decodeOne w x = some bytes) :
    encodeChars bytes = [w, x, '=', '='] := by
  unfold decodeOne at h
  split at h
  next p q hp hq =>
    obtain ⟨hplt, rfl⟩ := digit_value hp
    obtain ⟨hqlt, rfl⟩ := digit_value hq
    split at h
    next hzero =>
      obtain rfl := Option.some.inj h
      have hbyte : (UInt8.ofNat (p * 4 + q / 16)).toNat = p * 4 + q / 16 := toNat_ofNat_lt (by omega)
      have hfirst : (p * 4 + q / 16) / 4 = p := by omega
      have hsecond : (p * 4 + q / 16) % 4 * 16 = q := by omega
      simp only [encodeChars, hbyte, hfirst, hsecond]
    next => cases h
  next => cases h

theorem encodeChars_decodeTwo {w x y : Char} {bytes : List UInt8}
    (h : decodeTwo w x y = some bytes) : encodeChars bytes = [w, x, y, '='] := by
  unfold decodeTwo at h
  split at h
  next p q r hp hq hr =>
    obtain ⟨hplt, rfl⟩ := digit_value hp
    obtain ⟨hqlt, rfl⟩ := digit_value hq
    obtain ⟨hrlt, rfl⟩ := digit_value hr
    split at h
    next hzero =>
      obtain rfl := Option.some.inj h
      have hbyte : (UInt8.ofNat (p * 4 + q / 16)).toNat = p * 4 + q / 16 := toNat_ofNat_lt (by omega)
      have hnext : (UInt8.ofNat (q % 16 * 16 + r / 4)).toNat = q % 16 * 16 + r / 4 :=
        toNat_ofNat_lt (by omega)
      have hfirst : (p * 4 + q / 16) / 4 = p := by omega
      have hsecond : (p * 4 + q / 16) % 4 * 16 + (q % 16 * 16 + r / 4) / 16 = q := by omega
      have hthird : (q % 16 * 16 + r / 4) % 16 * 4 = r := by omega
      simp only [encodeChars, hbyte, hnext, hfirst, hsecond, hthird]
    next => cases h
  next => cases h

/-- A whole group stands in front of whatever follows. -/
theorem encodeChars_decodeThree {w x y z : Char} {group : List UInt8}
    (h : decodeThree w x y z = some group) (bytes : List UInt8) :
    encodeChars (group ++ bytes) = w :: x :: y :: z :: encodeChars bytes := by
  unfold decodeThree at h
  split at h
  next p q r t hp hq hr ht =>
    obtain ⟨hplt, rfl⟩ := digit_value hp
    obtain ⟨hqlt, rfl⟩ := digit_value hq
    obtain ⟨hrlt, rfl⟩ := digit_value hr
    obtain ⟨htlt, rfl⟩ := digit_value ht
    obtain rfl := Option.some.inj h
    have hbyte : (UInt8.ofNat (p * 4 + q / 16)).toNat = p * 4 + q / 16 := toNat_ofNat_lt (by omega)
    have hnext : (UInt8.ofNat (q % 16 * 16 + r / 4)).toNat = q % 16 * 16 + r / 4 :=
      toNat_ofNat_lt (by omega)
    have hlast : (UInt8.ofNat (r % 4 * 64 + t)).toNat = r % 4 * 64 + t := toNat_ofNat_lt (by omega)
    have hfirst : (p * 4 + q / 16) / 4 = p := by omega
    have hsecond : (p * 4 + q / 16) % 4 * 16 + (q % 16 * 16 + r / 4) / 16 = q := by omega
    have hthird : (q % 16 * 16 + r / 4) % 16 * 4 + (r % 4 * 64 + t) / 64 = r := by omega
    have hfourth : (r % 4 * 64 + t) % 64 = t := by omega
    simp only [List.cons_append, List.nil_append, encodeChars, hbyte, hnext, hlast, hfirst, hsecond,
      hthird, hfourth]
  next => cases h

theorem encodeChars_decodeChars (text : List Char) {bytes : List UInt8}
    (h : decodeChars text = some bytes) : encodeChars bytes = text := by
  induction text using decodeChars.induct generalizing bytes with
  | case1 => rw [← Option.some.inj h]; rfl
  | case2 w x => exact encodeChars_decodeOne h
  | case3 w x y hy =>
    refine encodeChars_decodeTwo ?_
    rw [decodeChars, if_pos rfl, if_pos rfl, if_neg hy] at h
    exact h
  | case4 w x y rest hrest =>
    rw [decodeChars, if_pos rfl, if_neg hrest] at h
    cases h
  | case5 w x y z rest hz group tail htail hgroup ih =>
    rw [decodeChars, if_neg hz, hgroup, htail] at h
    obtain rfl := Option.some.inj h
    rw [encodeChars_decodeThree hgroup, ih htail]
  | case6 w x y z rest hz hnone ih =>
    rw [decodeChars, if_neg hz] at h
    split at h
    next group tail hgroup htail => exact (hnone group tail hgroup htail).elim
    next => cases h
  | case7 text hnil hcons =>
    unfold decodeChars at h
    split at h
    next => exact (hnil rfl).elim
    next w x y z rest => exact (hcons w x y z rest rfl).elim
    next => cases h

/-- **Only what `encode` writes is accepted.** -/
theorem encode_decode {text : String} {bytes : List UInt8} (h : decode text = some bytes) :
    encode bytes = text := by
  unfold encode
  rw [encodeChars_decodeChars text.toList h, String.ofList_toList]

end PulsarClient.Base64

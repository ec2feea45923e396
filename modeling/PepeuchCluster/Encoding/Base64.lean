import Mathlib.Data.List.Basic

namespace Base64

def digit (n : Nat) : Char :=
  if n < 26 then Char.ofNat (n + 65)
  else if n < 52 then Char.ofNat (n + 71)
  else if n < 62 then Char.ofNat (n - 4)
  else if n = 62 then '+'
  else '/'

def value (c : Char) : Option Nat :=
  if 'A' ≤ c ∧ c ≤ 'Z' then some (c.toNat - 65)
  else if 'a' ≤ c ∧ c ≤ 'z' then some (c.toNat - 71)
  else if '0' ≤ c ∧ c ≤ '9' then some (c.toNat + 4)
  else if c = '+' then some 62
  else if c = '/' then some 63
  else none

def encode : List UInt8 → List Char
  | [] => []
  | [a] => [digit (a.toNat / 4), digit (a.toNat % 4 * 16), '=', '=']
  | [a, b] =>
    [digit (a.toNat / 4), digit (a.toNat % 4 * 16 + b.toNat / 16), digit (b.toNat % 16 * 4), '=']
  | a :: b :: c :: rest =>
    digit (a.toNat / 4) :: digit (a.toNat % 4 * 16 + b.toNat / 16) ::
      digit (b.toNat % 16 * 4 + c.toNat / 64) :: digit (c.toNat % 64) :: encode rest

/-- The scan of `binascii.a2b_base64` in strict mode: the position in the group of
    four, the bits left over, the padding seen in this group and whether any was seen. -/
def scan : List Char → Nat → Nat → Nat → Bool → Option (List UInt8)
  | [], position, _, _, _ => if position = 0 then some [] else none
  | c :: rest, position, left, pads, padded =>
    if c = '=' then
      if 2 ≤ position ∧ 4 ≤ position + (pads + 1) then if rest = [] then some [] else none
      else scan rest position left (if 2 ≤ position then pads + 1 else pads) true
    else
      match value c with
      | none => none
      | some bits =>
        if padded then none
        else if position = 0 then scan rest 1 bits 0 padded
        else if position = 1 then
          (scan rest 2 (bits % 16) 0 padded).map (UInt8.ofNat (left * 4 + bits / 16) :: ·)
        else if position = 2 then
          (scan rest 3 (bits % 4) 0 padded).map (UInt8.ofNat (left * 16 + bits / 4) :: ·)
        else (scan rest 0 0 0 padded).map (UInt8.ofNat (left * 64 + bits) :: ·)

/-- `base64.b64decode(text, validate=True)`: padding may not come first. -/
def decode (text : List Char) : Option (List UInt8) :=
  if text.head? = some '=' then none else scan text 0 0 0 false

theorem value_digit : ∀ n < 64, value (digit n) = some n := by decide

theorem digit_ne_pad : ∀ n < 64, digit n ≠ '=' := by decide

/-- A digit of a group is read for its bits. -/
theorem scan_digit {n position left pads : Nat} (h : n < 64) (rest : List Char) :
    scan (digit n :: rest) position left pads false =
      if position = 0 then scan rest 1 n 0 false
      else if position = 1 then
        (scan rest 2 (n % 16) 0 false).map (UInt8.ofNat (left * 4 + n / 16) :: ·)
      else if position = 2 then
        (scan rest 3 (n % 4) 0 false).map (UInt8.ofNat (left * 16 + n / 4) :: ·)
      else (scan rest 0 0 0 false).map (UInt8.ofNat (left * 64 + n) :: ·) := by
  rw [scan, if_neg (digit_ne_pad n h), value_digit n h]
  rfl

theorem ofNat_byte {n : Nat} {a : UInt8} (h : n = a.toNat) : UInt8.ofNat n = a := by
  rw [h, UInt8.ofNat_toNat]

/-- What was encoded is read back, a group of three bytes at a time. -/
theorem scan_encode (bytes : List UInt8) : scan (encode bytes) 0 0 0 false = some bytes := by
  induction bytes using encode.induct with
  | case1 => rfl
  | case2 a =>
    have ha : a.toNat < 256 := a.toNat_lt
    rw [encode, scan_digit (by omega), if_pos rfl, scan_digit (by omega),
      if_neg (by decide), if_pos rfl]
    rw [ofNat_byte (a := a) (by omega)]
    rfl
  | case3 a b =>
    have ha : a.toNat < 256 := a.toNat_lt
    have hb : b.toNat < 256 := b.toNat_lt
    rw [encode, scan_digit (by omega), if_pos rfl, scan_digit (by omega),
      if_neg (by decide), if_pos rfl, scan_digit (by omega), if_neg (by decide),
        if_neg (by decide), if_pos rfl]
    rw [ofNat_byte (a := a) (by omega), ofNat_byte (a := b) (by omega)]
    rfl
  | case4 a b c rest ih =>
    have ha : a.toNat < 256 := a.toNat_lt
    have hb : b.toNat < 256 := b.toNat_lt
    have hc : c.toNat < 256 := c.toNat_lt
    rw [encode, scan_digit (by omega), if_pos rfl, scan_digit (by omega),
      if_neg (by decide), if_pos rfl, scan_digit (by omega), if_neg (by decide),
        if_neg (by decide), if_pos rfl,
      scan_digit (by omega), if_neg (by decide), if_neg (by decide), if_neg (by decide), ih]
    rw [ofNat_byte (a := a) (by omega), ofNat_byte (a := b) (by omega),
      ofNat_byte (a := c) (by omega)]
    rfl

theorem decode_encode (bytes : List UInt8) : decode (encode bytes) = some bytes := by
  have hhead : (encode bytes).head? ≠ some '=' := by
    fun_cases encode bytes with
    | case1 => simp
    | case2 a =>
      have ha : a.toNat < 256 := a.toNat_lt
      simpa using digit_ne_pad _ (by omega)
    | case3 a b =>
      have ha : a.toNat < 256 := a.toNat_lt
      simpa using digit_ne_pad _ (by omega)
    | case4 a b c rest =>
      have ha : a.toNat < 256 := a.toNat_lt
      simpa using digit_ne_pad _ (by omega)
  rw [decode, if_neg hhead, scan_encode]

theorem encode_length (bytes : List UInt8) :
    (encode bytes).length = (bytes.length + 2) / 3 * 4 := by
  induction bytes using encode.induct with
  | case1 => rfl
  | case2 a => simp [encode]
  | case3 a b => simp [encode]
  | case4 a b c rest ih =>
    simp only [encode, List.length_cons, ih]
    omega

end Base64

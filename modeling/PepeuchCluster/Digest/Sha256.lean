import Mathlib.Algebra.Group.Nat.Defs
import Mathlib.Data.List.Basic

namespace Sha256

def word (n : Nat) : Nat := n % 4294967296

def rotr (x k : Nat) : Nat := (x >>> k) ||| word (x <<< (32 - k))

def complement (x : Nat) : Nat := 4294967295 - x

def roundConstants : List Nat := [
  0x428a2f98, 0x71374491, 0xb5c0fbcf, 0xe9b5dba5, 0x3956c25b, 0x59f111f1, 0x923f82a4, 0xab1c5ed5,
  0xd807aa98, 0x12835b01, 0x243185be, 0x550c7dc3, 0x72be5d74, 0x80deb1fe, 0x9bdc06a7, 0xc19bf174,
  0xe49b69c1, 0xefbe4786, 0x0fc19dc6, 0x240ca1cc, 0x2de92c6f, 0x4a7484aa, 0x5cb0a9dc, 0x76f988da,
  0x983e5152, 0xa831c66d, 0xb00327c8, 0xbf597fc7, 0xc6e00bf3, 0xd5a79147, 0x06ca6351, 0x14292967,
  0x27b70a85, 0x2e1b2138, 0x4d2c6dfc, 0x53380d13, 0x650a7354, 0x766a0abb, 0x81c2c92e, 0x92722c85,
  0xa2bfe8a1, 0xa81a664b, 0xc24b8b70, 0xc76c51a3, 0xd192e819, 0xd6990624, 0xf40e3585, 0x106aa070,
  0x19a4c116, 0x1e376c08, 0x2748774c, 0x34b0bcb5, 0x391c0cb3, 0x4ed8aa4a, 0x5b9cca4f, 0x682e6ff3,
  0x748f82ee, 0x78a5636f, 0x84c87814, 0x8cc70208, 0x90befffa, 0xa4506ceb, 0xbef9a3f7, 0xc67178f2]

structure Hash where
  a : Nat
  b : Nat
  c : Nat
  d : Nat
  e : Nat
  f : Nat
  g : Nat
  h : Nat

def start : Hash :=
  ⟨0x6a09e667, 0xbb67ae85, 0x3c6ef372, 0xa54ff53a, 0x510e527f, 0x9b05688c, 0x1f83d9ab, 0x5be0cd19⟩

def round (s : Hash) (k w : Nat) : Hash :=
  let t1 := s.h + (rotr s.e 6 ^^^ rotr s.e 11 ^^^ rotr s.e 25) +
    ((s.e &&& s.f) ^^^ (complement s.e &&& s.g)) + k + w
  let t2 := (rotr s.a 2 ^^^ rotr s.a 13 ^^^ rotr s.a 22) +
    ((s.a &&& s.b) ^^^ (s.a &&& s.c) ^^^ (s.b &&& s.c))
  ⟨word (t1 + t2), s.a, s.b, s.c, word (s.d + t1), s.e, s.f, s.g⟩

/-- The word after a window of the last sixteen ones, oldest first. -/
def nextWord : List Nat → Nat
  | [w0, w1, _, _, _, _, _, _, _, w9, _, _, _, _, w14, _] =>
    word (w0 + (rotr w1 7 ^^^ rotr w1 18 ^^^ (w1 >>> 3)) + w9 +
      (rotr w14 17 ^^^ rotr w14 19 ^^^ (w14 >>> 10)))
  | _ => 0

def rounds : List Nat → List Nat → Hash → Hash
  | [], _, s => s
  | _ :: _, [], s => s
  | k :: ks, w :: ws, s => rounds ks (ws ++ [nextWord (w :: ws)]) (round s k w)

def add (s t : Hash) : Hash :=
  ⟨word (s.a + t.a), word (s.b + t.b), word (s.c + t.c), word (s.d + t.d),
    word (s.e + t.e), word (s.f + t.f), word (s.g + t.g), word (s.h + t.h)⟩

def compress (s : Hash) (block : List Nat) : Hash := add s (rounds roundConstants block s)

def words : List UInt8 → List Nat
  | a :: b :: c :: d :: rest =>
    (a.toNat * 16777216 + b.toNat * 65536 + c.toNat * 256 + d.toNat) :: words rest
  | _ => []

def bigEndian : Nat → Nat → List UInt8
  | 0, _ => []
  | k + 1, n => UInt8.ofNat (n / 256 ^ k) :: bigEndian k n

def pad (message : List UInt8) : List UInt8 :=
  message ++ 0x80 :: List.replicate ((119 - message.length % 64) % 64) 0 ++
    bigEndian 8 (8 * message.length)

def blocks : Nat → List Nat → Hash → Hash
  | 0, _, s => s
  | n + 1, ws, s => if ws.isEmpty then s else blocks n (ws.drop 16) (compress s (ws.take 16))

def digest (message : List UInt8) : Hash :=
  blocks (message.length / 64 + 2) (words (pad message)) start

def hexDigit (n : Nat) : Char := Char.ofNat (if n < 10 then 48 + n else 87 + n)

/-- The last `k` hexadecimal digits of `n`. -/
def hex : Nat → Nat → List Char
  | 0, _ => []
  | k + 1, n => hexDigit (n / 16 ^ k % 16) :: hex k n

def Hash.words (s : Hash) : List Nat := [s.a, s.b, s.c, s.d, s.e, s.f, s.g, s.h]

def isHex (c : Char) : Bool := c.isDigit || ('a' ≤ c && c ≤ 'f')

theorem isHex_hexDigit {n : Nat} (h : n < 16) : isHex (hexDigit n) = true := by
  revert n
  decide

theorem hex_length (k n : Nat) : (hex k n).length = k := by
  induction k with
  | zero => rfl
  | succ k ih => simp [hex, ih]

theorem isHex_of_mem_hex {k n : Nat} {c : Char} (h : c ∈ hex k n) : isHex c = true := by
  induction k with
  | zero => simp [hex] at h
  | succ k ih =>
    rcases List.mem_cons.mp h with rfl | h
    · exact isHex_hexDigit (Nat.mod_lt _ (by decide))
    · exact ih h

end Sha256

/-- The lowercase hexadecimal digest of a message. -/
def sha256 (message : List UInt8) : String :=
  String.ofList ((Sha256.digest message).words.flatMap (Sha256.hex 8))

namespace Sha256

theorem sha256_length (message : List UInt8) : (sha256 message).toList.length = 64 := by
  simp [sha256, Hash.words, hex_length]

theorem sha256_isHex {message : List UInt8} {c : Char} (h : c ∈ (sha256 message).toList) :
    isHex c = true := by
  simp only [sha256, String.toList_ofList, List.mem_flatMap] at h
  obtain ⟨_, _, h⟩ := h
  exact isHex_of_mem_hex h

example :
    sha256 [97, 98, 99] = "ba7816bf8f01cfea414140de5dae2223b00361a396177a9cb410ff61f20015ad" := by
  decide +kernel

end Sha256

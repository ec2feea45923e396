import PepeuchCluster.Digest.Sha256

namespace Sha256

/-- The digest as bytes, each word most significant byte first. -/
def digestBytes (message : List UInt8) : List UInt8 :=
  (digest message).words.flatMap fun word => [24, 16, 8, 0].map fun shift =>
    UInt8.ofNat (word / 2 ^ shift % 256)

/-- A key of one block: a longer one is replaced by its digest, and zeros follow. -/
def blockKey (key : List UInt8) : List UInt8 :=
  let short := if 64 < key.length then digestBytes key else key
  short ++ List.replicate (64 - short.length) 0

end Sha256

/-- `hmac.new(key, message, hashlib.sha256).hexdigest()`. -/
def hmac_sha256 (key message : List UInt8) : String :=
  let block := Sha256.blockKey key
  sha256 (block.map (· ^^^ 0x5c) ++ Sha256.digestBytes (block.map (· ^^^ 0x36) ++ message))

namespace Sha256

theorem hmac_length (key message : List UInt8) :
    (hmac_sha256 key message).toList.length = 64 := sha256_length _

theorem hmac_isHex {key message : List UInt8} {c : Char}
    (h : c ∈ (hmac_sha256 key message).toList) :
    isHex c = true :=
  sha256_isHex h

example : hmac_sha256 [107, 101, 121] [100, 97, 116, 97] =
    "5031fe3d989c6d1537a013fa6e739da23463fdaec3b70137d828e36ace221bd0" := by
  decide +kernel

end Sha256

import Tradebook.Crypto.Sha256
import Tradebook.Text.Hex

/-!
# Keyed hashes

A text is signed with a secret: whoever has the secret can tell that the text was
not changed on the way, and nobody else can sign another one.
-/

namespace Tradebook.Crypto

/-- The length of the blocks that the hash works on. -/
def blockLength : Nat :=
  64

/-- The secret as one block; a longer one is hashed first. -/
def keyBlock (secret : List UInt8) : List UInt8 :=
  let key := if blockLength < secret.length then sha256 secret else secret
  key ++ List.replicate (blockLength - key.length) 0

/-- The keyed hash of a byte string. -/
def hmacSha256 (secret message : List UInt8) : List UInt8 :=
  let key := keyBlock secret
  sha256 (key.map (· ^^^ 0x5c) ++ sha256 (key.map (· ^^^ 0x36) ++ message))

/-- The signature of a text, in hexadecimal. -/
def sign (secret payload : String) : String :=
  .ofList (Text.hexBytes (hmacSha256 (Text.utf8 secret) (Text.utf8 payload)))

end Tradebook.Crypto

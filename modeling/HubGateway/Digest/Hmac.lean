/-
**Keyed digests.**

A keyed digest authenticates a message to whoever holds the key.  The key fills one block of
sixty-four bytes, after being digested itself if it is longer; the message is digested behind the
block masked in one way, and that digest behind the block masked in another.

Main definitions:

* `HubGateway.Hmac.sha256` — the keyed SHA-256 digest.
-/

import HubGateway.Digest.Sha256

set_option relaxedAutoImplicit false
set_option autoImplicit false

namespace HubGateway.Hmac

/-- The number of bytes of a block. -/
def blockSize : Nat := 64

/-- The block that a key fills. -/
def keyBlock (key : List UInt8) : List UInt8 :=
  let key := if blockSize < key.length then Sha256.digest key else key
  key ++ List.replicate (blockSize - key.length) 0

/-- The keyed SHA-256 digest of a message. -/
def sha256 (key message : List UInt8) : List UInt8 :=
  let block := keyBlock key
  let inner := Sha256.digest (block.map (· ^^^ 0x36) ++ message)
  Sha256.digest (block.map (· ^^^ 0x5C) ++ inner)

end HubGateway.Hmac

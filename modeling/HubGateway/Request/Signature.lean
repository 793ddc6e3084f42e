/-
**Signatures of requests.**

The hub signs every request with each of its access keys: a signature is a fixed beginning and the
hexadecimal keyed digest of the connection's id.  All signatures travel in one header, so that a
key can be replaced while both the old and the new one are accepted.  A request is authentic if any
key that is not empty gives any of the signatures; the case of ASCII letters does not count.

The digest is a parameter of every check, with the one that the hub uses as its default.

Main definitions:

* `HubGateway.KeyedDigest` — what digests a message under a key;
* `HubGateway.Signature.compute` — the signature of a connection under a key;
* `HubGateway.Signature.isAuthentic` — whether some key gives some signature;
* `HubGateway.Signature.validates` — the check of a request.
-/

import HubGateway.Digest.Hmac
import HubGateway.Request.Headers
import HubGateway.Request.Parameters
import HubGateway.Text.Hex

set_option relaxedAutoImplicit false
set_option autoImplicit false

namespace HubGateway

/-- What digests a message, its second argument, under a key. -/
abbrev KeyedDigest := List UInt8 → List UInt8 → List UInt8

namespace Signature

/-- What every signature begins with. -/
def scheme : String := "sha256="

/-- The signature of a connection under a key. -/
def compute (key connectionId : String) (digest : KeyedDigest := Hmac.sha256) : String :=
  scheme ++ String.ofList (Hex.encode (digest (Utf8.encode key) (Utf8.encode connectionId)))

/-- Whether some key gives some of the carried signatures. -/
def isAuthentic (connectionId : String) (signatures keys : List String)
    (digest : KeyedDigest := Hmac.sha256) : Bool :=
  let carried := signatures.map Text.lowerAscii
  (keys.filter (!·.isEmpty)).any fun key => carried.contains (compute key connectionId digest)

/-- Whether a request is authentic under the keys; without a connection id or a signature it is
not. -/
def validates (h : Headers) (keys : List String) (digest : KeyedDigest := Hmac.sha256) : Bool :=
  match h.value? Headers.connectionId with
  | none => false
  | some connectionId =>
    match h.value? Headers.signature with
    | none => false
    | some raw => isAuthentic connectionId (Parameters.splitList raw) keys digest

end Signature

end HubGateway

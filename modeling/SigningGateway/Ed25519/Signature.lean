import SigningGateway.Hash.Sha2
import SigningGateway.Ed25519.Point

/-!
# Ed25519 signatures

Keys come from 32-byte seeds.  Verification is strict: the scalar is reduced, neither the key nor
the commitment has small order, and the commitment is compared by its bytes, without cofactor.
-/

namespace SigningGateway

namespace Ed25519

/-- A hash read as a scalar. -/
def scalarOfHash (message : Bytes) : Nat := Bytes.ofLittleEndian (sha512 message) % groupOrder

/-- The secret scalar of a seed: the first half of its hash with the lowest three bits and the top
bit cleared and the next bit set. -/
def secretScalar (seed : Bytes) : Nat :=
  let n := Bytes.ofLittleEndian ((sha512 seed).take 32)
  let top := Nat.pow 2 254
  n % top / 8 * 8 + top

/-- The 32 bytes of the public key of a seed. -/
def publicKey (seed : Bytes) : Bytes := (Point.base.smul (secretScalar seed)).compress

/-- The 64 bytes of the signature of a message with the key of a seed. -/
def sign (seed message : Bytes) : Bytes :=
  let key := publicKey seed
  let nonce := scalarOfHash ((sha512 seed).drop 32 ++ message)
  let commitment := (Point.base.smul nonce).compress
  let challenge := scalarOfHash (commitment ++ key ++ message)
  commitment ++
    Bytes.littleEndian 32 ((nonce + challenge * secretScalar seed) % groupOrder)

/-- Whether 32 bytes are a public key: they decompress to a point. -/
def isPublicKey (key : Bytes) : Bool := (Point.decompress? key).isSome

/-- Whether 64 bytes are a signature of a message under a public key. -/
def verify (key message signature : Bytes) : Bool :=
  let commitment := signature.take 32
  let scalar := Bytes.ofLittleEndian (signature.drop 32)
  match Point.decompress? key, Point.decompress? commitment with
  | some keyPoint, some commitmentPoint =>
    let challenge := scalarOfHash (commitment ++ key ++ message)
    scalar < groupOrder && !commitmentPoint.hasSmallOrder && !keyPoint.hasSmallOrder &&
      ((Point.base.smul scalar).add (keyPoint.neg.smul challenge)).compress = commitment
  | _, _ => false

end Ed25519

end SigningGateway

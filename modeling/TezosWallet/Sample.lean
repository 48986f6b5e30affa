import TezosWallet.Key.Import
import TezosWallet.Operation.Forge

/-!
# Sample keys and operations

Fixed values whose forged and written forms are known, for trying out the library.

## Main definitions

* `Sample.secret`, `Sample.key` — a secret and its key for each curve.
* `Sample.transaction`, `Sample.reveal`, `Sample.contractCall`, `Sample.origination` — contents.
* `Sample.batch` — the contents of a new account's first operation.
-/

namespace TezosWallet.Sample

/-- The block that the sample operations are based on. -/
def branch : String := "BLQMkH2PSTuAJgVm6rGHshY5z6Z6SAmqXv6q1LDzhX6fchJ12Up"

/-- The account that pays, `tz1XJ1UNechmHKhQo4tvVX6qztnVuQuSFKgd`. -/
def source : Address :=
  .implicit .ed25519 (.ofNatBE 20 0x7fd82c06cf5a203f18faaf562447ed1efcc6c010)

/-- The account that is paid, `tz1aWXP237BLwNHJcCD4b3DutCevhqq2T1Z9`. -/
def destination : Address :=
  .implicit .ed25519 (.ofNatBE 20 0xa31e81ac3425310e3274a4698a793b2839dc0afa)

/-- The contract whose hash counts from `00` to `13`. -/
def contract : Address := .originated (.ofNatBE 20 0x000102030405060708090a0b0c0d0e0f10111213)

/-- The public key that is revealed. -/
def publicKey : PublicKey where
  curve := .ed25519
  bytes := Bytes.ofNatBE 32 0x4e7097e206a9afa864475095b58009014f9c24efd54c5d40240c1e807b4ab80c
  length_bytes := Bytes.length_ofNatBE _ _

/-- A secret of each curve: on Ed25519 an arbitrary seed, on the others the number one. -/
def secret : Curve → FixedBytes 32
  | .ed25519 => .ofNatBE 32 0x7579c4881fb998d043417b7c04582aa15179f125c5303e1ee56a9678034d95b0
  | .secp256k1 | .p256 => .ofNatBE 32 1

/-- The key of the sample secret of a curve. -/
def key (curve : Curve) : Except KeyError Key := Key.ofSecret curve (secret curve)

/-- Fields of an operation that the sample source pays for. -/
def manager (fee counter gasLimit storageLimit : UInt64) : ManagerFields :=
  ⟨source, fee, counter, gasLimit, storageLimit⟩

/-- A transfer. -/
def transaction : Content := .transaction (manager 1283 7 10307 0) 20000000000 destination none

/-- The publication of a public key. -/
def reveal : Content := .reveal (manager 1257 5 10000 0) publicKey

/-- A call of the sample contract with a pair of an address and a number. -/
def contractCall : Content :=
  .transaction (manager 3000 10 20000 100) 0 contract
    (some ⟨"transfer", .prim "Pair" [.string destination.toText, .int 10] []⟩)

/-- The code of a contract that ignores its parameter. -/
def script : Script where
  code := .seq [
    .prim "parameter" [.prim "unit" [] []] [],
    .prim "storage" [.prim "unit" [] []] [],
    .prim "code" [.seq [
      .prim "CDR" [] [], .prim "NIL" [.prim "operation" [] []] [], .prim "PAIR" [] []]] []]
  storage := .prim "Unit" [] []

/-- The origination of the sample script. -/
def origination : Content := .origination (manager 1400 9 12000 500) 0 none script

/-- A reveal followed by a transfer, as a new account sends them. -/
def batch : List Content := [reveal, transaction]

end TezosWallet.Sample

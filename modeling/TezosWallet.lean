import TezosWallet.Address
import TezosWallet.Arithmetic
import TezosWallet.Base58
import TezosWallet.Base58.Check
import TezosWallet.Base58.Version
import TezosWallet.Base64
import TezosWallet.Buffer
import TezosWallet.Bytes
import TezosWallet.Cipher.Salsa20
import TezosWallet.Cipher.Secretbox
import TezosWallet.CommandLine.Arguments
import TezosWallet.CommandLine.Command
import TezosWallet.CommandLine.Printing
import TezosWallet.CommandLine.Run
import TezosWallet.Curve.Basic
import TezosWallet.Curve.Ecdsa
import TezosWallet.Curve.Edwards25519
import TezosWallet.Curve.Signing
import TezosWallet.Curve.Weierstrass
import TezosWallet.Decimal.Shortest
import TezosWallet.EncryptedSecret
import TezosWallet.Expression
import TezosWallet.Hash.Blake2b
import TezosWallet.Hash.Hmac
import TezosWallet.Hash.Sha256
import TezosWallet.Hash.Sha512
import TezosWallet.Hex
import TezosWallet.Json.Basic
import TezosWallet.Json.Parser
import TezosWallet.Json.Printer
import TezosWallet.Key.Basic
import TezosWallet.Key.Generate
import TezosWallet.Key.Import
import TezosWallet.Main
import TezosWallet.Micheline.Basic
import TezosWallet.Micheline.Binary
import TezosWallet.Micheline.Json
import TezosWallet.Mnemonic
import TezosWallet.Mnemonic.WordList
import TezosWallet.Operation.Basic
import TezosWallet.Operation.Error
import TezosWallet.Operation.Fields
import TezosWallet.Operation.Forge
import TezosWallet.Operation.Json
import TezosWallet.Proofs.Base58
import TezosWallet.Proofs.Base58.Check
import TezosWallet.Proofs.Base58.Version
import TezosWallet.Proofs.Base64
import TezosWallet.Proofs.Buffer
import TezosWallet.Proofs.Bytes
import TezosWallet.Proofs.Cipher.Secretbox
import TezosWallet.Proofs.CommandLine.Arguments
import TezosWallet.Proofs.CommandLine.Blank
import TezosWallet.Proofs.CommandLine.Describe
import TezosWallet.Proofs.CommandLine.Forge
import TezosWallet.Proofs.CommandLine.Generate
import TezosWallet.Proofs.CommandLine.Run
import TezosWallet.Proofs.Curve.Ecdsa
import TezosWallet.Proofs.Curve.Edwards
import TezosWallet.Proofs.Curve.Edwards25519
import TezosWallet.Proofs.Curve.Malleability
import TezosWallet.Proofs.Curve.Projective
import TezosWallet.Proofs.Curve.Signing
import TezosWallet.Proofs.Curve.Tag
import TezosWallet.Proofs.Curve.Weierstrass
import TezosWallet.Proofs.EncryptedSecret
import TezosWallet.Proofs.Expression
import TezosWallet.Proofs.Expression.Marked
import TezosWallet.Proofs.Expression.Typed
import TezosWallet.Proofs.Hex
import TezosWallet.Proofs.Identifier
import TezosWallet.Proofs.Identifier.Kind
import TezosWallet.Proofs.Json
import TezosWallet.Proofs.Json.Text
import TezosWallet.Proofs.Key.AcceptedText
import TezosWallet.Proofs.Key.EncryptedText
import TezosWallet.Proofs.Key.Generate
import TezosWallet.Proofs.Key.Import
import TezosWallet.Proofs.Key.RawSecret
import TezosWallet.Proofs.Key.SecretText
import TezosWallet.Proofs.Layout
import TezosWallet.Proofs.Micheline.Form
import TezosWallet.Proofs.Micheline.Json
import TezosWallet.Proofs.Micheline.Kept
import TezosWallet.Proofs.Micheline.Layout
import TezosWallet.Proofs.Micheline.Text
import TezosWallet.Proofs.Micheline.Unique
import TezosWallet.Proofs.Mnemonic
import TezosWallet.Proofs.Mnemonic.WordList
import TezosWallet.Proofs.Modular
import TezosWallet.Proofs.Modular.Prime
import TezosWallet.Proofs.Operation.Agreement
import TezosWallet.Proofs.Operation.Atomic
import TezosWallet.Proofs.Operation.Delimited
import TezosWallet.Proofs.Operation.Fault
import TezosWallet.Proofs.Operation.Figure
import TezosWallet.Proofs.Operation.Json
import TezosWallet.Proofs.Operation.Layout
import TezosWallet.Proofs.Operation.Number
import TezosWallet.Proofs.Operation.Signing
import TezosWallet.Proofs.Operation.Unique
import TezosWallet.Proofs.Operation.Written
import TezosWallet.Proofs.Outcome
import TezosWallet.Proofs.Radix
import TezosWallet.Proofs.Text.Blank
import TezosWallet.Proofs.Text.Numeral
import TezosWallet.Proofs.Zarith
import TezosWallet.Proofs.Zarith.Decode
import TezosWallet.Proofs.Zarith.Stream
import TezosWallet.PublicKey
import TezosWallet.Sample
import TezosWallet.Signature
import TezosWallet.Text.Basic
import TezosWallet.Text.Literal
import TezosWallet.Text.Numeral
import TezosWallet.Timestamp
import TezosWallet.Watermark
import TezosWallet.Zarith

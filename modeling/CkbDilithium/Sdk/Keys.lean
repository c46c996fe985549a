import CkbDilithium.Sdk.Runtime
import CkbDilithium.Sdk.Sign

/-!
# Key pairs

`generateKeypair` and `verifySignature` of `sdk/src/crypto.ts`. The two functions of the WebAssembly module they
call are parameters like the others (`WasmModule`): key generation returns the two keys or its status, and
verification its status.
-/

namespace CkbDilithium.Sdk

open Js

structure WasmModule extends WasmExports where
  generateKeypairFromSeed : (seed : Bytes) → Except Nat (Bytes × Bytes)
  verifySignature : (publicKey message signature : Bytes) → Nat

structure DilithiumKeypair where
  publicKey : Bytes
  secretKey : Bytes
  deriving DecidableEq

/-- The keys of a seed, or the error of the status. -/
def keypairOfSeed (wasm : WasmModule) (seed : Bytes) : Js DilithiumKeypair :=
  match wasm.generateKeypairFromSeed seed with
  | .ok (publicKey, secretKey) => pure ⟨publicKey, secretKey⟩
  | .error status => encodeError status

def generateKeypair (env : Environment) (wasm : WasmModule) : Wallet DilithiumKeypair := do
  let seed ← randomBytes env 32
  Action.lift (keypairOfSeed wasm seed)

/-- Status `4` is a signature that does not verify, any other status but `0` an error. -/
def verdict (status : Nat) : Js Bool :=
  if status = 0 then pure true else if status = 4 then pure false else encodeError status

def verifySignature (wasm : WasmModule) (publicKey txHash signature : ByteLike) : Js Bool :=
  let publicKeyBytes := toBytes publicKey
  let messageBytes := toBytes txHash
  let signatureBytes := toBytes signature
  if publicKeyBytes.length ≠ publicKeyLen then
    raise (lit "public key must be " ++ toRadix 10 publicKeyLen ++ lit " bytes")
  else if signatureBytes.length ≠ signatureLen then
    raise (lit "signature must be " ++ toRadix 10 signatureLen ++ lit " bytes")
  else verdict (wasm.verifySignature publicKeyBytes messageBytes signatureBytes)

end CkbDilithium.Sdk

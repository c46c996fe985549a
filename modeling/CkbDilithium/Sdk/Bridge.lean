import CkbDilithium.Lib.LinearMemory
import CkbDilithium.Sdk.Keys

/-!
# The bridge to the WebAssembly module

`instantiateWasm` of `sdk/src/crypto.ts`: how bytes are passed to the module and back through its memory. An
instance is what the module exports, as operations on a state with a memory (`WasmInstance`); a call that traps
throws. The random seeds are arguments.
-/

namespace CkbDilithium.Sdk

open Js LinearMemory

structure WasmInstance (σ : Type) where
  memory : σ → Bytes
  /-- The state after the host has changed the memory. -/
  store : σ → (memory : Bytes) → σ
  alloc : (length : Nat) → Action σ JsError Nat
  dealloc : (ptr len : Nat) → Action σ JsError Unit
  sigLen : Nat
  argsLen : Nat
  generateKeypairFromSeed : (seedPtr seedLen publicKeyOutPtr secretKeyOutPtr : Nat) → Action σ JsError Nat
  hashPubkey : (pubkeyPtr pubkeyLen outPtr : Nat) → Action σ JsError Nat
  ckbHash : (dataPtr dataLen outPtr : Nat) → Action σ JsError Nat
  signMessageWithSeed :
    (secretKeyPtr secretKeyLen messagePtr messageLen seedPtr seedLen outPtr : Nat) → Action σ JsError Nat
  verifySignature :
    (publicKeyPtr publicKeyLen messagePtr messageLen signaturePtr signatureLen : Nat) → Action σ JsError Nat

section

variable {σ : Type} (inst : WasmInstance σ)

namespace WasmApi

/-! ### Memory -/

def readBytes (ptr len : Nat) : Action σ JsError Bytes :=
  Action.update fun s => (.ok (readBlock (inst.memory s) ⟨ptr, len⟩), s)

/-- `memory.set(bytes, ptr)`, which throws beyond the end. -/
def storeBytes (bytes : Bytes) (ptr : Nat) : Action σ JsError Unit :=
  Action.update fun s =>
    if ptr + bytes.length ≤ (inst.memory s).length then (.ok (), inst.store s (writeBlock (inst.memory s) ptr bytes))
    else (raise (lit "offset is out of bounds"), s)

/-- The input is freed whether the callback returns or throws. -/
def withInput {α : Type} (bytes : Bytes) (callback : (ptr : Nat) → Action σ JsError α) : Action σ JsError α := do
  let ptr ← inst.alloc bytes.length
  storeBytes inst bytes ptr
  Action.ensuring (callback ptr) (inst.dealloc ptr bytes.length)

/-- An output that is freed whether the body returns or throws. -/
def withOutput {α : Type} (length : Nat) (body : (outputPtr : Nat) → Action σ JsError α) : Action σ JsError α := do
  let outputPtr ← inst.alloc length
  Action.ensuring (body outputPtr) (inst.dealloc outputPtr length)

/-- `if (status !== 0) encodeError(status)`. -/
def checkStatus (status : Nat) : Js Unit := if status ≠ 0 then encodeError status else pure ()

/-! ### The operations -/

/-- The two hashes differ in the function they call. -/
def hash (function : (dataPtr dataLen outPtr : Nat) → Action σ JsError Nat) (data : Bytes) : Action σ JsError Bytes :=
  withOutput inst inst.argsLen fun outputPtr => withInput inst data fun dataPtr => do
    let status ← function dataPtr data.length outputPtr
    Action.lift (checkStatus status)
    readBytes inst outputPtr inst.argsLen

def hashPubkey (publicKey : Bytes) : Action σ JsError Bytes := hash inst inst.hashPubkey publicKey

def ckbHash (data : Bytes) : Action σ JsError Bytes := hash inst inst.ckbHash data

def signMessage (secretKey message seed : Bytes) : Action σ JsError Bytes :=
  withOutput inst inst.sigLen fun outputPtr =>
    withInput inst secretKey fun secretKeyPtr => withInput inst message fun messagePtr =>
      withInput inst seed fun seedPtr => do
        let status ← inst.signMessageWithSeed secretKeyPtr secretKey.length messagePtr message.length
          seedPtr seed.length
          outputPtr
        Action.lift (checkStatus status)
        readBytes inst outputPtr signatureLen

def verifySignature (publicKey message signature : Bytes) : Action σ JsError Bool :=
  withInput inst publicKey fun publicKeyPtr => withInput inst message fun messagePtr =>
    withInput inst signature fun signaturePtr => do
      let status ← inst.verifySignature publicKeyPtr publicKey.length messagePtr message.length signaturePtr
        signature.length
      Action.lift (verdict status)

/-- The body of the `try` in `generateKeypair`. -/
def keypairAt (seed : Bytes) (publicKeyPtr secretKeyPtr : Nat) : Action σ JsError DilithiumKeypair :=
  withInput inst seed fun seedPtr => do
    let status ← inst.generateKeypairFromSeed seedPtr seed.length publicKeyPtr secretKeyPtr
    Action.lift (checkStatus status)
    let publicKey ← readBytes inst publicKeyPtr publicKeyLen
    let secretKey ← readBytes inst secretKeyPtr secretKeyLen
    pure { publicKey, secretKey }

/-- Both outputs are allocated before the `try` that frees them. -/
def generateKeypair (seed : Bytes) : Action σ JsError DilithiumKeypair := do
  let publicKeyPtr ← inst.alloc publicKeyLen
  let secretKeyPtr ← inst.alloc secretKeyLen
  Action.ensuring (keypairAt inst seed publicKeyPtr secretKeyPtr) do
    inst.dealloc publicKeyPtr publicKeyLen
    inst.dealloc secretKeyPtr secretKeyLen

end WasmApi

end

end CkbDilithium.Sdk

import CkbDilithium.Lib.Result
import CkbDilithium.Ckb.Schema

/-!
# The lock script

`program_entry` and `parse_witness` of `contracts/dillithium-lock/src/main.rs`, with checked 64-bit
`usize` additions and checked slice indexing: a run returns an `i8` or panics. The personalised
blake2b-256, the ML-DSA-65 key decoder and verifier (`Crypto`) and what the host loads for the
script group (`Host`) are parameters.
-/

namespace CkbDilithium.Contract

/-! ### Panicking operations -/

inductive Panic where
  | addOverflow
  | sliceIndex
  deriving DecidableEq

abbrev Rust := Except Panic

/-- `a + b` on `usize`. -/
def usizeAdd (a b : Nat) : Rust Nat := if 2 ^ 64 ≤ a + b then throw .addOverflow else pure (a + b)

/-- `&data[s..e]`. -/
def sliceIndex (data : Bytes) (s e : Nat) : Rust Bytes :=
  if ¬ (s ≤ e ∧ e ≤ data.length) then throw .sliceIndex else pure (slice data s e)

/-- `try_into().ok()` to an array of `size` bytes. -/
def tryIntoArray (size : Nat) (data : Bytes) : Option Bytes :=
  if data.length = size then some data else none

/-! ### The script -/

def errInvalidArgsLength : Int8 := 1
def errInvalidWitness : Int8 := 2
def errPubkeyHashMismatch : Int8 := 3
def errInvalidPubkey : Int8 := 4
def errInvalidSignature : Int8 := 5
def errSignatureVerification : Int8 := 6

/-- `ml_dsa_65::PK_LEN`. -/
def pubkeyBytes : Nat := 1952

/-- `ml_dsa_65::SIG_LEN`. -/
def sigBytes : Nat := 3309

def parseWitness (data : Bytes) : Rust (Option (Bytes × Bytes)) := do
  if data.length < 8 then return none
  let some lenBytes := tryIntoArray 4 (← sliceIndex data 0 4) | return none
  let pubkeyLen := leVal lenBytes
  let pubkeyEnd ← usizeAdd 4 pubkeyLen
  if data.length < (← usizeAdd pubkeyEnd 4) then return none
  let rawPubkey ← sliceIndex data 4 pubkeyEnd
  let some lenBytes := tryIntoArray 4 (← sliceIndex data pubkeyEnd (← usizeAdd pubkeyEnd 4)) | return none
  let sigLen := leVal lenBytes
  let sigEnd ← usizeAdd (← usizeAdd pubkeyEnd 4) sigLen
  if data.length < sigEnd then return none
  return some (rawPubkey, ← sliceIndex data (← usizeAdd pubkeyEnd 4) sigEnd)

/-- The cryptography the script links: `blake2b_256`, `PublicKey::try_from_bytes` and `verify`
(message, signature, context). -/
structure Crypto (PublicKey : Type) where
  blake2b256 : Bytes → Bytes
  tryFromBytes : Bytes → Option PublicKey
  verify : PublicKey → Bytes → Bytes → Bytes → Bool

/-- What the host answers for the running script group; `none` is an error of the call. -/
structure Host where
  loadScript : Option Ckb.Script
  loadTxHash : Option Bytes
  /-- `load_witness_args(0, Source::GroupInput)`. -/
  loadWitnessArgs : Option Ckb.WitnessArgs

variable {PublicKey : Type}

def programEntry (crypto : Crypto PublicKey) (host : Host) : Rust Int8 := do
  let some script := host.loadScript | return errInvalidArgsLength
  let argsRaw := script.args
  if argsRaw.length ≠ 32 then return errInvalidArgsLength
  let some txHash := host.loadTxHash | return errInvalidWitness
  let some witnessArgs := host.loadWitnessArgs | return errInvalidWitness
  let some lockField := witnessArgs.lock | return errInvalidWitness
  let some (rawPubkey, rawSig) ← parseWitness lockField | return errInvalidWitness
  let pubkeyHash := crypto.blake2b256 rawPubkey
  if pubkeyHash ≠ argsRaw then return errPubkeyHashMismatch
  if rawPubkey.length ≠ pubkeyBytes then return errInvalidPubkey
  let some pubkeyArray := tryIntoArray pubkeyBytes rawPubkey | return errInvalidPubkey
  let some publicKey := crypto.tryFromBytes pubkeyArray | return errInvalidPubkey
  if rawSig.length ≠ sigBytes then return errInvalidSignature
  let some sigArray := tryIntoArray sigBytes rawSig | return errInvalidSignature
  if ¬ crypto.verify publicKey txHash sigArray [] then return errSignatureVerification
  return 0

end CkbDilithium.Contract

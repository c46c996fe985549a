import CkbDilithium.Contract.Verdict
import CkbDilithium.Sdk.Witness

/-!
# One witness format, two parsers

The contract's `parseWitness` stops at the end of the second string and ignores what follows, the
SDK's `parseWitnessLock` requires the input to end there. An accepted lock field is therefore one the
SDK can read back exactly when nothing follows the signature, that is when it has
`witnessLockBytes` bytes (`witnessFormat_shared_iff`); any bytes may be appended to an accepted field
without changing the verdict (`programEntry_append`). On what the SDK builds or reads, the builder and
the two parsers agree (`witnessCodec_roundTrip`).
-/

namespace CkbDilithium.System

open Contract Sdk

variable {PublicKey : Type} (crypto : Crypto PublicKey) (script : Ckb.Script) (txHash : Bytes)

/-- A witness with only the lock field set. -/
def lockWitness (w : Bytes) : Ckb.WitnessArgs := ⟨some w, none, none⟩

/-- The two parsers agree on `w`: the SDK reads the parts the contract reads, and would write `w`
for them. -/
def SharedFormat (w : Bytes) : Prop :=
  ∃ pk sig, parseWitness w = .ok (some (pk, sig)) ∧
    parseWitnessLock (.uint8Array w) = .ok ⟨pk, sig⟩ ∧
    buildWitnessLock (.uint8Array pk) (.uint8Array sig) = .ok w

/-- The contract reads the frame of two parts, whatever follows it. -/
theorem parseWitness_frame {pk sig : Bytes} (hpk : pk.length = publicKeyLen) (hsig : sig.length = signatureLen) :
    parseWitness (frame pk sig) = .ok (some (pk, sig)) := by
  rw [publicKeyLen] at hpk
  rw [signatureLen] at hsig
  rw [parseWitness_eq_some]
  refine ⟨by omega, by omega, [], ?_⟩
  rw [List.append_nil, frame]

/-- **The witness codec across its three implementations.** What `buildWitnessLock` writes for a key
and a signature of the right sizes, `parseWitnessLock` and the contract's `parseWitness` read back;
whatever `parseWitnessLock` accepts is what `buildWitnessLock` writes for the parts it returns, and the
contract reads the same parts; on every other input `parseWitnessLock` throws one of its own errors,
never an access outside the input. -/
theorem witnessCodec_roundTrip :
    (∀ publicKey signature : ByteLike, (toBytes publicKey).length = publicKeyLen →
      (toBytes signature).length = signatureLen →
      ∃ w, buildWitnessLock publicKey signature = .ok w ∧
        parseWitnessLock (.uint8Array w) = .ok ⟨toBytes publicKey, toBytes signature⟩ ∧
        parseWitness w = .ok (some (toBytes publicKey, toBytes signature))) ∧
    (∀ (b : ByteLike) (pk sig : Bytes), parseWitnessLock b = .ok ⟨pk, sig⟩ →
      buildWitnessLock (.uint8Array pk) (.uint8Array sig) = .ok (toBytes b) ∧
        parseWitness (toBytes b) = .ok (some (pk, sig))) ∧
    ∀ b : ByteLike, (∀ r, parseWitnessLock b ≠ .ok r) →
      ∃ message ∈ witnessLockMessages, parseWitnessLock b = .error (.error message) := by
  refine ⟨?_, ?_, ?_⟩
  · intro publicKey signature hpk hsig
    exact ⟨frame (toBytes publicKey) (toBytes signature), buildWitnessLock_eq_ok.2 ⟨hpk, hsig, rfl⟩,
      parseWitnessLock_eq_ok.2 ⟨hpk, hsig, rfl⟩, parseWitness_frame hpk hsig⟩
  · intro b pk sig h
    obtain ⟨hpk, hsig, hb⟩ := parseWitnessLock_eq_ok.1 h
    refine ⟨buildWitnessLock_eq_ok.2 ⟨hpk, hsig, hb⟩, ?_⟩
    rw [hb]
    exact parseWitness_frame hpk hsig
  · intro b hb
    obtain ⟨e, he⟩ := Result.exists_error_of_not_ok hb
    obtain ⟨message, hmem, rfl⟩ := parseWitnessLock_eq_error he
    exact ⟨message, hmem, he⟩

theorem witnessCodec_roundTrip_zero :
    ∃ w, buildWitnessLock (.uint8Array (List.replicate 1952 0)) (.uint8Array (List.replicate 3309 0)) = .ok w ∧
      parseWitnessLock (.uint8Array w) = .ok ⟨List.replicate 1952 0, List.replicate 3309 0⟩ ∧
      parseWitness w = .ok (some (List.replicate 1952 0, List.replicate 3309 0)) :=
  witnessCodec_roundTrip.1 (.uint8Array (List.replicate 1952 0)) (.uint8Array (List.replicate 3309 0))
    List.length_replicate List.length_replicate

/-- What the contract reads from an accepted field. -/
theorem parses_of_accept {witnessArgs : Ckb.WitnessArgs} {w : Bytes} (hlock : witnessArgs.lock = some w)
    (haccept : programEntry crypto (hostOf script txHash witnessArgs) = .ok 0) :
    ∃ pk sig, Parses w pk sig ∧ pk.length = publicKeyLen ∧ sig.length = signatureLen := by
  obtain ⟨-, pk, sig, -, ⟨field, hfield, hparse⟩, hpk, hsig, -⟩ :=
    (programEntry_eq_zero crypto script txHash witnessArgs).1 haccept
  rw [hlock, Option.some.injEq] at hfield
  subst hfield
  exact ⟨pk, sig, hparse, hpk, hsig⟩

/-- A field with two parts of the right sizes is the frame of the parts, and the SDK's format when
nothing follows. -/
theorem sharedFormat_iff_of_parses {w pk sig : Bytes} (hparse : Parses w pk sig)
    (hpk : pk.length = publicKeyLen) (hsig : sig.length = signatureLen) :
    SharedFormat w ↔ w.length = witnessLockBytes := by
  obtain ⟨-, -, rest, hrest⟩ := id hparse
  have hframe : w = frame pk sig ++ rest := hrest
  have hlen : w.length = witnessLockBytes + rest.length := by
    rw [hframe, List.length_append, frame_length, hpk, hsig, witnessLockBytes]
  constructor
  · intro h
    rcases h with ⟨pk', sig', -, hsdk, -⟩
    obtain ⟨hpk', hsig', hw⟩ := parseWitnessLock_eq_ok.1 hsdk
    change w = frame pk' sig' at hw
    rw [hw, frame_length, hpk', hsig', witnessLockBytes]
  · intro hw
    obtain rfl : rest = [] := List.length_eq_zero_iff.1 (by omega)
    rw [List.append_nil] at hframe
    exact ⟨pk, sig, parseWitness_eq_some.2 hparse, parseWitnessLock_eq_ok.2 ⟨hpk, hsig, hframe⟩,
      buildWitnessLock_eq_ok.2 ⟨hpk, hsig, hframe⟩⟩

/-- Bytes after the signature do not change the verdict. -/
theorem programEntry_append {w : Bytes} (extra : Bytes)
    (haccept : programEntry crypto (hostOf script txHash (lockWitness w)) = .ok 0) :
    programEntry crypto (hostOf script txHash (lockWitness (w ++ extra))) = .ok 0 := by
  rw [programEntry_eq_zero] at haccept ⊢
  obtain ⟨hargs, pk, sig, key, ⟨field, hfield, hpk, hsig, rest, hdata⟩, hrest⟩ := haccept
  obtain rfl : w = field := Option.some.inj hfield
  refine ⟨hargs, pk, sig, key, ⟨w ++ extra, rfl, hpk, hsig, rest ++ extra, ?_⟩, hrest⟩
  rw [hdata, List.append_assoc _ rest extra]

/-- **An accepted lock field is in the format the SDK reads exactly when nothing follows the
signature**; among fields of that length the key and the signature determine the field. -/
theorem witnessFormat_shared_iff {witnessArgs : Ckb.WitnessArgs} {w : Bytes}
    (hlock : witnessArgs.lock = some w)
    (haccept : programEntry crypto (hostOf script txHash witnessArgs) = .ok 0) :
    (SharedFormat w ↔ w.length = witnessLockBytes) ∧
      (w.length = witnessLockBytes → ∀ w' : Bytes, w'.length = witnessLockBytes →
        parseWitness w' = parseWitness w → w' = w) := by
  obtain ⟨pk, sig, hparse, hpk, hsig⟩ := parses_of_accept crypto script txHash hlock haccept
  refine ⟨sharedFormat_iff_of_parses hparse hpk hsig, fun hw w' hw' hsame => ?_⟩
  have hparse' : Parses w' pk sig := by
    rw [← parseWitness_eq_some, hsame, parseWitness_eq_some]
    exact hparse
  obtain ⟨pk₁, sig₁, hread₁, -, hbuild₁⟩ := (sharedFormat_iff_of_parses hparse hpk hsig).2 hw
  obtain ⟨pk₂, sig₂, hread₂, -, hbuild₂⟩ := (sharedFormat_iff_of_parses hparse' hpk hsig).2 hw'
  obtain ⟨rfl, rfl⟩ := (parseWitness_eq_some.1 hread₁).unique hparse
  obtain ⟨rfl, rfl⟩ := (parseWitness_eq_some.1 hread₂).unique hparse'
  rw [hbuild₁] at hbuild₂
  exact (Except.ok.inj hbuild₂).symm

/-! ### A field with one byte too many -/

/-- A hash, key decoder and verifier that accept everything. -/
def permissiveCrypto : Crypto Unit where
  blake2b256 _ := List.replicate 32 0
  tryFromBytes _ := some ()
  verify _ _ _ _ := true

def zeroScript : Ckb.Script := ⟨List.replicate 32 0, 1, List.replicate 32 0⟩

/-- A zero key and a zero signature. -/
def zeroField : Bytes := frame (List.replicate 1952 0) (List.replicate 3309 0)

theorem zeroField_accepted :
    programEntry permissiveCrypto (hostOf zeroScript (List.replicate 32 0) (lockWitness zeroField)) = .ok 0 := by
  rw [programEntry_eq_zero]
  have hpk : (List.replicate 1952 0 : Bytes).length = 1952 := List.length_replicate
  have hsig : (List.replicate 3309 0 : Bytes).length = 3309 := List.length_replicate
  refine ⟨List.length_replicate, List.replicate 1952 0, List.replicate 3309 0, (),
    ⟨zeroField, rfl, by omega, by omega, [], ?_⟩, hpk, hsig, rfl, rfl, rfl⟩
  rw [List.append_nil]
  rfl

theorem witnessFormat_shared_iff_zeroField :
    (SharedFormat zeroField ↔ zeroField.length = witnessLockBytes) ∧
      (zeroField.length = witnessLockBytes → ∀ w' : Bytes, w'.length = witnessLockBytes →
        parseWitness w' = parseWitness zeroField → w' = zeroField) :=
  witnessFormat_shared_iff permissiveCrypto zeroScript (List.replicate 32 0) rfl zeroField_accepted

/-- One zero byte after the signature: the contract accepts the field, the SDK cannot read it. -/
theorem trailing_byte_accepted :
    programEntry permissiveCrypto
        (hostOf zeroScript (List.replicate 32 0) (lockWitness (zeroField ++ [0]))) = .ok 0 ∧
      (∀ r, parseWitnessLock (.uint8Array (zeroField ++ [0])) ≠ .ok r) ∧
      ¬ SharedFormat (zeroField ++ [0]) := by
  have haccept := programEntry_append permissiveCrypto zeroScript (List.replicate 32 0) [0] zeroField_accepted
  have hlen : (zeroField ++ [0]).length ≠ witnessLockBytes := by
    rw [zeroField, List.length_append, frame_length, List.length_replicate, List.length_replicate]
    decide
  refine ⟨haccept, ?_, ?_⟩
  · rintro ⟨pk, sig⟩ hr
    obtain ⟨hpk, hsig, hw⟩ := parseWitnessLock_eq_ok.1 hr
    change zeroField ++ [0] = frame pk sig at hw
    exact hlen (by rw [hw, frame_length, hpk, hsig, witnessLockBytes])
  · obtain ⟨pk, sig, hparse, hpk, hsig⟩ := parses_of_accept permissiveCrypto zeroScript
      (List.replicate 32 0) rfl haccept
    rw [sharedFormat_iff_of_parses hparse hpk hsig]
    exact hlen

end CkbDilithium.System

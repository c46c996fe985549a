import CkbDilithium.Contract.Lock
import CkbDilithium.Lib.Framing

/-!
# The verdict of the lock script

`parseWitness` never panics and computes a pure function of the lock field (`parseWitness_eq`),
which accepts exactly the strings that start with two length-prefixed parts (`parseWitness_eq_some`).
`Verdict` lists the conditions of the script in their order; a run of the script ends with the code
of the first one that fails, or `0` (`programEntry_eq_ok`).
-/

namespace CkbDilithium.Contract

/-! ### The witness grammar -/

/-- `data` starts with the length-prefixed strings `pk` and `sig`. -/
def Parses (data pk sig : Bytes) : Prop :=
  pk.length < 2 ^ 32 ∧ sig.length < 2 ^ 32 ∧
    ∃ rest, data = leBytes 4 pk.length ++ pk ++ leBytes 4 sig.length ++ sig ++ rest

/-- `parseWitness` without the checks that never fail. -/
def parsed (data : Bytes) : Option (Bytes × Bytes) :=
  if data.length < 8 ∨ data.length < firstEnd data + 4 ∨ data.length < secondEnd data then none
  else some (slice data 4 (firstEnd data), slice data (firstEnd data + 4) (secondEnd data))

theorem usizeAdd_eq {a b : Nat} (h : a + b < 2 ^ 64) : usizeAdd a b = .ok (a + b) :=
  if_neg (by omega)

theorem sliceIndex_eq {data : Bytes} {s e : Nat} (hs : s ≤ e) (he : e ≤ data.length) :
    sliceIndex data s e = .ok (slice data s e) := if_neg (by simp [hs, he])

theorem tryIntoArray_eq {size : Nat} {data : Bytes} (h : data.length = size) :
    tryIntoArray size data = some data := if_pos h

/-- **No addition overflows and no slice is out of range**, on any input. -/
theorem parseWitness_eq (data : Bytes) : parseWitness data = .ok (parsed data) := by
  unfold parseWitness parsed
  by_cases h8 : data.length < 8
  · simp only [h8, if_true, true_or]
    rfl
  have hfirst : 4 + leVal (slice data 0 4) = firstEnd data := rfl
  have hlt := firstEnd_lt (show 4 ≤ data.length by omega)
  simp only [h8, if_false, false_or, sliceIndex_eq (Nat.zero_le 4) (show 4 ≤ data.length by omega),
    Result.ok_bind, tryIntoArray_eq (firstField_length (show 4 ≤ data.length by omega)),
    usizeAdd_eq (show 4 + leVal (slice data 0 4) < 2 ^ 64 by omega), hfirst,
    usizeAdd_eq (show firstEnd data + 4 < 2 ^ 64 by omega)]
  by_cases hpk : data.length < firstEnd data + 4
  · simp only [hpk, if_true, true_or]
    rfl
  have hsecond : firstEnd data + 4 + leVal (slice data (firstEnd data) (firstEnd data + 4)) =
      secondEnd data := rfl
  have hlt2 := secondEnd_lt (show firstEnd data + 4 ≤ data.length by omega)
  simp only [hpk, if_false, false_or,
    sliceIndex_eq (show 4 ≤ firstEnd data by omega) (show firstEnd data ≤ data.length by omega),
    sliceIndex_eq (show firstEnd data ≤ firstEnd data + 4 by omega)
      (show firstEnd data + 4 ≤ data.length by omega),
    Result.ok_bind, tryIntoArray_eq (secondField_length (show firstEnd data + 4 ≤ data.length by omega)),
    usizeAdd_eq (show firstEnd data + 4 +
      leVal (slice data (firstEnd data) (firstEnd data + 4)) < 2 ^ 64 by omega), hsecond]
  by_cases hend : data.length < secondEnd data
  · simp only [hend, if_true]
    rfl
  · simp only [hend, if_false, sliceIndex_eq (firstEnd_le_secondEnd data)
      (show secondEnd data ≤ data.length by omega), Result.ok_bind]
    rfl

/-- What is parsed stands in the input between its two length fields. -/
theorem parses_of_parsed {data pk sig : Bytes} (h : parsed data = some (pk, sig)) :
    Parses data pk sig := by
  unfold parsed at h
  split_ifs at h with hshort
  simp only [not_or, not_lt] at hshort
  obtain ⟨h8, hpk, hsig⟩ := hshort
  simp only [Option.some.injEq, Prod.mk.injEq] at h
  obtain ⟨rfl, rfl⟩ := h
  refine ⟨?_, ?_, data.drop (secondEnd data), (frame_append_drop hsig).symm⟩
  · rw [firstPart_length hsig]
    exact leVal_lt_of_length_four (firstField_length (by omega))
  · rw [secondPart_length hsig]
    exact leVal_lt_of_length_four (secondField_length hpk)

theorem parsed_of_parses {data pk sig : Bytes} (h : Parses data pk sig) :
    parsed data = some (pk, sig) := by
  obtain ⟨hpk, hsig, rest, rfl⟩ := h
  obtain ⟨hfirst, hsecond, hpkPart, hsigPart⟩ := cut_frame hpk hsig rest
  have hlen : (frame pk sig ++ rest).length = 4 + pk.length + 4 + sig.length + rest.length := by
    rw [List.length_append, frame_length]
  rw [show leBytes 4 pk.length ++ pk ++ leBytes 4 sig.length ++ sig = frame pk sig from rfl, parsed,
    hfirst, hsecond, hpkPart, hsigPart, if_neg (by omega)]

/-- **The parser accepts exactly its grammar.** -/
theorem parseWitness_eq_some {data pk sig : Bytes} :
    parseWitness data = .ok (some (pk, sig)) ↔ Parses data pk sig := by
  rw [parseWitness_eq, Except.ok.injEq]
  exact ⟨parses_of_parsed, parsed_of_parses⟩

theorem parsed_eq_none {data : Bytes} : parsed data = none ↔ ∀ pk sig, ¬ Parses data pk sig := by
  constructor
  · intro hnone pk sig hparse
    rw [parsed_of_parses hparse] at hnone
    exact Option.some_ne_none _ hnone
  · intro hnot
    cases hparsed : parsed data with
    | none => rfl
    | some p => exact absurd (parses_of_parsed hparsed) (hnot p.1 p.2)

/-- **The parser on every input**: no addition overflows and no slice is out of range or reversed; it
returns two parts exactly when the input starts with their encoding, and `None` exactly when the
input starts with no such encoding. -/
theorem parseWitness_spec (data : Bytes) :
    (∀ p : Panic, parseWitness data ≠ .error p) ∧
    (∀ pk sig, parseWitness data = .ok (some (pk, sig)) ↔
      pk.length < 2 ^ 32 ∧ sig.length < 2 ^ 32 ∧
        ∃ rest, data = leBytes 4 pk.length ++ pk ++ leBytes 4 sig.length ++ sig ++ rest) ∧
    (parseWitness data = .ok none ↔
      ¬ ∃ pk sig rest, pk.length < 2 ^ 32 ∧ sig.length < 2 ^ 32 ∧
        data = leBytes 4 pk.length ++ pk ++ leBytes 4 sig.length ++ sig ++ rest) := by
  refine ⟨?_, fun pk sig => parseWitness_eq_some, ?_⟩
  · intro p hp
    rw [parseWitness_eq] at hp
    cases hp
  · rw [parseWitness_eq, Except.ok.injEq, parsed_eq_none]
    constructor
    · intro hnot h
      rcases h with ⟨pk, sig, rest, hpk, hsig, hdata⟩
      exact hnot pk sig ⟨hpk, hsig, rest, hdata⟩
    · intro hnot pk sig hparse
      rcases hparse with ⟨hpk, hsig, rest, hdata⟩
      exact hnot ⟨pk, sig, rest, hpk, hsig, hdata⟩

theorem Parses.unique {data pk sig pk' sig' : Bytes} (h : Parses data pk sig)
    (h' : Parses data pk' sig') : pk = pk' ∧ sig = sig' := by
  have := (parsed_of_parses h).symm.trans (parsed_of_parses h')
  simpa using this

/-! ### The verdict -/

variable {PublicKey : Type}

/-- The lock field holds the two parts `pk` and `sig`. -/
def LockParses (lock : Option Bytes) (pk sig : Bytes) : Prop := ∃ field, lock = some field ∧ Parses field pk sig

/-- The documented conditions in the order in which they are checked, each with its code: the code
is that of the first condition that fails. -/
inductive Verdict (crypto : Crypto PublicKey) (args txHash : Bytes) (lock : Option Bytes) : Int8 → Prop where
  | argsLength (hargs : args.length ≠ 32) : Verdict crypto args txHash lock 1
  | witness (hargs : args.length = 32) (hlock : ∀ pk sig, ¬ LockParses lock pk sig) :
      Verdict crypto args txHash lock 2
  | hash {pk sig : Bytes} (hargs : args.length = 32) (hlock : LockParses lock pk sig)
      (hhash : crypto.blake2b256 pk ≠ args) : Verdict crypto args txHash lock 3
  | pubkey {pk sig : Bytes} (hargs : args.length = 32) (hlock : LockParses lock pk sig)
      (hhash : crypto.blake2b256 pk = args)
      (hkey : pk.length ≠ 1952 ∨ crypto.tryFromBytes pk = none) : Verdict crypto args txHash lock 4
  | signature {pk sig : Bytes} {key : PublicKey} (hargs : args.length = 32)
      (hlock : LockParses lock pk sig) (hhash : crypto.blake2b256 pk = args) (hpk : pk.length = 1952)
      (hkey : crypto.tryFromBytes pk = some key) (hsig : sig.length ≠ 3309) :
      Verdict crypto args txHash lock 5
  | verification {pk sig : Bytes} {key : PublicKey} (hargs : args.length = 32)
      (hlock : LockParses lock pk sig) (hhash : crypto.blake2b256 pk = args) (hpk : pk.length = 1952)
      (hkey : crypto.tryFromBytes pk = some key) (hsig : sig.length = 3309)
      (hverify : crypto.verify key txHash sig [] = false) : Verdict crypto args txHash lock 6
  | accept {pk sig : Bytes} {key : PublicKey} (hargs : args.length = 32)
      (hlock : LockParses lock pk sig) (hhash : crypto.blake2b256 pk = args) (hpk : pk.length = 1952)
      (hkey : crypto.tryFromBytes pk = some key) (hsig : sig.length = 3309)
      (hverify : crypto.verify key txHash sig [] = true) : Verdict crypto args txHash lock 0

/-- A script group whose script, transaction hash and `WitnessArgs` all load. -/
def hostOf (script : Ckb.Script) (txHash : Bytes) (witnessArgs : Ckb.WitnessArgs) : Host where
  loadScript := some script
  loadTxHash := some txHash
  loadWitnessArgs := some witnessArgs

section

variable (crypto : Crypto PublicKey) (script : Ckb.Script) (txHash : Bytes) (witnessArgs : Ckb.WitnessArgs)

/-- After the parser: the checks on the two parts. -/
theorem programEntry_of_parses {pk sig : Bytes} (hargs : script.args.length = 32)
    (hlock : LockParses witnessArgs.lock pk sig) :
    programEntry crypto (hostOf script txHash witnessArgs) = .ok (
      if crypto.blake2b256 pk ≠ script.args then 3
      else if pk.length ≠ 1952 then 4
      else match crypto.tryFromBytes pk with
        | none => 4
        | some key =>
          if sig.length ≠ 3309 then 5
          else if crypto.verify key txHash sig [] = true then 0 else 6) := by
  obtain ⟨field, hfield, hparse⟩ := hlock
  simp only [programEntry, hostOf, hargs, hfield, parseWitness_eq_some.2 hparse, ne_eq, not_true,
    if_false, Result.ok_bind]
  by_cases hhash : crypto.blake2b256 pk = script.args
  · by_cases hpk : pk.length = 1952
    · simp only [hhash, hpk, pubkeyBytes, tryIntoArray_eq hpk, not_true, if_false]
      cases hkey : crypto.tryFromBytes pk with
      | none => rfl
      | some key =>
        by_cases hsig : sig.length = 3309
        · simp only [hsig, sigBytes, tryIntoArray_eq hsig, not_true, if_false]
          by_cases hverify : crypto.verify key txHash sig [] = true
          · simp only [hverify, not_true, if_false, if_true]
            rfl
          · simp only [hverify]
            rfl
        · simp only [hsig, sigBytes, not_false_eq_true, if_true]
          rfl
    · simp only [hhash, hpk, pubkeyBytes, not_true, not_false_eq_true, if_false, if_true]
      rfl
  · simp only [hhash, not_false_eq_true, if_true]
    rfl

theorem programEntry_of_argsLength (hargs : script.args.length ≠ 32) :
    programEntry crypto (hostOf script txHash witnessArgs) = .ok 1 := by
  simp only [programEntry, hostOf, hargs, ne_eq, not_false_eq_true, if_true]
  rfl

theorem programEntry_of_not_parses (hargs : script.args.length = 32)
    (hlock : ∀ pk sig, ¬ LockParses witnessArgs.lock pk sig) :
    programEntry crypto (hostOf script txHash witnessArgs) = .ok 2 := by
  cases hfield : witnessArgs.lock with
  | none =>
    simp only [programEntry, hostOf, hargs, hfield, ne_eq, not_true, if_false]
    rfl
  | some field =>
    have hnone : parsed field = none :=
      parsed_eq_none.2 fun pk sig hparse => hlock pk sig ⟨field, hfield, hparse⟩
    simp only [programEntry, hostOf, hargs, hfield, parseWitness_eq, hnone, ne_eq, not_true, if_false,
      Result.ok_bind]
    rfl

theorem programEntry_of_verdict {code : Int8}
    (h : Verdict crypto script.args txHash witnessArgs.lock code) :
    programEntry crypto (hostOf script txHash witnessArgs) = .ok code := by
  cases h with
  | argsLength hargs => exact programEntry_of_argsLength crypto script txHash witnessArgs hargs
  | witness hargs hlock => exact programEntry_of_not_parses crypto script txHash witnessArgs hargs hlock
  | hash hargs hlock hhash =>
    rw [programEntry_of_parses crypto script txHash witnessArgs hargs hlock, if_pos hhash]
  | pubkey hargs hlock hhash hkey =>
    rw [programEntry_of_parses crypto script txHash witnessArgs hargs hlock, if_neg (not_not.2 hhash)]
    rcases hkey with hpk | hkey
    · rw [if_pos hpk]
    · simp [hkey]
  | signature hargs hlock hhash hpk hkey hsig =>
    rw [programEntry_of_parses crypto script txHash witnessArgs hargs hlock]
    simp [hhash, hpk, hkey, hsig]
  | verification hargs hlock hhash hpk hkey hsig hverify =>
    rw [programEntry_of_parses crypto script txHash witnessArgs hargs hlock]
    simp [hhash, hpk, hkey, hsig, hverify]
  | accept hargs hlock hhash hpk hkey hsig hverify =>
    rw [programEntry_of_parses crypto script txHash witnessArgs hargs hlock]
    simp [hhash, hpk, hkey, hsig, hverify]

/-- Some condition is the first to fail, or none fails. -/
theorem exists_verdict (args : Bytes) (lock : Option Bytes) :
    ∃ code, Verdict crypto args txHash lock code := by
  by_cases hargs : args.length = 32
  swap
  · exact ⟨1, .argsLength hargs⟩
  by_cases hlock : ∃ pk sig, LockParses lock pk sig
  swap
  · push Not at hlock
    exact ⟨2, .witness hargs hlock⟩
  obtain ⟨pk, sig, hlock⟩ := hlock
  by_cases hhash : crypto.blake2b256 pk = args
  swap
  · exact ⟨3, .hash hargs hlock hhash⟩
  by_cases hpk : pk.length = 1952
  swap
  · exact ⟨4, .pubkey hargs hlock hhash (Or.inl hpk)⟩
  cases hkey : crypto.tryFromBytes pk with
  | none => exact ⟨4, .pubkey hargs hlock hhash (Or.inr hkey)⟩
  | some key =>
    by_cases hsig : sig.length = 3309
    swap
    · exact ⟨5, .signature hargs hlock hhash hpk hkey hsig⟩
    cases hverify : crypto.verify key txHash sig [] with
    | false => exact ⟨6, .verification hargs hlock hhash hpk hkey hsig hverify⟩
    | true => exact ⟨0, .accept hargs hlock hhash hpk hkey hsig hverify⟩

/-- A run returns exactly the verdict. -/
theorem programEntry_eq_ok {code : Int8} :
    programEntry crypto (hostOf script txHash witnessArgs) = .ok code ↔
      Verdict crypto script.args txHash witnessArgs.lock code := by
  refine ⟨fun h => ?_, programEntry_of_verdict crypto script txHash witnessArgs⟩
  obtain ⟨code', hcode'⟩ := exists_verdict crypto txHash script.args witnessArgs.lock
  have hrun := programEntry_of_verdict crypto script txHash witnessArgs hcode'
  rw [h, Except.ok.injEq] at hrun
  rwa [hrun]

/-- The script accepts exactly when every condition holds. -/
theorem programEntry_eq_zero : programEntry crypto (hostOf script txHash witnessArgs) = .ok 0 ↔
    script.args.length = 32 ∧ ∃ pk sig key, LockParses witnessArgs.lock pk sig ∧
      pk.length = 1952 ∧ sig.length = 3309 ∧ crypto.blake2b256 pk = script.args ∧
      crypto.tryFromBytes pk = some key ∧ crypto.verify key txHash sig [] = true := by
  rw [programEntry_eq_ok]
  constructor
  · intro h
    rcases h with ⟨⟩
    rename_i pk sig key hargs hlock hhash hpk hkey hsig hverify
    exact ⟨hargs, pk, sig, key, hlock, hpk, hsig, hhash, hkey, hverify⟩
  · intro h
    rcases h with ⟨hargs, pk, sig, key, hlock, hpk, hsig, hhash, hkey, hverify⟩
    exact .accept hargs hlock hhash hpk hkey hsig hverify

/-- **The lock's verdict is exactly its documented condition.** It returns `0` exactly when the args
are 32 bytes and the lock field is `le32(1952) ++ pk ++ le32(3309) ++ sig ++ rest` with a key that
hashes to the args, decodes, and verifies the signature of the transaction hash in the empty
context; every run returns, and what it returns is the code of the first failing condition. -/
theorem programEntry_spec :
    (programEntry crypto (hostOf script txHash witnessArgs) = .ok 0 ↔
      script.args.length = 32 ∧ ∃ field pk sig rest key, witnessArgs.lock = some field ∧
        field = leBytes 4 1952 ++ pk ++ leBytes 4 3309 ++ sig ++ rest ∧
        pk.length = 1952 ∧ sig.length = 3309 ∧ crypto.blake2b256 pk = script.args ∧
        crypto.tryFromBytes pk = some key ∧ crypto.verify key txHash sig [] = true) ∧
    (∃ code, programEntry crypto (hostOf script txHash witnessArgs) = .ok code) ∧
    ∀ code, programEntry crypto (hostOf script txHash witnessArgs) = .ok code ↔
      Verdict crypto script.args txHash witnessArgs.lock code := by
  refine ⟨?_, ?_, fun code => programEntry_eq_ok crypto script txHash witnessArgs⟩
  · rw [programEntry_eq_zero]
    refine and_congr_right fun hargs => ?_
    constructor
    · intro h
      rcases h with ⟨pk, sig, key, ⟨field, hfield, -, -, rest, hdata⟩, hpk, hsig, hrest⟩
      rw [hpk, hsig] at hdata
      exact ⟨field, pk, sig, rest, key, hfield, hdata, hpk, hsig, hrest⟩
    · intro h
      rcases h with ⟨field, pk, sig, rest, key, hfield, hdata, hpk, hsig, hrest⟩
      rw [← hpk, ← hsig] at hdata
      exact ⟨pk, sig, key, ⟨field, hfield, by omega, by omega, rest, hdata⟩, hpk, hsig, hrest⟩
  · obtain ⟨code, hcode⟩ := exists_verdict crypto txHash script.args witnessArgs.lock
    exact ⟨code, programEntry_of_verdict crypto script txHash witnessArgs hcode⟩

end

end CkbDilithium.Contract

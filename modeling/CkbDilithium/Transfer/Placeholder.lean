import CkbDilithium.Sdk.Transfer
import CkbDilithium.Transaction.Size

/-!
# Witnesses and placeholder transactions

The witnesses of a transfer: the lock field in the first, the others empty (`witnessList_succ`). With them the size
of the placeholder transaction is that of the raw transaction and a number that depends on the number of inputs
alone (`estimateTransactionSize_eq`). Filling the lock field of the first witness changes nothing else of the
serialized transaction (`serializeTransaction_fill`).
-/

namespace CkbDilithium.Sdk

open Js Molecule

/-! ### Hex strings that are printed -/

theorem isHex_bytesToHex (bytes : Bytes) : IsHex (bytesToHex bytes) :=
  ⟨hexDigits bytes, rfl, hexString_hexDigits bytes, by rw [hexDigits_length]; omega⟩

/-! ### Witnesses -/

/-- The witness arguments with a lock field and nothing else. -/
def lockWitnessArgs (lock : Bytes) : Bytes := encodeDynVec [encodeFixVec (lock.map fun byte => [byte]), [], []]

/-- The witness of the inputs after the first. -/
def emptyWitness : JsString := bytesToHex (encodeDynVec [[], [], []])

theorem lockWitnessArgs_length (lock : Bytes) : (lockWitnessArgs lock).length = 20 + lock.length := by
  simp only [lockWitnessArgs, encodeDynVec_length, headerSize, encodeBytes_length, List.flatten_cons,
    List.flatten_nil, List.append_nil, List.length_cons, List.length_nil]
  omega

theorem encodeWitnessArgs_none : encodeWitnessArgs none = .ok emptyWitness := by decide

theorem encodeWitnessArgs_some {lock : Bytes} {s : JsString} :
    encodeWitnessArgs (some lock) = .ok s ↔ 20 + lock.length < 2 ^ 32 ∧ s = bytesToHex (lockWitnessArgs lock) := by
  have hnone : encodeOptionBytes none = .ok [] := rfl
  have hlen := lockWitnessArgs_length lock
  rw [lockWitnessArgs, encodeDynVec_length] at hlen
  simp only [encodeWitnessArgs, encodeOptionBytes, Result.bind_eq_ok, serializeBytes_eq_ok, serializeTable_eq_ok,
    Result.pure_eq_ok]
  constructor
  · intro h
    rcases h with ⟨_, ⟨hlt, rfl⟩, _, rfl, _, rfl, _, ⟨hsize, rfl⟩, rfl⟩
    exact ⟨by rwa [hlen] at hsize, rfl⟩
  · intro h
    rcases h with ⟨hlt, rfl⟩
    exact ⟨_, ⟨by omega, rfl⟩, [], rfl, [], rfl, _, ⟨by rwa [hlen], rfl⟩, rfl⟩

/-- One witness for each input, the lock field in the first. -/
theorem witnessList_succ {n : Nat} {lock : Bytes} {witnesses : List JsString} :
    witnessList (n + 1) lock = .ok witnesses ↔ 20 + lock.length < 2 ^ 32 ∧
      witnesses = bytesToHex (lockWitnessArgs lock) :: List.replicate n emptyWitness := by
  have hrest : (List.map Nat.succ (List.range n)).mapM (fun index =>
      if index = 0 then encodeWitnessArgs (some lock) else encodeWitnessArgs none) =
        .ok (List.replicate n emptyWitness) := by
    rw [Result.mapM_of_forall_ok (g := fun _ => emptyWitness)]
    · rw [List.map_const', List.length_map, List.length_range]
    · intro index hindex
      obtain ⟨i, -, rfl⟩ := List.mem_map.1 hindex
      rw [if_neg (Nat.succ_ne_zero i), encodeWitnessArgs_none]
  rw [witnessList, List.range_succ_eq_map, List.mapM_cons, if_pos rfl, hrest]
  simp only [Result.bind_eq_ok, encodeWitnessArgs_some, Result.pure_eq_ok, Except.ok.injEq]
  constructor
  · intro h
    rcases h with ⟨_, ⟨hlt, rfl⟩, _, rfl, rfl⟩
    exact ⟨hlt, rfl⟩
  · intro h
    rcases h with ⟨hlt, rfl⟩
    exact ⟨_, ⟨hlt, rfl⟩, _, rfl, rfl⟩

theorem hexSize_emptyWitness : hexSize emptyWitness = 16 := by decide

theorem isHex_emptyWitness : IsHex emptyWitness := isHex_bytesToHex _

/-- The bytes the witnesses of `n + 1` inputs denote. -/
theorem witnesses_size (n : Nat) (lock : Bytes) :
    ((bytesToHex (lockWitnessArgs lock) :: List.replicate n emptyWitness).map hexSize).sum =
      16 * (n + 1) + 4 + lock.length := by
  rw [List.map_cons, List.sum_cons, hexSize_bytesToHex, lockWitnessArgs_length, List.map_replicate,
    List.sum_replicate, hexSize_emptyWitness, smul_eq_mul]
  omega

/-! ### Transactions with witnesses -/

/-- The transaction with the witnesses of `n + 1` inputs, `lock` in the lock field of the first. -/
def witnessedTransaction (tx : RawTransaction) (n : Nat) (lock : Bytes) : Transaction where
  toRawTransaction := tx
  witnesses := bytesToHex (lockWitnessArgs lock) :: List.replicate n emptyWitness

@[simp] theorem witnessedTransaction_raw (tx : RawTransaction) (n : Nat) (lock : Bytes) :
    (witnessedTransaction tx n lock).toRawTransaction = tx := rfl

theorem witnessedTransaction_count (tx : RawTransaction) (n : Nat) (lock : Bytes) :
    (witnessedTransaction tx n lock).witnesses.length = n + 1 := by
  rw [witnessedTransaction, List.length_cons, List.length_replicate]

theorem witnessedTransaction_sum (tx : RawTransaction) (n : Nat) (lock : Bytes) :
    ((witnessedTransaction tx n lock).witnesses.map hexSize).sum = 16 * (n + 1) + 4 + lock.length :=
  witnesses_size n lock

theorem isHex_witnessedTransaction (tx : RawTransaction) (n : Nat) (lock : Bytes) :
    ∀ s ∈ (witnessedTransaction tx n lock).witnesses, IsHex s := by
  intro s hs
  rcases List.mem_cons.1 hs with rfl | hs
  · exact isHex_bytesToHex _
  · rw [List.eq_of_mem_replicate hs]
    exact isHex_emptyWitness

/-! ### Placeholder transactions -/

/-- The transaction with the placeholder witnesses of `n + 1` inputs. -/
def placeholderOf (tx : RawTransaction) (n : Nat) : Transaction where
  toRawTransaction := tx
  witnesses := bytesToHex (lockWitnessArgs (List.replicate witnessLockBytes 0)) :: List.replicate n emptyWitness

theorem withPlaceholderWitnesses_succ (tx : RawTransaction) (n : Nat) :
    withPlaceholderWitnesses tx (n + 1) = .ok (placeholderOf tx n) := by
  have hlock : 20 + (List.replicate witnessLockBytes (0 : UInt8)).length < 2 ^ 32 := by
    rw [List.length_replicate]
    decide
  simp only [withPlaceholderWitnesses, witnessList_succ.2 ⟨hlock, rfl⟩, Result.ok_bind]
  rfl

theorem placeholderOf_eq (tx : RawTransaction) (n : Nat) :
    placeholderOf tx n = witnessedTransaction tx n (List.replicate witnessLockBytes 0) := rfl

theorem placeholderOf_size (tx : RawTransaction) (n : Nat) :
    16 + tx.size + 8 * (placeholderOf tx n).witnesses.length + ((placeholderOf tx n).witnesses.map hexSize).sum =
      tx.size + 24 * (n + 1) + 5289 := by
  rw [placeholderOf_eq, witnessedTransaction_count, witnessedTransaction_sum, List.length_replicate,
    witnessLockBytes, publicKeyLen, signatureLen]
  omega

theorem estimateTransactionSize_eq {tx : RawTransaction} {count size : Nat} (hcount : 0 < count)
    (h : estimateTransactionSize tx count = .ok size) : size = tx.size + 24 * count + 5289 := by
  obtain ⟨n, rfl⟩ := Nat.exists_eq_succ_of_ne_zero hcount.ne'
  simp only [estimateTransactionSize, withPlaceholderWitnesses_succ, Result.ok_bind, Result.bind_eq_ok,
    Result.pure_eq_ok] at h
  obtain ⟨bytes, hbytes, rfl⟩ := h
  exact (serializeTransaction_size hbytes).trans (placeholderOf_size tx n)

theorem estimateTransactionSize_returns {tx : RawTransaction} {count : Nat} (hcount : 0 < count)
    (h : tx.WellFormed) (hsize : tx.size + 24 * count + 5289 < 2 ^ 32) :
    estimateTransactionSize tx count = .ok (tx.size + 24 * count + 5289) := by
  obtain ⟨n, rfl⟩ := Nat.exists_eq_succ_of_ne_zero hcount.ne'
  obtain ⟨bytes, hbytes⟩ := serializeTransaction_returns h (isHex_witnessedTransaction tx n _)
    (lt_of_eq_of_lt (placeholderOf_size tx n) hsize)
  rw [← placeholderOf_eq] at hbytes
  have hreturns : estimateTransactionSize tx (n + 1) = .ok bytes.length := by
    simp only [estimateTransactionSize, withPlaceholderWitnesses_succ, Result.ok_bind, hbytes]
    rfl
  rw [hreturns, estimateTransactionSize_eq hcount hreturns]

/-! ### The lock field in the serialized transaction -/

/-- The bytes of a transaction and its witnesses, from the bytes of the raw transaction. -/
def witnessedBytes (raw : Bytes) (n : Nat) (lock : Bytes) : Bytes :=
  encodeDynVec [raw, encodeDynVec (encodeFixVec ((lockWitnessArgs lock).map fun byte => [byte]) ::
    List.replicate n (encodeFixVec ((encodeDynVec [[], [], []]).map fun byte => [byte])))]

/-- The lock field stands in one place of them, and nothing else depends on its contents. -/
theorem embeds_witnessedBytes (size : Nat) (raw : Bytes) (n : Nat) : Embeds size (witnessedBytes raw n) := by
  have hargs : Embeds size lockWitnessArgs := (Embeds.id size).bytes.dynVec [] [[], []]
  exact (hargs.bytes.dynVec [] _).dynVec [raw] []

theorem serializeTransaction_witnessed {tx : RawTransaction} {n : Nat} {lock bytes : Bytes}
    (h : serializeTransaction (witnessedTransaction tx n lock) = .ok bytes) :
    ∃ raw, serializeRawTransaction tx = .ok raw ∧ bytes = witnessedBytes raw n lock ∧ bytes.length < 2 ^ 32 := by
  simp only [serializeTransaction, serializeBytesVec, Result.bind_eq_ok, serializeTable_eq_ok,
    serializeDynVec_eq_ok] at h
  obtain ⟨raw, hraw, items, hitems, _, ⟨written, hwritten, -, rfl⟩, hsize, rfl⟩ := h
  have hread : items = (witnessedTransaction tx n lock).witnesses.map hexValue :=
    Result.mapM_eq_map _ hitems fun _ _ => hexToBytes_hexValue
  have hwrite : written = items.map fun item => encodeFixVec (item.map fun byte => [byte]) :=
    Result.mapM_eq_map _ hwritten fun item y hy => (serializeBytes_eq_ok.1 hy).2
  refine ⟨raw, hraw, ?_, by rwa [encodeDynVec_length]⟩
  rw [hwrite, hread, witnessedTransaction, List.map_cons, List.map_cons, hexValue_bytesToHex,
    List.map_replicate, List.map_replicate, emptyWitness, hexValue_bytesToHex, witnessedBytes]

/-- Whether a transaction is serialized does not depend on the contents of the lock field. -/
theorem serializeTransaction_relock {tx : RawTransaction} {n : Nat} {lock lock' bytes : Bytes}
    (hlen : lock'.length = lock.length) (h : serializeTransaction (witnessedTransaction tx n lock) = .ok bytes) :
    ∃ bytes', serializeTransaction (witnessedTransaction tx n lock') = .ok bytes' := by
  obtain ⟨raw, hraw, -, hsize⟩ := serializeTransaction_witnessed h
  have hrawSize := serializeRawTransaction_size hraw
  rw [serializeTransaction_size h, witnessedTransaction_raw, witnessedTransaction_count,
    witnessedTransaction_sum] at hsize
  obtain ⟨items, hitems, witnesses, hwitnesses⟩ :=
    serializeBytesVec_returns (isHex_witnessedTransaction tx n lock') (by
      rw [witnessedTransaction_count, witnessedTransaction_sum]
      omega)
  have hwitnessSize := serializeBytesVec_length hitems hwitnesses
  rw [witnessedTransaction_count, witnessedTransaction_sum] at hwitnessSize
  simp only [serializeTransaction, witnessedTransaction_raw, hraw, hitems, hwitnesses, Result.ok_bind]
  refine ⟨_, serializeTable_eq_ok.2 ⟨?_, rfl⟩⟩
  simp only [headerSize, List.flatten_cons, List.flatten_nil, List.append_nil, List.length_append,
    List.length_cons, List.length_nil]
  omega

/-- **Filling the lock field changes nothing else of the serialized transaction**, headers and offset
tables included. -/
theorem serializeTransaction_fill {tx : RawTransaction} {n : Nat} {lock lock' bytes : Bytes}
    (hlen : lock'.length = lock.length) (h : serializeTransaction (witnessedTransaction tx n lock) = .ok bytes) :
    ∃ before after, serializeTransaction (witnessedTransaction tx n lock) = .ok (before ++ lock ++ after) ∧
      serializeTransaction (witnessedTransaction tx n lock') = .ok (before ++ lock' ++ after) := by
  obtain ⟨bytes', h'⟩ := serializeTransaction_relock hlen h
  obtain ⟨raw, hraw, hbytes, -⟩ := serializeTransaction_witnessed h
  obtain ⟨raw', hraw', hbytes', -⟩ := serializeTransaction_witnessed h'
  obtain rfl : raw = raw' := Result.ok_unique hraw hraw'
  obtain ⟨before, after, hfill⟩ := embeds_witnessedBytes lock.length raw n
  refine ⟨before, after, ?_, ?_⟩
  · rw [h, hbytes, hfill lock rfl]
  · rw [h', hbytes', hfill lock' hlen]

end CkbDilithium.Sdk

import CkbDilithium.Lib.Molecule

/-!
# The on-chain transaction types and their molecule readers

The part of CKB's molecule schema that a lock script and a wallet share: `Script`, `OutPoint`,
`CellDep`, `CellInput`, `CellOutput`, `RawTransaction` and `WitnessArgs`, each with the verifying
reader of its layout. Structs are fixed-size concatenations, `CellDepVec`, `Byte32Vec` and
`CellInputVec` are fixed-size vectors, `CellOutputVec` and `BytesVec` dynamic ones.
-/

namespace CkbDilithium.Ckb

open Molecule

structure Script where
  codeHash : Bytes
  hashType : UInt8
  args : Bytes
  deriving DecidableEq

structure OutPoint where
  txHash : Bytes
  index : Nat
  deriving DecidableEq

structure CellDep where
  outPoint : OutPoint
  depType : UInt8
  deriving DecidableEq

structure CellInput where
  since : Nat
  previousOutput : OutPoint
  deriving DecidableEq

structure CellOutput where
  capacity : Nat
  lock : Script
  type : Option Script
  deriving DecidableEq

structure RawTransaction where
  version : Nat
  cellDeps : List CellDep
  headerDeps : List Bytes
  inputs : List CellInput
  outputs : List CellOutput
  outputsData : List Bytes
  deriving DecidableEq

structure WitnessArgs where
  lock : Option Bytes
  inputType : Option Bytes
  outputType : Option Bytes
  deriving DecidableEq

/-! ### Readers -/

/-- An array of `size` bytes. -/
def readArray (size : Nat) (bs : Bytes) : Option Bytes := if bs.length = size then some bs else none

/-- An unsigned integer of `size` bytes. -/
def readUint (size : Nat) (bs : Bytes) : Option Nat := (readArray size bs).map leVal

def readByte : Bytes → Option UInt8
  | [b] => some b
  | _ => none

def readScript (bs : Bytes) : Option Script := do
  match ← readTable 3 bs with
  | [codeHash, hashType, args] =>
    return ⟨← readArray 32 codeHash, ← readByte hashType, ← readBytes args⟩
  | _ => none

def readOutPoint (bs : Bytes) : Option OutPoint := do
  return ⟨← readArray 32 (bs.take 32), ← readUint 4 (bs.drop 32)⟩

def readCellDep (bs : Bytes) : Option CellDep := do
  return ⟨← readOutPoint (bs.take 36), ← readByte (bs.drop 36)⟩

def readCellInput (bs : Bytes) : Option CellInput := do
  return ⟨← readUint 8 (bs.take 8), ← readOutPoint (bs.drop 8)⟩

def readCellOutput (bs : Bytes) : Option CellOutput := do
  match ← readTable 3 bs with
  | [capacity, lock, type] =>
    return ⟨← readUint 8 capacity, ← readScript lock, ← readOption readScript type⟩
  | _ => none

def readRawTransaction (bs : Bytes) : Option RawTransaction := do
  match ← readTable 6 bs with
  | [version, cellDeps, headerDeps, inputs, outputs, outputsData] =>
    return {
      version := ← readUint 4 version
      cellDeps := ← (← readFixVec 37 cellDeps).mapM readCellDep
      headerDeps := ← (← readFixVec 32 headerDeps).mapM (readArray 32)
      inputs := ← (← readFixVec 44 inputs).mapM readCellInput
      outputs := ← (← readDynVec outputs).mapM readCellOutput
      outputsData := ← (← readDynVec outputsData).mapM readBytes }
  | _ => none

def readWitnessArgs (bs : Bytes) : Option WitnessArgs := do
  match ← readTable 3 bs with
  | [lock, inputType, outputType] =>
    return ⟨← readOption readBytes lock, ← readOption readBytes inputType,
      ← readOption readBytes outputType⟩
  | _ => none

theorem readArray_of_length {size : Nat} {bs : Bytes} (h : bs.length = size) :
    readArray size bs = some bs := if_pos h

theorem readUint_leBytes {size n : Nat} (h : n < 256 ^ size) : readUint size (leBytes size n) = some n := by
  rw [readUint, readArray_of_length (leBytes_length size n), Option.map_some, leVal_leBytes h]

/-- The table of a script reads back. -/
theorem readScript_encode {codeHash args : Bytes} {hashType : UInt8} (hcode : codeHash.length = 32)
    (hargs : args.length < 2 ^ 32)
    (hsize : headerSize [codeHash, [hashType], encodeFixVec (args.map fun b => [b])] +
      [codeHash, [hashType], encodeFixVec (args.map fun b => [b])].flatten.length < 2 ^ 32) :
    readScript (encodeDynVec [codeHash, [hashType], encodeFixVec (args.map fun b => [b])]) =
      some ⟨codeHash, hashType, args⟩ := by
  have htable := readTable_encode hsize
  simp only [List.length_cons, List.length_nil, Nat.zero_add, Nat.reduceAdd] at htable
  simp [readScript, htable, readArray_of_length hcode, readByte, readBytes_encode hargs]

end CkbDilithium.Ckb

import Mathlib.Tactic

/-!
# Blocks of a linear memory

A memory is a sequence of cells, and a block a range of it. What is written to a block is read from it, and blocks
that are apart from it keep their contents. An empty block is apart from every other.
-/

namespace CkbDilithium.LinearMemory

variable {α : Type}

structure Block where
  start : Nat
  size : Nat
  deriving DecidableEq

/-- The block lies inside the memory. -/
def Block.Fits (block : Block) (memory : List α) : Prop := block.start + block.size ≤ memory.length

/-- The blocks share no cell. -/
def Block.Apart (block other : Block) : Prop :=
  block.size = 0 ∨ other.size = 0 ∨ block.start + block.size ≤ other.start ∨ other.start + other.size ≤ block.start

def readBlock (memory : List α) (block : Block) : List α := (memory.drop block.start).take block.size

def writeBlock (memory : List α) (start : Nat) (cells : List α) : List α :=
  memory.take start ++ cells ++ memory.drop (start + cells.length)

theorem writeBlock_length {memory cells : List α} {start : Nat} (h : start + cells.length ≤ memory.length) :
    (writeBlock memory start cells).length = memory.length := by
  simp only [writeBlock, List.length_append, List.length_take, List.length_drop]
  omega

theorem readBlock_writeBlock {memory cells : List α} {start : Nat} (h : start + cells.length ≤ memory.length) :
    readBlock (writeBlock memory start cells) ⟨start, cells.length⟩ = cells := by
  have hstart : (memory.take start).length = start := by
    rw [List.length_take]
    omega
  rw [readBlock, writeBlock, List.append_assoc, List.drop_left' hstart, List.take_left' rfl]

/-- A cell outside the written range. -/
theorem writeBlock_getElem? {memory cells : List α} {start i : Nat} (hfits : start + cells.length ≤ memory.length)
    (hi : i < start ∨ start + cells.length ≤ i) : (writeBlock memory start cells)[i]? = memory[i]? := by
  have hstart : (memory.take start).length = start := by
    rw [List.length_take]
    omega
  rw [writeBlock, List.append_assoc]
  rcases hi with hi | hi
  · rw [List.getElem?_append_left (by omega), List.getElem?_take, if_pos hi]
  · rw [List.getElem?_append_right (by omega), List.getElem?_append_right (by omega), List.getElem?_drop]
    congr 1
    omega

theorem readBlock_writeBlock_apart {memory cells : List α} {start : Nat} {block : Block}
    (hfits : start + cells.length ≤ memory.length) (h : block.Apart ⟨start, cells.length⟩) :
    readBlock (writeBlock memory start cells) block = readBlock memory block := by
  apply List.ext_getElem?
  intro i
  simp only [readBlock, List.getElem?_take, List.getElem?_drop]
  split_ifs with hi
  · rcases h with hsize | hempty | hbelow | habove
    · omega
    · rw [List.length_eq_zero_iff.1 hempty, writeBlock]
      simp
    · exact writeBlock_getElem? hfits (by simp only at hbelow; omega)
    · exact writeBlock_getElem? hfits (by simp only at habove; omega)
  · rfl

end CkbDilithium.LinearMemory

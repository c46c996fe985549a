import Mathlib.Tactic

/-!
# Byte strings and little-endian integers

`leBytes w n` writes the low `8 * w` bits of `n`, `leVal` reads a byte string of any length. They
are inverse to each other on strings of `w` bytes and values below `256 ^ w`.
-/

namespace CkbDilithium

abbrev Bytes := List UInt8

/-- The low `w` bytes of `n`, least significant first. -/
def leBytes : Nat → Nat → Bytes
  | 0, _ => []
  | w + 1, n => UInt8.ofNat n :: leBytes w (n / 256)

/-- The value of a little-endian byte string. -/
def leVal : Bytes → Nat
  | [] => 0
  | b :: bs => b.toNat + 256 * leVal bs

@[simp] theorem leBytes_length (w n : Nat) : (leBytes w n).length = w := by
  induction w generalizing n with
  | zero => rfl
  | succ w ih => simp [leBytes, ih]

theorem leVal_leBytes {w n : Nat} (h : n < 256 ^ w) : leVal (leBytes w n) = n := by
  induction w generalizing n with
  | zero => simp at h; simp [leBytes, leVal, h]
  | succ w ih =>
    have hdiv : n / 256 < 256 ^ w := by
      rw [Nat.div_lt_iff_lt_mul (by decide)]
      rwa [pow_succ] at h
    simp only [leBytes, leVal, ih hdiv, UInt8.toNat_ofNat']
    omega

theorem leVal_lt (bs : Bytes) : leVal bs < 256 ^ bs.length := by
  induction bs with
  | nil => simp [leVal]
  | cons b bs ih =>
    have hb : b.toNat < 256 := b.toNat_lt
    simp only [leVal, List.length_cons, pow_succ]
    omega

theorem leBytes_leVal (bs : Bytes) : leBytes bs.length (leVal bs) = bs := by
  induction bs with
  | nil => rfl
  | cons b bs ih =>
    have hb : b.toNat < 256 := b.toNat_lt
    have hdiv : (b.toNat + 256 * leVal bs) / 256 = leVal bs := by omega
    simp only [List.length_cons, leBytes, leVal, hdiv, ih, List.cons.injEq, and_true]
    apply UInt8.toNat_inj.mp
    simp only [UInt8.toNat_ofNat']
    omega

/-- A four-byte string is the little-endian form of its value, which is below `2 ^ 32`. -/
theorem leBytes_four_leVal {bs : Bytes} (h : bs.length = 4) : leBytes 4 (leVal bs) = bs := by
  have := leBytes_leVal bs
  rwa [h] at this

theorem leVal_lt_of_length_four {bs : Bytes} (h : bs.length = 4) : leVal bs < 2 ^ 32 := by
  have := leVal_lt bs
  rw [h] at this
  omega

theorem leVal_leBytes_four {n : Nat} (h : n < 2 ^ 32) : leVal (leBytes 4 n) = n :=
  leVal_leBytes (by omega)

/-! ### Sub-strings -/

/-- The bytes from `s` up to `e`. -/
def slice (bs : Bytes) (s e : Nat) : Bytes := (bs.drop s).take (e - s)

theorem slice_length {bs : Bytes} {s e : Nat} (he : e ≤ bs.length) :
    (slice bs s e).length = e - s := by
  simp [slice]
  omega

/-- The middle part of a string cut in three. -/
theorem slice_append {a b c : Bytes} {s e : Nat} (hs : s = a.length) (he : e = a.length + b.length) :
    slice (a ++ b ++ c) s e = b := by
  subst hs he
  simp [slice]

/-- Cutting at two ordered positions loses nothing. -/
theorem take_append_slice_append_drop (bs : Bytes) {s e : Nat} (h : s ≤ e) :
    bs.take s ++ slice bs s e ++ bs.drop e = bs := by
  have hdrop : bs.drop e = (bs.drop s).drop (e - s) := by rw [List.drop_drop]; congr 1; omega
  rw [slice, hdrop, List.append_assoc, List.take_append_drop, List.take_append_drop]

end CkbDilithium

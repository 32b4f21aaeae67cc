import Footage.Bytes
import Footage.Number.Power
/-!
# Varints

A natural number as a run of bytes with seven bits each, the lowest first; every byte but the
last has its top bit set.  `Varint.read?_encode_append` states that reading undoes writing in
front of any further bytes; a reader accepts longer forms of a number too, as long as they fit
the given number of bytes.
-/

namespace Footage.Wire.Varint

/-- The shortest form of a number. -/
def encode (n : Nat) : Bytes :=
  if n < 128 then [UInt8.ofNat n]
  else UInt8.ofNat (n % 128 + 128) :: encode (n / 128)

/-- The number at the front, in at most `most` bytes, and what follows it. -/
def read? : (most : Nat) → Bytes → Option (Nat × Bytes)
  | 0, _ => none
  | _, [] => none
  | most + 1, b :: rest =>
    if b.toNat < 128 then some (b.toNat, rest)
    else (read? most rest).map fun (n, rest) => (b.toNat - 128 + 128 * n, rest)

theorem read?_encode_append {n most : Nat} (fits : n < 128 ^ (most + 1)) (rest : Bytes) :
    read? (most + 1) (encode n ++ rest) = some (n, rest) := by
  have word {k : Nat} (h : k < 256) : (UInt8.ofNat k).toNat = k := by simp; omega
  induction most generalizing n with
  | zero =>
    have small : n < 128 := by simpa using fits
    unfold encode
    rw [if_pos small]
    simp only [List.singleton_append, read?]
    rw [word (by omega), if_pos small]
  | succ most ih =>
    unfold encode
    split
    · next small =>
      simp only [List.singleton_append, read?]
      rw [word (by omega), if_pos small]
    · next large =>
      have fits' : n / 128 < 128 ^ (most + 1) := by
        rw [Nat.pow_succ] at fits
        exact Nat.div_lt_of_lt_mul (by omega)
      rw [List.cons_append, read?, word (by omega), if_neg (by omega), ih fits']
      simp only [Option.map_some, Option.some.injEq, Prod.mk.injEq, and_true]
      omega

/-- Reading takes at least one byte. -/
theorem length_lt_of_read? {most n : Nat} {bytes rest : Bytes}
    (h : read? most bytes = some (n, rest)) : rest.length < bytes.length := by
  induction most generalizing bytes n with
  | zero => simp [read?] at h
  | succ most ih =>
    cases bytes with
    | nil => simp [read?] at h
    | cons b bytes =>
      simp only [read?] at h
      split at h
      · cases h; simp
      · obtain ⟨⟨m, r⟩, hr, he⟩ := Option.map_eq_some_iff.1 h
        cases he
        have := ih hr
        simp only [List.length_cons] at this ⊢
        omega

end Footage.Wire.Varint

import Mathlib

/-!
# Numbers as octets

A number as a fixed count of octets in the memory of a machine of either byte order, and back.
-/

namespace OmniORB.Library

inductive ByteOrder where
  | bigEndian | littleEndian
  deriving DecidableEq, Repr

def ByteOrder.opposite : ByteOrder → ByteOrder
  | .bigEndian => .littleEndian
  | .littleEndian => .bigEndian

@[simp] lemma ByteOrder.opposite_opposite (o : ByteOrder) : o.opposite.opposite = o := by
  cases o <;> rfl

lemma ByteOrder.eq_or_opposite (o p : ByteOrder) : p = o ∨ p = o.opposite := by
  cases o <;> cases p <;> decide

/-- The lowest `k` octets of `n`, the lowest first. -/
def wordOctets : ℕ → ℕ → List UInt8
  | 0, _ => []
  | k + 1, n => UInt8.ofNat n :: wordOctets k (n / 256)

/-- The number that octets stand for, the lowest first. -/
def wordValue : List UInt8 → ℕ
  | [] => 0
  | c :: l => c.toNat + 256 * wordValue l

@[simp] lemma length_wordOctets (k n : ℕ) : (wordOctets k n).length = k := by
  induction k generalizing n with
  | zero => rfl
  | succ k ih => rw [wordOctets, List.length_cons, ih]

/-- What is above the octets is lost, and nothing else. -/
lemma wordValue_wordOctets (k n : ℕ) : wordValue (wordOctets k n) = n % 256 ^ k := by
  induction k generalizing n with
  | zero => rw [wordOctets, wordValue, pow_zero, Nat.mod_one]
  | succ k ih =>
    rw [wordOctets, wordValue, ih, UInt8.toNat_ofNat', pow_succ' 256 k, Nat.mod_mul]

lemma wordValue_lt (l : List UInt8) : wordValue l < 256 ^ l.length := by
  induction l with
  | nil => exact Nat.one_pos
  | cons c l ih =>
    have hc := c.toNat_lt
    rw [wordValue, List.length_cons, pow_succ']
    omega

namespace ByteOrder

/-- The lowest `k` octets of `n` in memory. -/
def octets (o : ByteOrder) (k n : ℕ) : List UInt8 :=
  match o with
  | .bigEndian => (wordOctets k n).reverse
  | .littleEndian => wordOctets k n

/-- The number that octets in memory stand for. -/
def value (o : ByteOrder) (b : List UInt8) : ℕ :=
  match o with
  | .bigEndian => wordValue b.reverse
  | .littleEndian => wordValue b

@[simp] lemma length_octets (o : ByteOrder) (k n : ℕ) : (o.octets k n).length = k := by
  cases o <;> simp [octets]

lemma value_octets (o : ByteOrder) (k n : ℕ) : o.value (o.octets k n) = n % 256 ^ k := by
  cases o with
  | bigEndian => rw [octets, value, List.reverse_reverse, wordValue_wordOctets]
  | littleEndian => exact wordValue_wordOctets k n

lemma value_octets_of_lt (o : ByteOrder) {k n : ℕ} (h : n < 256 ^ k) : o.value (o.octets k n) = n := by
  rw [value_octets, Nat.mod_eq_of_lt h]

lemma octets_opposite (o : ByteOrder) (k n : ℕ) : o.opposite.octets k n = (o.octets k n).reverse := by
  cases o with
  | bigEndian => rw [octets, List.reverse_reverse]; rfl
  | littleEndian => rfl

lemma value_opposite (o : ByteOrder) (b : List UInt8) : o.opposite.value b = o.value b.reverse := by
  cases o with
  | bigEndian => rw [value, List.reverse_reverse]; rfl
  | littleEndian => rfl

lemma value_lt (o : ByteOrder) (b : List UInt8) : o.value b < 256 ^ b.length := by
  cases o with
  | bigEndian =>
    rw [value, ← List.length_reverse]
    exact wordValue_lt _
  | littleEndian => exact wordValue_lt b

end ByteOrder

end OmniORB.Library

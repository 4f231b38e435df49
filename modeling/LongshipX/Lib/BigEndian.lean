import Mathlib.Algebra.Order.Ring.Nat
import Mathlib.Data.List.Induction
import Mathlib.Tactic.Ring

/-!
# Big-endian numerals

* `toBE n v` : the `n` bytes of `v % 256 ^ n`, most significant first;
* `ofBE bs` : the number that `bs` spells in base 256;
* `ofBE_toBE`, `toBE_ofBE` : the two are inverse on `n` bytes.
-/

namespace BigEndian

/-- The `n` lowest base-256 digits of `v`, most significant first. -/
def toBE : Nat → Nat → List UInt8
  | 0, _ => []
  | n + 1, v => toBE n (v / 256) ++ [UInt8.ofNat v]

/-- The number spelled by the bytes `bs`. -/
def ofBE (bs : List UInt8) : Nat := bs.foldl (fun acc b => acc * 256 + b.toNat) 0

@[simp] theorem toBE_length (n v : Nat) : (toBE n v).length = n := by
  induction n generalizing v with
  | zero => rfl
  | succ n ih => rw [toBE, List.length_append, ih, List.length_singleton]

theorem ofBE_concat (bs : List UInt8) (b : UInt8) : ofBE (bs ++ [b]) = ofBE bs * 256 + b.toNat := by
  simp only [ofBE, List.foldl_append, List.foldl_cons, List.foldl_nil]

theorem ofBE_toBE (n v : Nat) : ofBE (toBE n v) = v % 256 ^ n := by
  induction n generalizing v with
  | zero => simp [toBE, ofBE, Nat.mod_one]
  | succ n ih =>
      have hbyte : (UInt8.ofNat v).toNat = v % 256 := UInt8.toNat_ofNat'
      rw [toBE, ofBE_concat, ih, hbyte, pow_succ, Nat.mul_comm (256 ^ n) 256, Nat.mod_mul]
      ring

theorem toBE_ofBE (bs : List UInt8) : toBE bs.length (ofBE bs) = bs := by
  induction bs using List.reverseRecOn with
  | nil => rfl
  | append_singleton bs b ih =>
      have hb : b.toNat < 256 := b.toNat_lt
      have hdiv : (ofBE bs * 256 + b.toNat) / 256 = ofBE bs := by omega
      have hbyte : UInt8.ofNat (ofBE bs * 256 + b.toNat) = b := by
        apply UInt8.toNat_inj.mp
        rw [UInt8.toNat_ofNat']
        omega
      rw [List.length_append, List.length_singleton, ofBE_concat, toBE, hdiv, ih, hbyte]

theorem ofBE_lt (bs : List UInt8) : ofBE bs < 256 ^ bs.length := by
  induction bs using List.reverseRecOn with
  | nil => simp [ofBE]
  | append_singleton bs b ih =>
      have hb : b.toNat < 256 := b.toNat_lt
      rw [ofBE_concat, List.length_append, List.length_singleton, pow_succ]
      omega

end BigEndian

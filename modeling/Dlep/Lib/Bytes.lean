-- SUMMARY: Big-endian numbers as byte lists, and overwriting a window of a buffer.
import Mathlib.Algebra.Group.Nat.Defs
import Mathlib.Data.Nat.Notation
import Mathlib.Data.List.Basic
import Mathlib.Data.List.Induction

/-!
# Bytes

Network byte order for numbers of a fixed width, in both directions, and the
in-place overwrite of a window of an append-only buffer.
-/

namespace Bytes

/-- The `n` low-order bytes of `v`, most significant first. -/
def ofNat : ℕ → ℕ → List UInt8
  | 0, _ => []
  | n + 1, v => ofNat n (v / 256) ++ [UInt8.ofNat v]

/-- The number a byte list spells, most significant byte first. -/
def toNat (bs : List UInt8) : ℕ := bs.foldl (fun acc b => acc * 256 + b.toNat) 0

@[simp] theorem length_ofNat (n v : ℕ) : (ofNat n v).length = n := by
  induction n generalizing v with
  | zero => rfl
  | succ n ih => simp [ofNat, ih]

/-- A number that fits its width is read back. -/
theorem toNat_ofNat {n v : ℕ} (h : v < 256 ^ n) : toNat (ofNat n v) = v := by
  induction n generalizing v with
  | zero =>
    obtain rfl : v = 0 := by simpa using h
    rfl
  | succ n ih =>
    have hdiv : v / 256 < 256 ^ n := by
      rw [Nat.div_lt_iff_lt_mul (by decide)]
      rwa [Nat.pow_succ] at h
    have ih := ih hdiv
    unfold toNat at ih ⊢
    rw [ofNat, List.foldl_append, ih, List.foldl_cons, List.foldl_nil, UInt8.toNat_ofNat']
    omega

theorem ofNat_inj {n v w : ℕ} (hv : v < 256 ^ n) (hw : w < 256 ^ n)
    (h : ofNat n v = ofNat n w) : v = w := by
  rw [← toNat_ofNat hv, h, toNat_ofNat hw]

@[simp] theorem toNat_concat (bs : List UInt8) (b : UInt8) :
    toNat (bs ++ [b]) = toNat bs * 256 + b.toNat := by
  simp [toNat]

theorem toNat_lt (bs : List UInt8) : toNat bs < 256 ^ bs.length := by
  induction bs using List.reverseRecOn with
  | nil => decide
  | append_singleton bs b ih =>
    have hb := b.toNat_lt
    rw [toNat_concat, List.length_append, List.length_singleton, Nat.pow_succ]
    omega

/-- Bytes are the number they spell, written at their own width. -/
theorem ofNat_toNat (bs : List UInt8) : ofNat bs.length (toNat bs) = bs := by
  induction bs using List.reverseRecOn with
  | nil => rfl
  | append_singleton bs b ih =>
    have hb := b.toNat_lt
    have hdiv : (toNat bs * 256 + b.toNat) / 256 = toNat bs := by omega
    have hlow : UInt8.ofNat (toNat bs * 256 + b.toNat) = b := by
      apply UInt8.toNat_inj.mp
      rw [UInt8.toNat_ofNat']
      omega
    rw [toNat_concat, List.length_append, List.length_singleton, ofNat, hdiv, ih, hlow]

@[simp] theorem take_ofNat (n v : ℕ) : (ofNat n v).take n = ofNat n v :=
  List.take_of_length_le (Nat.le_of_eq (length_ofNat n v))

@[simp] theorem take_ofNat_append (n v : ℕ) (rest : List UInt8) :
    (ofNat n v ++ rest).take n = ofNat n v := List.take_left' (length_ofNat n v)

@[simp] theorem drop_ofNat_append (n v : ℕ) (rest : List UInt8) :
    (ofNat n v ++ rest).drop n = rest := List.drop_left' (length_ofNat n v)

/-- Overwrite the bytes of `out` from `pos` on with `bs`. -/
def patch (out : List UInt8) (pos : ℕ) (bs : List UInt8) : List UInt8 :=
  out.take pos ++ bs ++ out.drop (pos + bs.length)

/-- Overwriting the middle of three consecutive runs replaces exactly that run. -/
theorem patch_append (front mid back bs : List UInt8) (h : bs.length = mid.length) :
    patch (front ++ mid ++ back) front.length bs = front ++ bs ++ back := by
  have hdrop : (front ++ mid ++ back).drop (front.length + bs.length) = back := by
    rw [h, ← List.length_append, List.drop_left]
  have htake : (front ++ mid ++ back).take front.length = front := by
    rw [List.append_assoc, List.take_left]
  simp only [patch, hdrop, htake]

end Bytes

import ClassHost.Text.Units
import Mathlib.Algebra.BigOperators.Group.Finset.Basic
import Mathlib.Data.Int.ModEq
import Mathlib.Data.List.Induction
import Mathlib.Tactic.Ring

/-!
# The string hash as a polynomial

The hash of some units is computed unit by unit, and each multiplication and addition on the way may
overflow. What comes out is nevertheless decided by an exact number: `polynomial` is the value at 31
of the polynomial whose coefficients are the units, the last one the constant term, and the hash is
its residue modulo `2^32`, read with a sign (`toInt_hash`). The sum of the definition has no order
of computation in it, so both recursions that are needed are lemmas: units in front are moved up by
the units behind them (`polynomial_append`), and the hash takes units from the back
(`hash_append_singleton`).

Main result:

* `hash_exact` — the hash is the only 32-bit number with that residue. The hash of units put
  together follows from the two hashes and the number of units behind, so units that collide collide
  with everything that is put behind both.
-/

namespace ClassHost.Text

/-- The value of the hash polynomial of some units at 31, as an exact number. -/
def polynomial (us : List UInt16) : Nat :=
  ∑ i ∈ Finset.range us.length, (us.getD i 0).toNat * 31 ^ (us.length - 1 - i)

-- ---------------------------------------------------------------------------
-- The exact number
-- ---------------------------------------------------------------------------

@[simp]
theorem polynomial_nil : polynomial [] = 0 := by
  simp [polynomial]

theorem polynomial_cons (u : UInt16) (us : List UInt16) :
    polynomial (u :: us) = u.toNat * 31 ^ us.length + polynomial us := by
  have hrest : ∀ i ∈ Finset.range us.length,
      ((u :: us).getD (i + 1) 0).toNat * 31 ^ (us.length + 1 - 1 - (i + 1)) =
        (us.getD i 0).toNat * 31 ^ (us.length - 1 - i) := by
    intro i hi
    have hexponent : us.length + 1 - 1 - (i + 1) = us.length - 1 - i := by omega
    rw [hexponent, List.getD_cons_succ]
  unfold polynomial
  rw [List.length_cons, Finset.sum_range_succ', Finset.sum_congr rfl hrest, Nat.add_comm]
  simp

/-- Units in front move up by as many places as there are units behind. -/
theorem polynomial_append (us vs : List UInt16) :
    polynomial (us ++ vs) = polynomial us * 31 ^ vs.length + polynomial vs := by
  induction us with
  | nil => simp
  | cons u us ih =>
    rw [List.cons_append, polynomial_cons, polynomial_cons, ih, List.length_append, Nat.pow_add]
    ring

-- ---------------------------------------------------------------------------
-- The wrapping computation
-- ---------------------------------------------------------------------------

theorem hash_append_singleton (us : List UInt16) (u : UInt16) :
    hash (us ++ [u]) = hash us * 31 + Int32.ofNat u.toNat := by
  simp [hash]

/-- Reading a residue with a sign does not change it. -/
theorem bmod_modEq (n : Int) : n.bmod (2 ^ 32) ≡ n [ZMOD 2 ^ 32] :=
  Int.bmod_emod

/-- One unit more: whatever overflows, the residue is that of the exact step. -/
theorem toInt_step (h : Int32) (u : UInt16) :
    (h * 31 + Int32.ofNat u.toNat).toInt ≡ h.toInt * 31 + u.toNat [ZMOD 2 ^ 32] := by
  have hunit : (Int32.ofNat u.toNat).toInt = u.toNat := by
    have hu : u.toNat < 2 ^ 16 := u.toNat_lt
    exact Int32.toInt_ofNat_of_lt (by omega)
  have hproduct : (h * 31).toInt ≡ h.toInt * 31 [ZMOD 2 ^ 32] := by
    rw [Int32.toInt_mul]
    exact bmod_modEq _
  calc (h * 31 + Int32.ofNat u.toNat).toInt
      = ((h * 31).toInt + u.toNat).bmod (2 ^ 32) := by rw [Int32.toInt_add, hunit]
    _ ≡ (h * 31).toInt + u.toNat [ZMOD 2 ^ 32] := bmod_modEq _
    _ ≡ h.toInt * 31 + u.toNat [ZMOD 2 ^ 32] := hproduct.add_right _

/-- The hash has the residue of the exact number, through every overflow. -/
theorem toInt_hash (us : List UInt16) : (hash us).toInt ≡ polynomial us [ZMOD 2 ^ 32] := by
  induction us using List.reverseRecOn with
  | nil => rw [polynomial_nil]; rfl
  | append_singleton us u ih =>
    have hexact : polynomial (us ++ [u]) = polynomial us * 31 + u.toNat := by
      simp [polynomial_append, polynomial_cons]
    rw [hash_append_singleton, hexact, Nat.cast_add, Nat.cast_mul]
    exact (toInt_step (hash us) u).trans ((ih.mul_right 31).add_right _)

/-- A residue is that of one 32-bit number. -/
theorem int32_eq_of_modEq {h h' : Int32} (heq : h.toInt ≡ h'.toInt [ZMOD 2 ^ 32]) : h = h' := by
  have hlow := h.le_toInt
  have hhigh := h.toInt_lt
  have hlow' := h'.le_toInt
  have hhigh' := h'.toInt_lt
  apply Int32.toInt_inj.mp
  unfold Int.ModEq at heq
  omega

theorem hash_append (us vs : List UInt16) :
    (hash (us ++ vs)).toInt ≡ (hash us).toInt * 31 ^ vs.length + (hash vs).toInt
      [ZMOD 2 ^ 32] := by
  have hexact := toInt_hash (us ++ vs)
  rw [polynomial_append, Nat.cast_add, Nat.cast_mul, Nat.cast_pow] at hexact
  have hparts := ((toInt_hash us).mul_right (31 ^ vs.length)).add (toInt_hash vs)
  exact hexact.trans hparts.symm

/-- **The hash is exact modulo `2^32`.** For all units it is the one signed 32-bit number that is
congruent to the sum `u₀ * 31^(n-1) + ... + u₍ₙ₋₁₎`, although it is computed with wrapping
arithmetic. The hash of units put together is the polynomial of their two hashes, and so equal
hashes stay equal behind the same units. -/
theorem hash_exact :
    (∀ (us : List UInt16) (h : Int32), h.toInt ≡ polynomial us [ZMOD 2 ^ 32] ↔ h = hash us) ∧
    (∀ us vs : List UInt16, (hash (us ++ vs)).toInt ≡
      (hash us).toInt * 31 ^ vs.length + (hash vs).toInt [ZMOD 2 ^ 32]) ∧
    (∀ us us' : List UInt16, hash us = hash us' →
      ∀ vs, hash (us ++ vs) = hash (us' ++ vs)) := by
  refine ⟨fun us h => ⟨fun heq => ?_, ?_⟩, hash_append, fun us us' heq vs => ?_⟩
  · exact int32_eq_of_modEq (heq.trans (toInt_hash us).symm)
  · rintro rfl
    exact toInt_hash us
  · have hfirst := hash_append us vs
    rw [heq] at hfirst
    exact int32_eq_of_modEq (hfirst.trans (hash_append us' vs).symm)

/-- Two units that collide, with a text of which the exact number is far beyond 32 bits behind
them. -/
theorem hash_exact_collision :
    units "Aa" ≠ units "BB" ∧ hash (units "Aa") = hash (units "BB") ∧
    2 ^ 32 < polynomial (units "Aa" ++ units "collide") ∧
    hash (units "Aa" ++ units "collide") = hash (units "BB" ++ units "collide") := by
  have hhash : hash (units "Aa") = hash (units "BB") := by decide +kernel
  exact ⟨by decide +kernel, hhash, by decide +kernel, hash_exact.2.2 _ _ hhash _⟩

end ClassHost.Text

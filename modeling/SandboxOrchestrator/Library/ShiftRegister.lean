import Mathlib.Data.BitVec
import Mathlib.SetTheory.Cardinal.Finite
import Mathlib.Data.Nat.Count

/-!
# Feedback shift registers

One step shifts the register down by a bit and adds the feedback word if the bit that
fell out was set: the inner loop of a reflected checksum. With the top bit of the
feedback word set a step loses nothing, and feeding a whole register of message bits is
a bijection, whatever the register held before.
-/

namespace ShiftRegister

set_option autoImplicit false

variable {n : Nat}

def step (poly c : BitVec n) : BitVec n := if c.getLsbD 0 then (c >>> 1) ^^^ poly else c >>> 1

/-- Add a block of message bits to the register and shift once for each bit of it. -/
def feed (poly c : BitVec n) {k : Nat} (b : BitVec k) : BitVec n :=
  (step poly)^[k] (c ^^^ b.zeroExtend n)

theorem xor_xor_xor_comm (a b c d : BitVec n) : a ^^^ b ^^^ (c ^^^ d) = a ^^^ c ^^^ (b ^^^ d) := by
  rw [BitVec.xor_assoc, ← BitVec.xor_assoc b, BitVec.xor_comm b c, BitVec.xor_assoc c,
    ← BitVec.xor_assoc]

theorem step_xor (poly a b : BitVec n) : step poly (a ^^^ b) = step poly a ^^^ step poly b := by
  have hself : a >>> 1 ^^^ poly ^^^ (b >>> 1 ^^^ poly) = a >>> 1 ^^^ b >>> 1 := by
    rw [xor_xor_xor_comm, BitVec.xor_self, BitVec.xor_zero]
  have hleft : a >>> 1 ^^^ poly ^^^ b >>> 1 = a >>> 1 ^^^ b >>> 1 ^^^ poly := by
    rw [BitVec.xor_assoc, BitVec.xor_comm poly, ← BitVec.xor_assoc]
  simp only [step, BitVec.getLsbD_xor, BitVec.ushiftRight_xor_distrib]
  cases a.getLsbD 0 <;> cases b.getLsbD 0
  · rfl
  · exact BitVec.xor_assoc _ _ _
  · exact hleft.symm
  · exact hself.symm

theorem iterate_xor (poly : BitVec n) (k : Nat) (a b : BitVec n) :
    (step poly)^[k] (a ^^^ b) = (step poly)^[k] a ^^^ (step poly)^[k] b := by
  induction k generalizing a b with
  | zero => rfl
  | succ k ih => rw [Function.iterate_succ_apply, step_xor, ih]; rfl

theorem iterate_of_low {poly c : BitVec n} {k : Nat} (h : ∀ i < k, c.getLsbD i = false) :
    (step poly)^[k] c = c >>> k := by
  induction k with
  | zero => simp
  | succ k ih =>
    have hlow : (c >>> k).getLsbD 0 = false := by
      rw [BitVec.getLsbD_ushiftRight]
      exact h k (Nat.lt_succ_self k)
    rw [Function.iterate_succ_apply', ih fun i hi => h i (Nat.lt_succ_of_lt hi), step, hlow,
      if_neg Bool.false_ne_true, BitVec.shiftRight_add]

theorem eq_zero_of_step {poly c : BitVec n} (hp : poly.msb = true) (h : step poly c = 0#n) :
    c = 0#n := by
  have hn : 0 < n := by
    rcases Nat.eq_zero_or_pos n with rfl | hn
    · rw [BitVec.msb_eq_getLsbD_last] at hp
      simp at hp
    · exact hn
  unfold step at h
  split at h
  · rename_i hlow
    have htop : (c >>> 1).getLsbD (n - 1) = false := by
      rw [BitVec.getLsbD_ushiftRight]
      exact BitVec.getLsbD_of_ge _ _ (by omega)
    have hbit := congrArg (fun x : BitVec n => x.getLsbD (n - 1)) h
    rw [BitVec.msb_eq_getLsbD_last] at hp
    simp [htop, hp] at hbit
  · rename_i hlow
    refine BitVec.eq_of_getLsbD_eq fun i _ => ?_
    rw [BitVec.getLsbD_zero]
    cases i with
    | zero => simpa using hlow
    | succ i =>
      have hbit := congrArg (fun x : BitVec n => x.getLsbD i) h
      simpa [Nat.add_comm 1] using hbit

theorem step_injective {poly : BitVec n} (hp : poly.msb = true) :
    Function.Injective (step poly) := by
  intro a b h
  have hzero : step poly (a ^^^ b) = 0#n := by rw [step_xor, h, BitVec.xor_self]
  exact BitVec.xor_eq_zero_iff.mp (eq_zero_of_step hp hzero)

instance finite_bitVec : Finite (BitVec n) := Finite.of_equiv _ BitVec.equivFin.symm.toEquiv

theorem iterate_bijective {poly : BitVec n} (hp : poly.msb = true) (k : Nat) :
    Function.Bijective (step poly)^[k] :=
  (Finite.injective_iff_bijective.mp (step_injective hp)).iterate k

theorem feed_feed (poly c : BitVec n) {j k : Nat} (a : BitVec j) (b : BitVec k) (h : j + k ≤ n) :
    feed poly (feed poly c a) b = feed poly c (b ++ a) := by
  have hlow : ∀ i < j, ((b.zeroExtend n) <<< j).getLsbD i = false := by
    intro i hi
    simp [hi]
  have hup : (step poly)^[j] ((b.zeroExtend n) <<< j) = b.zeroExtend n := by
    rw [iterate_of_low hlow]
    refine BitVec.eq_of_getLsbD_eq fun i hi => ?_
    simp only [BitVec.getLsbD_ushiftRight, BitVec.getLsbD_shiftLeft, BitVec.getLsbD_setWidth]
    by_cases hik : i < k
    · have : j + i < n := by omega
      simp [this]
    · simp [BitVec.getLsbD_of_ge b i (by omega)]
  have happend : (b ++ a).zeroExtend n = a.zeroExtend n ^^^ (b.zeroExtend n) <<< j := by
    refine BitVec.eq_of_getLsbD_eq fun i hi => ?_
    simp only [BitVec.getLsbD_setWidth, BitVec.getLsbD_append, BitVec.getLsbD_xor,
      BitVec.getLsbD_shiftLeft, hi, decide_true, Bool.true_and]
    by_cases hij : i < j
    · simp [hij]
    · have : i - j < n := by omega
      simp [hij, this, BitVec.getLsbD_of_ge a i (by omega)]
  unfold feed
  rw [happend, Function.iterate_add_apply, ← BitVec.xor_assoc,
    iterate_xor poly j (c ^^^ a.zeroExtend n) (b.zeroExtend n <<< j), hup]

/-- Feeding as many bits as the register has is a bijection from the bits to the register. -/
theorem feed_bijective {poly : BitVec n} (hp : poly.msb = true) (c : BitVec n) :
    Function.Bijective fun b : BitVec n => feed poly c b := by
  have hadd : Function.Bijective fun b : BitVec n => c ^^^ b.zeroExtend n := by
    refine Finite.injective_iff_bijective.mp fun a b h => ?_
    simpa using h
  exact (iterate_bijective hp n).comp hadd

/-! ## Residues -/

/-- Of `q` full periods and `r` numbers more, those whose residue is below `w`. -/
theorem count_mod_lt {m w : Nat} (hw : w ≤ m) (q r : Nat) (hr : r ≤ m) :
    (m * q + r).count (fun k => k % m < w) = q * w + min r w := by
  have hshift : ∀ k, (fun i => (m * k + i) % m < w) = fun i => i % m < w := by
    intro k
    funext i
    rw [Nat.mul_add_mod]
  have hpart : ∀ r ≤ m, Nat.count (fun k => k % m < w) r = min r w := by
    intro r
    induction r with
    | zero => simp
    | succ r ih =>
      intro hr
      have hmod : r % m = r := Nat.mod_eq_of_lt hr
      rw [Nat.count_succ, ih (Nat.le_of_succ_le hr), hmod]
      split <;> omega
  have hfull : Nat.count (fun k => k % m < w) (m * q) = q * w := by
    induction q with
    | zero => simp
    | succ q ih =>
      have hone := hpart m (Nat.le_refl m)
      rw [Nat.mul_succ, Nat.count_add, ih]
      simp only [hshift q, hone, Nat.min_eq_right hw, Nat.succ_mul]
  rw [Nat.count_add, hfull]
  simp only [hshift q, hpart r hr]

/-- A bijection from words of `n` bits to words of `n` bits hits each residue class as often
as counting through all the words does. -/
theorem card_residue {f : BitVec n → BitVec n} (hf : Function.Bijective f) (m w : Nat) :
    Nat.card { x : BitVec n // (f x).toNat % m < w } = (2 ^ n).count fun k => k % m < w := by
  have hword : { x : BitVec n // (f x).toNat % m < w } ≃ { k : Nat // k < 2 ^ n ∧ k % m < w } :=
    ((((Equiv.ofBijective f hf).trans BitVec.equivFin.toEquiv).trans Fin.equivSubtype).subtypeEquiv
      fun _ => Iff.rfl).trans (Equiv.subtypeSubtypeEquivSubtypeInter (· < 2 ^ n) fun k => k % m < w)
  have hmem : ∀ k, k ∈ (Finset.range (2 ^ n)).filter (fun k => k % m < w) ↔ k < 2 ^ n ∧ k % m < w := by
    simp
  rw [Nat.card_congr hword, Nat.subtype_card _ hmem, Nat.count_eq_card_filter_range]

end ShiftRegister

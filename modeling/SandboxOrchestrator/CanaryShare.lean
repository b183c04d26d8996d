import SandboxOrchestrator.Api
import SandboxOrchestrator.Library.ShiftRegister

/-!
# The share of the canary

`bucket` is a checksum of the id. Whatever the first twelve bytes of the id are, its last
four run the register of the checksum through all of its states, so that the canary gets
its percentage of the ids up to the residues that do not fill a hundred. `uuid4` draws the
last four bytes freely; the bits it fixes are among the first twelve.
-/

namespace SandboxOrchestrator

set_option autoImplicit false

open ShiftRegister

def crc32Poly : BitVec 32 := 0xEDB88320#32

theorem crc32Byte_eq (c : BitVec 32) (b : BitVec 8) : crc32Byte c b = feed crc32Poly c b := rfl

/-- The last four bytes of an id as the checksum reads them, the first of them lowest. -/
def tailWord (tail : BitVec 32) : BitVec 32 :=
  tail.extractLsb' 0 8 ++ tail.extractLsb' 8 8 ++ tail.extractLsb' 16 8 ++ tail.extractLsb' 24 8

theorem append_injective {m n : Nat} {a a' : BitVec m} {b b' : BitVec n} (h : a ++ b = a' ++ b') :
    a = a' ∧ b = b' := by
  constructor
  · have hleft := congrArg (fun x : BitVec (m + n) => x.extractLsb' n m) h
    simpa only [BitVec.extractLsb'_append_eq_left] using hleft
  · have hright := congrArg (fun x : BitVec (m + n) => x.extractLsb' 0 n) h
    simpa only [BitVec.extractLsb'_append_eq_right] using hright

theorem tailWord_injective : Function.Injective tailWord := by
  intro a b h
  obtain ⟨h, h₃⟩ := append_injective h
  obtain ⟨h, h₂⟩ := append_injective h
  obtain ⟨h₀, h₁⟩ := append_injective h
  have hbyte : ∀ k < 4, a.extractLsb' (8 * k) 8 = b.extractLsb' (8 * k) 8 := by
    intro k hk
    obtain rfl | rfl | rfl | rfl : k = 0 ∨ k = 1 ∨ k = 2 ∨ k = 3 := by omega
    · exact h₀
    · exact h₁
    · exact h₂
    · exact h₃
  refine BitVec.eq_of_getLsbD_eq fun i hi => ?_
  have hbit := congrArg (fun x : BitVec 8 => x.getLsbD (i % 8)) (hbyte (i / 8) (by omega))
  have hmod : i % 8 < 8 := Nat.mod_lt _ (by decide)
  simpa [hmod, Nat.div_add_mod] using hbit

/-! ## The bytes of an id -/

def stemBytes (stem : BitVec 96) : List (BitVec 8) :=
  (List.range 12).map fun i => stem.extractLsb' (8 * (11 - i)) 8

def tailBytes (tail : BitVec 32) : List (BitVec 8) :=
  [tail.extractLsb' 24 8, tail.extractLsb' 16 8, tail.extractLsb' 8 8, tail.extractLsb' 0 8]

theorem uuidBytes_append (stem : BitVec 96) (tail : BitVec 32) :
    uuidBytes (stem ++ tail) = stemBytes stem ++ tailBytes tail := by
  have hstem : ∀ i < 12, BitVec.extractLsb' (8 * (15 - i)) 8 (stem ++ tail) =
      stem.extractLsb' (8 * (11 - i)) 8 := by
    intro i hi
    rw [BitVec.extractLsb'_append_eq_of_le (by omega), show 8 * (15 - i) - 32 = 8 * (11 - i) by omega]
  have htail : ∀ i < 4, BitVec.extractLsb' (8 * (15 - (12 + i))) 8 (stem ++ tail) =
      tail.extractLsb' (8 * (3 - i)) 8 := by
    intro i hi
    rw [BitVec.extractLsb'_append_eq_of_add_le (by omega), show 15 - (12 + i) = 3 - i by omega]
  have hsplit : List.range 16 = List.range 12 ++ (List.range 4).map (12 + ·) := by decide
  have hlast : tailBytes tail = (List.range 4).map fun i => tail.extractLsb' (8 * (3 - i)) 8 := rfl
  rw [uuidBytes, hsplit, hlast, List.map_append, List.map_map]
  exact congrArg₂ (· ++ ·) (List.map_congr_left fun i hi => hstem i (List.mem_range.mp hi))
    (List.map_congr_left fun i hi => htail i (List.mem_range.mp hi))

def stemState (stem : BitVec 96) : BitVec 32 := (stemBytes stem).foldl crc32Byte 0xFFFFFFFF#32

def tailCrc32 (stem : BitVec 96) (tail : BitVec 32) : BitVec 32 := crc32 (uuidBytes (stem ++ tail))

theorem tailCrc32_eq (stem : BitVec 96) (tail : BitVec 32) :
    tailCrc32 stem tail = feed crc32Poly (stemState stem) (tailWord tail) ^^^ 0xFFFFFFFF#32 := by
  rw [tailCrc32, crc32, uuidBytes_append, List.foldl_append, ← stemState]
  simp only [tailBytes, List.foldl_cons, List.foldl_nil, crc32Byte_eq]
  rw [feed_feed _ _ _ _ (by decide), feed_feed _ _ _ _ (by decide), feed_feed _ _ _ _ (by decide)]
  rfl

theorem tailCrc32_bijective (stem : BitVec 96) : Function.Bijective (tailCrc32 stem) := by
  have hword : Function.Injective fun w => feed crc32Poly (stemState stem) w ^^^ 0xFFFFFFFF#32 :=
    fun a b h => (feed_bijective (by decide) (stemState stem)).1 ((BitVec.xor_left_inj _).mp h)
  refine Finite.injective_iff_bijective.mp fun a b h => tailWord_injective (hword ?_)
  simpa only [tailCrc32_eq] using h

/-- How many of the ids with these first twelve bytes go to the canary. -/
noncomputable def canaryIds (stem : BitVec 96) (raw : Option Int) : Nat :=
  Nat.card { tail : BitVec 32 // route (stem ++ tail) (clampWeight raw) = .canary }

/-- For every first twelve bytes of an id and whatever is stored as the weight, the canary gets
its percentage of the ids: exactly this many of the `2 ^ 32`, off by less than four of them. -/
theorem canary_share (stem : BitVec 96) (raw : Option Int) :
    canaryIds stem raw = 42949672 * (clampWeight raw).toNat + min (clampWeight raw).toNat 96 ∧
      2 ^ 32 * (clampWeight raw).toNat ≤ 100 * canaryIds stem raw ∧
      100 * canaryIds stem raw < 2 ^ 32 * (clampWeight raw).toNat + 400 := by
  obtain ⟨hnonneg, hmax⟩ := clampWeight_range raw
  obtain ⟨weight, hweight⟩ := Int.eq_ofNat_of_zero_le hnonneg
  have hle : weight ≤ 100 := by omega
  have hroute : ∀ tail, route (stem ++ tail) (clampWeight raw) = .canary ↔
      (tailCrc32 stem tail).toNat % 100 < weight := by
    intro tail
    have hbucket : bucket (stem ++ tail) = (tailCrc32 stem tail).toNat % 100 := rfl
    rw [route_canary_iff, hbucket, hweight]
    exact Int.ofNat_lt
  have hshare : canaryIds stem raw = 42949672 * weight + min weight 96 := by
    calc
      canaryIds stem raw =
          Nat.card { tail : BitVec 32 // (tailCrc32 stem tail).toNat % 100 < weight } :=
        Nat.card_congr (Equiv.subtypeEquivRight hroute)
      _ = (2 ^ 32).count fun k => k % 100 < weight := card_residue (tailCrc32_bijective stem) 100 weight
      _ = (100 * 42949672 + 96).count fun k => k % 100 < weight := by norm_num
      _ = 42949672 * weight + min weight 96 := by
        rw [count_mod_lt hle 42949672 96 (by decide), Nat.min_comm]
  rw [hshare, hweight, Int.toNat_natCast]
  omega

end SandboxOrchestrator

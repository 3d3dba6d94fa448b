import VirtualDisk.Storage.Content

/-!
# Ranges of a content

Two contents agree on a range if they hold the same bytes there; what is read from the range is then
the same. A write changes nothing outside its own range. `Grown` says of a content that it came from
another one by writes to the last sector and past the end, `SameFrom` that it has the size of
another one and all bytes from a position on.
-/

namespace VirtualDisk.Storage.Content

variable {n : Nat} {content content' content'' : Content}

/-- The second content holds the bytes of the first in the `size` bytes from `start` on. -/
def AgreeOn (content content' : Content) (start size : Nat) : Prop :=
  ∀ position, start ≤ position → position < start + size →
    content'.byte position = content.byte position

namespace AgreeOn

variable {start size : Nat}

theorem refl (content : Content) (start size : Nat) : content.AgreeOn content start size :=
  fun _ _ _ => rfl

theorem trans (h : content.AgreeOn content' start size)
    (h' : content'.AgreeOn content'' start size) :
    content.AgreeOn content'' start size :=
  fun position hstart hend => (h' position hstart hend).trans (h position hstart hend)

theorem mono {start' size' : Nat} (h : content.AgreeOn content' start size)
    (hstart : start ≤ start') (hend : start' + size' ≤ start + size) :
    content.AgreeOn content' start' size' :=
  fun position hs he => h position (by omega) (by omega)

theorem read_eq (h : content.AgreeOn content' start size) :
    content'.read start size = content.read start size := by
  refine Bytes.ext fun i hi => ?_
  rw [getElem_read, getElem_read]
  exact h (start + i) (by omega) (by omega)

end AgreeOn

theorem agreeOn_write (content : Content) {offset start size : Nat} (data : Bytes n)
    (h : start + size ≤ offset ∨ offset + n ≤ start) :
    content.AgreeOn (content.write offset data) start size := by
  intro position hstart hend
  rw [byte_write, dif_neg (by omega)]

theorem read_write_of_disjoint (content : Content) {offset start size : Nat} (data : Bytes n)
    (h : start + size ≤ offset ∨ offset + n ≤ start) :
    (content.write offset data).read start size = content.read start size :=
  (content.agreeOn_write data h).read_eq

@[simp] theorem read_write_same (content : Content) (offset : Nat) (data : Bytes n) :
    (content.write offset data).read offset n = data := by
  refine Bytes.ext fun i hi => ?_
  rw [getElem_read, byte_write, dif_pos (by omega)]
  congr 1
  omega

/-- The last sector. -/
def tail (content : Content) : Sector := content.read (content.size - 512) 512

/-- The second content came from the first by writes to its last sector and past its end. -/
structure Grown (content content' : Content) : Prop where
  size_le : content.size ≤ content'.size
  agree : content.AgreeOn content' 0 (content.size - 512)

namespace Grown

theorem refl (content : Content) : content.Grown content :=
  ⟨Nat.le_refl _, .refl _ _ _⟩

theorem write (h : content.Grown content') {offset : Nat} (data : Bytes n)
    (hoffset : content.size ≤ offset + 512) : content.Grown (content'.write offset data) := by
  refine ⟨Nat.le_trans h.size_le (Nat.le_max_left _ _), h.agree.trans ?_⟩
  exact content'.agreeOn_write data (by omega)

theorem agreeOn (h : content.Grown content') {start size : Nat}
    (hend : start + size + 512 ≤ content.size) : content.AgreeOn content' start size :=
  h.agree.mono (Nat.zero_le _) (by omega)

end Grown

/-- The second content has the size of the first, and its bytes from `start` on. -/
structure SameFrom (content content' : Content) (start : Nat) : Prop where
  size_eq : content'.size = content.size
  byte_eq : ∀ position, start ≤ position → content'.byte position = content.byte position

namespace SameFrom

variable {start : Nat}

theorem refl (content : Content) (start : Nat) : content.SameFrom content start :=
  ⟨rfl, fun _ _ => rfl⟩

theorem tail_eq (h : content.SameFrom content' start) (hroom : start + 512 ≤ content.size) :
    content'.tail = content.tail := by
  have hagree : content.AgreeOn content' (content.size - 512) 512 :=
    fun position hstart _ => h.byte_eq position (by omega)
  rw [tail, tail, h.size_eq]
  exact hagree.read_eq

end SameFrom

end VirtualDisk.Storage.Content

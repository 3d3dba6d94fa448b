import Std.Data.TreeMap.Lemmas
import VirtualDisk.Sector

/-!
# The bytes of a storage

`Content` is a byte string of any size up to 64-bit lengths. It is kept sector by sector, and a
sector that was never given a nonzero byte takes no memory, so that a disk of many terabytes with a
few bytes written is a small value.

What matters about a content is its `size` and, through `Content.byte`, the byte at every position;
positions past the end count as zero. `byte_resize`, `byte_write` and `getElem_read` describe the
three operations in these terms.
-/

namespace VirtualDisk.Storage

/-- Sectors by number; a missing sector holds zeros. -/
abbrev SectorMap := Std.TreeMap Nat Sector

namespace SectorMap

/-- The byte at a position. -/
def byte (sectors : SectorMap) (position : Nat) : UInt8 :=
  match sectors[position / 512]? with
  | some sector => getElem sector (position % 512) (Nat.mod_lt _ (by decide))
  | none => 0

theorem byte_empty (position : Nat) : byte ∅ position = 0 := by
  simp [byte]

theorem byte_insert (sectors : SectorMap) (number : Nat) (sector : Sector) (position : Nat) :
    byte (sectors.insert number sector) position =
      if position / 512 = number then getElem sector (position % 512) (Nat.mod_lt _ (by decide))
      else sectors.byte position := by
  simp only [byte, Std.TreeMap.getElem?_insert, Nat.compare_eq_eq]
  by_cases h : number = position / 512
  · simp [h]
  · simp [h, Ne.symm h]

/-- How many sectors the `size` bytes from `offset` on touch. -/
def touched (offset size : Nat) : Nat :=
  if size = 0 then 0 else (offset + size - 1) / 512 + 1 - offset / 512

/-- Copies into the answer to a read the part that one sector has in it. -/
def copyOut {size : Nat} (sectors : SectorMap) (offset number : Nat) (answer : Bytes size) :
    Bytes size :=
  match sectors[number]? with
  | none => answer
  | some sector =>
    let first := max offset (number * 512)
    let past := min (offset + size) (number * 512 + 512)
    if h : first < past then
      sector.copy (first - number * 512) answer (first - offset) (past - first) (by omega)
        (by omega)
    else answer

/-- The `size` bytes from `offset` on. -/
def read (sectors : SectorMap) (offset size : Nat) : Bytes size :=
  Nat.fold (touched offset size)
    (fun i _ answer => sectors.copyOut offset (offset / 512 + i) answer) (Bytes.zero size)

theorem getElem_copyOut_of_ne {size : Nat} (sectors : SectorMap) (offset number : Nat)
    (answer : Bytes size) (i : Nat) (hi : i < size) (h : (offset + i) / 512 ≠ number) :
    (sectors.copyOut offset number answer)[i] = answer[i] := by
  unfold copyOut
  cases sectors[number]? with
  | none => rfl
  | some sector =>
    dsimp only
    split
    · rw [Bytes.getElem_copy, dif_neg (by omega)]
    · rfl

theorem getElem_copyOut_of_eq {size : Nat} (sectors : SectorMap) (offset : Nat)
    (answer : Bytes size) (i : Nat) (hi : i < size) (hzero : answer[i] = 0) :
    (sectors.copyOut offset ((offset + i) / 512) answer)[i] = sectors.byte (offset + i) := by
  unfold copyOut byte
  cases sectors[(offset + i) / 512]? with
  | none => exact hzero
  | some sector =>
    dsimp only
    rw [dif_pos (by omega), Bytes.getElem_copy, dif_pos (by omega)]
    congr 1
    omega

/-- After some of the touched sectors have been copied, the answer holds their bytes, and zeros in
the place of the sectors that are still to come. -/
theorem getElem_fold_copyOut (sectors : SectorMap) (offset size count i : Nat) (hi : i < size) :
    (Nat.fold count (fun k _ answer => sectors.copyOut offset (offset / 512 + k) answer)
      (Bytes.zero size))[i] =
      if (offset + i) / 512 < offset / 512 + count then sectors.byte (offset + i) else 0 := by
  induction count with
  | zero =>
    have : offset / 512 ≤ (offset + i) / 512 := Nat.div_le_div_right (by omega)
    rw [Nat.fold_zero, Bytes.getElem_zero, if_neg (by omega)]
  | succ count ih =>
    rw [Nat.fold_succ]
    by_cases h : (offset + i) / 512 = offset / 512 + count
    · rw [← h, getElem_copyOut_of_eq _ _ _ _ hi (by rw [ih, if_neg (by omega)]), if_pos (by omega)]
    · rw [getElem_copyOut_of_ne _ _ _ _ _ hi h, ih]
      by_cases hlt : (offset + i) / 512 < offset / 512 + count
      · rw [if_pos hlt, if_pos (by omega)]
      · rw [if_neg hlt, if_neg (by omega)]

theorem getElem_read (sectors : SectorMap) (offset size i : Nat) (hi : i < size) :
    (sectors.read offset size)[i] = sectors.byte (offset + i) := by
  have : (offset + i) / 512 < offset / 512 + touched offset size := by
    rw [touched, if_neg (by omega)]
    omega
  rw [read, getElem_fold_copyOut _ _ _ _ _ hi, if_pos this]

/-- The sector that holds zeros only. -/
def zeroSector : Sector := Bytes.zero 512

/-- Replaces one sector. A sector of zeros is forgotten. -/
def put (sectors : SectorMap) (number : Nat) (sector : Sector) : SectorMap :=
  if sector = zeroSector then sectors.erase number else sectors.insert number sector

theorem byte_put (sectors : SectorMap) (number : Nat) (sector : Sector) (position : Nat) :
    byte (sectors.put number sector) position =
      if position / 512 = number then getElem sector (position % 512) (Nat.mod_lt _ (by decide))
      else sectors.byte position := by
  unfold put
  split
  · next h =>
    subst h
    simp only [byte, Std.TreeMap.getElem?_erase, Nat.compare_eq_eq]
    by_cases h : number = position / 512
    · simp [h, zeroSector]
    · simp [h, Ne.symm h]
  · rw [byte_insert]

theorem getElem_getD (sectors : SectorMap) (position : Nat) :
    getElem (sectors.getD (position / 512) zeroSector) (position % 512)
        (Nat.mod_lt _ (by decide)) =
      sectors.byte position := by
  have hget : sectors.getD (position / 512) zeroSector =
      sectors[position / 512]?.getD zeroSector := Std.TreeMap.getD_eq_getD_getElem?
  unfold byte
  cases hs : sectors[position / 512]? with
  | none =>
    rw [hs, Option.getD_none] at hget
    simp only [hget]
    exact Bytes.getElem_zero _ _ _
  | some sector =>
    rw [hs, Option.getD_some] at hget
    simp only [hget]

/-- Stores the part of a write that falls into one sector. -/
def copyIn {size : Nat} (data : Bytes size) (offset number : Nat) (sectors : SectorMap) :
    SectorMap :=
  let first := max offset (number * 512)
  let past := min (offset + size) (number * 512 + 512)
  if h : first < past then
    sectors.put number (data.copy (first - offset) (sectors.getD number zeroSector)
      (first - number * 512) (past - first) (by omega) (by omega))
  else sectors

/-- Stores bytes from `offset` on. -/
def write {size : Nat} (sectors : SectorMap) (offset : Nat) (data : Bytes size) : SectorMap :=
  Nat.fold (touched offset size) (fun i _ sectors => copyIn data offset (offset / 512 + i) sectors)
    sectors

theorem byte_copyIn {size : Nat} (data : Bytes size) (offset number : Nat) (sectors : SectorMap)
    (position : Nat) :
    (copyIn data offset number sectors).byte position =
      if h : (offset ≤ position ∧ position < offset + size) ∧ position / 512 = number then
        data[position - offset]
      else sectors.byte position := by
  unfold copyIn
  dsimp only
  by_cases hn : position / 512 = number
  · subst hn
    by_cases hp : offset ≤ position ∧ position < offset + size
    · rw [dif_pos (by omega), byte_put, if_pos rfl, Bytes.getElem_copy, dif_pos (by omega),
        dif_pos ⟨hp, rfl⟩]
      congr 1
      omega
    · rw [dif_neg (c := _ ∧ _) (by omega)]
      split
      · rw [byte_put, if_pos rfl, Bytes.getElem_copy, dif_neg (by omega), getElem_getD]
      · rfl
  · rw [dif_neg (c := _ ∧ _) (by omega)]
    split
    · rw [byte_put, if_neg hn]
    · rfl

theorem byte_fold_copyIn {size : Nat} (data : Bytes size) (offset count : Nat)
    (sectors : SectorMap) (position : Nat) :
    byte (Nat.fold count (fun i _ sectors => copyIn data offset (offset / 512 + i) sectors)
      sectors) position =
      if h : (offset ≤ position ∧ position < offset + size) ∧
          position / 512 < offset / 512 + count then data[position - offset]
      else sectors.byte position := by
  induction count with
  | zero =>
    rw [Nat.fold_zero, dif_neg]
    intro h
    have : offset / 512 ≤ position / 512 := Nat.div_le_div_right h.1.1
    omega
  | succ count ih =>
    rw [Nat.fold_succ, byte_copyIn]
    by_cases h : (offset ≤ position ∧ position < offset + size) ∧
        position / 512 = offset / 512 + count
    · rw [dif_pos h, dif_pos ⟨h.1, by omega⟩]
    · rw [dif_neg h, ih]
      by_cases h' : (offset ≤ position ∧ position < offset + size) ∧
          position / 512 < offset / 512 + count
      · rw [dif_pos h', dif_pos ⟨h'.1, by omega⟩]
      · rw [dif_neg h', dif_neg (by omega)]

theorem byte_write {size : Nat} (sectors : SectorMap) (offset : Nat) (data : Bytes size)
    (position : Nat) :
    (sectors.write offset data).byte position =
      if h : offset ≤ position ∧ position < offset + size then data[position - offset]
      else sectors.byte position := by
  rw [write, byte_fold_copyIn]
  by_cases h : offset ≤ position ∧ position < offset + size
  · have : position / 512 < offset / 512 + touched offset size := by
      rw [touched, if_neg (by omega)]
      omega
    rw [dif_pos h, dif_pos ⟨h, this⟩]
  · rw [dif_neg h, dif_neg fun h' => h h'.1]

/-- Forgets everything from `size` on. -/
def cut (sectors : SectorMap) (size : Nat) : SectorMap :=
  let kept : SectorMap := sectors.filter fun number _ => number * 512 < size
  match kept[size / 512]? with
  | none => kept
  | some sector =>
    put kept (size / 512)
      (zeroSector.copy 0 sector (size % 512) (512 - size % 512) (by omega) (by omega))

theorem byte_filter (sectors : SectorMap) (size position : Nat) :
    byte (sectors.filter fun number _ => number * 512 < size) position =
      if position / 512 * 512 < size then sectors.byte position else 0 := by
  simp only [byte, Std.TreeMap.getElem?_filter']
  cases hs : sectors[position / 512]? with
  | none => simp
  | some sector =>
    by_cases h : position / 512 * 512 < size
    · simp [h, Option.filter]
    · simp [h, Option.filter]

theorem byte_cut (sectors : SectorMap) (size position : Nat) :
    (sectors.cut size).byte position = if position < size then sectors.byte position else 0 := by
  unfold cut
  dsimp only
  have hbyte := byte_filter sectors size position
  split
  · next hnone =>
    by_cases h : position / 512 = size / 512
    · have hz : byte (sectors.filter fun number _ => number * 512 < size) position = 0 := by
        simp only [byte, h, hnone]
      rw [hz] at hbyte ⊢
      split
      · rw [hbyte, if_pos (by omega)]
      · rfl
    · rw [hbyte]
      by_cases hlt : position < size
      · rw [if_pos hlt, if_pos (by omega)]
      · rw [if_neg hlt, if_neg (by omega)]
  · next sector hsome =>
    rw [byte_put]
    by_cases h : position / 512 = size / 512
    · rw [if_pos h, Bytes.getElem_copy]
      by_cases hlt : position < size
      · rw [dif_neg (by omega), if_pos hlt]
        rw [if_pos (by omega)] at hbyte
        rw [← hbyte]
        simp only [byte, h, hsome]
      · rw [dif_pos (by omega), if_neg hlt]
        exact Bytes.getElem_zero _ _ _
    · rw [if_neg h, hbyte]
      by_cases hlt : position < size
      · rw [if_pos hlt, if_pos (by omega)]
      · rw [if_neg hlt, if_neg (by omega)]

end SectorMap

/-- The bytes of a storage. -/
structure Content where
  size : Nat
  sectors : SectorMap
  byte_eq_zero : ∀ position, size ≤ position → sectors.byte position = 0

namespace Content

/-- The byte at a position, zero past the end. -/
def byte (content : Content) (position : Nat) : UInt8 := content.sectors.byte position

/-- No bytes at all. -/
def empty : Content := ⟨0, ∅, fun position _ => SectorMap.byte_empty position⟩

instance : Inhabited Content := ⟨empty⟩

/-- The bytes of a range, zero past the end. -/
def read (content : Content) (offset size : Nat) : Bytes size := content.sectors.read offset size

/-- Stores bytes at a position. The content grows to the end of the written range, with zeros in
between. -/
def write {n : Nat} (content : Content) (offset : Nat) (data : Bytes n) : Content where
  size := max content.size (offset + n)
  sectors := content.sectors.write offset data
  byte_eq_zero position h := by
    rw [SectorMap.byte_write, dif_neg (by omega)]
    exact content.byte_eq_zero position (by omega)

/-- Cuts the content, or extends it with zeros, to a size. -/
def resize (content : Content) (size : Nat) : Content :=
  if h : content.size ≤ size then
    ⟨size, content.sectors, fun position h' => content.byte_eq_zero position (by omega)⟩
  else
    ⟨size, content.sectors.cut size, fun position h' => by
      rw [SectorMap.byte_cut, if_neg (by omega)]⟩

/-- A content that consists of the given bytes. -/
def ofByteArray (bytes : ByteArray) : Content := empty.write 0 (Bytes.ofByteArray bytes)

/-- All bytes, in order. -/
def toByteArray (content : Content) : ByteArray := (content.read 0 content.size).toByteArray

theorem byte_eq_zero_of_size_le (content : Content) {position : Nat}
    (h : content.size ≤ position) : content.byte position = 0 :=
  content.byte_eq_zero position h

@[simp] theorem size_empty : empty.size = 0 := rfl

@[simp] theorem byte_empty (position : Nat) : empty.byte position = 0 :=
  SectorMap.byte_empty position

@[simp] theorem getElem_read (content : Content) (offset size i : Nat) (hi : i < size) :
    (content.read offset size)[i] = content.byte (offset + i) :=
  SectorMap.getElem_read content.sectors offset size i hi

@[simp] theorem size_write {n : Nat} (content : Content) (offset : Nat) (data : Bytes n) :
    (content.write offset data).size = max content.size (offset + n) := rfl

theorem byte_write {n : Nat} (content : Content) (offset : Nat) (data : Bytes n)
    (position : Nat) :
    (content.write offset data).byte position =
      if h : offset ≤ position ∧ position < offset + n then data[position - offset]
      else content.byte position :=
  SectorMap.byte_write content.sectors offset data position

@[simp] theorem size_resize (content : Content) (size : Nat) :
    (content.resize size).size = size := by
  unfold resize
  split <;> rfl

theorem byte_resize (content : Content) (size position : Nat) :
    (content.resize size).byte position =
      if position < size then content.byte position else 0 := by
  unfold resize byte
  split
  · split
    · rfl
    · exact content.byte_eq_zero position (by omega)
  · exact SectorMap.byte_cut content.sectors size position

end Content

end VirtualDisk.Storage

import VirtualDisk.Format.Geometry

/-!
# Derived geometries

A geometry that is derived from a size has as many cylinders as fit, of one of four sizes. `Shape`
collects what the four ranges of sizes have in common: the number of cylinders needs no bound and no
more bits than the footer has for it. So the geometry is never larger than the disk, falls short of
it by less than a cylinder, and has no sector at all if the disk is smaller than the smallest
cylinder.
-/

namespace VirtualDisk.Geometry

variable {total sectorsPerTrack heads : Nat}

/-- The sectors of a disk of this size that a derived geometry can reach. -/
def reach (size : Nat) : Nat := min (size / 512) maxSectors

/-- Tracks and heads for a disk of so many sectors, with which its cylinders can be counted. The
smallest cylinder has 4 * 17 sectors. -/
structure Shape (total sectorsPerTrack heads : Nat) : Prop where
  track : sectorsPerTrack ∈ [17, 31, 63, 255]
  heads_ge : 4 ≤ heads
  heads_le : heads ≤ 16
  cylinders_lt : total / sectorsPerTrack / heads < 2 ^ 16
  cylinders_pos : 68 ≤ total → 0 < total / sectorsPerTrack / heads

/-- The heads with which the short tracks make at most 1024 cylinders, four at least. -/
def fewestHeads (tracks : Nat) : Nat := max ((tracks + 1023) / 1024) 4

theorem ofSize_eq (size : Nat) :
    ofSize size =
      if 65535 * 16 * 63 ≤ reach size then ofTracks 255 16 (reach size / 255)
      else if reach size / 17 < fewestHeads (reach size / 17) * 1024 ∧
          fewestHeads (reach size / 17) ≤ 16 then
        ofTracks 17 (fewestHeads (reach size / 17)) (reach size / 17)
      else if reach size / 31 < 16 * 1024 then ofTracks 31 16 (reach size / 31)
      else ofTracks 63 16 (reach size / 63) := rfl

theorem shape_short (hcylinders : total / 17 < fewestHeads (total / 17) * 1024)
    (hheads : fewestHeads (total / 17) ≤ 16) : Shape total 17 (fewestHeads (total / 17)) where
  track := by decide
  heads_ge := Nat.le_max_right _ _
  heads_le := hheads
  cylinders_lt := by
    have hlt : total / 17 / fewestHeads (total / 17) < 1024 := Nat.div_lt_of_lt_mul hcylinders
    omega
  cylinders_pos htotal := by
    have hle : fewestHeads (total / 17) ≤ total / 17 := by
      unfold fewestHeads
      omega
    exact Nat.div_pos hle (Nat.lt_of_lt_of_le (by decide) (Nat.le_max_right _ 4))

theorem shape_31 (hshort : 4096 ≤ total / 17) (hcylinders : total / 31 < 16 * 1024) :
    Shape total 31 16 :=
  ⟨by decide, by decide, by decide, by omega, by omega⟩

theorem shape_63 (hlong : 16 * 1024 ≤ total / 31) (hmax : total < 65535 * 16 * 63) :
    Shape total 63 16 :=
  ⟨by decide, by decide, by decide, by omega, by omega⟩

theorem shape_255 (hlong : 65535 * 16 * 63 ≤ total) (hmax : total ≤ maxSectors) :
    Shape total 255 16 := by
  unfold maxSectors at hmax
  exact ⟨by decide, by decide, by decide, by omega, by omega⟩

theorem exists_shape (size : Nat) : ∃ sectorsPerTrack heads,
    Shape (reach size) sectorsPerTrack heads ∧
      ofSize size = ofTracks sectorsPerTrack heads (reach size / sectorsPerTrack) := by
  rw [ofSize_eq]
  have hmax : reach size ≤ maxSectors := Nat.min_le_right _ _
  split
  · next hlong => exact ⟨_, _, shape_255 hlong hmax, rfl⟩
  next hhuge =>
  split
  · next hshort => exact ⟨_, _, shape_short hshort.1 hshort.2, rfl⟩
  next hshort =>
  -- More than 1024 cylinders of four heads, or more than sixteen heads.
  have hlarge : 4096 ≤ reach size / 17 := by
    unfold fewestHeads at hshort
    omega
  split
  · next hmiddle => exact ⟨_, _, shape_31 hlarge hmiddle, rfl⟩
  · next hmiddle => exact ⟨_, _, shape_63 (by omega) (by omega), rfl⟩

namespace Shape

variable (h : Shape total sectorsPerTrack heads)
include h

theorem sectorsPerTrack_le : sectorsPerTrack ≤ 255 := by
  have htrack := h.track
  simp only [List.mem_cons, List.not_mem_nil, or_false] at htrack
  omega

/-- No cylinder is smaller than one of four heads and 17 sectors per track. -/
theorem cylinder_ge : 68 ≤ heads * sectorsPerTrack := by
  have htrack := h.track
  simp only [List.mem_cons, List.not_mem_nil, or_false] at htrack
  have hge : 17 ≤ sectorsPerTrack := by omega
  exact Nat.mul_le_mul h.heads_ge hge

theorem cylinders_ofTracks :
    (ofTracks sectorsPerTrack heads (total / sectorsPerTrack)).cylinders.toNat =
      total / sectorsPerTrack / heads := by
  have hlt := h.cylinders_lt
  rw [ofTracks, Nat.min_eq_left (by omega)]
  exact UInt16.toNat_ofNat_of_lt hlt

theorem heads_ofTracks :
    (ofTracks sectorsPerTrack heads (total / sectorsPerTrack)).heads.toNat = heads :=
  UInt8.toNat_ofNat_of_lt (Nat.lt_of_le_of_lt h.heads_le (by decide))

theorem sectorsPerTrack_ofTracks :
    (ofTracks sectorsPerTrack heads (total / sectorsPerTrack)).sectorsPerTrack.toNat =
      sectorsPerTrack :=
  UInt8.toNat_ofNat_of_lt (Nat.lt_of_le_of_lt h.sectorsPerTrack_le (by decide))

/-- A disk is cut into cylinders of `heads * sectorsPerTrack` sectors. -/
theorem totalSectors_ofTracks :
    (ofTracks sectorsPerTrack heads (total / sectorsPerTrack)).totalSectors =
      total / (heads * sectorsPerTrack) * (heads * sectorsPerTrack) := by
  rw [totalSectors, h.cylinders_ofTracks, h.heads_ofTracks, h.sectorsPerTrack_ofTracks,
    Nat.div_div_eq_div_mul, Nat.mul_comm sectorsPerTrack heads, Nat.mul_assoc]

end Shape

/-- The geometry has the tracks and heads of the format, and as many cylinders as fit into `total`
sectors. Neither the bound for cylinders nor the widths of the footer cut anything off. -/
structure DerivedFor (g : Geometry) (total : Nat) : Prop where
  track : g.sectorsPerTrack.toNat ∈ [17, 31, 63, 255]
  heads_ge : 4 ≤ g.heads.toNat
  heads_le : g.heads.toNat ≤ 16
  uncut : ∃ sectorsPerTrack heads, g = ofTracks sectorsPerTrack heads (total / sectorsPerTrack) ∧
    total / sectorsPerTrack / heads < 2 ^ 16 ∧
    g.cylinders.toNat = total / sectorsPerTrack / heads ∧ g.heads.toNat = heads ∧
    g.sectorsPerTrack.toNat = sectorsPerTrack
  totalSectors_le : g.totalSectors ≤ total
  lt_totalSectors_add : total < g.totalSectors + g.heads.toNat * g.sectorsPerTrack.toNat

theorem derivedFor_ofSize (size : Nat) : (ofSize size).DerivedFor (reach size) := by
  obtain ⟨sectorsPerTrack, heads, h, hofSize⟩ := exists_shape size
  have hcylinder : 0 < heads * sectorsPerTrack := Nat.lt_of_lt_of_le (by decide) h.cylinder_ge
  rw [hofSize]
  exact {
    track := by simpa only [h.sectorsPerTrack_ofTracks] using h.track
    heads_ge := by simpa only [h.heads_ofTracks] using h.heads_ge
    heads_le := by simpa only [h.heads_ofTracks] using h.heads_le
    uncut := ⟨_, _, rfl, h.cylinders_lt, h.cylinders_ofTracks, h.heads_ofTracks,
      h.sectorsPerTrack_ofTracks⟩
    totalSectors_le := by
      simpa only [h.totalSectors_ofTracks] using Nat.div_mul_le_self _ _
    lt_totalSectors_add := by
      simpa only [h.totalSectors_ofTracks, h.heads_ofTracks, h.sectorsPerTrack_ofTracks]
        using Nat.lt_div_mul_add hcylinder }

/-- Only a disk that is smaller than the smallest cylinder has no sector. -/
theorem totalSectors_ofSize_eq_zero_iff (size : Nat) :
    (ofSize size).totalSectors = 0 ↔ size / 512 < 68 := by
  obtain ⟨sectorsPerTrack, heads, h, hofSize⟩ := exists_shape size
  have hreach : reach size < 68 ↔ size / 512 < 68 := by
    unfold reach maxSectors
    omega
  rw [hofSize, ← hreach, h.totalSectors_ofTracks]
  have hcylinder := h.cylinder_ge
  constructor
  · intro hzero
    refine Nat.lt_of_not_le fun hlarge => ?_
    have hpos := h.cylinders_pos hlarge
    rw [Nat.div_div_eq_div_mul, Nat.mul_comm sectorsPerTrack] at hpos
    exact Nat.ne_of_gt (Nat.mul_pos hpos (Nat.lt_of_lt_of_le (by decide) hcylinder)) hzero
  · intro hsmall
    rw [Nat.div_eq_of_lt (by omega), Nat.zero_mul]

end VirtualDisk.Geometry

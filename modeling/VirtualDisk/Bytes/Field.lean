import VirtualDisk.Bytes.BigEndian

/-!
# Fields of fixed records

A record of the disk format is a byte string whose fields sit at fixed places. `Field n w` names
such a place: `w` bytes of a record of `n` bytes. A record is read field by field, and built by
setting the fields of a zero record. Setting a field is visible through that field and, as
`get_set_of_disjoint` says, through no other.

A record also carries a checksum in one of its own fields: the one's complement of the sum of all
its bytes, the field itself counted as zeros.
-/

namespace VirtualDisk

/-- A place of `w` bytes in records of `n` bytes. -/
structure Field (n w : Nat) where
  start : Nat
  start_add_le : start + w ≤ n := by decide

namespace Field

variable {n w w' : Nat}

/-- The bytes of the field. -/
def get (f : Field n w) (record : Bytes n) : Bytes w := record.slice f.start w f.start_add_le

/-- The record with new bytes in the field. -/
def set (f : Field n w) (value : Bytes w) (record : Bytes n) : Bytes n :=
  record.overwrite f.start value f.start_add_le

/-- The big-endian number in the field. -/
def number (f : Field n w) (record : Bytes n) : Nat := record.number f.start w f.start_add_le

/-- The record with a number, in big-endian order, in the field. -/
def setNumber (f : Field n w) (value : Nat) (record : Bytes n) : Bytes n :=
  f.set (Bytes.ofNumber w value) record

/-- Two fields share no byte. -/
def Disjoint (f : Field n w) (g : Field n w') : Prop :=
  f.start + w ≤ g.start ∨ g.start + w' ≤ f.start

instance (f : Field n w) (g : Field n w') : Decidable (f.Disjoint g) :=
  inferInstanceAs (Decidable (_ ∨ _))

@[simp] theorem get_set_same (f : Field n w) (value : Bytes w) (record : Bytes n) :
    f.get (f.set value record) = value :=
  Bytes.slice_overwrite_same record f.start value f.start_add_le

theorem get_set_of_disjoint {f : Field n w} {g : Field n w'} (h : f.Disjoint g) (value : Bytes w')
    (record : Bytes n) : f.get (g.set value record) = f.get record :=
  Bytes.slice_overwrite_of_disjoint record g.start value g.start_add_le f.start w f.start_add_le h

theorem number_eq_get (f : Field n w) (record : Bytes n) :
    f.number record = (f.get record).number 0 w (Nat.le_of_eq (Nat.zero_add w)) :=
  (Bytes.number_slice record f.start w f.start_add_le).symm

theorem number_lt (f : Field n w) (record : Bytes n) : f.number record < 256 ^ w :=
  Bytes.number_lt record f.start w f.start_add_le

theorem number_setNumber_same (f : Field n w) (value : Nat) (record : Bytes n) :
    f.number (f.setNumber value record) = value % 256 ^ w := by
  rw [number_eq_get, setNumber, get_set_same, Bytes.number_ofNumber]

theorem number_set_of_disjoint {f : Field n w} {g : Field n w'} (h : f.Disjoint g)
    (value : Bytes w') (record : Bytes n) : f.number (g.set value record) = f.number record := by
  rw [number_eq_get, get_set_of_disjoint h, ← number_eq_get]

theorem number_setNumber_of_disjoint {f : Field n w} {g : Field n w'} (h : f.Disjoint g)
    (value : Nat) (record : Bytes n) : f.number (g.setNumber value record) = f.number record :=
  number_set_of_disjoint h _ record

theorem get_setNumber_of_disjoint {f : Field n w} {g : Field n w'} (h : f.Disjoint g)
    (value : Nat) (record : Bytes n) : f.get (g.setNumber value record) = f.get record :=
  get_set_of_disjoint h _ record

/-- The checksum that belongs into the field: the one's complement of the sum of all other bytes. -/
def checksum (f : Field n 4) (record : Bytes n) : UInt32 :=
  ~~~ UInt32.ofNat (f.set (Bytes.zero 4) record).sum

/-- The record with its checksum in the field. -/
def stamp (f : Field n 4) (record : Bytes n) : Bytes n :=
  f.setNumber (f.checksum record).toNat record

/-- The field holds the checksum of the record. -/
def Stamped (f : Field n 4) (record : Bytes n) : Prop :=
  f.number record = (f.checksum record).toNat

instance (f : Field n 4) (record : Bytes n) : Decidable (f.Stamped record) :=
  inferInstanceAs (Decidable (_ = _))

/-- What the field holds does not count towards the checksum. -/
theorem checksum_set_same (f : Field n 4) (value : Bytes 4) (record : Bytes n) :
    f.checksum (f.set value record) = f.checksum record := by
  have : f.set (Bytes.zero 4) (f.set value record) = f.set (Bytes.zero 4) record := by
    refine Bytes.ext fun i hi => ?_
    simp only [set, Bytes.getElem_overwrite]
    split <;> rfl
  rw [checksum, this, checksum]

theorem stamped_stamp (f : Field n 4) (record : Bytes n) : f.Stamped (f.stamp record) := by
  have hlt := (f.checksum record).toNat_lt
  rw [Stamped, stamp, number_setNumber_same, setNumber, checksum_set_same]
  omega

end Field

end VirtualDisk

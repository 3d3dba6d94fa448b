import VirtualDisk.Format.BlockHeader
import VirtualDisk.Proofs.Format.Checksum
import VirtualDisk.Proofs.Format.Demand

/-!
# Reading and writing headers

A header is written into a record of 1024 bytes, most of which say nothing. Reading looks at the
cookie, the checksum, the version and three numbers, in this order, and of what a header was written
as only the numbers can be at fault, because no field overlaps another one. The other way round, a
record that was read is written again as it was if the bytes that no header tells of are those that
are written for every header. All others follow from the header, the checksum included, since it
follows from the other bytes.
-/

namespace VirtualDisk.BlockHeader

variable {header header' : BlockHeader} {raw : Bytes 1024}

/-- What is asked of the numbers in a header. -/
def numberDemands (tableOffset maxTableEntries blockSize : Nat) : List Demand :=
  [⟨tableOffset % 512 = 0, .corrupt .tableMisaligned⟩,
   ⟨maxTableEntries ≠ 0, .corrupt .tableEmpty⟩,
   ⟨WholeSectors blockSize, .corrupt .blockSize⟩]

/-- What is asked of a header before it may be read. -/
def demands (header : BlockHeader) : List Demand :=
  numberDemands header.tableOffset.toNat header.maxTableEntries.toNat header.blockSize.toNat

/-- What is asked of the first bytes of a record, of its checksum, of its version and of the numbers
in it. -/
def recordDemands (start : Bytes 8) (summed : Prop) (version : Nat) (numbers : List Demand) :
    List Demand :=
  ⟨start = cookie, .corrupt .headerCookie⟩ ::
  ⟨summed, .corrupt .headerChecksum⟩ ::
  ⟨version = formatVersion, .unsupported .headerVersion⟩ :: numbers

/-- The bytes are a header, if nothing is wrong with the numbers in it. -/
structure IsRecord (raw : Bytes 1024) : Prop where
  cookie : raw.slice 0 8 (by decide) = cookie
  checksum : raw.HasChecksum 36 (by decide)
  version : raw.number 24 4 (by decide) = formatVersion

/-- The header has the values that the bytes hold at their places. -/
structure Reads (header : BlockHeader) (raw : Bytes 1024) : Prop where
  tableOffset : header.tableOffset.toNat = raw.number 16 8 (by decide)
  maxTableEntries : header.maxTableEntries.toNat = raw.number 28 4 (by decide)
  blockSize : header.blockSize.toNat = raw.number 32 4 (by decide)
  parentUniqueId : header.parentUniqueId = raw.slice 40 16 (by decide)
  parentTimestamp : header.parentTimestamp.toNat = raw.number 56 4 (by decide)

/-- The header that the bytes are read as, if they are one. -/
def decoded (raw : Bytes 1024) : BlockHeader where
  tableOffset := UInt64.ofNat (tableOffsetField.number raw)
  maxTableEntries := UInt32.ofNat (maxTableEntriesField.number raw)
  blockSize := UInt32.ofNat (blockSizeField.number raw)
  parentUniqueId := parentUniqueIdField.get raw
  parentTimestamp := UInt32.ofNat (parentTimestampField.number raw)

theorem reads_decoded (raw : Bytes 1024) : (decoded raw).Reads raw where
  tableOffset := UInt64.toNat_ofNat_of_lt (tableOffsetField.number_lt raw)
  maxTableEntries := UInt32.toNat_ofNat_of_lt (maxTableEntriesField.number_lt raw)
  blockSize := UInt32.toNat_ofNat_of_lt (blockSizeField.number_lt raw)
  parentUniqueId := rfl
  parentTimestamp := UInt32.toNat_ofNat_of_lt (parentTimestampField.number_lt raw)

theorem Reads.unique (h : header.Reads raw) (h' : header'.Reads raw) : header = header' := by
  cases header
  cases header'
  rw [mk.injEq]
  exact ⟨UInt64.toNat_inj.mp (h.tableOffset.trans h'.tableOffset.symm),
    UInt32.toNat_inj.mp (h.maxTableEntries.trans h'.maxTableEntries.symm),
    UInt32.toNat_inj.mp (h.blockSize.trans h'.blockSize.symm),
    h.parentUniqueId.trans h'.parentUniqueId.symm,
    UInt32.toNat_inj.mp (h.parentTimestamp.trans h'.parentTimestamp.symm)⟩

theorem parse_answers (raw : Bytes 1024) :
    Answers (recordDemands (cookieField.get raw) (raw.HasChecksum 36 (by decide))
      (versionField.number raw) (numberDemands (tableOffsetField.number raw)
        (maxTableEntriesField.number raw) (blockSizeField.number raw))) (Reads · raw)
          (parse raw) := by
  unfold parse
  refine .guard Iff.rfl fun _ => ?_
  refine .guard (not_congr (checksumField.stamped_iff raw)) fun _ => ?_
  refine .guard Iff.rfl fun _ => ?_
  refine .guard Iff.rfl fun _ => ?_
  refine .guard Decidable.not_not.symm fun _ => ?_
  refine .guard not_wholeSectors_iff fun _ => ?_
  exact .nil (reads_decoded raw) fun _ h => (reads_decoded raw).unique h

theorem Reads.demands_eq (h : header.Reads raw) :
    header.demands = numberDemands (tableOffsetField.number raw)
      (maxTableEntriesField.number raw) (blockSizeField.number raw) := by
  rw [demands, h.tableOffset, h.maxTableEntries, h.blockSize]
  rfl

theorem parse_eq_ok_iff :
    parse raw = .ok header ↔
      IsRecord raw ∧ header.Reads raw ∧ ∀ demand ∈ header.demands, demand.met := by
  rw [(parse_answers raw).ok_iff]
  simp only [recordDemands, List.forall_mem_cons]
  constructor
  · rintro ⟨⟨hcookie, hchecksum, hversion, hnumbers⟩, hreads⟩
    exact ⟨⟨hcookie, hchecksum, hversion⟩, hreads, hreads.demands_eq ▸ hnumbers⟩
  · rintro ⟨hrecord, hreads, hnumbers⟩
    exact ⟨⟨hrecord.cookie, hrecord.checksum, hrecord.version, hreads.demands_eq ▸ hnumbers⟩,
      hreads⟩

theorem blockSize_of_parse (h : parse raw = .ok header) :
    WholeSectors header.blockSize.toNat := by
  obtain ⟨-, -, hmet⟩ := parse_eq_ok_iff.mp h
  exact hmet ⟨WholeSectors header.blockSize.toNat, .corrupt .blockSize⟩
    (by simp [demands, numberDemands])

theorem cookie_toBytes (header : BlockHeader) : cookieField.get header.toBytes = cookie := by
  simp (disch := decide) only [toBytes, Field.stamp, Field.get_setNumber_of_disjoint,
    Field.get_set_of_disjoint, Field.get_set_same]

theorem stamped_toBytes (header : BlockHeader) : checksumField.Stamped header.toBytes :=
  Field.stamped_stamp _ _

theorem nextOffset_toBytes (header : BlockHeader) :
    nextOffsetField.get header.toBytes = Bytes.replicate 8 0xff := by
  simp (disch := decide) only [toBytes, Field.stamp, Field.get_setNumber_of_disjoint,
    Field.get_set_of_disjoint, Field.get_set_same]

theorem parentUniqueId_toBytes (header : BlockHeader) :
    parentUniqueIdField.get header.toBytes = header.parentUniqueId := by
  simp (disch := decide) only [toBytes, Field.stamp, Field.get_setNumber_of_disjoint,
    Field.get_set_same]

theorem numbers_toBytes (header : BlockHeader) :
    versionField.number header.toBytes = formatVersion ∧
      tableOffsetField.number header.toBytes = header.tableOffset.toNat ∧
      maxTableEntriesField.number header.toBytes = header.maxTableEntries.toNat ∧
      blockSizeField.number header.toBytes = header.blockSize.toNat ∧
      parentTimestampField.number header.toBytes = header.parentTimestamp.toNat := by
  have hoffset := header.tableOffset.toNat_lt
  have hmax := header.maxTableEntries.toNat_lt
  have hsize := header.blockSize.toNat_lt
  have htimestamp := header.parentTimestamp.toNat_lt
  simp (disch := decide) only [toBytes, Field.stamp, Field.number_setNumber_of_disjoint,
    Field.number_set_of_disjoint, Field.number_setNumber_same, formatVersion,
    Nat.reducePow, Nat.reduceMod, true_and]
  omega

/-- The bytes behind the last field. -/
def reservedField : Field 1024 964 := ⟨60, by decide⟩

theorem reserved_toBytes (header : BlockHeader) :
    reservedField.get header.toBytes = Bytes.zero 964 := by
  simp (disch := decide) only [toBytes, Field.stamp, Field.get_setNumber_of_disjoint,
    Field.get_set_of_disjoint]
  exact Bytes.ext fun i hi => by simp [Field.get]

theorem reads_toBytes (header : BlockHeader) : header.Reads header.toBytes := by
  obtain ⟨-, hoffset, hmax, hsize, htimestamp⟩ := numbers_toBytes header
  exact ⟨hoffset.symm, hmax.symm, hsize.symm, (parentUniqueId_toBytes header).symm,
    htimestamp.symm⟩

theorem isRecord_toBytes (header : BlockHeader) : IsRecord header.toBytes where
  cookie := cookie_toBytes header
  checksum := (checksumField.stamped_iff header.toBytes).mp (stamped_toBytes header)
  version := (numbers_toBytes header).1

/-- Of what is asked of the bytes of a header, only the numbers in it can be at fault. -/
theorem parse_toBytes_answers (header : BlockHeader) :
    Answers header.demands (· = header) (parse header.toBytes) := by
  have hreads := reads_toBytes header
  have hrecord := isRecord_toBytes header
  have hnumbers := (((parse_answers header.toBytes).tail hrecord.cookie).tail
    hrecord.checksum).tail hrecord.version
  rw [← hreads.demands_eq] at hnumbers
  refine hnumbers.congr fun header' => ?_
  constructor
  · intro h
    exact h.unique hreads
  · rintro rfl
    exact hreads

theorem parse_toBytes (htable : header.tableOffset.toNat % 512 = 0)
    (hentries : header.maxTableEntries.toNat ≠ 0) (hblock : WholeSectors header.blockSize.toNat) :
    parse header.toBytes = .ok header :=
  parse_eq_ok_iff.mpr ⟨isRecord_toBytes header, reads_toBytes header, by
    simp [demands, numberDemands, htable, hentries, hblock]⟩

/-- The bytes that no header tells of are those that are written for every header. -/
structure Canonical (raw : Bytes 1024) : Prop where
  nextOffset : ∀ (i : Nat) (hi : i < 1024), 8 ≤ i → i < 16 → raw[i] = 0xff
  reserved : ∀ (i : Nat) (hi : i < 1024), 60 ≤ i → raw[i] = 0

theorem canonical_iff :
    Canonical raw ↔ nextOffsetField.get raw = Bytes.replicate 8 0xff ∧
      reservedField.get raw = Bytes.zero 964 := by
  have hnext : nextOffsetField.get raw = Bytes.replicate 8 0xff ↔
      ∀ (i : Nat) (hi : i < 1024), 8 ≤ i → i < 8 + 8 → raw[i] = 0xff :=
    Bytes.slice_eq_replicate_iff
  have hreserved : reservedField.get raw = Bytes.zero 964 ↔
      ∀ (i : Nat) (hi : i < 1024), 60 ≤ i → i < 60 + 964 → raw[i] = 0 :=
    Bytes.slice_eq_replicate_iff
  constructor
  · intro h
    exact ⟨hnext.mpr h.nextOffset, hreserved.mpr fun i hi hstart _ => h.reserved i hi hstart⟩
  · rintro ⟨h, h'⟩
    exact ⟨hnext.mp h, fun i hi hstart => hreserved.mp h' i hi hstart hi⟩

theorem agree_of_reads {a b : Bytes 1024} (ha : header.Reads a) (hb : header.Reads b)
    (ha' : IsRecord a) (hb' : IsRecord b) {i : Nat} (hi : i < 60) (hnext : i < 8 ∨ 16 ≤ i)
    (hchecksum : i < 36 ∨ 40 ≤ i) : a[i] = b[i] := by
  -- One case for each field, in the order of the record.
  obtain h | h | h | h | h | h | h : i < 0 + 8 ∨ 16 ≤ i ∧ i < 16 + 8 ∨ 24 ≤ i ∧ i < 24 + 4 ∨
      28 ≤ i ∧ i < 28 + 4 ∨ 32 ≤ i ∧ i < 32 + 4 ∨ 40 ≤ i ∧ i < 40 + 16 ∨ 56 ≤ i ∧ i < 56 + 4 := by
    omega
  · exact Bytes.getElem_eq_of_slice_eq (ha'.cookie.trans hb'.cookie.symm) (Nat.zero_le i) h
  · exact Bytes.getElem_eq_of_slice_eq
      (Bytes.slice_eq_of_number_eq (ha.tableOffset.symm.trans hb.tableOffset)) h.1 h.2
  · exact Bytes.getElem_eq_of_slice_eq
      (Bytes.slice_eq_of_number_eq (ha'.version.trans hb'.version.symm)) h.1 h.2
  · exact Bytes.getElem_eq_of_slice_eq
      (Bytes.slice_eq_of_number_eq (ha.maxTableEntries.symm.trans hb.maxTableEntries)) h.1 h.2
  · exact Bytes.getElem_eq_of_slice_eq
      (Bytes.slice_eq_of_number_eq (ha.blockSize.symm.trans hb.blockSize)) h.1 h.2
  · exact Bytes.getElem_eq_of_slice_eq (ha.parentUniqueId.symm.trans hb.parentUniqueId) h.1 h.2
  · exact Bytes.getElem_eq_of_slice_eq
      (Bytes.slice_eq_of_number_eq (ha.parentTimestamp.symm.trans hb.parentTimestamp)) h.1 h.2

/-- The bytes of a header are written again unless they hold something that no header tells of. -/
theorem toBytes_eq_iff (h : parse raw = .ok header) : header.toBytes = raw ↔ Canonical raw := by
  obtain ⟨hrecord, hreads, -⟩ := parse_eq_ok_iff.mp h
  have hrecord' := isRecord_toBytes header
  have hwritten : Canonical header.toBytes :=
    canonical_iff.mpr ⟨nextOffset_toBytes header, reserved_toBytes header⟩
  constructor
  · intro heq
    exact heq ▸ hwritten
  · intro hcanonical
    refine hrecord'.checksum.eq_of_agree hrecord.checksum fun i hi houtside => ?_
    by_cases hreserved : 60 ≤ i
    · rw [hwritten.reserved i hi hreserved, hcanonical.reserved i hi hreserved]
    by_cases hnext : 8 ≤ i ∧ i < 16
    · rw [hwritten.nextOffset i hi hnext.1 hnext.2, hcanonical.nextOffset i hi hnext.1 hnext.2]
    exact agree_of_reads (reads_toBytes header) hreads hrecord' hrecord (by omega) (by omega)
      houtside

theorem parse_toBytes_of_parse (h : parse raw = .ok header) :
    parse header.toBytes = .ok header := by
  obtain ⟨-, -, hmet⟩ := parse_eq_ok_iff.mp h
  exact parse_eq_ok_iff.mpr ⟨isRecord_toBytes header, reads_toBytes header, hmet⟩

/-- Bytes that no header tells of are read over, if the checksum counts them. -/
theorem parse_stamp_reserved (value : Bytes 964)
    (hdemands : ∀ demand ∈ header.demands, demand.met) :
    parse (checksumField.stamp (reservedField.set value header.toBytes)) = .ok header := by
  have hnumber {w : Nat} (f : Field 1024 w) (hchecksum : f.Disjoint checksumField)
      (hreserved : f.Disjoint reservedField) :
      f.number (checksumField.stamp (reservedField.set value header.toBytes)) =
        f.number header.toBytes := by
    rw [Field.stamp, Field.number_setNumber_of_disjoint hchecksum,
      Field.number_set_of_disjoint hreserved]
  have hget {w : Nat} (f : Field 1024 w) (hchecksum : f.Disjoint checksumField)
      (hreserved : f.Disjoint reservedField) :
      f.get (checksumField.stamp (reservedField.set value header.toBytes)) =
        f.get header.toBytes := by
    rw [Field.stamp, Field.get_setNumber_of_disjoint hchecksum,
      Field.get_set_of_disjoint hreserved]
  have hreads := reads_toBytes header
  have hrecord := isRecord_toBytes header
  refine parse_eq_ok_iff.mpr ⟨⟨?_, ?_, ?_⟩, ?_, hdemands⟩
  · exact (hget cookieField (by decide) (by decide)).trans hrecord.cookie
  · exact (checksumField.stamped_iff _).mp (Field.stamped_stamp _ _)
  · exact (hnumber versionField (by decide) (by decide)).trans hrecord.version
  · exact ⟨hreads.tableOffset.trans (hnumber tableOffsetField (by decide) (by decide)).symm,
      hreads.maxTableEntries.trans (hnumber maxTableEntriesField (by decide) (by decide)).symm,
      hreads.blockSize.trans (hnumber blockSizeField (by decide) (by decide)).symm,
      hreads.parentUniqueId.trans (hget parentUniqueIdField (by decide) (by decide)).symm,
      hreads.parentTimestamp.trans (hnumber parentTimestampField (by decide) (by decide)).symm⟩

/-- Whatever a header says, its bytes are read back as this header or refused for the first number
that may not be in one. What is read is written as it was read, but for bytes that no header tells
of. -/
theorem written_headers_are_read :
    (∀ header : BlockHeader, Answers header.demands (· = header) (parse header.toBytes)) ∧
      ∀ (raw : Bytes 1024) (header : BlockHeader), parse raw = .ok header →
        parse header.toBytes = .ok header ∧ (header.toBytes = raw ↔ Canonical raw) := by
  constructor
  · exact parse_toBytes_answers
  · intro raw header h
    exact ⟨parse_toBytes_of_parse h, toBytes_eq_iff h⟩

/-- A byte that no header tells of is lost. -/
theorem written_headers_are_read_small : ∃ (header : BlockHeader) (raw : Bytes 1024),
    parse raw = .ok header ∧ raw[100] = 7 ∧ parse header.toBytes = .ok header ∧
      (header.toBytes = raw ↔ Canonical raw) ∧ header.toBytes ≠ raw := by
  let header : BlockHeader := ⟨1536, 1, 4096, Bytes.replicate 16 0x22, 99⟩
  let raw := checksumField.stamp (reservedField.set (Bytes.replicate 964 7) header.toBytes)
  have hdemands : ∀ demand ∈ header.demands, demand.met := by
    simp [demands, numberDemands, WholeSectors, header]
  have hparse : parse raw = .ok header := parse_stamp_reserved _ hdemands
  have hbyte : raw[100] = 7 := by
    have hget : reservedField.get raw = Bytes.replicate 964 7 := by
      simp (disch := decide) only [raw, Field.stamp, Field.get_setNumber_of_disjoint,
        Field.get_set_same]
    exact Bytes.slice_eq_replicate_iff.mp hget 100 (by decide) (by decide) (by decide)
  obtain ⟨hread, hiff⟩ := written_headers_are_read.2 raw header hparse
  refine ⟨header, raw, hparse, hbyte, hread, hiff, fun heq => ?_⟩
  have hzero := (hiff.mp heq).reserved 100 (by decide) (by decide)
  exact absurd (hbyte.symm.trans hzero) (by decide)

end VirtualDisk.BlockHeader

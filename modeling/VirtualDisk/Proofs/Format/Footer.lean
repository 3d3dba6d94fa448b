import VirtualDisk.Format.Footer
import VirtualDisk.Proofs.Format.Checksum
import VirtualDisk.Proofs.Format.Demand

/-!
# Which bytes are a footer

A footer is known by four demands on its bytes, and what it says are the numbers at their places.
The writer of footers has its own list of places. That the two lists agree shows in the footers that
it builds: they say what they were built from, and only their size can be at fault.
-/

namespace VirtualDisk

theorem Geometry.eq_of_toNat {g g' : Geometry} (cylinders : g.cylinders.toNat = g'.cylinders.toNat)
    (heads : g.heads.toNat = g'.heads.toNat)
    (sectorsPerTrack : g.sectorsPerTrack.toNat = g'.sectorsPerTrack.toNat) : g = g' := by
  cases g
  cases g'
  rw [mk.injEq]
  exact ⟨UInt16.toNat_inj.mp cylinders, UInt8.toNat_inj.mp heads,
    UInt8.toNat_inj.mp sectorsPerTrack⟩

theorem DiskType.code_injective {t t' : DiskType} (h : t.code = t'.code) : t = t' :=
  Option.some.inj ((ofCode?_code t).symm.trans (h ▸ ofCode?_code t'))

theorem DiskType.mem_codes_iff {n : Nat} : n ∈ [2, 3, 4] ↔ ∃ t, DiskType.ofCode? n = some t := by
  simp only [DiskType.ofCode?_eq_some_iff]
  constructor
  · intro h
    simp at h
    obtain rfl | rfl | rfl := h
    · exact ⟨.fixed, rfl⟩
    · exact ⟨.dynamic, rfl⟩
    · exact ⟨.differencing, rfl⟩
  · rintro ⟨t, rfl⟩
    cases t with
    | fixed => decide
    | dynamic => decide
    | differencing => decide

namespace Footer

variable {footer footer' : Footer} {raw : Sector} {fields : FooterFields}

/-- The bytes are a footer. -/
structure IsFooter (raw : Sector) : Prop where
  cookie : raw.slice 0 8 (by decide) = cookie
  checksum : raw.HasChecksum 64 (by decide)
  diskType : raw.number 60 4 (by decide) ∈ [2, 3, 4]
  currentSize : WholeSectors (raw.number 48 8 (by decide))

/-- What is asked of the first bytes of a footer, of its checksum and of two of its numbers. -/
def demands (start : Bytes 8) (summed : Prop) (diskType size : Nat) : List Demand :=
  [⟨start = cookie, .corrupt .footerCookie⟩,
   ⟨summed, .corrupt .footerChecksum⟩,
   ⟨diskType ∈ [2, 3, 4], .unsupported .diskType⟩,
   ⟨WholeSectors size, .corrupt .currentSize⟩]

/-- The footer has the values that the bytes hold at their places, and it has these bytes. -/
structure Reads (footer : Footer) (raw : Sector) : Prop where
  dataOffset : footer.dataOffset.toNat = raw.number 16 8 (by decide)
  timestamp : footer.timestamp.toNat = raw.number 24 4 (by decide)
  currentSize : footer.currentSize.toNat = raw.number 48 8 (by decide)
  cylinders : footer.geometry.cylinders.toNat = raw.number 56 2 (by decide)
  heads : footer.geometry.heads.toNat = raw.number 58 1 (by decide)
  sectorsPerTrack : footer.geometry.sectorsPerTrack.toNat = raw.number 59 1 (by decide)
  diskType : footer.diskType.code = raw.number 60 4 (by decide)
  uniqueId : footer.uniqueId = raw.slice 68 16 (by decide)
  raw : footer.raw = raw

/-- The footer that these bytes are read as, if they are one of the given kind. -/
def decoded (raw : Sector) (diskType : DiskType) : Footer where
  dataOffset := UInt64.ofNat (dataOffsetField.number raw)
  timestamp := UInt32.ofNat (timestampField.number raw)
  currentSize := UInt64.ofNat (currentSizeField.number raw)
  geometry := {
    cylinders := UInt16.ofNat (cylindersField.number raw)
    heads := UInt8.ofNat (headsField.number raw)
    sectorsPerTrack := UInt8.ofNat (sectorsPerTrackField.number raw) }
  diskType
  uniqueId := uniqueIdField.get raw
  raw

theorem reads_decoded {diskType : DiskType}
    (hcode : DiskType.ofCode? (diskTypeField.number raw) = some diskType) :
    (decoded raw diskType).Reads raw where
  dataOffset := UInt64.toNat_ofNat_of_lt (dataOffsetField.number_lt raw)
  timestamp := UInt32.toNat_ofNat_of_lt (timestampField.number_lt raw)
  currentSize := UInt64.toNat_ofNat_of_lt (currentSizeField.number_lt raw)
  cylinders := UInt16.toNat_ofNat_of_lt (cylindersField.number_lt raw)
  heads := UInt8.toNat_ofNat_of_lt (headsField.number_lt raw)
  sectorsPerTrack := UInt8.toNat_ofNat_of_lt (sectorsPerTrackField.number_lt raw)
  diskType := (DiskType.ofCode?_eq_some_iff.mp hcode).symm
  uniqueId := rfl
  raw := rfl

theorem Reads.unique (h : footer.Reads raw) (h' : footer'.Reads raw) : footer = footer' := by
  have hgeometry : footer.geometry = footer'.geometry :=
    Geometry.eq_of_toNat (h.cylinders.trans h'.cylinders.symm) (h.heads.trans h'.heads.symm)
      (h.sectorsPerTrack.trans h'.sectorsPerTrack.symm)
  have hdiskType := DiskType.code_injective (h.diskType.trans h'.diskType.symm)
  cases footer
  cases footer'
  rw [mk.injEq]
  exact ⟨UInt64.toNat_inj.mp (h.dataOffset.trans h'.dataOffset.symm),
    UInt32.toNat_inj.mp (h.timestamp.trans h'.timestamp.symm),
    UInt64.toNat_inj.mp (h.currentSize.trans h'.currentSize.symm), hgeometry, hdiskType,
    h.uniqueId.trans h'.uniqueId.symm, h.raw.trans h'.raw.symm⟩

/-- The demands are looked at in order, and there are no others. -/
theorem parse_answers (raw : Sector) :
    Answers (demands (cookieField.get raw) (raw.HasChecksum 64 (by decide))
      (diskTypeField.number raw) (currentSizeField.number raw)) (Reads · raw) (parse raw) := by
  unfold parse
  refine .guard Iff.rfl fun _ => ?_
  refine .guard (not_congr (checksumField.stamped_iff raw)) fun _ => ?_
  dsimp only
  cases hcode : DiskType.ofCode? (diskTypeField.number raw) with
  | none =>
    refine .cons (fun hmem => ?_) fun _ => rfl
    obtain ⟨t, ht⟩ := DiskType.mem_codes_iff.mp hmem
    cases hcode.symm.trans ht
  | some diskType =>
    have hmem := DiskType.mem_codes_iff.mpr ⟨diskType, hcode⟩
    refine .cons (fun _ => ?_) fun hunmet => absurd hmem hunmet
    refine .guard not_wholeSectors_iff fun _ => ?_
    exact .nil (reads_decoded hcode) fun _ h => (reads_decoded hcode).unique h

theorem isFooter_iff :
    (∀ demand ∈ demands (cookieField.get raw) (raw.HasChecksum 64 (by decide))
      (diskTypeField.number raw) (currentSizeField.number raw), demand.met) ↔ IsFooter raw := by
  simp only [demands, List.forall_mem_cons]
  constructor
  · rintro ⟨hcookie, hchecksum, hdiskType, hsize, -⟩
    exact ⟨hcookie, hchecksum, hdiskType, hsize⟩
  · intro h
    exact ⟨h.cookie, h.checksum, h.diskType, h.currentSize, List.forall_mem_nil _⟩

theorem parse_eq_ok_iff : parse raw = .ok footer ↔ IsFooter raw ∧ footer.Reads raw := by
  rw [(parse_answers raw).ok_iff, isFooter_iff]

theorem raw_of_parse (h : parse raw = .ok footer) : footer.raw = raw :=
  (parse_eq_ok_iff.mp h).2.raw

theorem hasCookie_of_parse (h : parse raw = .ok footer) : hasCookie raw.toByteArray = true := by
  have hcookie := (parse_eq_ok_iff.mp h).1.cookie
  exact decide_eq_true (congrArg Bytes.toByteArray hcookie)

theorem getElem_of_hasCookie (h : hasCookie raw.toByteArray = true) :
    raw[0] = 0x63 := by
  have hget : cookieField.get raw = cookie := by
    have hbytes : (cookieField.get raw).toByteArray = cookie.toByteArray := of_decide_eq_true h
    cases hfield : cookieField.get raw with
    | mk bytes size =>
      rw [hfield] at hbytes
      subst hbytes
      rfl
  have hbyte : raw[0] = (cookieField.get raw)[0] := by
    rw [Field.get, Bytes.getElem_slice]
    rfl
  rw [hbyte, hget]
  decide

theorem parse_eq_error (h : raw[0] ≠ 0x63) : ∃ e, parse raw = .error e := by
  cases hparse : parse raw with
  | error e => exact ⟨e, rfl⟩
  | ok footer => exact absurd (getElem_of_hasCookie (hasCookie_of_parse hparse)) h

/-- What a new footer is read as. -/
structure ReadAs (footer : Footer) (fields : FooterFields) : Prop where
  dataOffset : footer.dataOffset = fields.dataOffset
  currentSize : footer.currentSize = fields.size
  geometry : footer.geometry = fields.geometry
  diskType : footer.diskType = fields.diskType
  uniqueId : footer.uniqueId = fields.uniqueId

/-- The bytes of a new footer, its checksum included. -/
def laidOut (fields : FooterFields) : Sector := checksumField.stamp (layOut fields)

/-- Every number of a new footer is read back, because no field overlaps another one. -/
theorem numbers_laidOut (fields : FooterFields) :
    dataOffsetField.number (laidOut fields) = fields.dataOffset.toNat ∧
      timestampField.number (laidOut fields) = fields.timestamp.toNat ∧
      currentSizeField.number (laidOut fields) = fields.size.toNat ∧
      cylindersField.number (laidOut fields) = fields.geometry.cylinders.toNat ∧
      headsField.number (laidOut fields) = fields.geometry.heads.toNat ∧
      sectorsPerTrackField.number (laidOut fields) = fields.geometry.sectorsPerTrack.toNat := by
  have hoffset := fields.dataOffset.toNat_lt
  have htimestamp := fields.timestamp.toNat_lt
  have hsize := fields.size.toNat_lt
  have hcylinders := fields.geometry.cylinders.toNat_lt
  have hheads := fields.geometry.heads.toNat_lt
  have hsectors := fields.geometry.sectorsPerTrack.toNat_lt
  simp (disch := decide) only [laidOut, Field.stamp, layOut, Field.number_setNumber_of_disjoint,
    Field.number_set_of_disjoint, Field.number_setNumber_same]
  omega

theorem cookie_laidOut (fields : FooterFields) : cookieField.get (laidOut fields) = cookie := by
  simp (disch := decide) only [laidOut, Field.stamp, layOut, Field.get_setNumber_of_disjoint,
    Field.get_set_of_disjoint, Field.get_set_same]

theorem diskType_laidOut (fields : FooterFields) :
    diskTypeField.number (laidOut fields) = fields.diskType.code := by
  simp (disch := decide) only [laidOut, Field.stamp, layOut,
    Field.number_setNumber_of_disjoint, Field.number_set_of_disjoint,
    Field.number_setNumber_same]
  cases fields.diskType with
  | fixed => rfl
  | dynamic => rfl
  | differencing => rfl

theorem stamped_laidOut (fields : FooterFields) : checksumField.Stamped (laidOut fields) :=
  Field.stamped_stamp _ _

theorem uniqueId_laidOut (fields : FooterFields) :
    uniqueIdField.get (laidOut fields) = fields.uniqueId := by
  simp (disch := decide) only [laidOut, Field.stamp, layOut, Field.get_setNumber_of_disjoint,
    Field.get_set_same]

/-- The size is the only thing for which a new footer is refused. -/
theorem build_answers (fields : FooterFields) :
    Answers [⟨WholeSectors fields.size.toNat, .corrupt .currentSize⟩]
      (fun footer => footer.Reads (laidOut fields)) (build fields) := by
  have hanswers := parse_answers (laidOut fields)
  have htype : diskTypeField.number (laidOut fields) ∈ [2, 3, 4] :=
    DiskType.mem_codes_iff.mpr ⟨fields.diskType, by
      rw [diskType_laidOut, DiskType.ofCode?_code]⟩
  have hsize := ((hanswers.tail (cookie_laidOut fields)).tail
    ((checksumField.stamped_iff _).mp (stamped_laidOut fields))).tail htype
  obtain ⟨-, -, hcurrent, -⟩ := numbers_laidOut fields
  rwa [hcurrent] at hsize

theorem of_build (h : build fields = .ok footer) :
    footer.raw = laidOut fields ∧ footer.timestamp = fields.timestamp ∧ footer.ReadAs fields := by
  obtain ⟨hoffset, htimestamp, hsize, hcylinders, hheads, hsectors⟩ := numbers_laidOut fields
  have hreads : footer.Reads (laidOut fields) := (parse_eq_ok_iff.mp h).2
  have hgeometry : footer.geometry = fields.geometry :=
    Geometry.eq_of_toNat (hreads.cylinders.trans hcylinders) (hreads.heads.trans hheads)
      (hreads.sectorsPerTrack.trans hsectors)
  have hdiskType : footer.diskType = fields.diskType :=
    DiskType.code_injective (hreads.diskType.trans (diskType_laidOut fields))
  exact ⟨hreads.raw, UInt32.toNat_inj.mp (hreads.timestamp.trans htimestamp),
    UInt64.toNat_inj.mp (hreads.dataOffset.trans hoffset),
    UInt64.toNat_inj.mp (hreads.currentSize.trans hsize), hgeometry, hdiskType,
    hreads.uniqueId.trans (uniqueId_laidOut fields)⟩

theorem build_eq (fields : FooterFields) (hsize : WholeSectors fields.size.toNat) :
    ∃ footer, build fields = .ok footer ∧ footer.raw = laidOut fields ∧
      parse (laidOut fields) = .ok footer ∧ ReadAs footer fields := by
  obtain ⟨footer, hbuild⟩ := (build_answers fields).exists_ok_iff.mpr (by simpa using hsize)
  obtain ⟨hraw, -, readAs⟩ := of_build hbuild
  exact ⟨footer, hbuild, hraw, hbuild, readAs⟩

theorem build_eq_error (fields : FooterFields) (h : ¬ WholeSectors fields.size.toNat) :
    build fields = .error (.corrupt .currentSize) :=
  ((build_answers fields).error_iff _).mpr (.here h)

theorem exists_build (hsize : WholeSectors fields.size.toNat) :
    ∃ footer, build fields = .ok footer ∧ footer.ReadAs fields ∧
      footer.timestamp = fields.timestamp ∧ parse footer.raw = .ok footer := by
  obtain ⟨footer, hbuild, hraw, hparse, hreadAs⟩ := build_eq fields hsize
  obtain ⟨-, htimestamp, -⟩ := of_build hbuild
  exact ⟨footer, hbuild, hreadAs, htimestamp, hraw ▸ hparse⟩

/-- A footer is built for every size of whole sectors and for no other one, and is read back as what
it was built from. Bytes are accepted if and only if they are a footer, which then has the values at
their places and these very bytes. If they are not, the first demand that is not met is reported. -/
theorem footers_are_known_by_their_bytes :
    (∀ fields : FooterFields, WholeSectors fields.size.toNat → ∃ footer,
      build fields = .ok footer ∧ footer.ReadAs fields ∧ footer.timestamp = fields.timestamp ∧
        parse footer.raw = .ok footer) ∧
      (∀ fields : FooterFields, ¬ WholeSectors fields.size.toNat →
        build fields = .error (.corrupt .currentSize)) ∧
      ∀ raw : Sector,
        ((∃ footer, parse raw = .ok footer) ↔ IsFooter raw) ∧
          Answers (demands (raw.slice 0 8 (by decide)) (raw.HasChecksum 64 (by decide))
            (raw.number 60 4 (by decide)) (raw.number 48 8 (by decide))) (Reads · raw)
              (parse raw) := by
  refine ⟨?_, build_eq_error, ?_⟩
  · intro fields hsize
    exact exists_build hsize
  · intro raw
    exact ⟨(parse_answers raw).exists_ok_iff.trans isFooter_iff, parse_answers raw⟩

/-- A disk of a mebibyte has a footer, and one that is a byte larger has none. -/
theorem footers_are_known_by_their_bytes_small : ∃ (fields odd : FooterFields) (footer : Footer),
    WholeSectors fields.size.toNat ∧ build fields = .ok footer ∧ footer.currentSize = 1048576 ∧
      footer.geometry = ⟨30, 4, 17⟩ ∧ footer.timestamp = 7 ∧ parse footer.raw = .ok footer ∧
      ¬ WholeSectors odd.size.toNat ∧ build odd = .error (.corrupt .currentSize) := by
  let fields : FooterFields :=
    { dataOffset := 0xffffffffffffffff, timestamp := 7, creatorApp := Bytes.replicate 4 0x61,
      size := 1048576, geometry := ⟨30, 4, 17⟩, diskType := .fixed,
      uniqueId := Bytes.replicate 16 0x11 }
  have hsize : WholeSectors fields.size.toNat := by decide
  have hodd : ¬ WholeSectors { fields with size := 1048577 }.size.toNat := by decide
  obtain ⟨footer, hbuild, hreadAs, htimestamp, hparse⟩ :=
    footers_are_known_by_their_bytes.1 fields hsize
  exact ⟨fields, _, footer, hsize, hbuild, hreadAs.currentSize, hreadAs.geometry, htimestamp,
    hparse, hodd, footers_are_known_by_their_bytes.2.1 _ hodd⟩

end Footer
end VirtualDisk

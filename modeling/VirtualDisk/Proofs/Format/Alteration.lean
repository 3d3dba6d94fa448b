import VirtualDisk.Proofs.Format.BlockHeader
import VirtualDisk.Proofs.Format.Footer

/-!
# Single altered bytes

Footers and headers begin with a cookie and carry a checksum, and both are looked at before anything
else. A byte of the cookie that is altered is noticed there; any other one, those of the checksum
included, leaves the record without its checksum.
-/

namespace VirtualDisk

variable {n start i : Nat} {raw raw' : Bytes n} {cookie : Bytes 8}

/-- A single altered byte of a record that was in order is reported as the cookie if it belongs to
the cookie, and as the checksum if not. -/
theorem Bytes.DifferAt.firstUnmet (hdiffer : raw.DifferAt raw' i) {hroom : 0 + 8 ≤ n}
    {hstart : start + 4 ≤ n} (hcookie : raw.slice 0 8 hroom = cookie)
    (hchecksum : raw.HasChecksum start hstart) {what what' : Corruption} {rest : List Demand} :
    FirstUnmet (⟨raw'.slice 0 8 hroom = cookie, .corrupt what⟩ ::
      ⟨raw'.HasChecksum start hstart, .corrupt what'⟩ :: rest)
        (.corrupt (if i < 8 then what else what')) := by
  by_cases hi : i < 8
  · rw [if_pos hi]
    refine .here fun hcookie' => hdiffer.ne ?_
    exact getElem_eq_of_slice_eq (hcookie.trans hcookie'.symm) (Nat.zero_le i) (by omega)
  · rw [if_neg hi]
    refine .later ?_ (.here (hchecksum.not_of_differAt hdiffer))
    rw [← hcookie]
    refine Bytes.ext fun j hj => ?_
    rw [getElem_slice, getElem_slice, hdiffer.agree _ _ (by omega)]

theorem Footer.parse_of_differAt {raw raw' : Sector} {footer : Footer}
    (h : parse raw = .ok footer) (hdiffer : raw.DifferAt raw' i) :
    parse raw' = .error (.corrupt (if i < 8 then .footerCookie else .footerChecksum)) := by
  obtain ⟨hfooter, -⟩ := parse_eq_ok_iff.mp h
  exact ((parse_answers raw').error_iff _).mpr (hdiffer.firstUnmet hfooter.cookie hfooter.checksum)

theorem BlockHeader.parse_of_differAt {raw raw' : Bytes 1024} {header : BlockHeader}
    (h : parse raw = .ok header) (hdiffer : raw.DifferAt raw' i) :
    parse raw' = .error (.corrupt (if i < 8 then .headerCookie else .headerChecksum)) := by
  obtain ⟨hrecord, -⟩ := parse_eq_ok_iff.mp h
  exact ((parse_answers raw').error_iff _).mpr (hdiffer.firstUnmet hrecord.cookie hrecord.checksum)

/-- Bytes that were read as a footer or as a header are refused as soon as a single one of them is
another one, wherever it is and whatever it is. -/
theorem altered_bytes_are_noticed :
    (∀ (raw raw' : Sector) (footer : Footer) (i : Nat), Footer.parse raw = .ok footer →
      raw.DifferAt raw' i →
        Footer.parse raw' =
          .error (.corrupt (if i < 8 then .footerCookie else .footerChecksum))) ∧
      ∀ (raw raw' : Bytes 1024) (header : BlockHeader) (i : Nat),
        BlockHeader.parse raw = .ok header → raw.DifferAt raw' i →
          BlockHeader.parse raw' =
            .error (.corrupt (if i < 8 then .headerCookie else .headerChecksum)) := by
  constructor
  · intro raw raw' footer i h hdiffer
    exact Footer.parse_of_differAt h hdiffer
  · intro raw raw' header i h hdiffer
    exact BlockHeader.parse_of_differAt h hdiffer

theorem Bytes.exists_differAt (raw : Bytes n) (hi : i < n) : ∃ raw', raw.DifferAt raw' i := by
  refine ⟨raw.overwrite i (replicate 1 (raw[i] + 1)) hi, hi, ?_, fun j hj hne => ?_⟩
  · rw [getElem_overwrite, dif_pos (by omega), getElem_replicate]
    intro hbyte
    have hnat : raw[i].toNat = (raw[i].toNat + 1) % 256 :=
      (congrArg UInt8.toNat hbyte).trans (UInt8.toNat_add raw[i] 1)
    omega
  · rw [getElem_overwrite, dif_neg (by omega)]

/-- The lowest byte of the checksum of a footer, and the first byte of the cookie of a header. -/
theorem altered_bytes_are_noticed_small :
    ∃ (raw raw' : Sector) (footer : Footer) (record record' : Bytes 1024) (header : BlockHeader),
      Footer.parse raw = .ok footer ∧ raw.DifferAt raw' 67 ∧
        Footer.parse raw' = .error (.corrupt .footerChecksum) ∧
        BlockHeader.parse record = .ok header ∧ record.DifferAt record' 0 ∧
        BlockHeader.parse record' = .error (.corrupt .headerCookie) := by
  let fields : FooterFields :=
    ⟨0xffffffffffffffff, 7, Bytes.zero 4, 1048576, ⟨30, 4, 17⟩, .fixed, Bytes.zero 16⟩
  have hsize : WholeSectors fields.size.toNat := by decide
  obtain ⟨footer, -, -, -, hfooter⟩ := Footer.exists_build hsize
  let header : BlockHeader := ⟨1536, 1, 4096, Bytes.zero 16, 0⟩
  have hheader : BlockHeader.parse header.toBytes = .ok header :=
    BlockHeader.parse_toBytes (by decide) (by decide) (by decide)
  obtain ⟨raw', hraw⟩ := footer.raw.exists_differAt (show 67 < 512 by decide)
  obtain ⟨record', hrecord⟩ := header.toBytes.exists_differAt (show 0 < 1024 by decide)
  exact ⟨_, raw', footer, _, record', _, hfooter, hraw,
    altered_bytes_are_noticed.1 _ _ _ _ hfooter hraw, hheader, hrecord,
    altered_bytes_are_noticed.2 _ _ _ _ hheader hrecord⟩

end VirtualDisk

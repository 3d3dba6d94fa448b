import VirtualDisk.ImageSet.Chain
import VirtualDisk.Proofs.Image.Reading
import VirtualDisk.Proofs.ImageSet.Members
import VirtualDisk.Proofs.Storage.Parts

/-!
# Which bitmaps of a set are cached does not matter

Sets that differ in the bitmaps only that their images have cached are twins, as long as none of
these bitmaps was changed. An engine `Finds` a result in a set if it comes to that result from every
twin, ends in a twin, and leaves all storages as they are. The parts of a read through a chain each
find a result, and so the sectors of one request have no influence on one another.
-/

namespace VirtualDisk

open Storage

variable {ι α β : Type}

namespace ImageSet

/-- The bitmaps that are cached are the ones that are stored. -/
def Exact (set : ImageSet ι) (contents : ι → Content) : Prop :=
  ∀ id member, set.member id = .ok member → member.image.Exact (contents member.image.disk)

/-- Sets that say the same about what is on the disks. -/
structure Twin (set set' : ImageSet ι) (contents : ι → Content) : Prop where
  size_eq : set'.size = set.size
  members : ∀ id member, set.member id = .ok member → ∃ image,
    set'.member id = .ok { member with image } ∧ image.disk = member.image.disk ∧
      member.image.Twin image (contents member.image.disk)

variable {set set' : ImageSet ι} {contents contents' : ι → Content} {member : Member ι}
variable {image : Image ι} {id : Nat}

theorem Exact.twin (h : set.Exact contents) : set.Twin set contents :=
  ⟨rfl, fun id member hmember => ⟨member.image, hmember, rfl, (h id member hmember).twin⟩⟩

theorem Twin.member_error (h : set.Twin set' contents) {e : Error}
    (hnone : set.member id = .error e) : set'.member id = .error e := by
  rw [ImageSet.member] at hnone ⊢
  have hbeyond : set.size ≤ id := by
    apply Nat.not_lt.mp
    intro hlt
    rw [Array.getElem?_eq_getElem hlt] at hnone
    cases hnone
  have hbeyond' : set'.members.size ≤ id := Nat.le_trans (Nat.le_of_eq h.size_eq) hbeyond
  rw [Array.getElem?_eq_none hbeyond] at hnone
  rw [Array.getElem?_eq_none hbeyond']
  exact hnone

theorem Twin.put (h : set.Twin set' contents) (hmember : set.member id = .ok member)
    (hdisk : image.disk = member.image.disk)
    (htwin : member.image.Twin image (contents member.image.disk)) {found : Member ι}
    (hfound : set'.member id = .ok found) : set.Twin (set'.put id found image) contents := by
  refine ⟨size_put.trans h.size_eq, fun other member' hother => ?_⟩
  obtain ⟨image', hother', hrest⟩ := h.members other member' hother
  by_cases hid : other = id
  · subst hid
    obtain rfl := Except.ok.inj (hmember.symm.trans hother)
    obtain rfl := Except.ok.inj (hother'.symm.trans hfound)
    exact ⟨image, member_put_self hfound, hdisk, htwin⟩
  · exact ⟨image', (member_put_of_ne hid).trans hother', hrest⟩

variable [DecidableEq ι]

/-- From every twin of the set the engine comes to the result and ends in a twin. No storage is
changed. -/
def Finds (set : ImageSet ι) (contents : ι → Content) (engine : Engine ι (ImageSet ι) α)
    (result : Except Error α) : Prop :=
  ∀ set₁, set.Twin set₁ contents → ∃ set₂, set.Twin set₂ contents ∧
    engine.runOn shelf set₁ contents = ((result, set₂), contents)

variable {engine : Engine ι (ImageSet ι) α} {result : Except Error α}

theorem Finds.of_runOn (h : set.Finds contents engine result) (twin : set.Twin set' contents)
    {result' : Except Error α} {set₂ : ImageSet ι}
    (run : engine.runOn shelf set' contents = ((result', set₂), contents')) :
    result = result' ∧ set.Twin set₂ contents ∧ contents' = contents := by
  obtain ⟨found, hfound, hrun⟩ := h set' twin
  cases hrun.symm.trans run
  exact ⟨rfl, hfound, rfl⟩

theorem finds_result {value : Except Error α} (h : value = result) :
    set.Finds contents (liftM value) result := by
  subst h
  exact fun set₁ twin => ⟨set₁, twin, Engine.runOn_liftExcept ..⟩

theorem finds_pure (a : α) : set.Finds contents (pure a) (.ok a) :=
  fun set₁ twin => ⟨set₁, twin, rfl⟩

theorem finds_throw (e : Error) :
    set.Finds contents (throw e : Engine ι (ImageSet ι) α) (.error e) :=
  fun set₁ twin => ⟨set₁, twin, rfl⟩

theorem Finds.bind {f : α → Engine ι (ImageSet ι) β} {a : α} {result : Except Error β}
    (h : set.Finds contents engine (.ok a)) (hf : set.Finds contents (f a) result) :
    set.Finds contents (engine >>= f) result := by
  intro set₁ twin
  obtain ⟨set₂, twin₂, hrun⟩ := h set₁ twin
  obtain ⟨set₃, twin₃, hrun'⟩ := hf set₂ twin₂
  exact ⟨set₃, twin₃, (Engine.runOn_bind_ok hrun f).trans hrun'⟩

theorem Finds.bind_error {e : Error} (h : set.Finds contents engine (.error e))
    (f : α → Engine ι (ImageSet ι) β) : set.Finds contents (engine >>= f) (.error e) := by
  intro set₁ twin
  obtain ⟨set₂, twin₂, hrun⟩ := h set₁ twin
  exact ⟨set₂, twin₂, Engine.runOn_bind_error hrun f⟩

theorem exists_finds_bind {f : α → Engine ι (ImageSet ι) β}
    (h : ∃ result, set.Finds contents engine result)
    (hf : ∀ a, set.Finds contents engine (.ok a) → ∃ result, set.Finds contents (f a) result) :
    ∃ result, set.Finds contents (engine >>= f) result := by
  obtain ⟨result, hresult⟩ := h
  cases result with
  | error e => exact ⟨.error e, hresult.bind_error f⟩
  | ok a =>
    obtain ⟨result', hresult'⟩ := hf a hresult
    exact ⟨result', hresult.bind hresult'⟩

theorem finds_member_bind {f : Member ι → Engine ι (ImageSet ι) α}
    (hmember : set.member id = .ok member)
    (h : ∀ image, image.disk = member.image.disk →
      member.image.Twin image (contents member.image.disk) →
      set.Finds contents (f { member with image }) result) :
    set.Finds contents (do f (← (← get).member id)) result := by
  intro set₁ twin
  obtain ⟨image, hmember', hdisk, htwin⟩ := twin.members id member hmember
  rw [Engine.runOn_bind_ok (Engine.runOn_get ..), hmember',
    Engine.runOn_bind_ok (Engine.runOn_liftExcept ..)]
  exact h image hdisk htwin set₁ twin

theorem finds_member_error_bind {f : Member ι → Engine ι (ImageSet ι) α} {e : Error}
    (hnone : set.member id = .error e) :
    set.Finds contents (do f (← (← get).member id)) (.error e) := by
  intro set₁ twin
  rw [Engine.runOn_bind_ok (Engine.runOn_get ..), twin.member_error hnone,
    Engine.runOn_bind_error (Engine.runOn_liftExcept ..)]
  exact ⟨set₁, twin, rfl⟩

theorem exists_finds_member_bind {f : Member ι → Engine ι (ImageSet ι) α}
    (same : ∀ member image, set.member id = .ok member →
      member.image.Twin image (contents member.image.disk) → f { member with image } = f member)
    (h : ∀ member, set.member id = .ok member → ∃ result, set.Finds contents (f member) result) :
    ∃ result, set.Finds contents (do f (← (← get).member id)) result := by
  cases hmember : set.member id with
  | error e => exact ⟨.error e, finds_member_error_bind hmember⟩
  | ok member =>
    obtain ⟨result, hresult⟩ := h member hmember
    refine ⟨result, finds_member_bind hmember fun image _ htwin => ?_⟩
    rw [same member image hmember htwin]
    exact hresult

theorem finds_image_bind {f : Image ι → Engine ι (ImageSet ι) α}
    (hmember : set.member id = .ok member)
    (h : ∀ image, image.disk = member.image.disk →
      member.image.Twin image (contents member.image.disk) → set.Finds contents (f image) result) :
    set.Finds contents (do f (← (← get).image id)) result := by
  intro set₁ twin
  obtain ⟨image, hmember', hdisk, htwin⟩ := twin.members id member hmember
  rw [Engine.runOn_bind_ok (Engine.runOn_get ..), image_eq_ok hmember',
    Engine.runOn_bind_ok (Engine.runOn_liftExcept ..)]
  exact h image hdisk htwin set₁ twin

theorem finds_image_error_bind {f : Image ι → Engine ι (ImageSet ι) α} {e : Error}
    (hnone : set.member id = .error e) :
    set.Finds contents (do f (← (← get).image id)) (.error e) := by
  intro set₁ twin
  have hnone' : set₁.image id = .error e := by
    rw [ImageSet.image, twin.member_error hnone]
    rfl
  rw [Engine.runOn_bind_ok (Engine.runOn_get ..), hnone',
    Engine.runOn_bind_error (Engine.runOn_liftExcept ..)]
  exact ⟨set₁, twin, rfl⟩

/-- An engine on an image finds a result if twins of the image come to the same one. -/
theorem finds_onImage {engine : Engine ι (Image ι) α} (hmember : set.member id = .ok member)
    (keeps : ∀ image, image.Exact (contents image.disk) →
      engine.Keeps (.watching image.disk (contents image.disk) False) (fun _ => True)
        (Image.Stays (contents image.disk)) image)
    (same : ∀ image, member.image.Twin image (contents member.image.disk) →
      (engine.runOn sole image (contents member.image.disk)).1.1 =
        (engine.runOn sole member.image (contents member.image.disk)).1.1) :
    set.Finds contents (onImage id engine)
      (engine.runOn sole member.image (contents member.image.disk)).1.1 := by
  intro set₁ twin
  obtain ⟨image, hmember', hdisk, htwin⟩ := twin.members id member hmember
  obtain ⟨hshelf, hstays⟩ := (keeps image (hdisk ▸ htwin.exact')).runOn_shelf
  rw [hdisk] at hshelf hstays
  refine ⟨_, twin.put hmember (hstays.disk_eq.trans hdisk)
    (htwin.trans (hstays.twin htwin.exact')) hmember', ?_⟩
  rw [runOn_onImage hmember', hshelf, same image htwin]

theorem exists_holds_finds (hmember : set.member id = .ok member)
    (hkind : member.image.diskType ≠ .fixed) (sector : Nat) :
    ∃ result, set.Finds contents
      (onImage id (Image.onBlocks fun disk => BlockMap.holds disk sector)) result := by
  obtain ⟨map, hmap⟩ := Image.exists_blocks_iff.mpr hkind
  refine ⟨_, finds_onImage hmember (fun image exact => ?_) fun image htwin => ?_⟩
  · exact Image.holds_keeps_exact Protocol.watching_reads exact sector
  · exact htwin.runOn_holds hmap sector

theorem exists_readBlocks_finds (hmember : set.member id = .ok member)
    (hkind : member.image.diskType ≠ .fixed) (offset count : Nat) (buffer : ByteArray) :
    ∃ result, set.Finds contents (onImage id (Image.readBlocks offset count buffer)) result := by
  obtain ⟨map, hmap⟩ := Image.exists_blocks_iff.mpr hkind
  refine ⟨_, finds_onImage hmember (fun image exact => ?_) fun image htwin => ?_⟩
  · exact Image.readBlocks_keeps_exact Protocol.watching_reads exact offset count buffer
  · exact htwin.runOn_readBlocks hmap offset count buffer

/-- The same image answers for a sector in all twins. The induction is on the number, which
decreases along the chain. -/
theorem exists_resolve_finds (set : ImageSet ι) (contents : ι → Content) (sector id : Nat) :
    ∃ result, set.Finds contents (resolve sector id) result := by
  induction id using Nat.strongRecOn with
  | ind id ih =>
    rw [resolve]
    apply exists_finds_member_bind
    · intro member image _ htwin
      dsimp only
      rw [htwin.diskType_eq, htwin.totalSectors_eq]
    · intro member hmember
      split
      · exact ⟨.ok id, finds_pure id⟩
      next hask =>
      have hkind : member.image.diskType ≠ .fixed := by
        rw [Decidable.not_not.mp (not_or.mp hask).1]
        decide
      apply exists_finds_bind (exists_holds_finds hmember hkind sector)
      intro found _
      split
      · exact ⟨.ok id, finds_pure id⟩
      · split
        · exact ⟨_, finds_throw _⟩
        · split
          · next parent _ hlt => exact ih parent hlt
          · exact ⟨_, finds_throw _⟩

theorem readFlat_finds {image : Image ι} (hdisk : image.disk = member.image.disk)
    (htwin : member.image.Twin image (contents member.image.disk)) (offset count : Nat)
    (buffer : ByteArray) :
    set.Finds contents (liftM (image.readFlat offset count buffer))
      ((member.image.readFlat offset count buffer).runOn sole (contents member.image.disk)).1 := by
  intro set₁ twin
  refine ⟨set₁, twin, ?_⟩
  rw [Engine.runOn_liftAccess, Image.runOn_readFlat_shelf, hdisk, htwin.runOn_readFlat]

/-- A sector is read as the same in all twins, or cannot be read in any. -/
theorem exists_readSector_finds (set : ImageSet ι) (contents : ι → Content) (id sector : Nat) :
    ∃ result, set.Finds contents (readSector id sector) result := by
  apply exists_finds_bind (exists_resolve_finds set contents sector id)
  intro owner _
  cases hmember : set.member owner with
  | error e => exact ⟨.error e, finds_image_error_bind hmember⟩
  | ok member =>
    have last : ∀ result : ReadResult, ∃ found, set.Finds contents (if result.truncated ≠ 0
        then pure (Bytes.zero 512) else liftM (Buffer.sector result.buffer 0)) found := by
      intro result
      split
      · exact ⟨_, finds_pure _⟩
      · exact ⟨_, finds_result rfl⟩
    by_cases hkind : member.image.diskType = .fixed
    · have layout_eq : ∀ image, member.image.Twin image (contents member.image.disk) →
          image.layout = .fixed :=
        fun image htwin => Image.layout_of_fixed (htwin.diskType_eq.trans hkind)
      cases hread : ((member.image.readFlat sector 1 (Bytes.zero 512).toByteArray).runOn sole
          (contents member.image.disk)).1 with
      | error e =>
        refine ⟨.error e, finds_image_bind hmember fun image hdisk htwin => ?_⟩
        simp only [layout_eq image htwin]
        exact Finds.bind_error (hread ▸ readFlat_finds hdisk htwin _ _ _) _
      | ok result =>
        obtain ⟨found, hfound⟩ := last result
        refine ⟨found, finds_image_bind hmember fun image hdisk htwin => ?_⟩
        simp only [layout_eq image htwin]
        exact Finds.bind (hread ▸ readFlat_finds hdisk htwin _ _ _) hfound
    · have hread : ∃ result, set.Finds contents
          (onImage owner (Image.readBlocks sector 1 (Bytes.zero 512).toByteArray)) result :=
        exists_readBlocks_finds hmember hkind sector 1 _
      obtain ⟨found, hfound⟩ := exists_finds_bind hread fun result _ => last result
      refine ⟨found, finds_image_bind hmember fun image hdisk htwin => ?_⟩
      dsimp only
      split
      · next hlayout =>
        exact absurd (htwin.diskType_eq.symm.trans (congrArg Layout.diskType hlayout)) hkind
      · exact hfound

/-- The set as it is reads a sector through a chain as this. -/
def shown (set : ImageSet ι) (contents : ι → Content) (id sector : Nat) : Sector :=
  ((readSector id sector).runOn shelf set contents).1.1.toOption.getD (Bytes.zero 512)

theorem Exact.readSector_finds (exact : set.Exact contents) {sector : Nat} {bytes : Sector}
    (h : set.Finds contents (readSector id sector) (.ok bytes)) :
    set.shown contents id sector = bytes := by
  obtain ⟨set', -, hrun⟩ := h set exact.twin
  rw [shown, hrun]
  rfl

variable {count sector slot offset : Nat} {buffer buffer' : ByteArray}

/-- A successful read puts into each slot what is found of its sector alone. -/
theorem Exact.of_readSectors (exact : set.Exact contents) (twin : set.Twin set' contents)
    {set₂ : ImageSet ι}
    (run : (readSectors id count sector slot buffer).runOn shelf set' contents =
      ((.ok buffer', set₂), contents')) :
    contents' = contents ∧ set.Twin set₂ contents ∧
      (∀ k, k < count → set.Finds contents (readSector id (sector + k))
        (.ok (set.shown contents id (sector + k)))) ∧
      Buffer.Shows (set.shown contents id) sector slot count buffer buffer' := by
  induction count generalizing sector slot buffer set' with
  | zero =>
    cases run
    exact ⟨rfl, twin, fun k hk => absurd hk (Nat.not_lt_zero k), .nothing ..⟩
  | succ count ih =>
    obtain ⟨bytes, set₁, contents₁, hfirst, hrest⟩ := Engine.of_runOn_bind run
    obtain ⟨result, hfinds⟩ := exists_readSector_finds set contents id sector
    obtain ⟨rfl, twin₁, rfl⟩ := hfinds.of_runOn twin hfirst
    obtain ⟨filled, _, _, hfill, hothers⟩ := Engine.of_runOn_bind hrest
    obtain ⟨hresult, rfl, rfl⟩ := Engine.of_runOn_liftExcept hfill
    obtain ⟨hroom, hfilled⟩ := Buffer.filled_of_fillSector hresult
    obtain ⟨hcontents, twin₂, hfinds', hshows⟩ := ih twin₁ hothers
    obtain rfl := exact.readSector_finds hfinds
    refine ⟨hcontents, twin₂, fun k hk => ?_, .cons hfilled hroom hshows⟩
    cases k with
    | zero => exact hfinds
    | succ k =>
      rw [Nat.add_comm k, ← Nat.add_assoc]
      exact hfinds' k (Nat.lt_of_succ_lt_succ hk)

theorem Exact.of_readChain (exact : set.Exact contents) {result : ReadResult}
    (run : (readChain id offset count buffer).runOn shelf set contents =
      ((.ok result, set'), contents')) :
    contents' = contents ∧ set.Twin set' contents ∧ Buffer.Holds buffer.size count ∧
      ∃ member, set.member id = .ok member ∧
      result.truncated = count - member.image.transfer offset count ∧
      (∀ k, k < member.image.transfer offset count → set.Finds contents
        (readSector id (offset + k)) (.ok (set.shown contents id (offset + k)))) ∧
      Buffer.Shows (set.shown contents id) offset 0 (member.image.transfer offset count) buffer
        result.buffer := by
  obtain ⟨_, _, _, hcheck, hget⟩ := Engine.of_runOn_bind run
  obtain ⟨holds, rfl, rfl⟩ := Engine.of_runOn_liftExcept hcheck
  rw [Engine.runOn_bind_ok (Engine.runOn_get ..)] at hget
  obtain ⟨image, _, _, himage, hread⟩ := Engine.of_runOn_bind hget
  obtain ⟨hfound, rfl, rfl⟩ := Engine.of_runOn_liftExcept himage
  obtain ⟨member, hmember, rfl⟩ := exists_of_image hfound
  obtain ⟨buffer', set₁, contents₁, hsectors, hreturn⟩ := Engine.of_runOn_bind hread
  cases hreturn
  obtain ⟨rfl, twin, hfinds, hshows⟩ := exact.of_readSectors exact.twin hsectors
  exact ⟨rfl, twin, Buffer.holds_of_check holds, member, hmember, rfl, hfinds, hshows⟩

theorem exists_readSectors_finds {view : Nat → Sector}
    (h : ∀ k, k < count →
      set.Finds contents (readSector id (sector + k)) (.ok (view (sector + k))))
    (hroom : (slot + count) * 512 ≤ buffer.size) :
    ∃ buffer', set.Finds contents (readSectors id count sector slot buffer) (.ok buffer') ∧
      Buffer.Shows view sector slot count buffer buffer' := by
  induction count generalizing sector slot buffer with
  | zero => exact ⟨buffer, finds_pure buffer, .nothing ..⟩
  | succ count ih =>
    have hslot : slot * 512 + 512 ≤ buffer.size := by lia
    obtain ⟨filled, hfill, hfilled⟩ := Buffer.exists_fill (view sector) hslot
    have hothers : ∀ k, k < count →
        set.Finds contents (readSector id (sector + 1 + k)) (.ok (view (sector + 1 + k))) := by
      intro k hk
      rw [Nat.add_assoc, Nat.add_comm 1]
      exact h (k + 1) (Nat.succ_lt_succ hk)
    have hroom' : (slot + 1 + count) * 512 ≤ filled.size := by
      rw [hfilled.size_eq]
      lia
    obtain ⟨buffer', hfinds, hshows⟩ := ih hothers hroom'
    exact ⟨buffer', (h 0 (Nat.succ_pos count)).bind (Finds.bind (finds_result hfill) hfinds),
      .cons hfilled hslot hshows⟩

/-- A read through a chain finds the sectors that are found one by one. -/
theorem exists_readChain_finds {view : Nat → Sector} (hmember : set.member id = .ok member)
    (holds : Buffer.Holds buffer.size count)
    (h : ∀ k, k < member.image.transfer offset count →
      set.Finds contents (readSector id (offset + k)) (.ok (view (offset + k)))) :
    ∃ buffer', set.Finds contents (readChain id offset count buffer)
        (.ok ⟨count - member.image.transfer offset count, buffer'⟩) ∧
      Buffer.Shows view offset 0 (member.image.transfer offset count) buffer buffer' := by
  obtain ⟨buffer', hsectors, hshows⟩ :=
    exists_readSectors_finds h (member.image.transfer_slots offset holds)
  refine ⟨buffer', Finds.bind (finds_result (Buffer.check_eq holds)) ?_, hshows⟩
  apply finds_image_bind hmember
  intro image _ htwin
  dsimp only
  rw [htwin.span_eq]
  exact hsectors.bind (finds_pure _)

end ImageSet

end VirtualDisk

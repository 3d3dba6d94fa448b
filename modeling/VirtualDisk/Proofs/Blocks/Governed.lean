import VirtualDisk.Proofs.Blocks.Attempts
import VirtualDisk.Proofs.Blocks.Storing

/-!
# Operations under a regime

Every operation on blocks keeps the invariant of a regime, whether it succeeds or fails, and if it
fails on a storage that grants what it can, the library is not to blame. This needs no more of the
image than its map being well sized.
-/

namespace VirtualDisk

open Storage

variable {ι : Type} {S : Setting ι} {wanted : Nat → Prop} {I : BlockMap → Content → Prop}
variable {map : BlockMap} {content : Content} {block : Nat}

/-- A request failed, or the library is not to blame. -/
def Storage.Setting.Excused (S : Setting ι) (e : Error) : Prop := S.mayFail ∨ ¬ e.IsSlip

/-- A request failed, or nothing can be appended and the library is not to blame. -/
def Storage.Setting.Refused (S : Setting ι) (content : Content) (e : Error) : Prop :=
  S.mayFail ∨ ¬ e.IsSlip ∧ ¬ content.Appendable

theorem Storage.Setting.Refused.excused {e : Error} (h : S.Refused content e) : S.Excused e :=
  h.imp_right And.left

namespace BlockMap

theorem flush_governed (R : Regime S wanted I) (h : I map content) :
    (flush S.disk).Ensures S
      (fun _ map' content' => I map' content' ∧ map'.header = map.header ∧ map'.table = map.table)
      (fun e map' content' => I map' content' ∧ S.Excused e) map content := by
  have hsized := R.wellSized _ _ h
  have hsize := hsized.size_bytes
  have hbytes := map.header.bitmapSectors_lt
  refine .of_within fun hw => ?_
  refine (flush_stores (by omega) (fun block cached _ => hsized.block_lt block cached)
    fun block start cached place => R.ask _ _ _ _ h hw (.storeBitmap cached place)).mono ?_ ?_
  · rintro _ map' content' hw' (clean | ⟨cached, dirty, place⟩)
    · exact ⟨h, rfl, rfl⟩
    · exact ⟨R.effect _ _ _ _ h hw hw' (.stored cached place), rfl, rfl⟩
  · rintro e map' content' _ ⟨rfl, rfl, hm | ⟨rfl, -⟩⟩
    · exact ⟨h, .inl hm⟩
    · exact ⟨h, .inr id⟩

theorem load_governed (R : Regime S wanted I) (h : I map content)
    (sought : Sought wanted map.table block) (hblock : block < map.table.size) :
    (map.bitmap.load S.disk map.table block).Ensures S
      (fun bitmap content' => content' = content ∧ bitmap = map.fetched content block)
      (fun e content' => content' = content ∧ S.Excused e) content := by
  have hsize := (R.wellSized _ _ h).size_bytes
  have hbytes := map.header.bitmapSectors_lt
  refine .of_within fun hw => ?_
  refine (load_fetches (by omega) hblock fun start place =>
    R.ask _ _ _ _ h hw (.loadBitmap (sought start place) place)).mono
      (fun _ _ _ hloaded => hloaded) ?_
  rintro e content' _ ⟨rfl, hm | ⟨rfl, -⟩⟩
  · exact ⟨rfl, .inl hm⟩
  · exact ⟨rfl, .inr id⟩

theorem select_governed (R : Regime S wanted I) (h : I map content)
    (sought : Sought wanted map.table block) (hblock : block < map.table.size) :
    (select S.disk block).Ensures S
      (fun _ map' content' => I map' content' ∧ map'.header = map.header ∧
        map'.table = map.table ∧ map'.bitmap.block = some block)
      (fun e map' content' => I map' content' ∧ S.Excused e) map content := by
  simp only [select, Engine.ensures_bind, Engine.ensures_get]
  intro _
  split
  · next hcached =>
    rw [Engine.ensures_pure]
    exact fun _ => ⟨h, rfl, rfl, hcached⟩
  · simp only [Engine.ensures_bind, Engine.ensures_get, Engine.ensures_set,
      Engine.ensures_liftAccess]
    refine (flush_governed R h).mono_success ?_
    rintro _ map' content' hw ⟨h', hheader, htable⟩ _
    rw [← htable] at sought hblock
    refine (load_governed R h' sought hblock).mono ?_ ?_
    · rintro bitmap content'' _ ⟨rfl, rfl⟩ _
      exact ⟨R.effect _ _ _ _ h' hw hw (.loaded sought hblock), hheader, htable, rfl⟩
    · rintro e content'' _ ⟨rfl, hexcused⟩
      exact ⟨h', hexcused⟩

theorem readSector_governed (R : Regime S wanted I) (h : I map content) {sector : Nat}
    (sought : Sought wanted map.table (sector / map.header.sectorsPerBlock))
    (hsector : sector < map.capacity) :
    (readSector S.disk sector).Ensures S
      (fun _ map' content' => I map' content' ∧ map'.header = map.header ∧ map'.table = map.table)
      (fun e map' content' => I map' content' ∧ S.Excused e) map content := by
  have hsized := R.wellSized _ _ h
  have hi := Nat.mod_lt sector hsized.sectors_pos
  have hblock := div_lt_of_lt_capacity hsized.sectors_pos hsector
  simp only [readSector_eq, Engine.ensures_bind, Engine.ensures_get, hsized.locate_eq hsector,
    Engine.ensures_liftExcept_ok]
  intro _ _
  refine (select_governed R h sought hblock).mono_success ?_
  rintro _ map' content' hw ⟨h', hheader, htable, -⟩
  rw [← htable] at hblock sought
  have hi' : sector % map.header.sectorsPerBlock < map'.header.sectorsPerBlock := by
    rw [hheader]
    exact hi
  refine (fetchSector_reads hblock hi' fun start place =>
    R.ask _ _ _ _ h' hw (.readData (sought start place) place hi')).mono ?_ ?_
  · rintro bytes map'' content'' _ ⟨rfl, rfl, -⟩
    exact ⟨h', hheader, htable⟩
  · rintro e map'' content'' _ ⟨rfl, rfl, hm | ⟨-, ⟨rfl, -⟩ | ⟨rfl, -⟩⟩⟩
    · exact ⟨h', .inl hm⟩
    · exact ⟨h', .inr id⟩
    · exact ⟨h', .inr id⟩

end BlockMap

theorem Regime.interrupted (R : Regime S wanted I) (h : I map content) (hw : S.within content)
    {content' : Content} (hw' : S.within content') (missing : Missing wanted map.table block)
    (interrupted : Interrupted map.header content content') : I map content' := by
  cases interrupted with
  | begun zeroed whole => exact R.effect _ _ _ _ h hw hw' (.begun missing zeroed whole)
  | extended extended => exact R.effect _ _ _ _ h hw hw' (.extended missing extended)

/-- A missing block is refused where nothing can be appended, and the library is not to blame. -/
theorem Refusal.not_appendable {e : Error} (refusal : Refusal map.table content block e)
    (missing : Missing wanted map.table block) (small : content.size < 2 ^ 63) :
    ¬ e.IsSlip ∧ ¬ content.Appendable := by
  have hfront := content.front_le
  have hnext := content.nextSector_lt
  cases refusal with
  | outside beyond => exact absurd missing.inside (Nat.not_lt.mpr beyond)
  | stored place =>
    rw [missing.vacant] at place
    cases place
  | noFooter hnone => exact ⟨id, fun room => hnone ⟨room.size_ge, room.hasCookie⟩⟩
  | overflow beyond => omega
  | tooFar beyond =>
    refine ⟨id, fun room => ?_⟩
    have hsize := room.size_le
    rw [sizeLimit] at hsize
    omega

namespace BlockMap

theorem appending_governed (R : Regime S wanted I) (h : I map content) (hw : S.within content)
    (missing : Missing wanted map.table block) : Appending S map content block where
  length := R.ask _ _ _ _ h hw (.measure missing)
  read _ := R.ask _ _ _ _ h hw (.findFooter missing)
  zeros _ _ _ _ _ _ _ zeroed zero _ _ _ := R.ask _ _ _ _ h hw (.zeros missing zeroed zero)
  trailer _ _ _ zeroed _ extended := R.ask _ _ _ _ h hw (.trailer missing zeroed extended)
  entry _ _ extended := R.ask _ _ _ _ h hw (.record missing extended)

/-- An allocation appends a region and records it, unless nothing can be appended. -/
theorem allocate_governed (R : Regime S wanted I) (h : I map content)
    (missing : Missing wanted map.table block) :
    (allocate S.disk map block).Ensures S
      (fun result content' => ∃ current, Extended map.header content result.1 current ∧
        result.2 = (map.allocated block result.1).table ∧
        content' = current.withEntry map.table block result.1)
      (fun e content' => I map content' ∧ S.Refused content e) content := by
  have hfits := (R.wellSized _ _ h).table_fits
  refine .of_within fun hw => ?_
  have hsmall := R.small _ hw
  refine (allocate_places (appending_governed R h hw missing) hfits (by omega)).mono ?_ ?_
  · rintro ⟨start, table⟩ content' _ placed
    obtain ⟨current, extended, hcontent⟩ := placed.appended
    exact ⟨current, extended, placed.table_eq, hcontent⟩
  · rintro e content' hw' (⟨hm, interrupted⟩ | ⟨refusal, hleft⟩)
    · exact ⟨R.interrupted h hw hw' missing interrupted, .inl hm⟩
    · exact ⟨R.interrupted h hw hw' missing (hleft.interrupted _),
        .inr (refusal.not_appendable missing hsmall)⟩

theorem ensureAllocated_missing (R : Regime S wanted I) (h : I map content)
    (missing : Missing wanted map.table block) :
    (ensureAllocated S.disk block).Ensures S
      (fun start map' content' => ∃ current, Extended map.header content start current ∧
        map' = map.allocated block start ∧ content' = current.withEntry map.table block start)
      (fun e map' content' => I map' content' ∧ S.Refused content e) map content := by
  simp only [ensureAllocated, Engine.ensures_bind, Engine.ensures_get,
    BlockTable.sector?_of_vacant missing.inside missing.vacant, Engine.ensures_liftExcept_ok,
    Engine.ensures_liftAccess, Engine.ensures_set, Engine.ensures_pure]
  intro _ _
  refine (allocate_governed R h missing).mono ?_ fun e content' _ hfailed => hfailed
  rintro ⟨start, table⟩ content' _ ⟨current, extended, htable, hcontent⟩ _ _
  change table = (map.allocated block start).table at htable
  subst htable
  exact ⟨current, extended, rfl, hcontent⟩

/-- A block is recorded at the sector that is returned, unless this is too far behind. -/
theorem ensureAllocated_governed (R : Regime S wanted I) (h : I map content) (asked : wanted block)
    (hblock : block < map.table.size) :
    (ensureAllocated S.disk block).Ensures S
      (fun start map' content' => I map' content' ∧ map'.header = map.header ∧
        map'.bitmap = map.bitmap ∧ map'.table.size = map.table.size ∧ start < 2 ^ 32 ∧
        (map'.table.place? block = some start ∨
          2 ^ 32 - 1 ≤ start ∧ map' = map ∧ Missing wanted map.table block ∧
            ∃ current, Extended map.header content start current ∧
              content' = current.withEntry map.table block start))
      (fun e map' content' => I map' content' ∧ S.Excused e) map content := by
  refine .of_within fun hw => ?_
  cases place : map.table.place? block with
  | some start =>
    simp only [ensureAllocated, Engine.ensures_bind, Engine.ensures_get,
      BlockTable.sector?_of_place place, Engine.ensures_liftExcept_ok, Engine.ensures_pure]
    exact fun _ _ _ => ⟨h, trivial, trivial, trivial, BlockTable.place?_lt place, .inl place⟩
  | none =>
    have missing : Missing wanted map.table block := ⟨asked, hblock, place⟩
    refine (ensureAllocated_missing R h missing).mono ?_
      fun e map' content' _ hfailed => ⟨hfailed.1, hfailed.2.excused⟩
    rintro start map' content' hw' ⟨current, extended, rfl, rfl⟩
    refine ⟨R.effect _ _ _ _ h hw hw' (.allocated missing extended), rfl,
      rfl, BlockTable.withEntry_size _, extended.start_lt, ?_⟩
    by_cases hstart : start < 2 ^ 32 - 1
    · exact .inl (BlockTable.place?_withEntry_ofNat hblock hstart)
    · have far := Nat.not_lt.mp hstart
      exact .inr ⟨far, extended.allocated_eq missing far, missing, current, extended, rfl⟩

theorem writeSector_governed (R : Regime S wanted I) (h : I map content) {sector : Nat}
    (asked : wanted (sector / map.header.sectorsPerBlock)) (hsector : sector < map.capacity)
    (bytes : Sector) :
    (writeSector S.disk sector bytes).Ensures S
      (fun _ map' content' => I map' content' ∧ map'.header = map.header ∧
        map'.table.size = map.table.size)
      (fun e map' content' => I map' content' ∧ S.Excused e) map content := by
  have hsized := R.wellSized _ _ h
  have hi := Nat.mod_lt sector hsized.sectors_pos
  have hblock := div_lt_of_lt_capacity hsized.sectors_pos hsector
  simp only [writeSector_eq, Engine.ensures_bind, Engine.ensures_get, hsized.locate_eq hsector,
    Engine.ensures_liftExcept_ok]
  intro _ _
  refine (select_governed R h (.of_wanted asked _) hblock).mono_success ?_
  rintro _ map₁ content₁ hw₁ ⟨h₁, hheader₁, htable₁, hcached⟩
  rw [← htable₁] at hblock
  refine (ensureAllocated_governed R h₁ asked hblock).mono_success ?_
  rintro start map₂ content₂ hw₂ ⟨h₂, hheader₂, hbitmap₂, hsize₂, hstart, hplace⟩
  have hheader : map₂.header = map.header := hheader₂.trans hheader₁
  have hsize : map₂.table.size = map.table.size := by rw [hsize₂, htable₁]
  have hsize_bytes := (R.wellSized _ _ h₂).size_bytes
  rw [← hbitmap₂] at hcached
  rw [← hheader] at hi hplace asked hcached ⊢
  obtain place | ⟨far, rfl, missing, current, extended, rfl⟩ := hplace
  · refine (storeSector_stores hstart hi hsize_bytes
      (R.ask _ _ _ _ h₂ hw₂ (.writeData asked place hi))).mono ?_ ?_
    · rintro _ map₃ content₃ hw₃ ⟨bitmap, hasSet, rfl, rfl⟩
      exact ⟨R.effect _ _ _ _ h₂ hw₂ hw₃ (.written asked hcached place hi hasSet), rfl, hsize⟩
    · rintro e map₃ content₃ _ ⟨hm, rfl, rfl⟩
      exact ⟨h₂, .inl hm⟩
  · refine (storeSector_stores hstart hi hsize_bytes
      (R.ask _ _ _ _ h₁ hw₁ (.stray missing extended far hi))).mono ?_ ?_
    · rintro _ map₃ content₃ hw₃ ⟨bitmap, hasSet, rfl, rfl⟩
      exact ⟨R.effect _ _ _ _ h₁ hw₁ hw₃ (.stray missing extended far hi hasSet), rfl, hsize⟩
    · rintro e map₃ content₃ _ ⟨hm, rfl, rfl⟩
      exact ⟨h₂, .inl hm⟩

theorem holds_governed (R : Regime S wanted I) (h : I map content) {sector : Nat}
    (sought : Sought wanted map.table (sector / map.header.sectorsPerBlock))
    (hsector : sector < map.capacity) :
    (holds S.disk sector).Ensures S
      (fun _ map' content' => I map' content' ∧ map'.header = map.header ∧ map'.table = map.table)
      (fun e map' content' => I map' content' ∧ S.Excused e) map content := by
  have hsized := R.wellSized _ _ h
  simp only [holds, Engine.ensures_bind, Engine.ensures_get, hsized.locate_eq hsector,
    Engine.ensures_liftExcept_ok, Engine.ensures_pure]
  intro _ _
  refine (select_governed R h sought
    (div_lt_of_lt_capacity hsized.sectors_pos hsector)).mono_success ?_
  exact fun _ _ _ _ hselected _ _ => ⟨hselected.1, hselected.2.1, hselected.2.2.1⟩

theorem readSectors_governed (R : Regime S wanted I) (count sector slot : Nat) (buffer : ByteArray)
    {map : BlockMap} {content : Content} (h : I map content)
    (sought : ∀ k, k < count →
      Sought wanted map.table ((sector + k) / map.header.sectorsPerBlock))
    (hsector : ∀ k, k < count → sector + k < map.capacity)
    (hbuffer : (slot + count) * 512 ≤ buffer.size) :
    (readSectors S.disk count sector slot buffer).Ensures S
      (fun buffer' map' content' => I map' content' ∧ map'.header = map.header ∧
        map'.table = map.table ∧ buffer'.size = buffer.size)
      (fun e map' content' => I map' content' ∧ S.Excused e) map content := by
  induction count generalizing sector slot buffer map content with
  | zero =>
    rw [readSectors, Engine.ensures_pure]
    exact fun _ => ⟨h, rfl, rfl, rfl⟩
  | succ count ih =>
    simp only [readSectors, Engine.ensures_bind]
    refine (readSector_governed R h (sought 0 (Nat.succ_pos count))
      (hsector 0 (Nat.succ_pos count))).mono_success ?_
    rintro bytes map' content' _ ⟨h', hheader, htable⟩
    obtain ⟨buffer', hfill, filled⟩ :=
      Buffer.exists_fill bytes (show slot * 512 + 512 ≤ buffer.size by omega)
    have hcapacity : map'.capacity = map.capacity := by rw [capacity, hheader, htable, capacity]
    simp only [Buffer.fillSector, hfill, Engine.ensures_liftExcept_ok]
    intro _
    refine (ih (sector + 1) (slot + 1) buffer' h' (fun k hk => ?_) (fun k hk => ?_)
      (by rw [filled.size_eq]; lia)).mono_success ?_
    · rw [hheader, htable, show sector + 1 + k = sector + (k + 1) by omega]
      exact sought (k + 1) (by omega)
    · rw [hcapacity, show sector + 1 + k = sector + (k + 1) by omega]
      exact hsector (k + 1) (by omega)
    · rintro buffer'' map'' content'' _ ⟨h'', hheader', htable', hsize⟩
      exact ⟨h'', hheader'.trans hheader, htable'.trans htable, hsize.trans filled.size_eq⟩

theorem writeSectors_governed (R : Regime S wanted I) (buffer : ByteArray)
    (count sector slot : Nat) (h : I map content)
    (asked : ∀ k, k < count → wanted ((sector + k) / map.header.sectorsPerBlock))
    (hsector : ∀ k, k < count → sector + k < map.capacity)
    (hbuffer : (slot + count) * 512 ≤ buffer.size) :
    (writeSectors S.disk buffer count sector slot).Ensures S
      (fun _ map' content' => I map' content' ∧ map'.header = map.header ∧
        map'.table.size = map.table.size)
      (fun e map' content' => I map' content' ∧ S.Excused e) map content := by
  -- The blocks that are wanted are numbered as in the map that the write started from.
  refine (writeSectors_steps (P := fun _ map' content' => I map' content' ∧
    map'.header = map.header ∧ map'.table.size = map.table.size) hbuffer ⟨h, rfl, rfl⟩ ?_)
  rintro k hk map' content' ⟨h', hheader, hsize⟩
  refine (writeSector_governed R h' ?_ ?_ _).mono_success ?_
  · rw [hheader]
    exact asked k hk
  · rw [capacity, hheader, hsize]
    exact hsector k hk
  · rintro _ map'' content'' _ ⟨h'', hheader', hsize'⟩
    exact ⟨h'', hheader'.trans hheader, hsize'.trans hsize⟩

end BlockMap

end VirtualDisk

import VirtualDisk.Proofs.Storage.Requests
import VirtualDisk.Proofs.Storage.Shelf

/-!
# Media that serve alike

Memory and a file that is open for reading and writing differ in two ways. An empty write makes
memory grow up to its position and leaves a file as it is, and a file has no positions from 2^63 on.
To a program that issues no empty write the two are the same, as long as the storages stay below
that.
-/

namespace VirtualDisk.Storage

variable {ι ω α σ : Type}

/-- An empty write. Memory grows up to its position, a file of the host does not. -/
def Request.IsEmptyWrite : Request → Prop
  | .write _ data => data.size = 0
  | _ => False

/-- No empty write is issued. -/
def Protocol.filling (ι : Type) : Protocol ι where
  permits _ request := ¬ request.IsEmptyWrite
  answers _ _ _ := True

theorem Protocol.filling_governs (server : Server ι ω) :
    (filling ι).Governs server fun _ => True :=
  fun _ _ _ _ _ => ⟨trivial, trivial⟩

namespace Medium

/-- Memory, or a file that may be read and written. -/
def Writable (medium : Medium) : Prop := medium = .memory ∨ medium = .file .readWrite

variable {medium : Medium} {content : Content}

/-- Memory refuses what lies outside of it, and has no other reasons. -/
theorem of_memory_error {request : Request} {e : Error}
    (h : (memory.serve request content).1 = .error e) :
    e = .offsetOverflow ∨ ∃ offset size capacity, e = .outOfBounds offset size capacity := by
  cases request with
  | length => cases h
  | flush => cases h
  | resize size => cases h
  | read offset size =>
    change read content offset size = _ at h
    unfold read at h
    split at h
    · exact .inl (Except.error.inj h).symm
    · split at h
      · exact .inr ⟨_, _, _, (Except.error.inj h).symm⟩
      · cases h
  | write offset data =>
    change (settle content (memory.write content offset data)).1 = _ at h
    unfold write at h
    split at h
    · exact .inl (Except.error.inj h).symm
    · cases h

/-- A size that memory can be given below 2^63 a file can be given, too. -/
theorem Writable.resize_eq (h : medium.Writable) {size : Nat} (small : size < 2 ^ 63) :
    medium.resize content size = memory.resize content size := by
  obtain rfl | rfl := h
  · rfl
  · have hrefusal : HostFile.readWrite.resizeRefusal? size = none := by
      simp only [HostFile.resizeRefusal?, HostFile.readWrite, Bool.not_true, Bool.false_eq_true,
        if_false, if_neg (Nat.not_le.mpr small)]
    simp only [resize, hrefusal]

theorem Writable.write_eq (h : medium.Writable) {offset : Nat} {data : ByteArray}
    (filled : data.size ≠ 0) (small : offset + data.size < 2 ^ 63) :
    medium.write content offset data = memory.write content offset data := by
  obtain rfl | rfl := h
  · rfl
  · have hrefusal : HostFile.readWrite.refusal? offset data.size = none := by
      have hoffset : ¬ 2 ^ 63 ≤ offset := by omega
      simp only [HostFile.refusal?, HostFile.readWrite, Bool.not_true, Bool.false_eq_true,
        if_false, if_neg hoffset, if_neg (Nat.not_le.mpr small)]
    have hmode : HostFile.readWrite.readOnly = false := rfl
    have hfits : ¬ 2 ^ 64 ≤ offset + data.size := by omega
    simp only [write, if_neg hfits, hmode, if_neg filled, hrefusal, if_neg Bool.false_ne_true]

theorem serve_memory_write {offset : Nat} {data : ByteArray} (fits : offset + data.size < 2 ^ 64) :
    memory.serve (.write offset data) content =
      (.ok (), content.write offset (Bytes.ofByteArray data)) := by
  change settle content (memory.write content offset data) = _
  rw [write, if_neg (Nat.not_le.mpr fits)]
  rfl

/-- What memory does, without growing to 2^63 bytes, a file does, too. -/
theorem Writable.serve_eq (h : medium.Writable) {request : Request}
    (filled : ¬ request.IsEmptyWrite) (small : (memory.serve request content).2.size < 2 ^ 63) :
    medium.serve request content = memory.serve request content := by
  cases request with
  | length => rfl
  | read offset size => rfl
  | flush => rfl
  | resize size =>
    have hsize : size < 2 ^ 63 := by
      rw [← Content.size_resize content size]
      exact small
    exact congrArg (settle content) (h.resize_eq hsize)
  | write offset data =>
    refine congrArg (settle content) ?_
    by_cases hlarge : 2 ^ 64 ≤ offset + data.size
    · simp only [write, if_pos hlarge]
    · rw [serve_memory_write (Nat.not_le.mp hlarge), Content.size_write] at small
      exact h.write_eq filled (by omega)

end Medium

variable [DecidableEq ι]

/-- A storage for each disk, each in a medium of its own. -/
def shelfOf (media : ι → Medium) : Server ι (ι → Content) := fun disk request contents =>
  let (reply, content) := (media disk).serve request (contents disk)
  (reply, Function.update contents disk content)

variable {media : ι → Medium} {contents : ι → Content}

theorem shelfOf_eq (writable : ∀ disk, (media disk).Writable) {disk : ι} {request : Request}
    (filled : ¬ request.IsEmptyWrite) (short : Short (shelf disk request contents).2) :
    shelfOf media disk request contents = shelf disk request contents := by
  have hsize : (Medium.memory.serve request (contents disk)).2.size < 2 ^ 63 := by
    have hdisk := short disk
    change (Function.update contents disk _ disk).size < 2 ^ 63 at hdisk
    rw [Function.update_self] at hdisk
    exact hdisk
  rw [shelfOf, (writable disk).serve_eq filled hsize]
  rfl

/-- Without empty writes, a program asks the same of all such media, is answered the same, and ends
with the same. The induction is on the program; the next answer is the same from both. -/
theorem Program.run_shelfOf {p : Program ι α} {Q : α → Prop}
    (writable : ∀ disk, (media disk).Writable) (obeys : p.Obeys (.filling ι) Q)
    (short : p.Stays Short shelf contents) :
    p.run (shelfOf media) contents = p.run shelf contents ∧
      p.exchanges (shelfOf media) contents = p.exchanges shelf contents := by
  induction p generalizing contents with
  | done value => exact ⟨rfl, rfl⟩
  | ask disk request next ih =>
    obtain ⟨hrun, hexchanges⟩ := ih _ (obeys.2 (shelf disk request contents).1 trivial) short.2
    rw [run_ask, run_ask, exchanges, exchanges, shelfOf_eq writable obeys.1 short.2.head]
    exact ⟨hrun, congrArg (List.cons _) hexchanges⟩

end VirtualDisk.Storage

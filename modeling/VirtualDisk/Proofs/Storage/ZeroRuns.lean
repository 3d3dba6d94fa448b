import VirtualDisk.Proofs.Storage.SameBytes
import VirtualDisk.Proofs.Storage.Zeros

/-!
# Runs of zeros as one write

`zeroSectors` writes its zeros chunk by chunk, `Content.chunked` is what the storage holds after
some of the chunks. Where the content ended before does not matter, nor where the chunks meet: the
bytes are those of `Content.zeros`, for which all the zeros so far are written at once. A chunk that
fails is the first that is missing.
-/

namespace VirtualDisk.Storage

variable {ι ω : Type}

/-- The size of a chunk of a run of `size` zeros. -/
def chunkSize (size i : Nat) : Nat := min (size - i * 65536) 65536

section

variable {size i : Nat}

theorem chunkSize_pos (h : i < (size + 65535) / 65536) : 0 < chunkSize size i := by
  unfold chunkSize
  omega

theorem min_chunks (h : i < (size + 65535) / 65536) : min (i * 65536) size = i * 65536 := by
  omega

theorem min_chunks_succ (h : i < (size + 65535) / 65536) :
    min ((i + 1) * 65536) size = i * 65536 + chunkSize size i := by
  unfold chunkSize
  omega

theorem chunk_end_lt {offset : Nat} (fits : offset + size < 2 ^ 64)
    (h : i < (size + 65535) / 65536) : offset + i * 65536 + chunkSize size i < 2 ^ 64 := by
  unfold chunkSize
  omega

end

namespace Content

/-- The content with `n` zeros at a position, written at once. No zeros are not written. -/
def zeros (content : Content) (position n : Nat) : Content :=
  if n = 0 then content else content.write position (Bytes.zero n)

/-- The content after some chunks of a run of `size` zeros. -/
def chunked (content : Content) (position size : Nat) : (chunks : Nat) → Content
  | 0 => content
  | i + 1 => (content.chunked position size i).write (position + i * 65536)
      (Bytes.zero (chunkSize size i))

variable (content : Content) (position n : Nat)

@[simp] theorem zeros_zero : content.zeros position 0 = content := if_pos rfl

theorem zeros_of_pos (h : 0 < n) :
    content.zeros position n = content.write position (Bytes.zero n) := if_neg (by omega)

theorem size_zeros :
    (content.zeros position n).size =
      if n = 0 then content.size else max content.size (position + n) := by
  unfold zeros
  split
  · rfl
  · rw [size_write]

theorem byte_zeros (p : Nat) :
    (content.zeros position n).byte p =
      if position ≤ p ∧ p < position + n then 0 else content.byte p := by
  unfold zeros
  split
  · rw [if_neg (by omega)]
  · rw [byte_write]
    split
    · exact Bytes.getElem_zero _ _ _
    · rfl

theorem zeros_append {m : Nat} (hm : 0 < m) :
    (content.zeros position (n + m)).SameBytes
      ((content.zeros position n).write (position + n) (Bytes.zero m)) := by
  constructor
  · rw [size_write, size_zeros, size_zeros, if_neg (show ¬ n + m = 0 by omega)]
    split <;> omega
  · intro p _
    rw [byte_write, byte_zeros, byte_zeros]
    split
    · rw [if_pos (by omega)]
      exact Bytes.getElem_zero _ _ _
    · by_cases hp : position ≤ p ∧ p < position + n
      · rw [if_pos hp, if_pos (by omega)]
      · rw [if_neg hp, if_neg (by omega)]

/-- The chunks so far have the bytes of a single write. -/
theorem zeros_sameBytes_chunked {size chunks : Nat} (h : chunks ≤ (size + 65535) / 65536) :
    (content.zeros position (min (chunks * 65536) size)).SameBytes
      (content.chunked position size chunks) := by
  induction chunks with
  | zero =>
    rw [Nat.zero_mul, Nat.zero_min, zeros_zero]
    exact .refl content
  | succ i ih =>
    specialize ih (Nat.le_of_lt h)
    rw [min_chunks h] at ih
    rw [min_chunks_succ h]
    exact (content.zeros_append position (i * 65536) (chunkSize_pos h)).trans (ih.write _ _)

end Content

namespace Access

/-- A chunk is written, whole or not, and the rest follows. -/
theorem zeroChunks_succ (disk : ι) (count offset size : Nat) :
    zeroChunks disk (count + 1) offset size = (do
      write disk offset (Bytes.zero (min size 65536))
      if 2 ^ 64 ≤ offset + min size 65536 then throw .offsetOverflow
      zeroChunks disk count (offset + min size 65536) (size - 65536)) := by
  rw [zeroChunks]
  split
  · next hlarge =>
    rw [Nat.min_eq_right hlarge]
    rfl
  · next hsmall =>
    have hslice : zeroChunk.slice 0 size (by omega) = Bytes.zero size := by
      refine Bytes.ext fun i hi => ?_
      rw [Bytes.getElem_slice, Bytes.getElem_zero]
      exact Bytes.getElem_zero _ _ _
    rw [hslice, Nat.min_eq_left (by omega)]

variable {server : Server ι ω} {disk : ι} {offset size : Nat}

theorem runOn_zeroChunks_succ {world world' : ω} (count : Nat) (fits : offset + size < 2 ^ 64)
    (granted : (write disk offset (Bytes.zero (min size 65536))).runOn server world =
      (.ok (), world')) :
    (zeroChunks disk (count + 1) offset size).runOn server world =
      (zeroChunks disk count (offset + min size 65536) (size - 65536)).runOn server world' := by
  rw [zeroChunks_succ, runOn_bind_ok granted, if_neg (by omega)]

/-- Chunks that are granted one after the other are written; what remains is the rest of the
run. -/
theorem runOn_zeroChunks_of_granted (server : Server ι ω) (disk : ι) (worlds : Nat → ω)
    (chunks count : Nat) (fits : offset + size < 2 ^ 64) (enough : chunks ≤ (size + 65535) / 65536)
    (granted : ∀ i, i < chunks →
      (write disk (offset + i * 65536) (Bytes.zero (chunkSize size i))).runOn server (worlds i) =
        (.ok (), worlds (i + 1))) :
    (zeroChunks disk (chunks + count) offset size).runOn server (worlds 0) =
      (zeroChunks disk count (offset + min (chunks * 65536) size)
        (size - chunks * 65536)).runOn server (worlds chunks) := by
  induction chunks generalizing count with
  | zero => simp
  | succ i ih =>
    have hnext : offset + i * 65536 + min (size - i * 65536) 65536 =
        offset + min ((i + 1) * 65536) size := by
      rw [min_chunks_succ enough, Nat.add_assoc, chunkSize]
    have hrest : size - i * 65536 - 65536 = size - (i + 1) * 65536 := by omega
    have hleft : offset + i * 65536 + (size - i * 65536) < 2 ^ 64 := by omega
    rw [show i + 1 + count = i + (count + 1) by omega,
      ih (count + 1) (Nat.le_of_lt enough) fun k hk => granted k (Nat.lt_succ_of_lt hk),
      min_chunks enough, runOn_zeroChunks_succ count hleft (granted i (Nat.lt_succ_self i)), hnext,
      hrest]

theorem liftExcept_ok_bind {α β : Type} (a : α) (f : α → Access ι β) :
    (liftM (.ok a : Except Error α) : Access ι α) >>= f = f a := rfl

/-- A run of sectors whose size fits into 64 bits is a run of chunks. -/
theorem zeroSectors_eq {count : Nat} (fits : count * 512 < 2 ^ 64) :
    zeroSectors disk offset count =
      zeroChunks disk ((count * 512 + 65535) / 65536) offset (count * 512) := by
  rw [zeroSectors, Sector.position_eq fits]
  exact liftExcept_ok_bind _ _

theorem runOn_sole_zeroSectors {count : Nat} (content : Content)
    (fits : offset + count * 512 < 2 ^ 64) :
    (zeroSectors disk offset count).runOn sole content =
      (.ok (offset + count * 512),
        content.chunked offset (count * 512) ((count * 512 + 65535) / 65536)) := by
  have hend : min ((count * 512 + 65535) / 65536 * 65536) (count * 512) = count * 512 := by omega
  have hrun := runOn_zeroChunks_of_granted sole disk (content.chunked offset (count * 512))
    ((count * 512 + 65535) / 65536) 0 fits (Nat.le_refl _)
    fun i hi => runOn_sole_write disk _ (chunk_end_lt fits hi) _
  rw [Nat.add_zero, hend] at hrun
  rw [zeroSectors_eq (by omega)]
  exact hrun

theorem runOn_flaky_write {n : Nat} {data : Bytes n} {world world' : ω}
    (h : (write disk offset data).runOn server world = (.ok (), world'))
    (plan : List (Option Error)) :
    (write disk offset data).runOn server.flaky (world, none :: plan) = (.ok (), world', plan) := by
  rw [runOn_write] at h ⊢
  simp only [Server.flaky, h]

theorem runOn_flaky_write_error {n : Nat} (server : Server ι ω) (data : Bytes n) (world : ω)
    (e : Error) (plan : List (Option Error)) :
    (write disk offset data).runOn server.flaky (world, some e :: plan) =
      (.error e, world, plan) := rfl

/-- If the first chunks are written and the next one fails, nothing else is asked for. -/
theorem runOn_flaky_zeroSectors {count : Nat} (content : Content)
    (fits : offset + count * 512 < 2 ^ 64) (chunks : Nat) (e : Error)
    (plan : List (Option Error)) (more : chunks < (count * 512 + 65535) / 65536) :
    (zeroSectors disk offset count).runOn (Server.flaky sole)
        (content, List.replicate chunks none ++ some e :: plan) =
      (.error e, content.chunked offset (count * 512) chunks, plan) := by
  obtain ⟨rest, hrest⟩ := Nat.exists_eq_add_of_lt more
  have hrun := runOn_zeroChunks_of_granted (Server.flaky sole) disk
    (fun i => (content.chunked offset (count * 512) i,
      List.replicate (chunks - i) none ++ some e :: plan)) chunks (rest + 1) fits
    (Nat.le_of_lt more) ?_
  · rw [zeroSectors_eq (by omega), hrest, Nat.add_assoc]
    refine hrun.trans ?_
    simp only [zeroChunks_succ, Nat.sub_self]
    exact runOn_bind_error (runOn_flaky_write_error ..) _
  · intro i hi
    have hwrite := runOn_sole_write disk (Bytes.zero (chunkSize (count * 512) i))
      (chunk_end_lt fits (Nat.lt_trans hi more)) (content.chunked offset (count * 512) i)
    have hplan : List.replicate (chunks - i) (none : Option Error) =
        none :: List.replicate (chunks - (i + 1)) none := by
      rw [show chunks - i = chunks - (i + 1) + 1 by omega, List.replicate_succ]
    simp only [hplan]
    exact runOn_flaky_write hwrite _

/-- Zeros that are written chunk by chunk are the zeros of one write. No zeros change nothing. A
chunk that fails leaves the zeros before it. A run whose size has more than 64 bits asks for
nothing. -/
theorem zeroSectors_as_one_write (disk : ι) (content : Content) (offset count : Nat) :
    (offset + count * 512 < 2 ^ 64 →
      (∃ content', (zeroSectors disk offset count).runOn sole content =
          (.ok (offset + count * 512), content') ∧
        (count = 0 → content' = content) ∧
        (0 < count → ∃ written, (write disk offset (Bytes.zero (count * 512))).runOn sole content =
          (.ok (), written) ∧ written.SameBytes content') ∧
        (∀ p, p < offset ∨ offset + count * 512 ≤ p → content'.byte p = content.byte p) ∧
        ∀ p, content.size ≤ p → p < offset → content'.byte p = 0) ∧
      ∀ chunks e plan, chunks * 65536 < count * 512 → ∃ content',
        (zeroSectors disk offset count).runOn (Server.flaky sole)
            (content, List.replicate chunks none ++ some e :: plan) = (.error e, content', plan) ∧
          (content.zeros offset (chunks * 65536)).SameBytes content') ∧
    (2 ^ 64 ≤ count * 512 → ∀ (ω : Type) (server : Server ι ω) (world : ω),
      (zeroSectors disk offset count).runOn server world = (.error .offsetOverflow, world)) := by
  refine ⟨fun fits => ⟨?_, fun chunks e plan hlt => ?_⟩, fun large ω server world => ?_⟩
  · have hsame := content.zeros_sameBytes_chunked offset
      (Nat.le_refl ((count * 512 + 65535) / 65536))
    rw [show min ((count * 512 + 65535) / 65536 * 65536) (count * 512) = count * 512 by omega]
      at hsame
    have houtside : ∀ p, p < offset ∨ offset + count * 512 ≤ p →
        (content.chunked offset (count * 512) ((count * 512 + 65535) / 65536)).byte p =
          content.byte p := by
      intro p hp
      rw [hsame.byte_eq p (Nat.zero_le p), Content.byte_zeros, if_neg (by omega)]
    refine ⟨_, runOn_sole_zeroSectors content fits, ?_, ?_, houtside, ?_⟩
    · rintro rfl
      rfl
    · intro hpos
      rw [Content.zeros_of_pos _ _ _ (by omega)] at hsame
      exact ⟨_, runOn_sole_write disk _ fits content, hsame⟩
    · intro p hp hlt
      rw [houtside p (.inl hlt)]
      exact content.byte_eq_zero_of_size_le hp
  · have more : chunks < (count * 512 + 65535) / 65536 := by omega
    have hsame := content.zeros_sameBytes_chunked offset (Nat.le_of_lt more)
    rw [min_chunks more] at hsame
    exact ⟨_, runOn_flaky_zeroSectors content fits chunks e plan more, hsame⟩
  · rw [zeroSectors, Sector.position, if_neg (Nat.not_lt.mpr large)]
    exact runOn_bind_error rfl _

/-- A run of two chunks behind the end of an empty storage, the same with a failing second chunk,
and a run that is too large. -/
theorem zeroSectors_two_chunks :
    (∃ content', (zeroSectors () 512 200).runOn sole Content.empty = (.ok 102912, content') ∧
      ∀ p, p < 512 ∨ 102912 ≤ p → content'.byte p = Content.empty.byte p) ∧
    (∃ content', (zeroSectors () 512 200).runOn (Server.flaky sole)
        (Content.empty, [none, some .offsetOverflow]) = (.error .offsetOverflow, content', []) ∧
      (Content.empty.zeros 512 65536).SameBytes content') ∧
    (zeroSectors () 512 (2 ^ 55)).runOn sole Content.empty =
      (.error .offsetOverflow, Content.empty) := by
  obtain ⟨content', run, -, -, outside, -⟩ :=
    ((zeroSectors_as_one_write () Content.empty 512 200).1 (by decide)).1
  exact ⟨⟨content', run, outside⟩,
    ((zeroSectors_as_one_write () Content.empty 512 200).1 (by decide)).2 1 .offsetOverflow []
      (by decide),
    (zeroSectors_as_one_write () Content.empty 512 (2 ^ 55)).2 (by decide) Content sole
      Content.empty⟩

end Access

end VirtualDisk.Storage

import VirtualDisk.Proofs.Storage.Ensures
import VirtualDisk.Proofs.Storage.Ranges

/-!
# Storages that were cut off

A storage that was cut off within its last sector answers like the whole one, as long as it is asked
for nothing near its end: the same ranges hold the same bytes, and what is written to the one is
written to the other. Whatever a program ensures on the whole storage it therefore ensures on the
one that was cut off, if its requests stay inside.
-/

namespace VirtualDisk.Storage

variable {ι σ α : Type}

/-- The request does not depend on the last two sectors of a storage of this size, nor on the size
itself. -/
def Request.Inside (size : Nat) : Request → Prop
  | .read offset n => offset + n + 1024 ≤ size
  | .write offset data => offset + data.size + 1024 ≤ size
  | .flush => True
  | .length => False
  | .resize _ => False

/-- A sound storage whose end is left alone. -/
def Setting.inside (disk : ι) : Setting ι where
  disk
  mayFail := False
  within content := content.size < 2 ^ 63
  permits request content := request.Inside content.size

/-- The second content is the first one without a last part of its last sector. What it ends with
does not begin like a footer, and what the first one ends with begins with a zero. -/
structure Content.Cropped (whole content : Content) : Prop where
  size_lt : content.size < whole.size
  size_le : whole.size ≤ content.size + 512
  agree : whole.AgreeOn content 0 (whole.size - 512)
  last : whole.byte (whole.size - 512) = 0
  first : content.byte (content.size - 512) ≠ 0x63

namespace Content.Cropped

variable {whole content : Content}

theorem agreeOn (h : whole.Cropped content) {start size : Nat}
    (hend : start + size + 512 ≤ whole.size) : whole.AgreeOn content start size :=
  h.agree.mono (Nat.zero_le _) (by omega)

theorem write (h : whole.Cropped content) {n offset : Nat}
    (inside : offset + n + 1024 ≤ whole.size) (data : Bytes n) :
    (whole.write offset data).Cropped (content.write offset data) := by
  have hlt := h.size_lt
  have hle := h.size_le
  have hwhole : (whole.write offset data).size = whole.size := by
    rw [size_write]
    omega
  have hcontent : (content.write offset data).size = content.size := by
    rw [size_write]
    omega
  refine ⟨?_, ?_, fun p hp hp' => ?_, ?_, ?_⟩
  · rw [hwhole, hcontent]
    exact hlt
  · rw [hwhole, hcontent]
    exact hle
  · rw [hwhole] at hp'
    rw [byte_write, byte_write, h.agree p hp hp']
  · rw [hwhole, byte_write, dif_neg (by omega)]
    exact h.last
  · rw [hcontent, byte_write, dif_neg (by omega)]
    exact h.first

/-- A request that stays inside is answered in the same way, and changes both storages alike. -/
theorem serve (h : whole.Cropped content) {request : Request}
    (inside : request.Inside whole.size) :
    (Medium.memory.serve request content).1 = (Medium.memory.serve request whole).1 ∧
      (Medium.memory.serve request whole).2.Cropped (Medium.memory.serve request content).2 ∧
      (Medium.memory.serve request whole).2.size = whole.size := by
  have hle := h.size_le
  cases request with
  | length => exact inside.elim
  | resize size => exact inside.elim
  | flush => exact ⟨rfl, h, rfl⟩
  | read offset n =>
    have hinside : offset + n + 1024 ≤ whole.size := inside
    refine ⟨?_, h, rfl⟩
    simp only [Medium.serve, Medium.read, if_neg (show ¬ content.size < offset + n by omega),
      if_neg (show ¬ whole.size < offset + n by omega),
      (h.agreeOn (show offset + n + 512 ≤ whole.size by omega)).read_eq]
  | write offset data =>
    have hinside : offset + data.size + 1024 ≤ whole.size := inside
    simp only [Medium.serve, Medium.write]
    split
    · exact ⟨rfl, h, rfl⟩
    · refine ⟨rfl, h.write hinside _, ?_⟩
      simp only [Medium.settle, size_write]
      omega

end Content.Cropped

/-- What a program ensures on the whole storage it ensures on one that was cut off, if all requests
stay inside. -/
theorem Program.Ensures.cropped {disk : ι} {within : Content → Prop} {Q Q' : α → Content → Prop}
    {p : Program ι α} {whole content : Content}
    (h : p.Ensures (.free disk False fun _ => True) Q whole)
    (inside : p.Ensures (.inside disk) Q' whole) (small : whole.size < 2 ^ 63)
    (cropped : whole.Cropped content) :
    p.Ensures (.free disk False within)
      (fun a content' => ∃ whole', whole'.Cropped content' ∧ whole'.size < 2 ^ 63 ∧
        Q a whole' ∧ Q' a whole') content := by
  induction p generalizing whole content with
  | done value => exact fun _ => ⟨whole, cropped, small, h trivial, inside small⟩
  | ask other request next ih =>
    intro _
    obtain ⟨hdisk, -, hnext, -⟩ := h trivial
    obtain ⟨-, hinside, hnext', -⟩ := inside small
    obtain ⟨hreply, hcropped, hsize⟩ := cropped.serve hinside
    refine ⟨hdisk, trivial, ?_, False.elim⟩
    rw [hreply]
    exact ih _ hnext hnext' (by rw [hsize]; exact small) hcropped

theorem Engine.Ensures.cropped {disk : ι} {within : Content → Prop} {engine : Engine ι σ α}
    {Q Q' : α → σ → Content → Prop} {E : Error → σ → Content → Prop} {state : σ}
    {whole content : Content}
    (h : engine.Ensures (.free disk False fun _ => True) Q (fun _ _ _ => False) state whole)
    (inside : engine.Ensures (.inside disk) Q' E state whole) (small : whole.size < 2 ^ 63)
    (cropped : whole.Cropped content) :
    engine.Ensures (.free disk False within)
      (fun a state' content' => ∃ whole', whole'.Cropped content' ∧ whole'.size < 2 ^ 63 ∧
        Q a state' whole' ∧ Q' a state' whole') (fun _ _ _ => False) state content := by
  refine Program.Ensures.mono (Program.Ensures.cropped h inside small cropped) ?_
  rintro ⟨result, state'⟩ content' _ ⟨whole', hcropped, hsmall, hpost, hpost'⟩
  cases result with
  | ok a => exact ⟨whole', hcropped, hsmall, hpost, hpost'⟩
  | error e => exact hpost

end VirtualDisk.Storage

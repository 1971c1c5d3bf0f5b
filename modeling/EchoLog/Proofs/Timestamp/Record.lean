import EchoLog.Proofs.Framing.Lines
import EchoLog.Timestamp.Record
/-!
# Records are lines

In UTF-8 no character but the newline has the byte of the newline in it, so a text is free of it as
characters exactly when it is free of it as bytes.  A timestamp record ends with a newline, and it is
one line of the log if the time that it shows is written without one.
-/

namespace EchoLog

theorem ofNat_eq_newline {n : Nat} (h : newline = UInt8.ofNat n) : n % 256 = 10 := by
  have h' := congrArg UInt8.toNat h
  rw [UInt8.toNat_ofNat'] at h'
  exact h'.symm

/-- No other character has the byte of the newline in it: the bytes of a long code are 128 or more. -/
theorem eq_of_newline_mem_utf8EncodeChar {c : Char} (h : newline ∈ String.utf8EncodeChar c) :
    c = '\n' := by
  unfold String.utf8EncodeChar at h
  dsimp only at h
  split at h
  · rename_i hshort
    have hcode := ofNat_eq_newline (List.mem_singleton.1 h)
    rw [Nat.mod_eq_of_lt (by omega)] at hcode
    exact Char.toNat_inj.1 hcode
  · exfalso
    split at h
    · simp only [List.mem_cons, List.not_mem_nil, or_false] at h
      rcases h with h | h <;> have hcode := ofNat_eq_newline h <;> omega
    · split at h
      · simp only [List.mem_cons, List.not_mem_nil, or_false] at h
        rcases h with h | h | h <;> have hcode := ofNat_eq_newline h <;> omega
      · simp only [List.mem_cons, List.not_mem_nil, or_false] at h
        rcases h with h | h | h | h <;> have hcode := ofNat_eq_newline h <;> omega

theorem newline_not_mem_utf8 {s : String} (h : '\n' ∉ s.toList) : newline ∉ utf8 s := by
  intro hmem
  obtain ⟨c, hc, hbyte⟩ := List.mem_flatMap.1 hmem
  rw [eq_of_newline_mem_utf8EncodeChar hbyte] at hc
  exact h hc

theorem utf8_append (s t : String) : utf8 (s ++ t) = utf8 s ++ utf8 t := by
  rw [utf8, String.toList_append, List.flatMap_append]
  rfl

namespace Timestamp

/-- A pattern that writes no time with a newline. -/
def IsPlain (pattern : String) : Prop :=
  ∀ t text, Pattern.format? t pattern = some text → '\n' ∉ text.toList

/-- The bytes of the record of some time by a pattern. -/
def IsRecord (pattern : String) (bytes : Bytes) : Prop :=
  ∃ t record, record? t pattern = some record ∧ bytes = utf8 record

/-- **A record by a plain pattern is a line.** -/
theorem IsRecord.isLine {pattern : String} {bytes : Bytes} (h : IsRecord pattern bytes)
    (hplain : IsPlain pattern) : IsLine bytes := by
  obtain ⟨t, record, hrecord, rfl⟩ := h
  obtain ⟨text, htext, rfl⟩ := Option.map_eq_some_iff.1 hrecord
  refine ⟨utf8 (tag ++ text), ?_, ?_⟩
  · refine newline_not_mem_utf8 ?_
    rw [String.toList_append, List.mem_append, not_or]
    exact ⟨by decide +kernel, hplain t text htext⟩
  · rw [utf8_append]
    congr 1

end Timestamp

end EchoLog

import EchoLog.Disk.Change
import EchoLog.Proofs.Store.Acknowledged
/-!
# What a rollback leaves

A failed append is rolled back to the counter of the store, not to the length that the file had when the
append began.  The two are the same as long as nobody else writes to the file.  Here the file may hold
anything when the append begins, whatever the counter says, and any file step of the append may fail:

| the counter is | a rollback leaves |
| :-- | :-- |
| the length of the file | the file as it was |
| less than that | the file, cut to the counter |
| more than that | the file and a part of the append, filled with zero bytes to the counter |
-/

namespace EchoLog

/-! ## Contents cut back -/

section Resized

variable {length : Nat} {base : Bytes}

/-- Taking off what was added gives back a content exactly when it is cut to its own length. -/
theorem resized_append_eq_iff (more : Bytes) :
    resized length (base ++ more) = base ↔ length = base.length := by
  constructor
  · intro h
    rw [← length_resized length (base ++ more), h]
  · rintro rfl
    exact resized_length_append base more

theorem resized_append_of_le (more : Bytes) (h : length ≤ base.length) :
    resized length (base ++ more) = base.take length := by
  rw [resized_of_le (h.trans (by rw [List.length_append]; omega)), List.take_append_of_le_length h]

theorem resized_append_of_ge (more : Bytes) (h : base.length ≤ length) :
    resized length (base ++ more) = base ++ resized (length - base.length) more := by
  obtain ⟨d, rfl⟩ := Nat.exists_eq_add_of_le h
  rw [resized, resized, List.take_length_add_append, List.length_append, Nat.add_sub_add_left,
    Nat.add_sub_cancel_left, List.append_assoc]

end Resized

/-! ## Requests that fail in writing -/

namespace Store

variable {store : Store} {disk : Disk} {faults : Faults} {request : Request} {bytes base : Bytes}

/-- A request that fails in its write phase comes to nothing more. -/
theorem perform_eq_append (hbytes : request.bytes? = some bytes) {failure : Failure}
    (hfails : (store.perform disk (.append bytes) faults).answer = .error failure) :
    store.perform disk request faults = store.perform disk (.append bytes) faults := by
  cases request with
  | echo _ =>
      cases hbytes
      rw [perform_echo, Outcome.thenRead, hfails]
  | append _ =>
      cases hbytes
      rfl
  | snapshot | remove | size => cases hbytes

/-- **A request that is rolled back fails, counts nothing, and leaves the file cut to the counter.** -/
theorem perform_rolled_back (hbytes : request.bytes? = some bytes)
    (hfile : disk.content? store.path = some base)
    (hroll : (store.perform disk request faults).notices.any Notice.isRollback = true) :
    ∃ failure n,
      (store.perform disk request faults).answer = .error failure ∧
      (store.perform disk request faults).store = store ∧
      (store.perform disk request faults).disk.content? store.path =
        some (resized store.committed (base ++ bytes.take n)) := by
  have hend := store.perform_append disk faults bytes hfile
  rw [(store.perform_write disk faults hbytes).2.2] at hroll
  generalize ho : store.perform disk (.append bytes) faults = o at hend hroll
  cases hend with
  | committed | refused | notCutBack => cases hroll
  | @cutBack disk' failure cause n hleft =>
      rw [perform_eq_append hbytes (congrArg Outcome.answer ho), ho]
      exact ⟨failure, n, rfl, rfl, hleft⟩

end Store

/-- **When a rollback restores the file.**  Whatever the counter is, whatever the file holds when an append
with or without an echo begins, and whatever fails: if the append is rolled back it is answered with a
failure, nothing is counted, and the file is as it was if and only if its length was the counter.  A
longer file loses what is behind the counter; a shorter one is filled up to the counter with a part of the
append and zero bytes. -/
theorem rollback_restores_iff {store : Store} {disk : Disk} {faults : Faults} {request : Request}
    {bytes base : Bytes} (hbytes : request.bytes? = some bytes)
    (hfile : disk.content? store.path = some base)
    (hroll : (store.perform disk request faults).notices.any Notice.isRollback = true) :
    ∃ failure left n,
      (store.perform disk request faults).answer = .error failure ∧
      (store.perform disk request faults).store = store ∧
      (store.perform disk request faults).disk.content? store.path = some left ∧
      (left = base ↔ store.committed = base.length) ∧
      (store.committed < base.length → left = base.take store.committed) ∧
      (base.length < store.committed →
        left = base ++ resized (store.committed - base.length) (bytes.take n)) := by
  obtain ⟨failure, n, hanswer, hstore, hleft⟩ := Store.perform_rolled_back hbytes hfile hroll
  refine ⟨failure, _, n, hanswer, hstore, hleft, resized_append_eq_iff _, ?_, ?_⟩
  · intro hbehind
    exact resized_append_of_le _ (Nat.le_of_lt hbehind)
  · intro hahead
    exact resized_append_of_ge _ (Nat.le_of_lt hahead)

/-- Another process has appended to a log, and a failed append takes that away with its own bytes. -/
theorem rollback_restores_iff_in_extended_file :
    let store : Store := { path := ⟨[], "data"⟩, committed := 4 }
    let disk : Disk := { nodes := [(["data"], .file (utf8 "one\nother\n"))] }
    let o := store.perform disk (.echo (utf8 "two\n")) (.only .writing ⟨.noSpace, 2⟩)
    o.notices.any Notice.isRollback = true ∧
      ∃ left, o.disk.content? store.path = some left ∧ left = utf8 "one\n" := by
  intro store disk o
  have hfile : disk.content? store.path = some (utf8 "one\nother\n") := by decide +kernel
  have hroll : o.notices.any Notice.isRollback = true := by decide +kernel
  obtain ⟨-, left, -, -, -, hleft, -, hbehind, -⟩ := rollback_restores_iff rfl hfile hroll
  exact ⟨hroll, left, hleft, hbehind (by decide)⟩

/-- **A rollback need not restore the file**: after one append the file is emptied by another process, and
of the next append, which fails after six bytes, the four that the counter allows are left. -/
theorem rollback_leaves_part_of_append :
    ¬ ∀ (calls : List Call) (change : Change) (request : Request) (faults : Faults) (bytes base : Bytes),
      let s := History.created.after calls
      let disk := change.apply s.disk s.store.path
      let o := s.store.perform disk request faults
      request.bytes? = some bytes → disk.content? s.store.path = some base →
        o.notices.any Notice.isRollback = true → o.disk.content? s.store.path = some base := by
  intro h
  let s := History.created.after [⟨.append (utf8 "one\n"), .none, by decide⟩]
  let disk := (Change.write []).apply s.disk s.store.path
  let faults := Faults.only .writing ⟨.fileTooLarge, 6⟩
  let o := s.store.perform disk (.append (utf8 "seconds\n")) faults
  have hempty : disk.content? s.store.path = some [] := by decide +kernel
  have hroll : o.notices.any Notice.isRollback = true := by decide +kernel
  have hleft : o.disk.content? s.store.path = some (utf8 "seco") := by decide +kernel
  have hsame : o.disk.content? s.store.path = some [] := h _ _ _ _ _ _ rfl hempty hroll
  rw [hleft] at hsame
  cases hsame

end EchoLog

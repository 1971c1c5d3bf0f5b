import EchoLog.Proofs.Store.Requests
/-!
# The store under faults

As long as every rollback succeeds, the log file is the concatenation of the appends that came through
their write phase, and the counter is its length (`History.Intact`).  This holds after every call of a
history that starts with a created log, whatever else fails: the opening, the write after any number of
bytes, the flush, the sync, the reading back.

The reason is that a rollback cuts the file to the counter, and an intact file had exactly that length
before the append that is rolled back.  `History.Answered` says what the caller of one more call
learns: a failed append has changed nothing, a failed echo has changed nothing or failed only in its
reading, and an echo that is returned is the file.
-/

namespace EchoLog

/-- Cutting a content with something after it to its own length gives it back. -/
theorem resized_length_append (c more : Bytes) : resized c.length (c ++ more) = c := by
  rw [resized_of_le (by rw [List.length_append]; omega), List.take_left]

/-- Whether a notice tells of a rollback that failed. -/
def Notice.isFailedRollback : Notice → Bool
  | .notCutBack _ _ => true
  | _ => false

namespace History

/-- The bytes of the appends that came through their write phase, in their order. -/
def written (s : History) : Bytes :=
  (s.landed.map (·.bytes)).flatten

/-- No rollback has failed so far. -/
def RolledBack (s : History) : Prop :=
  ∀ n ∈ s.notices, n.isFailedRollback = false

instance (s : History) : Decidable s.RolledBack :=
  inferInstanceAs (Decidable (∀ n ∈ s.notices, n.isFailedRollback = false))

/-- The file is what was written, and the counter is its length. -/
structure Intact (s : History) : Prop where
  file : s.disk.content? s.store.path = some s.written
  counter : s.store.committed = s.written.length

/-- A call leaves the file, the store and what counts as written. -/
structure Unchanged (s : History) (c : Call) : Prop where
  file : (s.call c).disk.content? s.store.path = s.disk.content? s.store.path
  store : (s.call c).store = s.store
  written : (s.call c).written = s.written

/-- A call puts its bytes into the file, whole and at its end, and counts them. -/
structure Appended (s : History) (c : Call) (bytes : Bytes) : Prop where
  file : (s.call c).disk.content? s.store.path = some (s.written ++ bytes)
  store : (s.call c).store = { s.store with committed := s.store.committed + bytes.length }
  written : (s.call c).written = s.written ++ bytes

/-- What the answer to a call says about the file, by the kind of request. -/
def Answered (s : History) (c : Call) : Prop :=
  match c.request, (s.outcome c).answer with
  | .append bytes, .ok reply => reply = .done ∧ s.Appended c bytes
  | .append _, .error _ => s.Unchanged c
  | .echo bytes, .ok reply =>
    s.Appended c bytes ∧
      ∃ log, reply = .log log ∧ (s.call c).disk.content? s.store.path = some log
  | .echo bytes, .error failure =>
    s.Unchanged c ∨ (s.Appended c bytes ∧
      (s.call c).store.readBack (s.call c).disk c.faults = .error failure)
  | .snapshot, .ok reply => reply = .log s.written ∧ s.Unchanged c
  | .snapshot, .error _ => s.Unchanged c
  | .size, answer => answer = .ok (.size s.written.length) ∧ s.Unchanged c
  | .remove, _ => False

variable {s : History} {c : Call}

theorem written_call (s : History) (c : Call) :
    (s.call c).written = s.written ++ ((s.landing c).map (·.bytes)).flatten := by
  rw [written, call, List.map_append, List.flatten_append]
  rfl

theorem rolledBack_of_call (h : (s.call c).RolledBack) : s.RolledBack :=
  fun n hn => h n (List.mem_append_left _ hn)

theorem rolledBack_of_after {calls : List Call} (h : (s.after calls).RolledBack) : s.RolledBack := by
  induction calls generalizing s with
  | nil => exact h
  | cons c calls ih => exact rolledBack_of_call (ih h)

/-! ## One call -/

/-- **The write phase of a call on an intact log appends all or changes nothing.** -/
theorem Intact.write (h : s.Intact) {bytes : Bytes} (hb : c.request.bytes? = some bytes)
    (hroll : (s.call c).RolledBack) :
    ((s.writeOutcome c bytes).answer = .ok .done ∧ s.Appended c bytes) ∨
      (∃ failure, (s.writeOutcome c bytes).answer = .error failure) ∧ s.Unchanged c := by
  have hend : AppendEnd s.store bytes s.written (s.writeOutcome c bytes) :=
    Store.perform_append s.store s.disk c.faults bytes h.file
  have hcall := s.call_write c hb
  have hwritten := s.written_call c
  rw [landing, hb] at hwritten
  generalize hw : s.writeOutcome c bytes = o at hend hcall hwritten ⊢
  simp only [hw] at hwritten
  cases hend with
  | committed hfile =>
      refine .inl ⟨rfl, ?_, ?_, ?_⟩
      · rw [hcall]
        exact hfile
      · rw [hcall]
      · simpa [Except.toBool] using hwritten
  | refused hfile =>
      refine .inr ⟨⟨_, rfl⟩, ?_, ?_, ?_⟩
      · rw [hcall, h.file]
        exact hfile
      · rw [hcall]
      · simpa [Except.toBool] using hwritten
  | cutBack n hfile =>
      refine .inr ⟨⟨_, rfl⟩, ?_, ?_, ?_⟩
      · rw [hcall, h.file]
        rw [h.counter, resized_length_append] at hfile
        exact hfile
      · rw [hcall]
      · simpa [Except.toBool] using hwritten
  | notCutBack n hfile =>
      rw [hcall] at hroll
      cases hroll _ (List.mem_append_right _ (List.mem_singleton.2 rfl))

theorem Unchanged.of_eq (h : s.call c = s) : s.Unchanged c :=
  ⟨by rw [h], by rw [h], by rw [h]⟩

theorem Unchanged.intact (h : s.Intact) (hc : s.Unchanged c) : (s.call c).Intact :=
  ⟨by rw [hc.store, hc.file, hc.written, h.file], by rw [hc.store, hc.written, h.counter]⟩

theorem Appended.intact {bytes : Bytes} (h : s.Intact) (hc : s.Appended c bytes) :
    (s.call c).Intact := by
  refine ⟨by rw [hc.store, hc.written]; exact hc.file, ?_⟩
  rw [hc.store, hc.written, List.length_append, ← h.counter]

/-- **One call keeps an intact log intact**, if it does not fail to roll back. -/
theorem Intact.call (h : s.Intact) (hroll : (s.call c).RolledBack) : (s.call c).Intact := by
  cases hb : c.request.bytes? with
  | none => rw [call_read s c hb]; exact h
  | some bytes =>
      rcases h.write hb hroll with ⟨-, happ⟩ | ⟨-, hun⟩
      · exact happ.intact h
      · exact hun.intact h

/-- **What the caller learns is true of the file.** -/
theorem Intact.answered (h : s.Intact) (hroll : (s.call c).RolledBack) : s.Answered c := by
  unfold Answered
  cases hr : c.request with
  | append bytes =>
      have hb : c.request.bytes? = some bytes := by rw [hr]; rfl
      have hout : s.outcome c = s.writeOutcome c bytes := by rw [outcome, hr]; rfl
      rcases h.write hb hroll with ⟨hok, happ⟩ | ⟨⟨failure, herr⟩, hun⟩
      · rw [hout, hok]
        exact ⟨rfl, happ⟩
      · rw [hout, herr]
        exact hun
  | echo bytes =>
      have hb : c.request.bytes? = some bytes := by rw [hr]; rfl
      have hout : s.outcome c = (s.writeOutcome c bytes).thenRead c.faults := by
        rw [outcome, hr]
        exact Store.perform_echo ..
      have hcall := s.call_write c hb
      rcases h.write hb hroll with ⟨hok, happ⟩ | ⟨⟨failure, herr⟩, hun⟩
      · have hread : (s.outcome c).answer = (s.call c).store.readBack (s.call c).disk c.faults := by
          rw [hout, Outcome.thenRead, hok, hcall]
        cases ha : (s.outcome c).answer with
        | error failure =>
            rw [ha] at hread
            exact .inr ⟨happ, hread.symm⟩
        | ok reply =>
            rw [ha] at hread
            obtain ⟨log, hlog, hfile⟩ := Store.content?_of_readBack hread.symm
            rw [happ.store] at hfile
            exact ⟨happ, log, hlog, hfile⟩
      · have hans : (s.outcome c).answer = .error failure := by
          rw [hout, Outcome.thenRead, herr]
          exact herr
        rw [hans]
        exact .inl hun
  | snapshot =>
      have hun : s.Unchanged c := .of_eq (s.call_read c (by rw [hr]; rfl))
      have hout : (s.outcome c).answer = s.store.readBack s.disk c.faults := by
        rw [outcome, hr, Store.perform_snapshot]
      cases ha : (s.outcome c).answer with
      | error failure => exact hun
      | ok reply =>
          rw [ha] at hout
          obtain ⟨log, hlog, hfile⟩ := Store.content?_of_readBack hout.symm
          rw [h.file] at hfile
          cases hfile
          exact ⟨hlog, hun⟩
  | size =>
      have hun : s.Unchanged c := .of_eq (s.call_read c (by rw [hr]; rfl))
      have hout : (s.outcome c).answer = .ok (.size s.store.committed) := by
        rw [outcome, hr, Store.perform_size]
      rw [hout]
      exact ⟨by rw [h.counter], hun⟩
  | remove => exact absurd hr c.stays

/-! ## Whole histories -/

theorem Intact.after {calls : List Call} (h : s.Intact) (hroll : (s.after calls).RolledBack) :
    (s.after calls).Intact := by
  induction calls generalizing s with
  | nil => exact h
  | cons c calls ih => exact ih (h.call (rolledBack_of_after hroll)) hroll

/-- A log that was just created is intact. -/
theorem intact_create {disk fresh : Disk} {path : Path} {sync : Bool} {store : Store}
    (h : Store.create disk path sync = .ok (store, fresh)) :
    Intact { store := store, disk := fresh } := by
  obtain ⟨hmade, rfl⟩ := Store.create_eq_ok_iff.1 h
  exact ⟨Disk.content?_create hmade, rfl⟩

end History

/-- **The store under faults.**  After any calls on a created log of which none fails to roll back, and
after one more, the file is the concatenation of the appends that came through their write phase, the
counter is its length, and the answer to that one more call is true of the file. -/
theorem store_intact_under_faults {disk fresh : Disk} {path : Path} {sync : Bool} {store : Store}
    (hcreate : Store.create disk path sync = .ok (store, fresh)) (calls : List Call) (c : Call)
    (hroll : ((History.after { store := store, disk := fresh } calls).call c).RolledBack) :
    let s := History.after { store := store, disk := fresh } calls
    s.Intact ∧ (s.call c).Intact ∧ s.Answered c := by
  have h := (History.intact_create hcreate).after (History.rolledBack_of_call hroll)
  exact ⟨h, h.call hroll, h.answered hroll⟩

/-- The theorem at an append that is cut back after a partial write, and an echo that is not read
back. -/
theorem store_intact_after_partial_write :
    let s := History.created.after
      [⟨.append (utf8 "one\n"), .none, nofun⟩,
        ⟨.append (utf8 "two\n"), .only .writing ⟨.noSpace, 2⟩, nofun⟩]
    let c : Call := ⟨.echo (utf8 "three\n"), .only .reading ⟨.noSpace, 0⟩, nofun⟩
    (s.call c).notices = [.cutBack .noSpace 4] ∧ (s.call c).written = utf8 "one\nthree\n" ∧
      s.Intact ∧ (s.call c).Intact ∧ s.Answered c := by
  have hcreate : Store.create {} ⟨[], "data"⟩ false =
      .ok (History.created.store, History.created.disk) := rfl
  exact ⟨by decide +kernel, by decide +kernel,
    store_intact_under_faults hcreate _ _ (by decide +kernel)⟩

end EchoLog

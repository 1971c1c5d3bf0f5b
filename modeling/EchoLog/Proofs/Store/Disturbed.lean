import EchoLog.Disk.Change
import EchoLog.Proofs.Store.Requests
/-!
# A log that others change

Other processes may do anything to the log file between two requests: delete it, write to it, cut it, put a
directory in its place.  The store does not look, so its counter and the file may come to disagree in any
way.  An append looks at neither: it goes behind whatever the file holds when it is opened, and the counter
grows by its length.

So an append that succeeds has put its bytes behind what was there, and its echo is that file
(`Store.exists_extends_of_echo`); and the counter is always the length of all appends that came through their write
phase (`History.Counted`).  Both hold whatever else fails.
-/

namespace EchoLog

/-- One thing that happens to a log while nobody holds its lock. -/
inductive Occurrence where
  | call (c : Call)
  /-- The log file is removed through the store. -/
  | remove (faults : Faults)
  /-- Other processes change the disk in some way. -/
  | outside (change : Disk → Disk)

/-- Another process changes the file of a path. -/
def Occurrence.ofChange (p : Path) (c : Change) : Occurrence :=
  .outside fun d => c.apply d p

namespace History

/-- The history after one more occurrence. -/
def meet (s : History) : Occurrence → History
  | .call c => s.call c
  | .remove faults =>
    let o := s.store.perform s.disk .remove faults
    { s with store := o.store, disk := o.disk, notices := s.notices ++ o.notices }
  | .outside change => { s with disk := change s.disk }

/-- The history after some more occurrences. -/
def through (s : History) (occurrences : List Occurrence) : History :=
  occurrences.foldl meet s

end History

/-! ## Single requests -/

/-- An append has put its bytes behind what the file held when it began, and has counted them. -/
structure Store.Extends (store : Store) (disk : Disk) (base bytes : Bytes) (o : Outcome) : Prop where
  began : disk.content? store.path = some base
  file : o.disk.content? store.path = some (base ++ bytes)
  counted : o.store = { store with committed := store.committed + bytes.length }

namespace Store

variable (store : Store) (disk : Disk) (faults : Faults)

/-- **An append fails and counts nothing, or it extends the file**, whatever that holds. -/
theorem perform_append_cases (bytes : Bytes) :
    (∃ failure, (store.perform disk (.append bytes) faults).answer = .error failure ∧
      (store.perform disk (.append bytes) faults).store = store) ∨
    (∃ base, (store.perform disk (.append bytes) faults).answer = .ok .done ∧
      store.Extends disk base bytes (store.perform disk (.append bytes) faults)) := by
  cases hfile : disk.content? store.path with
  | none =>
      obtain ⟨failure, hend⟩ := store.perform_append_missing disk faults bytes hfile
      rw [hend]
      exact .inl ⟨failure, rfl, rfl⟩
  | some base =>
      have hend := store.perform_append disk faults bytes hfile
      generalize store.perform disk (.append bytes) faults = o at hend
      cases hend with
      | committed hleft => exact .inr ⟨base, rfl, hfile, hleft, rfl⟩
      | refused | cutBack | notCutBack => exact .inl ⟨_, rfl, rfl⟩

/-- Removing the log file counts nothing. -/
theorem perform_remove_store : (store.perform disk .remove faults).store = store := by
  unfold perform Work.ofRequest
  rw [Work.run_step faults store disk rfl]
  simp only [Work.fileStep?, Option.bind_some, Work.step]
  split
  · simp only [Progress.finish, Work.run_finished]
  · split <;> simp only [Progress.finish, Work.failed, Work.run_finished]

variable {store disk faults} {bytes : Bytes} {reply : Reply}

theorem exists_extends_of_append (hok : (store.perform disk (.append bytes) faults).answer = .ok reply) :
    ∃ base, reply = .done ∧
      store.Extends disk base bytes (store.perform disk (.append bytes) faults) := by
  rcases store.perform_append_cases disk faults bytes with ⟨failure, hfails, -⟩ | ⟨base, hdone, hextends⟩
  · rw [hfails] at hok
    cases hok
  · rw [hdone] at hok
    cases hok
    exact ⟨base, rfl, hextends⟩

/-- **An echo that is returned is what the file held when the append began, and the bytes.** -/
theorem exists_extends_of_echo (hok : (store.perform disk (.echo bytes) faults).answer = .ok reply) :
    ∃ base, reply = .log (base ++ bytes) ∧
      store.Extends disk base bytes (store.perform disk (.echo bytes) faults) := by
  rw [perform_echo] at hok ⊢
  rcases store.perform_append_cases disk faults bytes with ⟨failure, hfails, -⟩ | ⟨base, hdone, hextends⟩
  · rw [Outcome.thenRead, hfails] at hok
    rw [hfails] at hok
    cases hok
  · generalize store.perform disk (.append bytes) faults = o at hok hdone hextends
    refine ⟨base, ?_, hextends.began, ?_, ?_⟩
    · rw [Outcome.thenRead, hdone] at hok
      obtain ⟨content, rfl, hcontent⟩ := content?_of_readBack hok
      have hfile := hextends.file
      rw [hextends.counted] at hcontent
      rw [hcontent] at hfile
      exact congrArg Reply.log (Option.some.inj hfile)
    · rw [Outcome.thenRead_disk]
      exact hextends.file
    · rw [Outcome.thenRead_store]
      exact hextends.counted

end Store

/-! ## Histories -/

namespace History

/-- The store is still that of its path, and its counter is the length of all appends that came through
their write phase. -/
structure Counted (path : Path) (s : History) : Prop where
  path_eq : s.store.path = path
  counter : s.store.committed = (s.landed.flatMap (·.bytes)).length

variable {path : Path} {s : History}

/-- The write phase of a call fails and counts nothing, or it extends the file. -/
theorem writeOutcome_cases (s : History) (c : Call) (bytes : Bytes) :
    (∃ failure, (s.writeOutcome c bytes).answer = .error failure ∧
      (s.writeOutcome c bytes).store = s.store) ∨
    (∃ base, (s.writeOutcome c bytes).answer = .ok .done ∧
      s.store.Extends s.disk base bytes (s.writeOutcome c bytes)) :=
  s.store.perform_append_cases s.disk c.faults bytes

theorem Counted.call (h : s.Counted path) (c : Call) : (s.call c).Counted path := by
  cases hbytes : c.request.bytes? with
  | none =>
      rw [s.call_read c hbytes]
      exact h
  | some bytes =>
      have hcall := s.call_write c hbytes
      simp only [landing, hbytes] at hcall
      rcases s.writeOutcome_cases c bytes with ⟨failure, hfails, hstore⟩ | ⟨base, hdone, hextends⟩
      · simp only [hfails, hstore, Except.toBool, Bool.false_eq_true, if_false, List.append_nil] at hcall
        rw [hcall]
        exact ⟨h.path_eq, h.counter⟩
      · have hstore := hextends.counted
        simp only [hdone, hstore, Except.toBool, if_true] at hcall
        rw [hcall]
        refine ⟨h.path_eq, ?_⟩
        rw [List.flatMap_append, List.length_append, ← h.counter, List.flatMap_singleton]

/-- **Whatever happens, the counter stays right.** -/
theorem Counted.meet (h : s.Counted path) (o : Occurrence) : (s.meet o).Counted path := by
  cases o with
  | call c => exact h.call c
  | remove faults =>
      have hstore : (s.meet (.remove faults)).store = s.store := s.store.perform_remove_store ..
      exact ⟨(congrArg Store.path hstore).trans h.path_eq,
        (congrArg Store.committed hstore).trans h.counter⟩
  | outside change => exact ⟨h.path_eq, h.counter⟩

theorem Counted.through {occurrences : List Occurrence} :
    ∀ {s : History}, s.Counted path → (s.through occurrences).Counted path := by
  induction occurrences with
  | nil =>
      intro s h
      exact h
  | cons o occurrences ih =>
      intro s h
      exact ih (h.meet o)

/-- Nothing is counted when a log has just been created. -/
theorem counted_create {disk fresh : Disk} {sync : Bool} {store : Store}
    (h : Store.create disk path sync = .ok (store, fresh)) :
    Counted path { store := store, disk := fresh } := by
  obtain ⟨-, rfl⟩ := Store.create_eq_ok_iff.1 h
  exact ⟨rfl, rfl⟩

end History

/-- **Echoes of a log that others change.**  After any requests to a created log, removals included, under
any faults and with any changes of the disk by others between them: the counter is the length of all appends
that came through their write phase; an echo that is returned is what the file held when the append began
with the bytes behind it, and that is what the file then holds and what the counter has grown by; and an
append that succeeds does the same to file and counter. -/
theorem echoes_under_outside_changes {disk fresh : Disk} {path : Path} {sync : Bool} {store : Store}
    (hcreate : Store.create disk path sync = .ok (store, fresh)) (past : List Occurrence) :
    let s := History.through { store := store, disk := fresh } past
    s.Counted path ∧
    ∀ (faults : Faults) (bytes : Bytes) (reply : Reply),
      (let o := s.store.perform s.disk (.echo bytes) faults
       o.answer = .ok reply →
         ∃ base, reply = .log (base ++ bytes) ∧ s.store.Extends s.disk base bytes o) ∧
      (let o := s.store.perform s.disk (.append bytes) faults
       o.answer = .ok reply → ∃ base, reply = .done ∧ s.store.Extends s.disk base bytes o) := by
  intro s
  refine ⟨(History.counted_create hcreate).through, ?_⟩
  intro faults bytes reply
  exact ⟨Store.exists_extends_of_echo, Store.exists_extends_of_append⟩

/-- The file is deleted, an echo fails, a directory stands in its place for a while, and another process
writes a file of its own: the next echo goes behind that, and the counter knows nothing of it. -/
theorem echoes_under_outside_changes_and_replacement :
    let path : Path := ⟨[], "data"⟩
    let past : List Occurrence :=
      [.call ⟨.append (utf8 "one\n"), .none, nofun⟩, .ofChange path .delete,
        .call ⟨.echo (utf8 "lost\n"), .none, nofun⟩, .ofChange path (.write []),
        .ofChange path .makeDirectory, .call ⟨.append [], .none, nofun⟩,
        .ofChange path .removeDirectory, .ofChange path (.write (utf8 "other\n"))]
    let s := History.created.through past
    let o := s.store.perform s.disk (.echo (utf8 "two\n"))
    s.store.committed = 4 ∧ s.Counted path ∧ o.answer = .ok (.log (utf8 "other\ntwo\n")) ∧
      ∃ base, Reply.log (utf8 "other\ntwo\n") = .log (base ++ utf8 "two\n") ∧
        s.store.Extends s.disk base (utf8 "two\n") o := by
  intro path past s o
  have hcreate : Store.create {} ⟨[], "data"⟩ false =
      .ok (History.created.store, History.created.disk) := rfl
  have hcounted : s.store.committed = 4 := by decide +kernel
  have hanswer : o.answer = .ok (.log (utf8 "other\ntwo\n")) := by decide +kernel
  obtain ⟨h, hrequests⟩ := echoes_under_outside_changes hcreate past
  exact ⟨hcounted, h, hanswer, (hrequests .none (utf8 "two\n") _).1 hanswer⟩

end EchoLog

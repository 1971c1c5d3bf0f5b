import EchoLog.Proofs.SharedLog.Balance
/-!
# The file under the lock

As long as no other process touches the file and no rollback fails, the file is the concatenation of
the commits whenever the lock is free, and the counter is its length.  While somebody holds the lock
the file may hold part of an append as well (`Holding`), in the way that its write phase allows.

Each commit is noted with the log as the disk had it right after it.  That log is the concatenation of
the commits up to it, and every log that the store gives back is one that the file once was, so it is a
prefix of the file at every later moment (`Recorded`).
-/

namespace EchoLog

/-- The bytes of commits, one after another. -/
def wholeLog (commits : List (Nat × Commit)) : Bytes :=
  (commits.map (·.2.bytes)).flatten

theorem wholeLog_append (l m : List (Nat × Commit)) :
    wholeLog (l ++ m) = wholeLog l ++ wholeLog m := by
  rw [wholeLog, List.map_append, List.flatten_append]
  rfl

theorem wholeLog_commits (i : Nat) (w w' : Work) (log : Bytes) :
    wholeLog ((w.commits w' log).map (i, ·)) = (w.landing w').flatten := by
  rw [wholeLog, List.map_map, ← Work.bytes_commits w w' log]
  rfl

/-! ## One file step -/

/-- What the file holds, by what the holder of the lock does next; `base` is what was committed. -/
inductive Holding (path : Path) (disk : Disk) (base : Bytes) : Option (Nat × Work) → Prop where
  | free : disk.content? path = some base → Holding path disk base none
  | writing {i : Nat} {w : Work} {bytes : Bytes} {echo : Bool} :
      WritePhase path disk bytes echo base w → Holding path disk base (some (i, w))
  | reading {i : Nat} : disk.content? path = some base → Holding path disk base (some (i, .reading))
  | finished {i : Nat} {answer : Answer} : disk.content? path = some base →
      (∀ log, answer = .ok (.log log) → log = base) →
      Holding path disk base (some (i, .finished answer))

/-- **A file step whose rollback does not fail keeps the file and the counter in step**: `base` grows by
the bytes that are committed. -/
theorem Holding.step {store : Store} {disk : Disk} {base : Bytes} {i : Nat} {w : Work}
    {fault : Option Fault} (h : Holding store.path disk base (some (i, w)))
    (hmore : w.answer? = none) (hcounter : store.committed = base.length)
    (hroll : (w.step fault store disk).notices.all (!·.isFailedRollback) = true) :
    let p := w.step fault store disk
    let after := base ++ (w.landing p.work).flatten
    Holding store.path p.disk after (some (i, p.work)) ∧
      p.store = { store with committed := after.length } := by
  have hstore : store = { store with committed := base.length } := by rw [← hcounter]
  have hcourse := Work.step_course fault store disk hmore
  intro p after
  have hnone : p.work.isPast = false → after = base := by
    intro hpast
    simp only [after, Work.landing_of_not_isPast hpast, List.flatten_nil, List.append_nil]
  cases h with
  | @writing _ _ bytes echo hphase =>
      rcases hphase.step fault with ⟨hsame, -, hgoes⟩ | hend
      · rw [hnone hgoes.isPast_eq_false]
        exact ⟨.writing hgoes, hsame.trans hstore⟩
      · -- the phase is over: `p` is one of its four ends, and three of them commit nothing
        replace hend : WriteEnd store bytes echo base p := hend
        replace hcourse : p.work.isFailing = true ∨ (p.work.isPast = true ∧ w.isFailing = false) ∨
          ∃ b, w.bytes? = some b ∧ p.work.bytes? = some b := hcourse
        replace hroll : p.notices.all (!·.isFailedRollback) = true := hroll
        clear_value p
        cases hend with
        | @committed disk' hfile =>
            have hpast : (Work.commit store disk' bytes echo).work.isPast = true := by
              cases echo <;> rfl
            have hok : w.isFailing = false := by
              rcases hcourse with hfail | ⟨-, hok⟩ | ⟨b, -, hb⟩
              · cases echo <;> cases hfail
              · exact hok
              · cases echo <;> cases hb
            have hbytes : w.bytes? = some bytes :=
              hphase.bytes?_or_isFailing.resolve_right (by rw [hok]; simp)
            have hafter : after = base ++ bytes := by
              simp only [after, Work.landing_of_isPast hpast, hbytes, Option.toList_some,
                List.flatten_singleton]
            rw [hafter]
            refine ⟨?_, by rw [Work.commit, hcounter, List.length_append]⟩
            cases echo with
            | true => exact .reading hfile
            | false => exact .finished hfile (by simp)
        | refused hfile =>
            rw [hnone rfl]
            exact ⟨.finished hfile (by simp), hstore⟩
        | cutBack n hfile =>
            rw [hcounter, resized_length_append] at hfile
            rw [hnone rfl]
            exact ⟨.finished hfile (by simp), hstore⟩
        | notCutBack n hfile => cases hroll
  | reading hfile =>
      have hafter : after = base := by
        have hlanding : Work.reading.landing p.work = [] := by
          cases hp : p.work.isPast with
          | true => exact Work.landing_of_isPast hp
          | false => exact Work.landing_of_not_isPast hp
        simp only [after, hlanding, List.flatten_nil, List.append_nil]
      rw [hafter]
      simp only [p, Work.step]
      split
      · exact ⟨.finished hfile (by simp), hstore⟩
      · split
        · exact ⟨.finished hfile (by simp), hstore⟩
        · rename_i content hread
          refine ⟨.finished hfile ?_, hstore⟩
          rintro log ⟨⟩
          exact Option.some.inj ((Disk.content?_of_read hread).symm.trans hfile)
  | finished => cases hmore

/-- The first step of a request that does not remove the log. -/
theorem Holding.ofRequest {store : Store} {disk : Disk} {base : Bytes} {r : Request}
    (h : disk.content? store.path = some base) (hr : r ≠ .remove) (i : Nat) :
    Holding store.path disk base (some (i, .ofRequest store r)) := by
  cases r with
  | echo bytes => exact .writing (.opening h)
  | append bytes => exact .writing (.opening h)
  | snapshot => exact .reading h
  | remove => exact absurd rfl hr
  | size => exact .finished h (by simp)

theorem Holding.content? {path : Path} {disk : Disk} {base : Bytes} {i : Nat} {w : Work}
    (h : Holding path disk base (some (i, w))) (hpast : w.isPast = true) :
    disk.content? path = some base := by
  cases h with
  | writing hphase =>
      rw [hphase.isPast_eq_false] at hpast
      cases hpast
  | reading h => exact h
  | finished h => exact h

/-- At every moment the file begins with what was committed. -/
theorem Holding.exists_rest {path : Path} {disk : Disk} {base : Bytes} {holder : Option (Nat × Work)}
    (h : Holding path disk base holder) : ∃ rest, disk.content? path = some (base ++ rest) := by
  cases h with
  | free h => exact ⟨[], by rw [h, List.append_nil]⟩
  | writing hphase => exact hphase.exists_rest
  | reading h => exact ⟨[], by rw [h, List.append_nil]⟩
  | finished h _ => exact ⟨[], by rw [h, List.append_nil]⟩

/-! ## Commits with their logs -/

/-- Each commit has the log up to it. -/
def Told (commits : List (Nat × Commit)) : Prop :=
  ∀ k m, commits[k]? = some m → m.2.log = wholeLog (commits.take (k + 1))

theorem Told.append {commits new : List (Nat × Commit)} (h : Told commits)
    (hnew : new = [] ∨ ∃ m, new = [m] ∧ m.2.log = wholeLog (commits ++ [m])) :
    Told (commits ++ new) := by
  rcases hnew with rfl | ⟨m, rfl, hlog⟩
  · rwa [List.append_nil]
  · intro k n hk
    rcases Nat.lt_or_ge k commits.length with hlt | hge
    · rw [List.getElem?_append_left hlt] at hk
      rw [List.take_append_of_le_length hlt]
      exact h k n hk
    · have hlast : k = commits.length := by
        have := (List.getElem?_eq_some_iff.1 hk).1
        rw [List.length_append, List.length_singleton] at this
        omega
      subst hlast
      rw [List.getElem?_append_right (Nat.le_refl _), Nat.sub_self] at hk
      cases hk
      rw [List.take_of_length_le (by rw [List.length_append, List.length_singleton])]
      exact hlog

/-- The log as it stood right before a commit. -/
def Commit.before (m : Commit) : Bytes :=
  m.log.take (m.log.length - m.bytes.length)

theorem Told.before_append {commits : List (Nat × Commit)} (h : Told commits) {m : Nat × Commit}
    (hm : m ∈ commits) : m.2.before ++ m.2.bytes = m.2.log := by
  obtain ⟨n, hn⟩ := List.mem_iff_getElem?.1 hm
  have hlog : m.2.log = wholeLog (commits.take n) ++ m.2.bytes := by
    rw [h n m hn, List.take_add_one, hn, wholeLog_append]
    simp only [wholeLog, Option.toList_some, List.map_singleton, List.flatten_singleton]
  rw [Commit.before, hlog, List.length_append, Nat.add_sub_cancel, List.take_left]

/-- The log of the last commit is made of all commits. -/
theorem Told.log_of_last {commits : List (Nat × Commit)} (h : Told commits) {earlier : List Commit}
    {m : Commit} (hlast : commits.map (·.2) = earlier ++ [m]) :
    m.log = ((earlier ++ [m]).map (·.bytes)).flatten := by
  have hlength : commits.length = earlier.length + 1 := by
    rw [← List.length_map (·.2), hlast, List.length_append, List.length_singleton]
  have hindex : (commits.map (·.2))[earlier.length]? = some m := by
    rw [hlast, List.getElem?_concat_length]
  rw [List.getElem?_map] at hindex
  obtain ⟨⟨k, m'⟩, hm, rfl⟩ := Option.map_eq_some_iff.1 hindex
  rw [h _ _ hm, List.take_of_length_le (Nat.le_of_eq hlength), wholeLog, ← hlast, List.map_map]
  rfl

/-! ## Runs -/

namespace SharedLog

variable {g g' : SharedLog} {c : Chronicle} {e : Event}

/-- What is known of the file, the counter and the logs that were noted. -/
structure Recorded (g : SharedLog) (c : Chronicle) : Prop where
  file : Holding g.store.path g.disk (wholeLog c.commits) g.holder
  counter : g.store.committed = (wholeLog c.commits).length
  told : Told c.commits
  returned : ∀ r ∈ c.returned, r.2 <+: wholeLog c.commits

/-- Nobody asks to remove the log. -/
theorem Accounts.request?_ne_remove (h : g.Accounts c) (i : Nat) : g.request? i ≠ some .remove := by
  intro hr
  obtain ⟨d, ht, hremove, -⟩ := caller_of_remove hr
  rcases (h.task i _ ht).1 with e | e <;> cases e.symm.trans hremove

theorem Recorded.of_eq {c' : Chronicle} (h : g.Recorded c) (hdisk : g'.disk = g.disk)
    (hstore : g'.store = g.store) (hholder : g'.holder = g.holder) (hcommits : c'.commits = c.commits)
    (hreturned : c'.returned = c.returned) : g'.Recorded c' := by
  refine ⟨?_, ?_, ?_, ?_⟩
  · rw [hdisk, hstore, hholder, hcommits]
    exact h.file
  · rw [hstore, hcommits]
    exact h.counter
  · rw [hcommits]
    exact h.told
  · rw [hcommits, hreturned]
    exact h.returned

/-- **Every move but a change from outside and a failed rollback keeps the record**, as long as nobody
asks to remove the log. -/
theorem Recorded.move (h : g.Recorded c) (hq : g.Queue) (hkept : ∀ i, g.request? i ≠ some .remove)
    (hkind : g.isUndisturbed e = true) (hm : Move g e g') : g'.Recorded (c.note g e g') := by
  cases hm with
  | own more ht hown =>
      rw [Chronicle.note_own hown (task?_report_self ht more)]
      exact h.of_eq rfl rfl rfl rfl rfl
  | ask hr hqueued => exact h.of_eq rfl rfl rfl rfl rfl
  | @grant i r rest hnone hw =>
      have hfile := h.file
      rw [hnone] at hfile
      cases hfile with
      | free hfile =>
        have hr := hq.waiting (i, r) (by rw [hw]; exact List.mem_cons_self)
        have hne : r ≠ .remove := by
          rintro rfl
          exact hkept i hr
        exact ⟨.ofRequest hfile hne i, h.counter, h.told, h.returned⟩
  | @file i w fault hw hmore =>
      have hfile := h.file
      rw [hw] at hfile
      simp only [isUndisturbed, hw, Option.all_some] at hkind
      obtain ⟨hfile', hstore'⟩ := hfile.step hmore h.counter hkind
      generalize w.step fault g.store g.disk = p at hfile' hstore'
      have hcommits : (c.note g (.file fault) { g with
          holder := some (i, p.work), store := p.store, disk := p.disk,
          notices := g.notices ++ p.notices }).commits =
          c.commits ++ (w.commits p.work ((p.disk.content? p.store.path).getD [])).map (i, ·) := by
        simp only [Chronicle.note, hw, committed, SharedLog.content]
      have hlog : wholeLog (c.commits ++
          (w.commits p.work ((p.disk.content? p.store.path).getD [])).map (i, ·)) =
          wholeLog c.commits ++ (w.landing p.work).flatten := by
        rw [wholeLog_append, wholeLog_commits]
      have hpath : p.store.path = g.store.path := by rw [hstore']
      refine ⟨?_, ?_, ?_, ?_⟩
      · rw [hcommits, hlog]
        simp only [hpath]
        exact hfile'
      · rw [hcommits, hlog]
        simp only [hstore']
      · rw [hcommits]
        refine h.told.append ?_
        rcases w.commits_cases p.work ((p.disk.content? p.store.path).getD []) with
          hnone | ⟨hpast, bytes, -, hone⟩
        · rw [hnone]
          exact .inl rfl
        · rw [hone] at hlog ⊢
          refine .inr ⟨_, rfl, ?_⟩
          rw [List.map_singleton] at hlog
          rw [hlog, hpath, hfile'.content? hpast]
          rfl
      · rw [hcommits, hlog]
        intro r hr
        exact (h.returned r hr).trans (List.prefix_append ..)
  | @release i answer t hw ht =>
      have hfile := h.file
      rw [hw] at hfile
      cases hfile with
      | writing hphase => cases hphase
      | finished hfile hans =>
          refine ⟨.free hfile, h.counter, h.told, ?_⟩
          intro r hr
          rcases List.mem_append.1 hr with hr | hr
          · exact h.returned r hr
          · have hlog := holder_of_mem_reply hr
            rw [hw] at hlog
            cases hlog
            exact hans r.2 rfl ▸ List.prefix_refl _
  | fire hi => exact h.of_eq rfl rfl rfl rfl rfl
  | outside change => cases hkind

end SharedLog

end EchoLog

import EchoLog.Proofs.SharedLog.Cancellation
import EchoLog.Proofs.SharedLog.Removal
import EchoLog.Proofs.SharedLog.Whereabouts
/-!
# A log file that is missing

The log file may go at any moment: a caller has it removed, or another process takes it away, alone or
with its directory.  From then on sessions, the timestamp writer and callers go on as before, but nothing
that they do brings the file back (`Vacant.move`).  What needs the file is refused: an append or a reading
that starts finds nothing to open and changes nothing, and even an append with an echo that was under way
fails when the log is read back (`Work.Doomed`).  The task that asked for it gets the refusal, which ends a
session, and has nothing to do with its peer until then (`Bereft.move`).
-/

namespace EchoLog

open Disk

namespace Work

variable {w : Work} {store : Store} {disk : Disk}

/-- Work that can no longer get anything but a refusal when no file is found. -/
def Doomed : Work → Prop
  | opening _ _ => True
  | writing _ _ echo => echo = true
  | flushing _ _ echo => echo = true
  | syncing _ _ echo => echo = true
  | cutting _ _ => True
  | reading => True
  | unlinking => False
  | finished answer => ∃ cause, answer = .error (.storage cause)

/-- **Where no file is found, doomed work is refused.** -/
theorem Doomed.step (h : w.Doomed) (fault : Option Fault) {cause : IoError}
    (hcause : disk.findFile store.path = .error cause) : (w.step fault store disk).work.Doomed := by
  cases w with
  | opening bytes echo =>
      simp only [Work.step, Disk.openToAppend, hcause]
      split <;> exact ⟨_, rfl⟩
  | writing file bytes echo =>
      simp only [Work.step]
      split
      · trivial
      · split
        · trivial
        · exact h
  | flushing file bytes echo =>
      simp only [Work.step]
      split
      · trivial
      · split
        · exact h
        · exact h ▸ trivial
  | syncing file bytes echo =>
      simp only [Work.step]
      split
      · trivial
      · exact h ▸ trivial
  | cutting file cause =>
      simp only [Work.step]
      split
      · exact ⟨_, rfl⟩
      · split <;> exact ⟨_, rfl⟩
  | reading =>
      simp only [Work.step, Disk.read, hcause]
      split <;> exact ⟨_, rfl⟩
  | unlinking => cases h
  | finished answer => exact h

theorem Doomed.withHandle (h : w.Doomed) (f : Handle → Handle) : (w.withHandle f).Doomed := by
  cases w <;> exact h

/-- Whoever starts, or reads the log back, is refused at once. -/
theorem step_of_starting (hw : (∃ bytes echo, w = opening bytes echo) ∨ w = reading)
    (fault : Option Fault) {cause : IoError} (hcause : disk.findFile store.path = .error cause) :
    ∃ cause, w.step fault store disk = ⟨failed cause, store, disk, []⟩ := by
  rcases hw with ⟨bytes, echo, rfl⟩ | rfl
  · simp only [Work.step, Disk.openToAppend, hcause]
    split <;> exact ⟨_, rfl⟩
  · simp only [Work.step, Disk.read, hcause]
    split <;> exact ⟨_, rfl⟩

/-- A removal that finds nothing is granted at once. -/
theorem step_of_removal (hmissing : disk.isMissing store.path = true) {fault : Option Fault}
    (hfault : fault.all (fun f => f.error.kind = .notFound) = true) :
    unlinking.step fault store disk = ⟨.finished (.ok .done), store, disk, []⟩ := by
  obtain ⟨cause, hcause, hkind⟩ := Disk.findFile_of_isMissing hmissing
  cases fault with
  | some f => simp only [Work.step, if_pos (of_decide_eq_true hfault)]
  | none =>
      have hunlink : disk.unlink store.path = .error cause := by
        rw [Disk.unlink, hcause]
        rfl
      simp only [Work.step, hunlink, if_pos hkind]

end Work

/-- Whether the store cannot do what is asked without the file. -/
def Request.needsFile : Request → Bool
  | .echo _ => true
  | .append _ => true
  | .snapshot => true
  | _ => false

theorem Work.doomed_ofRequest (store : Store) {r : Request} (h : r.needsFile = true) :
    (ofRequest store r).Doomed := by
  cases r with
  | remove => cases h
  | size => cases h
  | _ => trivial

namespace SharedLog

variable {g g' : SharedLog} {e : Event} {i : Nat} {t : Task} {r : Request}

/-! ## Tasks that need the file -/

/-- A task that needs the file is still waiting for the store, or the store has refused it. -/
inductive Bereft (i : Nat) (t : Task) (g : SharedLog) : Prop where
  | waiting : g.task? i = some t → (∀ w, g.holder = some (i, w) → w.Doomed) → Bereft i t g
  | refused (cause : IoError) : g.task? i = some (t.answered (.error (.storage cause))) →
      Bereft i t g

/-- A task that does nothing by itself has nothing to do with its peer. -/
theorem Move.isContact_of_still (hm : Move g e g') (ht : g.task? i = some t)
    (hstill : ∀ cancelled e t', ¬ Task.Own i cancelled e t t') : e.isContact i = false := by
  cases hm with
  | @own j _ u u' more hu hown =>
      have hji : j ≠ i := by
        rintro rfl
        cases ht.symm.trans hu
        exact hstill _ _ _ hown
      refine isContact_of_place? ?_
      rw [hown.place?]
      exact fun hj => hji (Option.some.inj hj)
  | _ => rfl

/-- **While the file is missing, a task that needs it gets nothing but a refusal**, and has nothing to do
with its peer. -/
theorem Bereft.move (h : Bereft i t g) (hr : t.request? = some r) (hneeds : r.needsFile = true)
    (hhoused : g.Housed) (hlacks : g.disk.Lacks g.store.path) (hm : Move g e g') :
    Bereft i t g' ∧ e.isContact i = false := by
  cases h with
  | refused cause ht =>
      have hrests := rests_of_refused t (.storage cause)
      exact ⟨.refused cause (hm.task?_of_rests hhoused.queue ht hrests),
        hm.isContact_of_still ht (hrests.own i)⟩
  | waiting ht hdoomed =>
      have hrequest : g.request? i = some r := by rw [request?, ht]; exact hr
      obtain ⟨cause, hcause⟩ : ∃ cause, g.disk.findFile g.store.path = .error cause := by
        rcases hhoused.sited.findFile with ⟨node, -, hnode, hfile⟩ | ⟨-, hfound | hfound⟩
        · exact absurd (hlacks node hnode) hfile
        · exact ⟨_, hfound⟩
        · exact ⟨_, hfound⟩
      refine ⟨?_, hm.isContact_of_still ht ?_⟩
      · cases hm with
        | own more hu hown =>
            exact .waiting ((task?_setTask_other (ne_of_own hu hown hrequest)).trans ht) hdoomed
        | ask _ _ => exact .waiting ht hdoomed
        | @grant j r' rest _ hw =>
            refine .waiting ht ?_
            rintro w ⟨⟩
            cases hrequest.symm.trans (hhoused.queue.waiting (i, r') (hw ▸ List.mem_cons_self))
            exact Work.doomed_ofRequest _ hneeds
        | @file j w fault hw _ =>
            refine .waiting ht ?_
            rintro w' ⟨⟩
            exact (hdoomed w hw).step fault hcause
        | @release j answer u hw hu =>
            by_cases hji : j = i
            · subst hji
              obtain ⟨cause, rfl⟩ := hdoomed _ hw
              cases ht.symm.trans hu
              exact .refused cause (task?_setTask_self ht)
            · exact .waiting ((task?_setTask_other (Ne.symm hji)).trans ht) (by simp)
        | fire _ => exact .waiting ((task?_fire g _ i).trans ht) hdoomed
        | outside c =>
            refine .waiting ht ?_
            intro w hw
            obtain ⟨v, hv, rfl⟩ := holder_changed hw
            exact (hdoomed v hv).withHandle _
      · intro cancelled e' t' hown
        cases hr.symm.trans hown.request?_eq_none

/-! ## Runs on a missing file -/

/-- Nobody has the log file open. -/
def Closed (g : SharedLog) : Prop :=
  ∀ i w, g.holder = some (i, w) → w.isOpen = false

/-- The place of the log can be told, and no file stands there. -/
structure Vacant (g : SharedLog) : Prop where
  housed : g.Housed
  lacks : g.disk.Lacks g.store.path

theorem Vacant.findFile (h : g.Vacant) : ∃ cause, g.disk.findFile g.store.path = .error cause ∧
    (cause = .missingEntry ∨ cause = .isDirectory) := by
  rcases h.housed.sited.findFile with ⟨node, -, hnode, hfile⟩ | ⟨-, hfound | hfound⟩
  · exact absurd (h.lacks node hnode) hfile
  · exact ⟨_, hfound, .inl rfl⟩
  · exact ⟨_, hfound, .inr rfl⟩

/-- **Nobody who shares the log brings its file back.** -/
theorem Vacant.move (h : g.Vacant) (hnobody : e.bringsFile = false) (hm : Move g e g') : g'.Vacant := by
  obtain ⟨hhoused, hpath, -, hplace⟩ := h.housed.move hm
  rw [hnobody] at hplace
  refine ⟨hhoused, ?_⟩
  rw [hpath]
  exact hplace.lacks h.lacks

/-- Nothing is counted, and nobody opens the file. -/
theorem Vacant.store_move (h : g.Vacant) (hclosed : g.Closed) (hm : Move g e g') :
    g'.Closed ∧ g'.store = g.store := by
  cases hm with
  | own _ _ _ => exact ⟨hclosed, rfl⟩
  | ask _ _ => exact ⟨hclosed, rfl⟩
  | @grant i r rest _ _ =>
      refine ⟨?_, rfl⟩
      rintro j w ⟨⟩
      cases r <;> rfl
  | @file i w fault hw _ =>
      obtain ⟨cause, hcause, -⟩ := h.findFile
      obtain ⟨-, hstore, hopen⟩ := Work.step_of_unfound fault hcause (hclosed i w hw)
      refine ⟨?_, hstore⟩
      rintro j w' ⟨⟩
      exact hopen
  | release _ _ => exact ⟨by simp [Closed], rfl⟩
  | fire _ => exact ⟨hclosed, rfl⟩
  | outside c =>
      refine ⟨?_, rfl⟩
      intro j w hw
      obtain ⟨v, hv, rfl⟩ := holder_changed hw
      have hopen := hclosed j v hv
      cases v <;> exact hopen

theorem Vacant.run (h : g.Vacant) {es : List Event} (hnobody : ∀ e ∈ es, e.bringsFile = false)
    (hrun : g.run? es = some g') : g'.Vacant :=
  run_while (fun h hnobody hm => h.move hnobody hm) h hnobody hrun

theorem Vacant.store_run (h : g.Vacant) (hclosed : g.Closed) {es : List Event}
    (hnobody : ∀ e ∈ es, e.bringsFile = false) (hrun : g.run? es = some g') : g'.store = g.store := by
  have hkept : g'.Vacant ∧ g'.Closed ∧ g'.store = g.store := by
    refine run_while (P := fun k => k.Vacant ∧ k.Closed ∧ k.store = g.store) ?_ ⟨h, hclosed, rfl⟩
      hnobody hrun
    rintro k k' e ⟨hvacant, hclosed, hstore⟩ hnobody hm
    obtain ⟨hclosed', hsame⟩ := hvacant.store_move hclosed hm
    exact ⟨hvacant.move hnobody hm, hclosed', hsame.trans hstore⟩
  exact hkept.2.2

theorem Bereft.run (h : Bereft i t g) (hr : t.request? = some r) (hneeds : r.needsFile = true)
    (hvacant : g.Vacant) {es : List Event} (hnobody : ∀ e ∈ es, e.bringsFile = false)
    (hrun : g.run? es = some g') : Bereft i t g' ∧ ∀ e ∈ es, e.isContact i = false := by
  induction es generalizing g with
  | nil =>
      cases hrun
      exact ⟨h, by simp⟩
  | cons e es ih =>
      obtain ⟨g₁, he, hrest⟩ := Option.bind_eq_some_iff.1 hrun
      obtain ⟨hfirst, hnobody⟩ := List.forall_mem_cons.1 hnobody
      have hm := move_of_step? he
      obtain ⟨hstill, hsilent⟩ := h.move hr hneeds hvacant.housed hvacant.lacks hm
      obtain ⟨hend, hsilent'⟩ := ih hstill (hvacant.move hfirst hm) hnobody hrest
      exact ⟨hend, List.forall_mem_cons.2 ⟨hsilent, hsilent'⟩⟩

/-- Where no other process has put a directory in the place of the file, none stands there. -/
theorem Housed.ne_directory (h : g.Housed) (hplace : g.disk.node? g.store.path.place ≠ some .directory)
    {es : List Event} (hfolds : ∀ e ∈ es, e.folds = false) (hrun : g.run? es = some g') :
    g'.disk.node? g'.store.path.place ≠ some .directory := by
  have hkept : g'.Housed ∧ g'.disk.node? g'.store.path.place ≠ some .directory := by
    refine run_while (P := fun k => k.Housed ∧ k.disk.node? k.store.path.place ≠ some .directory) ?_
      ⟨h, hplace⟩ hfolds hrun
    rintro k k' e ⟨hhoused, hplace⟩ hfolds hm
    obtain ⟨hhoused', hpath, -, halters⟩ := hhoused.move hm
    rw [hfolds] at halters
    exact ⟨hhoused', hpath ▸ halters.ne_directory hplace⟩
  exact hkept.2

/-- Nothing stands at the place, so nothing is found. -/
theorem Vacant.isMissing (h : g.Vacant) (hplace : g.disk.node? g.store.path.place ≠ some .directory) :
    g.disk.isMissing g.store.path = true := by
  rcases h.housed.sited.find with ⟨node, -, hnode, -⟩ | ⟨hfind, -⟩
  · rw [h.lacks node hnode] at hnode
    exact absurd hnode hplace
  · have hfound : g.disk.findFile g.store.path = .error .missingEntry := by
      simp only [Disk.findFile, hfind]
    rw [Disk.isMissing, hfound]
    rfl

/-! ## Everything together -/

/-- The log file is missing, and what that means for whoever gets to it. -/
structure IsMissing (g : SharedLog) : Prop where
  noFile : g.disk.content? g.store.path = none
  /-- Nothing is found, or a directory that another process has put there. -/
  found : g.disk.isMissing g.store.path = true ∨ g.disk.findFile g.store.path = .error .isDirectory
  /-- Whoever opens the file, or reads it, is refused at once, and nothing else changes. -/
  refusal : ∀ i w fault, g.holder = some (i, w) → (∃ bytes echo, w = .opening bytes echo) ∨ w = .reading →
    ∃ cause, g.step? (.file fault) = some { g with holder := some (i, .failed cause) }
  /-- A removal is granted at once if nothing is found, and nothing else changes. -/
  removal : ∀ i fault, g.holder = some (i, .unlinking) → g.disk.isMissing g.store.path = true →
    fault.all (fun f => f.error.kind = .notFound) = true →
    g.step? (.file fault) = some { g with holder := some (i, .finished (.ok .done)) }

theorem Vacant.isMissing_all (h : g.Vacant) : g.IsMissing := by
  obtain ⟨cause, hcause, hwhich⟩ := h.findFile
  refine ⟨h.housed.sited.content?_eq_none_iff.2 h.lacks, ?_, ?_, ?_⟩
  · rcases hwhich with rfl | rfl
    · left
      rw [Disk.isMissing, hcause]
      rfl
    · exact .inr hcause
  · intro i w fault hw hstarting
    obtain ⟨refusal, hstep⟩ := Work.step_of_starting hstarting fault hcause
    have hmore : w.answer? = none := by
      rcases hstarting with ⟨bytes, echo, rfl⟩ | rfl <;> rfl
    refine ⟨refusal, ?_⟩
    simp only [step?, hw, hmore, hstep, List.append_nil]
  · intro i fault hw hmissing hfault
    simp only [step?, hw, Work.answer?, Work.step_of_removal hmissing hfault, List.append_nil]

/-- A task that needs the file is pursued to a refusal: it does not stop waiting before, a session ends
with the refusal, and meanwhile it has nothing to do with its peer. -/
structure Refuses (i : Nat) (t : Task) (g : SharedLog) (es : List Event) (g' : SharedLog) : Prop where
  pursued : Pursues i g es g'
  refused : g'.task? i = some t ∨
    ∃ cause, g'.task? i = some (t.answered (.error (.storage cause)))
  ended : ∀ s s', t = .session s → g'.session? i = some s' →
    s' = s ∨ ∃ cause, s'.result? = some (.error (.storage cause))
  silent : ∀ e ∈ es, e.isContact i = false

theorem Vacant.refuses (h : g.Vacant) (ht : g.task? i = some t) (hr : t.request? = some r)
    (hneeds : r.needsFile = true) (hdoomed : ∀ w, g.holder = some (i, w) → w.Doomed)
    {es : List Event} (hnobody : ∀ e ∈ es, e.bringsFile = false) (hrun : g.run? es = some g') :
    Refuses i t g es g' := by
  have hrequest : g.request? i = some r := by rw [request?, ht]; exact hr
  obtain ⟨hend, hsilent⟩ := Bereft.run (.waiting ht hdoomed) hr hneeds h hnobody hrun
  refine ⟨pursues_of_run h.housed.queue hrequest hrun, ?_, ?_, hsilent⟩
  · cases hend with
    | waiting ht' _ => exact .inl ht'
    | refused cause ht' => exact .inr ⟨cause, ht'⟩
  · rintro s s' rfl hs'
    rw [session?_eq_some] at hs'
    cases hend with
    | waiting ht' _ =>
        cases hs'.symm.trans ht'
        exact .inl rfl
    | refused cause ht' =>
        cases hs'.symm.trans ht'
        exact .inr ⟨cause, rfl⟩

end SharedLog

open SharedLog

/-- **The store never brings its file back.** -/
theorem missing_file_stays_missing {disk fresh : Disk} {path : Path} {sync : Bool} {store : Store}
    (hcreate : Store.create disk path sync = .ok (store, fresh)) {seats : List Seat}
    {before es es' : List Event} {h g g' : SharedLog}
    (hbefore : run? { disk := fresh, store := store, seats := seats } before = some h)
    (hmissing : h.disk.content? h.store.path = none) (hrun : h.run? es = some g)
    (hrun' : g.run? es' = some g') (hnobody : ∀ e ∈ es ++ es', e.bringsFile = false) :
    g.IsMissing ∧
      ((∀ e ∈ before ++ es, e.folds = false) → g.disk.isMissing g.store.path = true) ∧
      (g.Closed → g'.store = g.store) ∧
      ∀ i t r, g.task? i = some t → t.request? = some r → r.needsFile = true →
        (∀ w, g.holder = some (i, w) → w.Doomed) → Refuses i t g es' g' := by
  obtain ⟨hstart, hfile⟩ := housed_start hcreate seats
  have hhoused : h.Housed := run_states (fun h hm => (h.move hm).1) hstart hbefore
  have hvacant : h.Vacant := ⟨hhoused, hhoused.sited.content?_eq_none_iff.1 hmissing⟩
  obtain ⟨hnobody, hnobody'⟩ := List.forall_mem_append.1 hnobody
  have hlater : g.Vacant := hvacant.run hnobody hrun
  refine ⟨hlater.isMissing_all, ?_, ?_, ?_⟩
  · intro hfolds
    obtain ⟨hfolds, hfolds'⟩ := List.forall_mem_append.1 hfolds
    exact hlater.isMissing
      (hhoused.ne_directory (hstart.ne_directory hfile hfolds hbefore) hfolds' hrun)
  · exact fun hclosed => hlater.store_run hclosed hnobody' hrun'
  · exact fun i t r ht hr hneeds hdoomed => hlater.refuses ht hr hneeds hdoomed hnobody' hrun'

/-- Two sessions, a timestamp writer and two callers on a log in a directory of its own. -/
def SharedLog.household : SharedLog where
  disk := { nodes := [(["dir", "data"], .file []), (["dir"], .directory)] }
  store := { path := ⟨[], "dir/data"⟩ }
  seats :=
    [⟨.session (.start (.quad 127 0 0 1 1) {}), false⟩, ⟨.session (.start (.quad 127 0 0 1 2) {}), false⟩,
      ⟨.writer (.start 0 0 5 "%%"), false⟩, ⟨.caller ⟨.remove, none⟩, false⟩,
      ⟨.caller ⟨.remove, none⟩, false⟩]

/-- The first session has a packet stored, and then the first caller has the log removed. -/
def SharedLog.clearance : List Event :=
  [.receive 0 (.ok (utf8 "a\n")), .frame 0, .ask 0, .grant, .file none, .file none, .file none, .file none,
    .release, .ask 3, .grant, .file none]

/-- The directory goes and comes back, the second session has a packet, and the second caller has its turn
to remove the log. -/
def SharedLog.ruins : List Event :=
  [.release, .outside .deleteParent, .receive 1 (.ok (utf8 "cc\n")), .frame 1, .outside .makeParent, .ask 4,
    .grant]

/-- The second caller, the timestamp writer and the second session have their turns. -/
def SharedLog.aftermath : List Event :=
  [.file none, .tick 2 5 ⟨⟨0, 0⟩, .utc⟩, .ask 2, .ask 1, .release, .grant, .file none, .release, .grant,
    .file none, .release]

/-- The theorem at a removal, for the second session. -/
theorem ruins_stay_ruins : ∃ h g g', household.run? clearance = some h ∧ h.run? ruins = some g ∧
    g.run? aftermath = some g' ∧ g.IsMissing ∧ g.disk.isMissing g.store.path = true ∧
    g'.store = g.store ∧ g.store.committed = 2 ∧
    (∃ s, g.session? 1 = some s ∧ Refuses 1 (.session s) g aftermath g') ∧
    ∃ s' cause, g'.session? 1 = some s' ∧ s'.result? = some (.error (.storage cause)) := by
  have hcreate : Store.create { nodes := [(["dir"], .directory)] } ⟨[], "dir/data"⟩ false =
      .ok (household.store, household.disk) := rfl
  have hseen : ((household.run? clearance).bind fun h => (h.run? ruins).bind fun g =>
      (g.run? aftermath).map fun g' => ((h.disk.content? h.store.path).isNone, g.store.committed,
        g.holder.map fun p => (p.1, p.2.isOpen),
        (g.session? 1).map fun s => (Task.session s).request?.any Request.needsFile,
        (g'.session? 1).map fun s => (Task.session s).request?.isNone)) =
      some (true, 2, some (4, false), some true, some true) := by decide +kernel
  simp only [Option.bind_eq_some_iff, Option.map_eq_some_iff, Prod.mk.injEq, Option.any_eq_true,
    Option.isNone_iff_eq_none] at hseen
  obtain ⟨h, hbefore, g, hrun, g', hrun', hmissing, hcommitted, ⟨⟨k, w⟩, hw, rfl, hopen⟩,
    ⟨s, hs, r, hrequest, hneeds⟩, s', hs', hidle⟩ := hseen
  have hnobody : ∀ e ∈ ruins ++ aftermath, e.bringsFile = false := by decide
  obtain ⟨hmissing', hnothing, hstore, htasks⟩ :=
    missing_file_stays_missing hcreate hbefore hmissing hrun hrun' hnobody
  have hrefuses : Refuses 1 (.session s) g aftermath g' := by
    refine htasks 1 (.session s) _ (session?_eq_some.1 hs) hrequest hneeds ?_
    intro w' hw'
    cases hw.symm.trans hw'
  have hclosed : g.Closed := by
    intro j v hv
    cases hw.symm.trans hv
    exact hopen
  refine ⟨h, g, g', hbefore, hrun, hrun', hmissing', hnothing (by decide), hstore hclosed, hcommitted,
    ⟨s, hs, hrefuses⟩, ?_⟩
  rcases hrefuses.ended s s' rfl hs' with rfl | ⟨cause, hcause⟩
  · cases hrequest.symm.trans hidle
  · exact ⟨s', cause, hs', hcause⟩

end EchoLog

import EchoLog.Proofs.Service.Shutdown
import EchoLog.Proofs.SharedLog.Missing
/-!
# Tasks that outlive the service

When the time for the tasks is over, the coordinator waits no longer for those that remain.  It has the log
removed and returns, and the stragglers go on.  A service brings a missing log back no more than its tasks
do (`Handling.vacant`), so they share a log that stays missing: a straggler that needs the file gets nothing
but a refusal, and has nothing to do with its peer until then (`Handling.bereft`).
-/

namespace EchoLog

open SharedLog

namespace SharedLog

variable {g g' : SharedLog} {i : Nat} {t : Task}

theorem Grows.housed (h : g.Grows g') (hhoused : g.Housed) : g'.Housed := by
  refine ⟨h.queue hhoused.queue, ?_, ?_⟩
  · rw [h.disk, h.store]
    exact hhoused.sited
  · rw [h.holder, h.store]
    exact hhoused.held

theorem Grows.vacant (h : g.Grows g') (hvacant : g.Vacant) : g'.Vacant := by
  refine ⟨h.housed hvacant.housed, ?_⟩
  rw [h.disk, h.store]
  exact hvacant.lacks

theorem Grows.bereft (h : g.Grows g') (hbereft : Bereft i t g) : Bereft i t g' := by
  cases hbereft with
  | waiting ht hdoomed =>
      refine .waiting (h.task i t ht) ?_
      rw [h.holder]
      exact hdoomed
  | refused cause ht => exact .refused cause (h.task i _ ht)

end SharedLog

namespace Service

variable {s s' s₀ : Service} {e : ServiceEvent} {es more : List ServiceEvent} {i : Nat} {t : Task}
  {r : Request}

theorem Handling.housed {g : SharedLog} (h : Handling s e g) (hhoused : s.log.Housed) :
    g.Housed ∧ g.store.path = s.log.store.path := by
  rcases h.cases_log with ⟨inner, -, hm⟩ | ⟨-, hgrows⟩
  · obtain ⟨hnext, hpath, -⟩ := hhoused.move hm
    exact ⟨hnext, hpath⟩
  · exact ⟨hgrows.housed hhoused, congrArg Store.path hgrows.store⟩

/-- In every state of a service the place of its log can be told, and its path is the one it has been
started with. -/
theorem housed_of_run (h : s₀.log.Housed) (hrun : s₀.run? es = some s) :
    s.log.Housed ∧ s.log.store.path = s₀.log.store.path := by
  refine run_states (P := fun s => s.log.Housed ∧ s.log.store.path = s₀.log.store.path) ?_ ⟨h, rfl⟩ hrun
  rintro s s' e ⟨hhoused, hpath⟩ hm
  obtain ⟨hnext, hsame⟩ := hm.handling.housed hhoused
  exact ⟨hnext, hsame.trans hpath⟩

/-- Events by which no other process brings the log file back. -/
def isSparing (_ : Service) (e : ServiceEvent) : Bool :=
  e.log?.all fun inner => !inner.bringsFile

theorem Handling.vacant {g : SharedLog} (h : Handling s e g) (hvacant : s.log.Vacant)
    (hkind : s.isSparing e = true) : g.Vacant := by
  rcases h.cases_log with ⟨inner, rfl, hm⟩ | ⟨-, hgrows⟩
  · exact hvacant.move (Bool.not_eq_true' _ ▸ hkind) hm
  · exact hgrows.vacant hvacant

/-- **While the log is missing, a task that needs it gets nothing but a refusal**, and has nothing to do
with its peer. -/
theorem Handling.bereft {g : SharedLog} (h : Handling s e g) (hvacant : s.log.Vacant)
    (hbereft : Bereft i t s.log) (hr : t.request? = some r) (hneeds : r.needsFile = true) :
    Bereft i t g ∧ ∀ inner, e = .log inner → inner.isContact i = false := by
  rcases h.cases_log with ⟨inner, rfl, hm⟩ | ⟨hnone, hgrows⟩
  · obtain ⟨hstill, hsilent⟩ := hbereft.move hr hneeds hvacant.housed hvacant.lacks hm
    refine ⟨hstill, ?_⟩
    rintro _ ⟨⟩
    exact hsilent
  · refine ⟨hgrows.bereft hbereft, ?_⟩
    rintro inner rfl
    cases hnone

/-- In every state of a service whose log is missing, the place of the log can be told. -/
theorem vacant_of_run {settings : Settings} {directory : Location} {disk : Disk}
    (hstart : ofListener settings directory disk = .started s₀) (hrun : s₀.run? es = some s)
    (hmissing : s.log.disk.content? s.log.store.path = none) : s.log.Vacant := by
  have hhoused : s.log.Housed := by
    obtain ⟨store, fresh, roster, hcreate, -, rfl⟩ := eq_of_started hstart
    exact (housed_of_run (housed_start hcreate []).1 hrun).1
  exact ⟨hhoused, hhoused.sited.content?_eq_none_iff.1 hmissing⟩

/-- **A log that is gone stays gone**, whoever is left of the service: in every later state it is missing
unless another process brings it, and whatever a straggler asked of it before, it is refused. -/
theorem removed_log_stays_removed {settings : Settings} {directory : Location} {disk : Disk}
    (hstart : ofListener settings directory disk = .started s₀) (hrun : s₀.run? es = some s)
    (hmissing : s.log.disk.content? s.log.store.path = none)
    (hkind : s.Along isSparing more = true) (hrun' : s.run? more = some s') :
    s'.log.IsMissing ∧ ∀ i t r, s.log.task? i = some t → t.request? = some r → r.needsFile = true →
      (∀ w, s.log.holder = some (i, w) → w.Doomed) →
        Bereft i t s'.log ∧ ∀ inner, .log inner ∈ more → inner.isContact i = false := by
  have hvacant := vacant_of_run hstart hrun hmissing
  refine ⟨?_, ?_⟩
  · refine Vacant.isMissing_all ?_
    exact run_induction (a := {}) (P := fun _ s => s.log.Vacant)
      (fun hkind h hm => hm.handling.vacant h hkind) hvacant hkind hrun'
  · intro i t r ht hr hneeds hdoomed
    have hend := run_induction (a := {}) (P := fun a s => s.log.Vacant ∧ Bereft i t s.log ∧
      ∀ inner, .log inner ∈ a.events → inner.isContact i = false) ?_
      ⟨hvacant, .waiting ht hdoomed, by simp⟩ hkind hrun'
    · rw [show (s.annalsFrom {} more).events = more from annals_events hrun'] at hend
      exact hend.2
    · rintro a s s' e hkind ⟨hvacant, hbereft, hsilent⟩ hm
      obtain ⟨hstill, hlast⟩ := hm.handling.bereft hvacant hbereft hr hneeds
      refine ⟨hm.handling.vacant hvacant hkind, hstill, ?_⟩
      intro inner hinner
      rcases List.mem_append.1 hinner with hbefore | hnow
      · exact hsilent inner hbefore
      · exact hlast inner (List.mem_singleton.1 hnow).symm

/-- One client whose packet has been cut when the signal comes.  The time for its session runs out, and the
coordinator has the log removed. -/
def farewell : List ServiceEvent :=
  [.begin 0 0, .look, .takeSlot, .accept (.quad 127 0 0 1 1) 0, .look, .takeSlot,
    .log (.receive 0 (.ok (utf8 "a\n"))), .log (.frame 0), .signal, .stop .signal, .timedOut,
    .log (.ask 1), .log .grant, .log (.file none)]

/-- The coordinator returns, and the session comes to have its packet stored. -/
def epilogue : List ServiceEvent :=
  [.log .release, .removed, .log (.ask 0), .log .grant, .log (.file none), .log .release, .finish 0]

/-- The theorem at that session: it outlives the service, and is refused. -/
theorem straggler_is_refused : ∃ s s' x cause, opened.run? farewell = some s ∧
    s.run? epilogue = some s' ∧ s'.result? = some (.ok ()) ∧ s'.log.IsMissing ∧
    s'.log.session? 0 = some x ∧ x.result? = some (.error (.storage cause)) := by
  have hseen : (opened.run? farewell).map (fun s => ((s.log.disk.content? s.log.store.path).isNone,
      s.Along isSparing epilogue, s.log.holder.map (·.1),
      (s.log.session? 0).map fun x => (Task.session x).request?.any Request.needsFile)) =
      some (true, true, some 1, some true) := by decide +kernel
  have hseen' : ((opened.run? farewell).bind (·.run? epilogue)).map (fun s => (s.result?,
      (s.log.session? 0).map fun x => (Task.session x).request?.isNone)) =
      some (some (.ok ()), some true) := by decide +kernel
  obtain ⟨s, hrun, hseen⟩ := Option.map_eq_some_iff.1 hseen
  rw [hrun, Option.bind_some] at hseen'
  obtain ⟨s', hrun', hseen'⟩ := Option.map_eq_some_iff.1 hseen'
  simp only [Option.map_eq_some_iff, Prod.mk.injEq, Option.any_eq_true,
    Option.isNone_iff_eq_none] at hseen hseen'
  obtain ⟨hmissing, hkind, ⟨⟨j, w⟩, hw, rfl⟩, x, hx, r, hr, hneeds⟩ := hseen
  obtain ⟨hresult, x', hx', hidle⟩ := hseen'
  obtain ⟨hmissing', hrefused⟩ :=
    removed_log_stays_removed plain_starts_opened hrun hmissing hkind hrun'
  obtain ⟨hbereft, -⟩ := hrefused 0 _ r (session?_eq_some.1 hx) hr hneeds fun w' hw' => by
    cases hw.symm.trans hw'
  cases hbereft with
  | waiting ht _ =>
      cases (session?_eq_some.1 hx').symm.trans ht
      cases hr.symm.trans hidle
  | refused cause ht =>
      exact ⟨s, s', _, cause, hrun, hrun', hresult, hmissing', session?_eq_some.2 ht, rfl⟩

end Service

end EchoLog

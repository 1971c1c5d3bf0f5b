import EchoLog.Proofs.Service.Start
import EchoLog.Proofs.Service.Stragglers
/-!
# What a service changes on the disk

A service opens its log file again for every request and knows it by a path only.  As long as no other
process interferes it changes nothing on the disk but what stands at the place of that path, from its start
to the removal of the log (`Service.LogsAt`).
-/

namespace EchoLog

open SharedLog

section Files

variable {w : Work} {store : Store} {disk : Disk} {other : Location}

theorem Handle.At.node?_change_other {file : Handle} {p : Path} (h : file.At p) (hother : other ≠ p.place)
    (f : Node → Node × Option IoError) : (file.change disk f).2.1.node? other = disk.node? other := by
  cases file with
  | orphan node => rfl
  | linked place =>
      cases (h : place = p.place)
      rw [Handle.change]
      split
      · exact Disk.node?_put_other disk hother _
      · rfl

/-- **A step of whoever holds the lock changes nothing elsewhere.** -/
theorem Work.At.node?_step_other (h : w.At store.path) (hd : disk.Sited store.path)
    (hother : other ≠ store.path.place) (fault : Option Fault) :
    (w.step fault store disk).disk.node? other = disk.node? other := by
  cases w with
  | opening bytes echo =>
      simp only [Work.step]
      split
      · rfl
      · split <;> rfl
  | writing file bytes echo =>
      have hchange : ∀ bytes,
          (file.change disk (Node.append disk.limit bytes)).2.1.node? other = disk.node? other :=
        fun bytes => (h file rfl).node?_change_other hother _
      simp only [Work.step]
      split
      · exact hchange _
      · have hwrite := hchange bytes
        split
        · rename_i heq
          rw [heq] at hwrite
          exact hwrite
        · rename_i heq
          rw [heq] at hwrite
          exact hwrite
  | flushing file bytes echo =>
      simp only [Work.step]
      split
      · rfl
      · split <;> rfl
  | syncing file bytes echo =>
      simp only [Work.step]
      split <;> rfl
  | cutting file cause =>
      simp only [Work.step]
      split
      · rfl
      · have hcut : (file.change disk (Node.resize disk.limit store.committed)).2.1.node? other =
            disk.node? other := (h file rfl).node?_change_other hother _
        split
        · rename_i heq
          rw [heq] at hcut
          exact hcut
        · rename_i heq
          rw [heq] at hcut
          exact hcut
  | reading =>
      simp only [Work.step]
      split
      · rfl
      · split <;> rfl
  | unlinking =>
      have hkept : ∀ {left : Disk}, disk.unlink store.path = .ok left →
          left.node? other = disk.node? other := by
        intro left hleft
        rw [Disk.unlink] at hleft
        rcases hd.findFile with ⟨node, hfound, -, -⟩ | ⟨-, hfound | hfound⟩
        · rw [hfound] at hleft
          cases hleft
          exact Disk.node?_clear_other disk hother
        · rw [hfound] at hleft
          cases hleft
        · rw [hfound] at hleft
          cases hleft
      simp only [Work.step]
      split
      · rename_i hremoved
        cases fault with
        | some f => cases hremoved
        | none => exact hkept hremoved
      · split <;> rfl
  | finished answer => rfl

end Files

namespace SharedLog

variable {g g' : SharedLog} {e : Event} {other : Location}

/-- **A move that is not another process's changes nothing elsewhere.** -/
theorem Housed.node?_move_other (h : g.Housed) (hm : Move g e g') (hown : ∀ c, e ≠ .outside c)
    (hother : other ≠ g.store.path.place) : g'.disk.node? other = g.disk.node? other := by
  cases hm with
  | own more ht hown => rfl
  | ask _ _ => rfl
  | grant _ _ => rfl
  | @file i w fault hw _ => exact (h.held i w hw).node?_step_other h.sited hother fault
  | release _ _ => rfl
  | fire _ => rfl
  | outside c => exact absurd rfl (hown c)

end SharedLog

namespace Service

variable {s s' s₀ : Service} {e : ServiceEvent} {es : List ServiceEvent} {p : Path} {disk : Disk}

/-- A service has its log at the place of a path: it is created there empty, whatever the service's path
leads to later on stands there, and unless another process interferes nothing else is changed. -/
structure LogsAt (disk : Disk) (place : Location) (s₀ : Service) : Prop where
  /-- The full device can be had for a log, and stays what it is. -/
  created : s₀.log.disk.node? place = some (.file []) ∨
    (disk.node? place = some .full ∧ s₀.log.disk = disk)
  found : ∀ es s, s₀.run? es = some s → ∀ l node,
    s.log.disk.findFile s.log.store.path = .ok (l, node) → l = place
  elsewhere : ∀ es s, s₀.run? es = some s → (∀ c, .log (.outside c) ∉ es) →
    ∀ other, other ≠ place → s.log.disk.node? other = disk.node? other

theorem Handling.node?_other {g : SharedLog} (h : Handling s e g) (hhoused : s.log.Housed)
    (hown : ∀ c, e ≠ .log (.outside c)) {other : Location} (hother : other ≠ s.log.store.path.place) :
    g.disk.node? other = s.log.disk.node? other := by
  rcases h.cases_log with ⟨inner, rfl, hm⟩ | ⟨-, hgrows⟩
  · refine hhoused.node?_move_other hm ?_ hother
    rintro c rfl
    exact hown c rfl
  · rw [hgrows.disk]

theorem node?_of_run (h : s₀.log.Housed) (hrun : s₀.run? es = some s)
    (hown : ∀ c, .log (.outside c) ∉ es) {other : Location} (hother : other ≠ s₀.log.store.path.place) :
    s.log.disk.node? other = s₀.log.disk.node? other := by
  induction es generalizing s₀ with
  | nil =>
      cases hrun
      rfl
  | cons e es ih =>
      obtain ⟨u, hu, hrest⟩ := Option.bind_eq_some_iff.1 hrun
      have hm := (move_of_step? hu).handling
      obtain ⟨hnext, hpath⟩ := hm.housed h
      have hfirst : u.log.disk.node? other = s₀.log.disk.node? other :=
        hm.node?_other h (fun c hc => hown c (hc ▸ List.mem_cons_self)) hother
      rw [← hfirst]
      exact ih hnext hrest (fun c hc => hown c (List.mem_cons_of_mem e hc)) (hpath ▸ hother)

/-- **A service has its log at the place of its data file**, named from the directory where it starts. -/
theorem logsAt_of_started {settings : Settings} {directory : Location}
    (hstart : ofListener settings directory disk = .started s₀) :
    s₀.LogsAt disk (Path.place ⟨directory, settings.storage.dataFile⟩) := by
  obtain ⟨store, fresh, roster, hcreate, -, rfl⟩ := eq_of_started hstart
  obtain ⟨hmade, rfl⟩ := Store.create_eq_ok_iff.1 hcreate
  obtain ⟨hhoused, -⟩ := housed_start hcreate []
  refine ⟨?_, ?_, ?_⟩
  · obtain ⟨folder, name, old, hspot, hchild, hold, hleft⟩ := Disk.of_create_eq_ok hmade
    obtain ⟨-, hplace⟩ := Disk.sited_of_spot hspot hchild hold
    rw [hplace] at hleft
    rcases hleft with ⟨rfl, rfl⟩ | rfl
    · exact .inr ⟨hplace ▸ (Disk.child_eq_ok.1 hchild).2, rfl⟩
    · exact .inl (Disk.node?_put_self disk (Path.place_ne_nil _) _)
  · intro es s hrun l node hfound
    obtain ⟨hend, hpath⟩ := housed_of_run hhoused hrun
    rcases hend.sited.findFile with ⟨node', hfound', -, -⟩ | ⟨-, hfound' | hfound'⟩
    · cases hfound.symm.trans hfound'
      exact congrArg Path.place hpath
    · cases hfound.symm.trans hfound'
    · cases hfound.symm.trans hfound'
  · intro es s hrun hown other hother
    rw [node?_of_run hhoused hrun hown hother]
    exact Disk.node?_create_other hmade hother

end Service

end EchoLog

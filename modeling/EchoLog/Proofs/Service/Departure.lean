import EchoLog.Proofs.Service.Coordinator
import EchoLog.Proofs.Service.Log
import EchoLog.Proofs.SharedLog.File
/-!
# Removing the log on the way out

Nobody of the service asks to have the log removed but the coordinator, and that only when the waiting for
the tasks is over: every caller but the coordinator's comes from outside (`Called`).  From then on
the coordinator has the log removed through one caller, which tries once, and returns when that has its
answer (`Leaving`).  The outcome with which it stopped everybody is what it returns, but for a removal that
fails.
-/

namespace EchoLog

open SharedLog

namespace Service

variable {s s' s₀ : Service} {e : ServiceEvent} {es : List ServiceEvent} {a : Annals} {i : Nat}

/-! ## Callers -/

/-- A caller joins, or has been there before. -/
theorem Handling.caller {g : SharedLog} (h : Handling s e g) {c' : Caller}
    (ht : g.task? i = some (.caller c')) :
    (i = s.log.seats.length ∧ ∃ token, s.Joins e (.caller c') token) ∨
      ∃ c, s.log.task? i = some (.caller c) ∧ c.request = c'.request := by
  rcases h.task?_cases ht with hjoins | ⟨u, hu, hkind⟩
  · exact .inl hjoins
  · cases u with
    | caller c => exact .inr ⟨c, hu, (Task.Kind.caller.inj hkind).symm⟩
    | _ => cases hkind

/-- A caller stays. -/
theorem Handling.exists_caller {g : SharedLog} (h : Handling s e g) {c : Caller}
    (ht : s.log.task? i = some (.caller c)) :
    ∃ c', g.task? i = some (.caller c') ∧ c'.request = c.request := by
  rcases h.cases_log with ⟨_, -, hm⟩ | ⟨-, hgrows⟩
  · have hkind := hm.kind i
    rw [ht, Option.map_some] at hkind
    obtain ⟨t, ht', hkind⟩ := Option.map_eq_some_iff.1 hkind
    cases t with
    | caller c' => exact ⟨c', ht', Task.Kind.caller.inj hkind⟩
    | _ => cases hkind
  · exact ⟨c, hgrows.task _ _ ht, rfl⟩

/-- Every caller comes from outside, but for the coordinator's own; and whoever has tried to remove the log
file is a caller. -/
structure Called (own : Option Nat) (a : Annals) (s : Service) : Prop where
  queue : s.log.Queue
  callers : ∀ i c, s.log.task? i = some (.caller c) → own ≠ some i → .call c.request ∈ a.events
  unlinkers : ∀ i ∈ a.unlinks, ∃ c, s.log.task? i = some (.caller c) ∧ c.request = .remove

/-- **Every move keeps it**; at the end of the waiting the coordinator may get a place of its own. -/
theorem Called.move {own own' : Option Nat} (h : Called own a s) (hm : Move s e s')
    (hsame : ∀ i, own = some i → own' = some i)
    (hremover : e.isEnd = true → s.settings.storage.removeOnShutdown = true →
      own' = some s.log.seats.length) : Called own' (a.note s e s') s' := by
  have hhandling := hm.handling
  refine ⟨hhandling.queue h.queue, ?_, ?_⟩
  · intro i c' ht' hother
    rcases hhandling.caller ht' with ⟨rfl, token, hjoins⟩ | ⟨c, ht, hrequest⟩
    · cases hjoins with
      | outsider request => exact List.mem_append_right _ List.mem_cons_self
      | remover hremove _ he => exact absurd (hremover (by rcases he with rfl | rfl <;> rfl) hremove) hother
    · rw [← hrequest]
      exact List.mem_append_left _ (h.callers i c ht fun hown => hother (hsame i hown))
  · intro i hi
    obtain ⟨c, ht, hremove⟩ : ∃ c, s.log.task? i = some (.caller c) ∧ c.request = .remove := by
      rcases List.mem_append.1 hi with hi | hi
      · exact h.unlinkers i hi
      · obtain ⟨inner, -, hinner⟩ := Option.bind_eq_some_iff.1 (Option.mem_toList.1 hi)
        obtain ⟨c, ht, hremove, -⟩ := caller_of_remove (request?_of_unlinker? h.queue hinner)
        exact ⟨c, ht, hremove⟩
    obtain ⟨c', ht', hrequest⟩ := hhandling.exists_caller ht
    exact ⟨c', ht', hrequest.trans hremove⟩

/-- Whoever has tried to remove the log, or asks for it, comes from outside, or is the coordinator. -/
theorem Called.unlinks_eq {own : Option Nat} (h : Called own a s) (hspared : .call .remove ∉ a.events) :
    ∀ i ∈ a.unlinks, own = some i := by
  intro i hi
  obtain ⟨c, ht, hremove⟩ := h.unlinkers i hi
  by_contra hother
  have hcall := h.callers i c ht hother
  rw [hremove] at hcall
  exact hspared hcall

theorem Called.request?_ne_remove (h : Called none a s) (hspared : .call .remove ∉ a.events) (i : Nat) :
    s.log.request? i ≠ some .remove := by
  intro hr
  obtain ⟨c, ht, hremove, -⟩ := caller_of_remove hr
  have hcall := h.callers i c ht (by simp)
  rw [hremove] at hcall
  exact hspared hcall

theorem called_start {settings : Settings} {directory : Location} {disk : Disk}
    (hstart : ofListener settings directory disk = .started s₀) : Called none {} s₀ := by
  obtain ⟨store, fresh, roster, -, -, rfl⟩ := eq_of_started hstart
  exact ⟨queue_start fresh store [], by simp [task?], by simp⟩

/-- The coordinator has not had the log removed, and is not at it. -/
def HasKept (s : Service) : Prop :=
  s.settings.storage.removeOnShutdown = false ∨ ¬ 3 ≤ s.coordinator.phase

theorem Move.hasKept (hm : Move s e s') (h : HasKept s') : HasKept s := by
  rcases h with hkeep | hearly
  · exact .inl (hm.settings ▸ hkeep)
  · exact .inr fun hlate => hearly (Nat.le_trans hlate hm.phase_le)

/-- As long as it has not, all callers come from outside. -/
theorem Called.move_of_hasKept (h : Called none a s) (hm : Move s e s') (hkept : HasKept s') :
    Called none (a.note s e s') s' := by
  refine h.move hm (fun _ hown => hown) ?_
  intro hend hremove
  rcases hkept with hkeep | hearly
  · rw [hm.settings, hremove] at hkeep
    cases hkeep
  · exact absurd (hm.of_isEnd hend).2 hearly

theorem called_of_run (h : Called none a s₀) (hrun : s₀.run? es = some s) (hkept : HasKept s) :
    Called none (s₀.annalsFrom a es) s :=
  run_moves (P := fun a s => HasKept s → Called none a s)
    (fun hcalled hm hkept => (hcalled (hm.hasKept hkept)).move_of_hasKept hm hkept) (fun _ => h) hrun
    hkept

/-- After it nobody but the coordinator has a place of the coordinator's. -/
theorem called_after {own : Option Nat} (h : Called own a s₀) (hlate : 3 ≤ s₀.coordinator.phase)
    (hrun : s₀.run? es = some s) : Called own (s₀.annalsFrom a es) s := by
  refine (run_moves (P := fun a s => 3 ≤ s.coordinator.phase ∧ Called own a s) ?_ ⟨hlate, h⟩ hrun).2
  rintro a s s' e ⟨hlate, hcalled⟩ hm
  refine ⟨Nat.le_trans hlate hm.phase_le, hcalled.move hm (fun _ hown => hown) ?_⟩
  intro hend _
  exact absurd hlate (hm.of_isEnd hend).1

/-! ## The removal -/

/-- What a step comes to for a caller that has the log removed. -/
theorem Handling.removing {g : SharedLog} (h : Handling s e g) (hq : s.log.Queue) {c : Caller}
    (ht : s.log.task? i = some (.caller c)) (hr : c.request = .remove) {n : Nat}
    (hremoving : Removing s.log i c n) :
    ∃ c', g.task? i = some (.caller c') ∧ c'.request = .remove ∧
      Removing g i c' (n + (e.log?.bind s.log.unlinker?).toList.count i) := by
  rcases h.cases_log with ⟨inner, rfl, hm⟩ | ⟨hnone, hgrows⟩
  · exact hremoving.move hq ht hr hm
  · rw [hnone]
    exact ⟨c, hgrows.task _ _ ht, hr, hremoving.of_holder fun w => by rw [hgrows.holder]⟩

/-- The coordinator has the log removed through the caller at a place of its own, or has had it removed. -/
inductive Leaving (outcome : Except Failure Unit) (seat : Nat) (a : Annals) (s : Service) : Prop where
  | removing {c : Caller} : s.coordinator = .removing outcome seat →
      s.log.task? seat = some (.caller c) → c.request = .remove →
      Removing s.log seat c (a.unlinks.count seat) → Leaving outcome seat a s
  | removed {c : Caller} {answer : Answer} : s.coordinator = .returned (settled outcome answer) →
      s.log.task? seat = some (.caller c) → c.request = .remove → c.answer = some answer →
      a.unlinks.count seat = 1 → Leaving outcome seat a s

section Leaving

variable {outcome : Except Failure Unit} {seat : Nat}

/-- **Every move brings the removal on its way, or leaves it done.** -/
theorem Leaving.move (h : Leaving outcome seat a s) (hq : s.log.Queue) (hm : Move s e s') :
    Leaving outcome seat (a.note s e s') s' := by
  have hhandling := hm.handling
  have hcount : (a.note s e s').unlinks.count seat =
      a.unlinks.count seat + (e.log?.bind s.log.unlinker?).toList.count seat := List.count_append
  have hkept : ∀ {c c' : Caller} {answer : Answer}, s.log.task? seat = some (.caller c) →
      c.answer = some answer → s'.log.task? seat = some (.caller c') → c'.answer = some answer := by
    intro c c' answer ht hanswer ht'
    cases (hhandling.task?_of_rests hq ht (rests_of_answer hanswer)).symm.trans ht'
    exact hanswer
  cases h with
  | @removing c hc ht hr hremoving =>
      obtain ⟨c', ht', hr', hremoving'⟩ := hhandling.removing hq ht hr hremoving
      rw [← hcount] at hremoving'
      rcases hm.of_removing hc with hstays | ⟨-, answer, hanswer, hreturns⟩
      · exact .removing hstays ht' hr' hremoving'
      · have hgiven : c.answer = some answer := by
          rw [answerAt?, ht] at hanswer
          exact hanswer
        have hanswer' := hkept ht hgiven ht'
        exact .removed hreturns ht' hr' hanswer' (hremoving'.eq_one hanswer')
  | @removed c answer hc ht hr hanswer hone =>
      obtain ⟨c', ht', hr', hremoving'⟩ := hhandling.removing hq ht hr (.told hanswer)
      rw [← hone, ← hcount] at hremoving'
      have hanswer' := hkept ht hanswer ht'
      exact .removed (hm.of_returned hc) ht' hr' hanswer' (hremoving'.eq_one hanswer')

/-- Nobody has the place of the next task yet. -/
theorem Called.next_free {own : Option Nat} (h : Called own a s) :
    a.unlinks.count s.log.seats.length = 0 ∧ ∀ w, s.log.holder ≠ some (s.log.seats.length, w) := by
  have hfree : s.log.task? s.log.seats.length = none := by
    rw [task?, List.getElem?_eq_none (Nat.le_refl _)]
    rfl
  refine ⟨List.count_eq_zero.2 fun hi => ?_, fun w hw => ?_⟩
  · obtain ⟨c, ht, -⟩ := h.unlinkers _ hi
    cases hfree.symm.trans ht
  · obtain ⟨r, hr, -⟩ := h.queue.holder _ w hw
    rw [request?, hfree] at hr
    cases hr

/-- The end of the waiting is one event. -/
theorem Move.eq_afterDrain (h : Move s e s') (hend : e.isEnd = true)
    (hc : s.coordinator = .draining outcome) : ∃ notices, s' = s.afterDrain outcome notices := by
  cases h with
  | drained hdraining _ =>
      cases hdraining.symm.trans hc
      exact ⟨_, rfl⟩
  | timedOut hdraining _ =>
      cases hdraining.symm.trans hc
      exact ⟨_, rfl⟩
  | acceptor _ hselecting _ _ _ => cases hselecting.symm.trans hc
  | _ => cases hend

theorem afterDrain_of_remove (hremove : s.settings.storage.removeOnShutdown = true)
    (notices : List Notice) : ∃ more,
    (s.afterDrain outcome notices).log = (s.log.report more).join (.caller { request := .remove }) ∧
      (s.afterDrain outcome notices).coordinator = .removing outcome s.log.seats.length := by
  unfold afterDrain
  dsimp only
  split
  · exact ⟨_, rfl, rfl⟩
  · rename_i hkeep
    exact absurd hremove hkeep

/-- When the waiting is over the coordinator asks to have the log removed, if it is to be. -/
theorem Called.removing (h : Called none a s) (hc : s.coordinator = .draining outcome)
    (hremove : s.settings.storage.removeOnShutdown = true) (hm : Move s e s') (hend : e.isEnd = true) :
    s'.coordinator = .removing outcome s.log.seats.length ∧
      s'.log.task? s.log.seats.length = some (.caller { request := .remove }) ∧
      Removing s'.log s.log.seats.length { request := .remove } 0 ∧
      (a.note s e s').unlinks.count s.log.seats.length = 0 := by
  obtain ⟨notices, rfl⟩ := hm.eq_afterDrain hend hc
  obtain ⟨hcount, hfree⟩ := h.next_free
  obtain ⟨more, hlog, hremoving⟩ := afterDrain_of_remove hremove notices
  have hnone : e.log? = none := by cases e <;> first | rfl | cases hend
  refine ⟨hremoving, ?_, ?_, ?_⟩
  · rw [hlog]
    exact task?_join_new _ _ _
  · rw [hlog]
    exact .waiting rfl hfree
  · rw [Annals.note, hnone]
    exact List.count_append.trans hcount

/-- **A run after the waiting.** -/
theorem Leaving.run (h : Leaving outcome seat a s₀) (hq : s₀.log.Queue) (hrun : s₀.run? es = some s) :
    Leaving outcome seat (s₀.annalsFrom a es) s := by
  refine (run_moves (P := fun a s => s.log.Queue ∧ Leaving outcome seat a s) ?_ ⟨hq, h⟩ hrun).2
  rintro a s s' e ⟨hq, hleaving⟩ hm
  exact ⟨hm.handling.queue hq, hleaving.move hq hm⟩

end Leaving

/-- Events other than changes by other processes, and faults that say of a file that is there that it is
missing. -/
def isTruthful (s : Service) (e : ServiceEvent) : Bool :=
  e.log?.all s.log.isTruthful

/-- **If the caller at a place is told that the log is gone, it is**, as long as nobody brings it back. -/
theorem cleared_of_run {c : Caller} (hq : s₀.log.Queue) (ht : s₀.log.task? i = some (.caller c))
    (h : s₀.log.Cleared i) (hkind : s₀.Along isTruthful es = true) (hrun : s₀.run? es = some s) :
    s.log.Cleared i := by
  refine (run_induction (a := {})
    (P := fun _ s => s.log.Queue ∧ (∃ c, s.log.task? i = some (.caller c)) ∧ s.log.Cleared i) ?_
    ⟨hq, ⟨c, ht⟩, h⟩ hkind hrun).2.2
  rintro a s s' e htrue ⟨hq, ⟨c, ht⟩, hcleared⟩ hm
  have hhandling := hm.handling
  obtain ⟨c', ht', -⟩ := hhandling.exists_caller ht
  refine ⟨hhandling.queue hq, ⟨c', ht'⟩, ?_⟩
  rcases hhandling.cases_log with ⟨inner, rfl, hinner⟩ | ⟨-, hgrows⟩
  · exact hcleared.move hq htrue hinner
  · intro d reply hd hr htold
    cases (hgrows.task i _ ht).symm.trans hd
    rw [hgrows.holder] at htold
    have hgone := hcleared c reply ht hr htold
    refine ⟨?_, ?_⟩
    · rw [hgrows.disk, hgrows.store]
      exact hgone.missing
    · rw [hgrows.holder]
      exact hgone.closed

/-! ## The log that is kept -/

/-- Events other than changes by other processes and rollbacks that fail. -/
def isUndisturbed (s : Service) (e : ServiceEvent) : Bool :=
  e.log?.all s.log.isUndisturbed

/-- **The record of the log is kept** as long as nobody has it removed. -/
theorem recorded_move (h : s.log.Recorded a.chronicle) (hq : s.log.Queue)
    (hkept : ∀ i, s.log.request? i ≠ some .remove) (hkind : s.isUndisturbed e = true)
    (hm : Move s e s') : s'.log.Recorded (a.note s e s').chronicle := by
  rcases hm.handling.cases_log with ⟨inner, rfl, hinner⟩ | ⟨hnone, hgrows⟩
  · exact h.move hq hkept hkind hinner
  · rw [Annals.note, hnone]
    exact h.of_eq hgrows.disk hgrows.store hgrows.holder rfl rfl

theorem recorded_start {settings : Settings} {directory : Location} {disk : Disk}
    (hstart : ofListener settings directory disk = .started s₀) : s₀.log.Recorded {} := by
  obtain ⟨store, fresh, roster, hcreate, -, rfl⟩ := eq_of_started hstart
  have hintact := History.intact_create hcreate
  exact ⟨.free hintact.file, hintact.counter, by simp [Told], by simp⟩

/-- As long as the coordinator has not had the log removed, the record is kept, unless somebody from
outside has the log removed. -/
theorem recorded_of_run {settings : Settings} {directory : Location} {disk : Disk}
    (hstart : ofListener settings directory disk = .started s₀)
    (hkind : s₀.Along isUndisturbed es = true) (hrun : s₀.run? es = some s) (hkept : HasKept s)
    (hspared : .call .remove ∉ es) : s.log.Recorded (s₀.annals es).chronicle := by
  refine (run_induction (P := fun a s => HasKept s → Called none a s ∧
    (.call .remove ∉ a.events → s.log.Recorded a.chronicle)) ?_
    (fun _ => ⟨called_start hstart, fun _ => recorded_start hstart⟩) hkind hrun hkept).2 ?_
  · intro a s s' e hkind h hm hkept
    obtain ⟨hcalled, hrecorded⟩ := h (hm.hasKept hkept)
    refine ⟨hcalled.move_of_hasKept hm hkept, ?_⟩
    intro hspared'
    have hspared : .call .remove ∉ a.events := fun hmem => hspared' (List.mem_append_left _ hmem)
    exact recorded_move (hrecorded hspared) hcalled.queue (hcalled.request?_ne_remove hspared) hkind hm
  · rw [show (s₀.annalsFrom {} es).events = es from annals_events hrun]
    exact hspared

/-! ## Changes of the disk -/

/-- An event by which somebody from outside may change the disk: a change by another process, or a file
step for a caller from outside. -/
inductive Foreign (s : Service) (es : List ServiceEvent) : ServiceEvent → Prop where
  | outside (change : Change) : Foreign s es (.log (.outside change))
  | caller {fault : Option Fault} {place : Nat} {w : Work} {c : Caller} :
      s.log.holder = some (place, w) → s.log.task? place = some (.caller c) →
      .call c.request ∈ es → Foreign s es (.log (.file fault))

/-- **Where only callers can hold the lock, nobody of the service changes the disk.** -/
theorem Called.foreign {own : Option Nat} (h : Called own a s)
    (hcallers : ∀ i w, s.log.holder = some (i, w) → ∃ c, s.log.task? i = some (.caller c))
    (hdone : ∀ i, own = some i → ∃ c answer, s.log.task? i = some (.caller c) ∧ c.answer = some answer)
    (hm : Move s e s') (hchange : s'.log.disk ≠ s.log.disk) : Foreign s a.events e := by
  rcases hm.handling.cases_log with ⟨inner, rfl, hinner⟩ | ⟨-, hgrows⟩
  · rcases hinner.disk_cases with hsame | ⟨change, rfl⟩ | ⟨fault, i, w, rfl, hw⟩
    · exact absurd hsame hchange
    · exact .outside change
    · obtain ⟨c, ht⟩ := hcallers i w hw
      refine .caller hw ht (h.callers i c ht ?_)
      -- the coordinator's own caller has its answer, so it has handed the lock back
      intro hown
      obtain ⟨d, answer, hd, hanswer⟩ := hdone i hown
      obtain ⟨r, hr, -⟩ := h.queue.holder i w hw
      rw [request?, hd, Option.bind_some, (rests_of_answer hanswer).request] at hr
      cases hr
  · exact absurd hgrows.disk hchange

end Service

end EchoLog

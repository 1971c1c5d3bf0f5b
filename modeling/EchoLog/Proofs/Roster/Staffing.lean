import EchoLog.Proofs.Roster.Books
/-!
# Staffing

What the books come to for somebody who watches a workforce.  In every state that acceptor and workers
can reach, all slots are accounted for, no two holders have the same one, and every accepted connection
has got one worker with one registration and one slot (`Staffed`).  A step that accepts hires that
worker, and no other step hires anybody or registers anything (`Hires`).  When the acceptor accepts no
more and the workers are gone, every slot is free and nothing is registered; and workers that have ended
do go, in whatever way they ended (`exists_retirement`).
-/

namespace EchoLog

namespace Roster

/-- A task that lets go of a guard keeps the others. -/
theorem Split.permits_sublist {r : Roster} {id : Nat} {t : TrackedTask} {before after : List TrackedTask}
    (h : r.Split id t before after) {g : Guard} {rest : List Guard} (hguards : t.guards = g :: rest) :
    (r.setTask id fun t => { t with guards := rest }).workerPermits.Sublist r.workerPermits := by
  have hfewer : (rest.flatMap Guard.permits).Sublist t.permits := by
    rw [TrackedTask.permits, hguards, List.flatMap_cons]
    exact List.sublist_append_right _ _
  rw [workerPermits, workerPermits, h.flatMap_setTask, h.flatMap]
  exact .append (.refl _) (.append hfewer (.refl _))

end Roster

namespace Workforce

open Roster

variable {w w' : Workforce} {e : WorkStep} {slots : Nat} {connections : List (Endpoint × Nat)}

/-- The workers that have not ended. -/
def running (w : Workforce) : List TrackedTask :=
  w.roster.tasks.filter (!·.ended)

/-- Acceptor and workers after some connections were accepted. -/
structure Staffed (slots : Nat) (connections : List (Endpoint × Nat)) (w : Workforce) : Prop where
  /-- A slot is free, or a worker's, or the acceptor's. -/
  count : w.roster.free + w.roster.workerPermits.length + w.acceptor.permit?.toList.length = slots
  /-- No slot has two holders. -/
  slotsOnce : w.permitsOut.Nodup
  /-- No more workers run than there are slots. -/
  capped : w.running.length ≤ slots
  /-- One worker was hired, and one session registered, for each connection. -/
  hired : w.roster.nextTask = connections.length ∧ w.roster.nextSession = connections.length
  /-- A worker works for the connection with its own number. -/
  workers : ∀ t ∈ w.roster.tasks, t.id < connections.length ∧ t.WorksFor t.id
  /-- No connection has two workers. -/
  workersOnce : (w.roster.tasks.map (·.id)).Nodup
  /-- Each registration is held by one worker. -/
  registry : w.roster.sessions.map (·.id) = w.roster.workerSessions
  registryOnce : w.roster.workerSessions.Nodup
  /-- A registration tells where its connection came from and when. -/
  told : ∀ s ∈ w.roster.sessions, connections[s.id]? = some (s.peer, s.acceptedAt)

/-- A worker that runs holds a slot. -/
theorem length_running_le (htasks : ∀ t ∈ w.roster.tasks, ∃ k, t.WorksFor k) :
    w.running.length ≤ w.roster.workerPermits.length := by
  unfold running workerPermits
  generalize w.roster.tasks = ts at *
  induction ts with
  | nil => exact Nat.le_refl _
  | cons t ts ih =>
      have hrest := ih fun u hu => htasks u (List.mem_cons_of_mem _ hu)
      obtain ⟨k, permit, -, hholds⟩ := htasks t List.mem_cons_self
      rw [List.flatMap_cons, List.length_append]
      cases hended : t.ended with
      | false =>
          rw [List.filter_cons_of_pos (by rw [hended, Bool.not_false]), TrackedTask.permits,
            hholds hended, List.length_cons, Nat.add_comm]
          exact Nat.add_le_add_left hrest 1
      | true =>
          rw [List.filter_cons_of_neg (by simp [hended])]
          exact Nat.le_trans hrest (Nat.le_add_left _ _)

/-- When only the acceptor hires, each task works for the connection with its own number. -/
theorem Books.worker (h : Books slots 0 connections w) {t : TrackedTask} (ht : t ∈ w.roster.tasks) :
    t.id < connections.length ∧ t.WorksFor t.id := by
  rcases h.workers.each t ht with ⟨hlt, -⟩ | ⟨k, hk, hid, hworks⟩
  · exact absurd hlt (Nat.not_lt_zero _)
  · rw [hid, Nat.zero_add]
    exact ⟨hk, hworks⟩

theorem Books.staffed (h : Books slots 0 connections w) : Staffed slots connections w := by
  have hcount : w.roster.free + w.roster.workerPermits.length + w.acceptor.permit?.toList.length =
      slots := by
    have hheld := h.slots.held.length_eq
    rw [permitsOut, List.length_append] at hheld
    rw [Nat.add_assoc, ← hheld]
    exact h.slots.count
  refine ⟨hcount, h.slots.held.nodup_iff.1 h.slots.once, ?_, ⟨?_, h.registry.next⟩,
    fun t ht => h.worker ht, h.workers.once, h.registry.ids, h.registry.once, h.registry.told⟩
  case refine_2 =>
    rw [h.workers.next, Nat.zero_add]
  have hrunning := length_running_le fun t ht => ⟨t.id, (h.worker ht).2⟩
  omega

/-! ## Hiring -/

/-- What a step does to workers and registry, `n` connections having been accepted before it. -/
inductive Hires (n : Nat) (w : Workforce) : WorkStep → Workforce → Prop where
  /-- The slot that the acceptor holds becomes the one of the new worker. -/
  | one {permit peer now} {w' : Workforce} : w.acceptor = .awaitingPeer permit →
      w'.acceptor = .looking →
      w'.roster.tasks = w.roster.tasks ++ [⟨n, [.slot permit, .session n], false⟩] →
      w'.roster.sessions = w.roster.sessions ++ [⟨n, peer, now⟩] →
      Hires n w (.accept peer now) w'
  | nobody {e : WorkStep} {w' : Workforce} : e.connection? = none →
      (w'.roster.tasks.map (·.id)).Sublist (w.roster.tasks.map (·.id)) →
      (w'.roster.workerPermits).Sublist w.roster.workerPermits →
      (w'.roster.sessions).Sublist w.roster.sessions →
      Hires n w e w'

/-- The tasks and the registrations stay. -/
theorem Hires.of_eq {n : Nat} (he : e.connection? = none) (htasks : w'.roster.tasks = w.roster.tasks)
    (hsessions : w'.roster.sessions = w.roster.sessions) : Hires n w e w' := by
  refine .nobody he ?_ ?_ ?_
  · rw [htasks]
  · rw [workerPermits_of_eq htasks]
  · rw [hsessions]

/-- **Only a step that accepts hires**, and it hires one worker. -/
theorem Books.hires (h : Books slots 0 connections w) (hmove : Move w e w') :
    Hires connections.length w e w' := by
  have hsession := h.registry.next
  have htask := h.workers.next
  rw [Nat.zero_add] at htask
  cases hmove with
  | look _ => exact .of_eq rfl rfl rfl
  | takeSlot _ _ _ => exact .of_eq rfl rfl rfl
  | accept peer now hacceptor _ =>
      refine .one hacceptor rfl ?_ ?_
      · simp only [htask, hsession]
      · simp only [hsession]
  | acceptFails cause _ _ => exact .of_eq rfl (w.settleOn_same _).1 (w.settleOn_same _).2.2
  | leave _ _ => exact .of_eq rfl (w.settleOn_same _).1 (w.settleOn_same _).2.2
  | abandon => exact .of_eq rfl (w.settleOn_same _).1 (w.settleOn_same _).2.2
  | finish ht hrunning =>
      rename_i id t
      have hids : (w.roster.finish id).tasks.map (·.id) = _ := w.roster.setTask_ids id fun _ => rfl
      have hpermits : (w.roster.finish id).workerPermits = w.roster.workerPermits :=
        w.roster.finish_flatMap id fun _ => rfl
      exact .nobody rfl (hids ▸ .refl _) (hpermits ▸ .refl _) (.refl _)
  | giveBack ht hended hguards =>
      rename_i id t g rest
      obtain ⟨before, after, hsplit⟩ := exists_split h.workers.once ht
      have hsame := giveBack_same (w.roster.setTask id fun t => { t with guards := rest }) g
      have hids := w.roster.setTask_ids id (f := fun t => { t with guards := rest }) fun _ => rfl
      refine .nobody rfl ?_ ?_ hsame.2.2
      · rw [hsame.1, hids]
      · rw [workerPermits_of_eq hsame.1]
        exact hsplit.permits_sublist hguards
  | go ht _ hguards =>
      obtain ⟨before, after, hsplit⟩ := exists_split h.workers.once ht
      refine .nobody rfl ((forget_sublist _ _).map _) ?_ (.refl _)
      rw [workerPermits, hsplit.forget_flatMap (by rw [TrackedTask.permits, hguards, List.flatMap_nil])]
      exact .refl _
  | requestStop => exact .of_eq rfl rfl rfl

/-! ## Going -/

/-- What the workers have left to do once they have ended: to give back each guard, and to go. -/
def owed (w : Workforce) : Nat :=
  w.roster.tasks.length + (w.roster.tasks.flatMap (·.guards)).length

/-- As long as there are workers, and all have ended, one of them can give something back or go. -/
theorem Books.exists_retire {first : Nat} (h : Books slots first connections w)
    (hended : ∀ t ∈ w.roster.tasks, t.ended = true) (hsome : w.roster.tasks ≠ []) :
    ∃ id w', w.step? (.retire id) = some w' ∧ w'.acceptor = w.acceptor ∧
      (∀ t ∈ w'.roster.tasks, t.ended = true) ∧ w'.owed < w.owed := by
  obtain ⟨t, rest, htasks⟩ := List.exists_cons_of_ne_nil hsome
  have ht : w.roster.task? t.id = some t := by
    rw [Roster.task?, htasks]
    exact List.find?_cons_of_pos (decide_eq_true rfl)
  have hthis := hended t (htasks ▸ List.mem_cons_self)
  obtain ⟨before, after, hsplit⟩ := exists_split h.workers.once ht
  have howed : w.owed = before.length + (after.length + 1) +
      ((before.flatMap (·.guards)).length + (t.guards.length + (after.flatMap (·.guards)).length)) := by
    rw [owed, hsplit.flatMap, hsplit.tasks, List.length_append, List.length_append,
      List.length_append, List.length_cons]
  cases hguards : t.guards with
  | nil =>
      refine ⟨t.id, { w with roster := w.roster.forget t.id }, ?_, rfl, ?_, ?_⟩
      · simp [step?, retire?, ht, hthis, hguards]
      · exact fun u hu => hended u ((forget_sublist _ _).subset hu)
      · rw [howed, owed, hsplit.flatMap_forget, hsplit.forget, List.length_append, List.length_append]
        omega
  | cons g guards =>
      have hsame := giveBack_same (w.roster.setTask t.id fun t => { t with guards := guards }) g
      refine ⟨t.id, { w with
        roster := (w.roster.setTask t.id fun t => { t with guards := guards }).giveBack g }, ?_, rfl,
        ?_, ?_⟩
      · simp [step?, retire?, ht, hthis, hguards]
      · intro u hu
        rw [hsame.1] at hu
        rcases hsplit.mem_setTask hu with rfl | hu
        · exact hthis
        · exact hended u hu
      · rw [howed, owed, hsame.1, hsplit.flatMap_setTask, hsplit.setTask, List.length_append,
          List.length_append, List.length_append, List.length_cons, hguards, List.length_cons]
        dsimp only
        omega

/-- **Workers that have ended go**: each gives back what it holds, and then there is none. -/
theorem Books.exists_retirement {first : Nat} (h : Books slots first connections w)
    (hended : ∀ t ∈ w.roster.tasks, t.ended = true) :
    ∃ (ids : List Nat) (w' : Workforce), w.run? (ids.map .retire) = some w' ∧ w'.acceptor = w.acceptor ∧
      Books slots first connections w' ∧ w'.roster.tasks = [] := by
  induction hn : w.owed using Nat.strongRecOn generalizing w with
  | ind n ih =>
    by_cases hsome : w.roster.tasks = []
    · exact ⟨[], w, rfl, rfl, h, hsome⟩
    · obtain ⟨id, u, hstep, hacceptor, hu, hless⟩ := h.exists_retire hended hsome
      have hbooks : Books slots first (connections ++ []) u := h.move (move_of_step? hstep)
      rw [List.append_nil] at hbooks
      obtain ⟨ids, w', hrun, hacceptor', hbooks', hnone⟩ := ih u.owed (hn ▸ hless) hbooks hu rfl
      refine ⟨id :: ids, w', ?_, hacceptor'.trans hacceptor, hbooks', hnone⟩
      rw [List.map_cons, run?, hstep]
      exact hrun

/-- When the acceptor accepts no more and the workers are gone, nothing is held. -/
theorem Books.all_back {first : Nat} (h : Books slots first connections w) (hdone : w.acceptor.IsDone)
    (hnone : w.roster.tasks = []) :
    w.roster.free = slots ∧ w.roster.held = [] ∧ w.roster.sessions = [] := by
  have hheld : w.roster.held = [] := by
    have hperm := h.slots.held
    rw [permitsOut, hdone.permit?_eq_none, workerPermits, hnone] at hperm
    exact hperm.eq_nil
  have hsessions : w.roster.sessions.map (·.id) = [] := by
    rw [h.registry.ids, workerSessions, hnone, List.flatMap_nil]
  have hcount := h.slots.count
  rw [hheld, List.length_nil, Nat.add_zero] at hcount
  exact ⟨hcount, hheld, List.map_eq_nil_iff.1 hsessions⟩

/-- **Slots are never lost, doubled or overrun.**  Whatever acceptor and workers do, and in whatever
order: the slots add up, each accepted connection gets one worker, one registration and one slot and
nothing else gets any, and when the acceptor accepts no more and all workers have ended, they give
everything back. -/
theorem slots_are_conserved {roster : Roster} (hstart : Roster.start? slots = some roster)
    {es : List WorkStep} (hrun : ({ roster := roster } : Workforce).run? es = some w) :
    Staffed slots (accepted es) w ∧
      (∀ e w', w.step? e = some w' → Hires (accepted es).length w e w') ∧
      (w.acceptor.IsDone → w.roster.tasks = [] →
        w.roster.free = slots ∧ w.roster.held = [] ∧ w.roster.sessions = []) ∧
      (w.acceptor.IsDone → (∀ t ∈ w.roster.tasks, t.ended = true) →
        ∃ (ids : List Nat) (w' : Workforce), w.run? (ids.map .retire) = some w' ∧ w'.roster.tasks = [] ∧
          w'.roster.free = slots ∧ w'.roster.held = [] ∧ w'.roster.sessions = []) := by
  have hbooks := books_run hstart hrun
  refine ⟨hbooks.staffed, fun e w' hstep => hbooks.hires (move_of_step? hstep), hbooks.all_back, ?_⟩
  intro hdone hended
  obtain ⟨ids, w', hretired, hacceptor, hbooks', hnone⟩ := hbooks.exists_retirement hended
  exact ⟨ids, w', hretired, hnone, hbooks'.all_back (hacceptor ▸ hdone) hnone⟩

/-- Two connections on two slots, an accept that fails for the moment, and a stop that finds the acceptor
with a slot in its hand and both workers ended. -/
def shift : List WorkStep :=
  [.look, .takeSlot, .acceptFails (.os 103), .look, .takeSlot, .accept (.quad 127 0 0 1 1) 0, .look,
    .takeSlot, .accept (.quad 127 0 0 1 2) 1, .look, .finish 0, .retire 0, .takeSlot, .requestStop,
    .leave, .finish 1]

/-- The theorem at two slots, one given back by its worker and one by the acceptor. -/
theorem shift_conserves_slots : ∃ w, ({ roster := { free := 2 } } : Workforce).run? shift = some w ∧
    Staffed 2 [(.quad 127 0 0 1 1, 0), (.quad 127 0 0 1 2, 1)] w ∧ w.roster.free = 1 ∧
    w.roster.sessions.length = 2 ∧
    ∃ (ids : List Nat) (w' : Workforce), w.run? (ids.map .retire) = some w' ∧
      w'.roster.tasks = [] ∧ w'.roster.free = 2 ∧ w'.roster.held = [] ∧ w'.roster.sessions = [] := by
  have hstart : Roster.start? 2 = some { free := 2 } := rfl
  have hseen : (({ roster := { free := 2 } } : Workforce).run? shift).map
      (fun w => (w.roster.free, w.roster.sessions.length,
        (match w.acceptor with | .stopped _ => true | _ => false), w.roster.tasks.all (·.ended))) =
      some (1, 2, true, true) := by decide +kernel
  obtain ⟨w, hrun, hw⟩ := Option.map_eq_some_iff.1 hseen
  simp only [Prod.mk.injEq, List.all_eq_true] at hw
  obtain ⟨hfree, hsessions, hstopped, hended⟩ := hw
  have hdone : w.acceptor.IsDone := by
    split at hstopped
    · exact .inl ⟨_, ‹_›⟩
    · cases hstopped
  obtain ⟨hstaffed, -, -, hback⟩ := slots_are_conserved hstart hrun
  exact ⟨w, hrun, hstaffed, hfree, hsessions, hback hdone hended⟩

end Workforce

end EchoLog

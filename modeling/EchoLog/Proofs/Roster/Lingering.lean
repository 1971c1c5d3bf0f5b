import EchoLog.Proofs.Roster.Staffing
/-!
# Registrations that outlive their slots

A worker that has ended gives back its slot before its registration.  In between it lingers: the acceptor
can take the slot, accept a connection and register it, and the registry then shows one session more than
there are slots.  So the number of registered sessions is not bounded by the number of slots.  What holds
instead is a balance (`Books.active_balance`): the registry shows as many sessions more than slots are in
use as there are lingering workers.

| registered | and not in use | is |
| :-- | :-- | :-- |
| `active` | free slots, and the one in the acceptor's hand | all slots and the lingering workers |

Two readings of the balance are proved: when exactly the registry stays within the slots, and that it does
so in every run in which no connection is accepted while a worker lingers.  There is no other bound:
`exists_overrun` registers any number of sessions over any number of slots.
-/

namespace EchoLog

/-- Whether a task has given back its slot and not its registration. -/
def TrackedTask.lingers (t : TrackedTask) : Bool :=
  t.permits.isEmpty && !t.sessions.isEmpty

/-- A worker holds a slot for its registration, or lingers, or holds nothing. -/
theorem TrackedTask.WorksFor.length_sessions {t : TrackedTask} {k : Nat} (h : t.WorksFor k) :
    t.sessions.length = t.permits.length + if t.lingers then 1 else 0 := by
  obtain ⟨permit, hsuffix, -⟩ := h
  rw [lingers, sessions, permits]
  rcases List.suffix_cons_iff.1 hsuffix with hall | hsuffix
  · rw [hall]
    rfl
  · rcases List.suffix_cons_iff.1 hsuffix with hone | hnone
    · rw [hone]
      rfl
    · rw [List.suffix_nil.1 hnone]
      rfl

/-- Only a worker that has ended lingers. -/
theorem TrackedTask.WorksFor.ended_of_lingers {t : TrackedTask} {k : Nat} (h : t.WorksFor k)
    (hlingers : t.lingers = true) : t.ended = true := by
  obtain ⟨permit, -, hholds⟩ := h
  cases hended : t.ended with
  | true => rfl
  | false =>
      rw [lingers, permits, hholds hended] at hlingers
      cases hlingers

namespace Roster

theorem length_remaining (r : Roster) : r.remaining.length = r.active :=
  List.length_mergeSort _

end Roster

namespace Workforce

open Roster

variable {w w' : Workforce} {e : WorkStep} {slots : Nat} {connections : List (Endpoint × Nat)}

/-- The workers that have given back their slot and not their registration. -/
def lingering (w : Workforce) : List TrackedTask :=
  w.roster.tasks.filter TrackedTask.lingers

/-- The slots that no worker has: the free ones, and the one in the acceptor's hand. -/
def unworked (w : Workforce) : Nat :=
  w.roster.free + w.acceptor.permit?.toList.length

theorem length_workerSessions (htasks : ∀ t ∈ w.roster.tasks, ∃ k, t.WorksFor k) :
    w.roster.workerSessions.length = w.roster.workerPermits.length + w.lingering.length := by
  unfold workerSessions workerPermits lingering
  generalize w.roster.tasks = ts at *
  induction ts with
  | nil => rfl
  | cons t ts ih =>
      have hrest := ih fun u hu => htasks u (List.mem_cons_of_mem _ hu)
      obtain ⟨k, hworks⟩ := htasks t List.mem_cons_self
      have hthis := hworks.length_sessions
      rw [List.flatMap_cons, List.flatMap_cons, List.length_append, List.length_append, hthis, hrest]
      cases hlingers : t.lingers with
      | true =>
          rw [List.filter_cons_of_pos hlingers, List.length_cons, if_pos rfl]
          omega
      | false =>
          rw [List.filter_cons_of_neg (by simp [hlingers]), if_neg (by simp)]
          omega

/-- **Registrations and slots balance**, but for the workers that linger. -/
theorem Books.active_balance (h : Books slots 0 connections w) :
    w.roster.active + w.unworked = slots + w.lingering.length := by
  have hactive : w.roster.active = w.roster.workerSessions.length := by
    rw [← h.registry.ids, List.length_map, active]
  have hlength := length_workerSessions fun t ht => ⟨t.id, (h.worker ht).2⟩
  have hcount := h.staffed.count
  rw [unworked]
  omega

/-! ## Runs in which nobody is overtaken -/

/-- Whether every connection of a run is accepted at a moment when no worker lingers. -/
def AcceptsUncrowded : Workforce → List WorkStep → Bool
  | _, [] => true
  | w, e :: es => (e.connection?.isNone || w.lingering.isEmpty) &&
      (w.step? e).all fun w => w.AcceptsUncrowded es

/-- A step that registers a session while nobody lingers has a slot for it. -/
theorem Books.active_move (h : Books slots 0 connections w) (hmove : Move w e w')
    (huncrowded : e.connection? = none ∨ w.lingering = []) (hwithin : w.roster.active ≤ slots) :
    w'.roster.active ≤ slots := by
  cases h.hires hmove with
  | one hacceptor _ _ hsessions =>
      have hnobody : w.lingering = [] := by
        rcases huncrowded with hnone | hnobody
        · cases hnone
        · exact hnobody
      have hbalance := h.active_balance
      have hhand : w.acceptor.permit?.toList.length = 1 := by
        rw [hacceptor]
        rfl
      rw [unworked, hhand, hnobody, List.length_nil] at hbalance
      rw [active, hsessions, List.length_append, List.length_singleton]
      rw [active] at hbalance
      omega
  | nobody _ _ _ hsessions => exact Nat.le_trans hsessions.length_le hwithin

/-- **As long as nobody is overtaken the registry stays within the slots.** -/
theorem Books.active_le_of_uncrowded {es : List WorkStep} (h : Books slots 0 connections w)
    (hwithin : w.roster.active ≤ slots) (huncrowded : w.AcceptsUncrowded es = true)
    (hrun : w.run? es = some w') : w'.roster.active ≤ slots := by
  induction es generalizing w connections with
  | nil =>
      cases hrun
      exact hwithin
  | cons e es ih =>
      obtain ⟨u, hstep, hrest⟩ := Option.bind_eq_some_iff.1 hrun
      rw [AcceptsUncrowded, hstep, Option.all_some, Bool.and_eq_true, Bool.or_eq_true] at huncrowded
      obtain ⟨hfirst, hlater⟩ := huncrowded
      have hmove := move_of_step? hstep
      refine ih (h.move hmove) (h.active_move hmove ?_ hwithin) hlater hrest
      rwa [Option.isNone_iff_eq_none, List.isEmpty_iff] at hfirst

/-- **When the registry shows no more sessions than there are slots.**  In every state that acceptor and
workers can reach, registrations and slots balance but for the lingering workers, all of which have ended;
so the registry is within the slots exactly as long as no more workers linger than there are slots that no
worker has.  In particular it is if no connection was accepted while a worker lingered.  The list of the
registered sessions is as long as their number says. -/
theorem registry_within_slots_iff {roster : Roster} (hstart : Roster.start? slots = some roster)
    {es : List WorkStep} (hrun : ({ roster := roster } : Workforce).run? es = some w) :
    w.roster.active + w.unworked = slots + w.lingering.length ∧
      (∀ t ∈ w.lingering, t.ended = true) ∧
      (w.roster.active ≤ slots ↔ w.lingering.length ≤ w.unworked) ∧
      (({ roster := roster } : Workforce).AcceptsUncrowded es = true → w.roster.active ≤ slots) ∧
      w.roster.remaining.length = w.roster.active := by
  have hbooks := books_run hstart hrun
  have hbalance := hbooks.active_balance
  refine ⟨hbalance, ?_, ?_, ?_, w.roster.length_remaining⟩
  · intro t ht
    obtain ⟨htask, hlingers⟩ := List.mem_filter.1 ht
    exact (hbooks.worker htask).2.ended_of_lingers hlingers
  · constructor
    · intro hwithin
      omega
    · intro hfew
      omega
  · intro huncrowded
    have hopening := books_start hstart
    have hnobody : roster.active ≤ slots := by
      unfold Roster.start? at hstart
      split at hstart
      · cases hstart
        exact Nat.zero_le slots
      · cases hstart
    exact hopening.active_le_of_uncrowded hnobody huncrowded hrun

/-- On one slot, a worker that has given back its slot is overtaken by the next connection. -/
def overlap : List WorkStep :=
  [.look, .takeSlot, .accept (.quad 127 0 0 1 1) 0, .look, .finish 0, .retire 0, .takeSlot,
    .accept (.quad 127 0 0 1 2) 1]

/-- The theorem at that run: the registry is over the slots by the worker that lingers. -/
theorem overlap_in_balance : ∃ w, Roster.start? 1 = some { free := 1 } ∧
    ({ roster := { free := 1 } } : Workforce).run? overlap = some w ∧ w.lingering.length = 1 ∧
    w.unworked = 0 ∧ w.roster.active + w.unworked = 1 + w.lingering.length ∧ ¬ w.roster.active ≤ 1 := by
  have hstart : Roster.start? 1 = some { free := 1 } := rfl
  have hseen : (({ roster := { free := 1 } } : Workforce).run? overlap).map
      (fun w => (w.lingering.length, w.unworked)) = some (1, 0) := by decide +kernel
  obtain ⟨w, hrun, hw⟩ := Option.map_eq_some_iff.1 hseen
  obtain ⟨hlingering, hunworked⟩ := Prod.mk.inj hw
  obtain ⟨hbalance, -, hwithin, -, -⟩ := registry_within_slots_iff hstart hrun
  refine ⟨w, hstart, hrun, hlingering, hunworked, hbalance, ?_⟩
  rw [hwithin, hlingering, hunworked]
  omega

/-- **The registry can show more sessions than there are slots**: two on one slot. -/
theorem overlap_overruns_registry : ∃ w, Roster.start? 1 = some { free := 1 } ∧
    ({ roster := { free := 1 } } : Workforce).run? overlap = some w ∧ w.roster.active = 2 ∧
    w.roster.remaining.length = 2 := by
  have hseen : (({ roster := { free := 1 } } : Workforce).run? overlap).map
      (fun w => w.roster.active) = some 2 := by decide +kernel
  obtain ⟨w, hrun, hactive⟩ := Option.map_eq_some_iff.1 hseen
  exact ⟨w, rfl, hrun, hactive, w.roster.length_remaining.trans hactive⟩

/-! ## Runs in which workers are overtaken -/

/-- The next task is the one that is added. -/
theorem task?_spawn {r : Roster} (h : r.Workers 0 connections) (guards : List Guard) :
    (r.spawn guards).2.task? r.nextTask = some ⟨r.nextTask, guards, false⟩ := by
  have hother : ∀ t ∈ r.tasks, ¬ decide (t.id = r.nextTask) = true := by
    intro t ht hsame
    have hlt := h.id_lt ht
    rw [of_decide_eq_true hsame] at hlt
    exact Nat.lt_irrefl _ hlt
  rw [task?, spawn, List.find?_append, List.find?_eq_none.2 hother]
  simp

theorem task?_setTask_self (r : Roster) (id : Nat) {f : TrackedTask → TrackedTask}
    (hf : ∀ t, (f t).id = t.id) : (r.setTask id f).task? id = (r.task? id).map f := by
  have hsame : ((fun t : TrackedTask => decide (t.id = id)) ∘ fun t => if t.id = id then f t else t) =
      fun t => decide (t.id = id) := by
    funext t
    by_cases ht : t.id = id
    · simp only [Function.comp, if_pos ht, hf]
    · simp only [Function.comp, if_neg ht]
  rw [task?, task?, setTask, List.find?_map, hsame]
  cases hfound : r.tasks.find? fun t => decide (t.id = id) with
  | none => rfl
  | some t =>
      have hid : t.id = id := by simpa using List.find?_some hfound
      simp only [Option.map_some, if_pos hid]

/-- An acceptor that looks for work in a service that goes on, with some slots free. -/
structure Open (w : Workforce) (free : Nat) : Prop where
  looking : w.acceptor = .looking
  goesOn : w.roster.stopping = false ∧ w.roster.cancelled = false
  free : w.roster.free = free

/-- A free slot can be taken for a connection. -/
theorem Books.exists_hiring (h : Books slots 0 connections w) {free : Nat} (hopen : w.Open (free + 1))
    (peer : Endpoint) (now : Nat) :
    ∃ w' permit, (∀ more, w.run? ([.look, .takeSlot, .accept peer now] ++ more) = w'.run? more) ∧
      Books slots 0 (connections ++ [(peer, now)]) w' ∧ w'.Open free ∧
      w'.roster.active = w.roster.active + 1 ∧ permit ∈ w'.roster.held ∧
      w'.roster.task? connections.length =
        some ⟨connections.length, [.slot permit, .session connections.length], false⟩ := by
  obtain ⟨r, a⟩ := w
  obtain ⟨rfl, ⟨hstopping, hcancelled⟩, hfree⟩ := hopen
  dsimp only at hstopping hcancelled hfree
  have hlook : step? ⟨r, .looking⟩ .look = some ⟨r, .awaitingSlot⟩ := by
    simp only [step?, hstopping, Bool.false_eq_true, if_false]
  obtain ⟨r₁, hr₁⟩ : ∃ r₁ : Roster, r₁ = { r with
    free := free, held := r.held ++ [r.nextPermit], nextPermit := r.nextPermit + 1 } := ⟨_, rfl⟩
  have htake : step? ⟨r, .awaitingSlot⟩ .takeSlot = some ⟨r₁, .awaitingPeer r.nextPermit⟩ := by
    simp [step?, hcancelled, acquire?, hfree, hr₁]
  have haccept : step? ⟨r₁, .awaitingPeer r.nextPermit⟩ (.accept peer now) =
      some ⟨((r₁.register peer now).2.spawn [.slot r.nextPermit, .session r₁.nextSession]).2,
        .looking⟩ := by
    simp [step?, hr₁, hcancelled, register]
  have hbooks : Books slots 0 (connections ++ [] ++ []) ⟨r₁, .awaitingPeer r.nextPermit⟩ :=
    (h.move (move_of_step? hlook)).move (move_of_step? htake)
  rw [List.append_nil, List.append_nil] at hbooks
  have hsession : r₁.nextSession = connections.length := hbooks.registry.next
  have htask : r₁.nextTask = connections.length := by
    rw [hbooks.workers.next, Nat.zero_add]
  refine ⟨_, r.nextPermit, ?_, hbooks.move (move_of_step? haccept), ⟨rfl, ?_, ?_⟩, ?_, ?_, ?_⟩
  · intro more
    simp only [List.cons_append, List.nil_append, run?, hlook, htake, haccept, Option.bind_some]
  · rw [hr₁]
    exact ⟨hstopping, hcancelled⟩
  · rw [hr₁]
    rfl
  · rw [hr₁]
    exact List.length_append
  · rw [hr₁]
    exact List.mem_append_right _ List.mem_cons_self
  · have hworkers : (r₁.register peer now).2.Workers 0 connections := hbooks.workers.of_eq rfl rfl
    have hlast : ((r₁.register peer now).2.spawn [.slot r.nextPermit, .session r₁.nextSession]).2.task?
        r₁.nextTask = some ⟨r₁.nextTask, [.slot r.nextPermit, .session r₁.nextSession], false⟩ :=
      task?_spawn hworkers _
    simpa only [htask, hsession] using hlast

/-- A worker can end, give its slot back and be left with its registration. -/
theorem Books.exists_lingering (h : Books slots 0 connections w) {free : Nat} (hopen : w.Open free)
    {id permit session : Nat} (hheld : permit ∈ w.roster.held)
    (ht : w.roster.task? id = some ⟨id, [.slot permit, .session session], false⟩) :
    ∃ w', (∀ more, w.run? ([.finish id, .retire id] ++ more) = w'.run? more) ∧
      Books slots 0 connections w' ∧ w'.Open (free + 1) ∧ w'.roster.active = w.roster.active := by
  have hfinish : w.step? (.finish id) = some { w with roster := w.roster.finish id } := by
    simp [step?, ht]
  have hended : (w.roster.finish id).task? id =
      some ⟨id, [.slot permit, .session session], true⟩ := by
    rw [Roster.finish, task?_setTask_self _ id (f := fun t => { t with ended := true }) fun _ => rfl, ht]
    rfl
  have hretire : step? { w with roster := w.roster.finish id } (.retire id) = some { w with
      roster := ((w.roster.finish id).setTask id fun t =>
        { t with guards := [.session session] }).release permit } := by
    simp [step?, retire?, hended, Roster.giveBack]
  have hbooks : Books slots 0 (connections ++ [] ++ []) _ :=
    (h.move (move_of_step? hfinish)).move (move_of_step? hretire)
  rw [List.append_nil, List.append_nil] at hbooks
  refine ⟨_, ?_, hbooks, ?_, ?_⟩
  · intro more
    simp only [List.cons_append, List.nil_append, run?, hfinish, hretire, Option.bind_some]
  · have hback : ((w.roster.finish id).setTask id fun t =>
        { t with guards := [.session session] }).release permit = { w.roster.finish id with
          tasks := ((w.roster.finish id).setTask id fun t =>
            { t with guards := [.session session] }).tasks
          free := w.roster.free + 1
          held := w.roster.held.erase permit } := if_pos hheld
    rw [hback]
    exact ⟨hopen.looking, hopen.goesOn, by rw [← hopen.free]⟩
  · obtain ⟨-, hsessions, -, -⟩ := ((w.roster.finish id).setTask id fun t =>
      { t with guards := [.session session] }).release_same permit
    rw [active, hsessions]
    rfl

/-- **The registry has no bound of its own**: over any number of slots, one at least, any number of sessions
can be registered at once. -/
theorem exists_overrun {roster : Roster} (hstart : Roster.start? slots = some roster) (hslots : 0 < slots)
    (sessions : Nat) : ∃ (es : List WorkStep) (w : Workforce),
      ({ roster := roster } : Workforce).run? es = some w ∧ w.roster.active = sessions := by
  -- each session in turn takes the slot that the one before it has left
  have hmore : ∀ (n : Nat) {connections : List (Endpoint × Nat)} {w : Workforce},
      Books slots 0 connections w → w.Open slots →
      ∃ es w', w.run? es = some w' ∧ w'.roster.active = w.roster.active + n := by
    intro n
    induction n with
    | zero => exact fun _ _ => ⟨[], _, rfl, rfl⟩
    | succ n ih =>
        intro connections w hbooks hopen
        obtain ⟨free, rfl⟩ := Nat.exists_eq_succ_of_ne_zero (Nat.ne_of_gt hslots)
        obtain ⟨w₁, permit, hrun₁, hbooks₁, hopen₁, hactive₁, hheld, ht⟩ :=
          hbooks.exists_hiring hopen (.quad 127 0 0 1 1) n
        obtain ⟨w₂, hrun₂, hbooks₂, hopen₂, hactive₂⟩ := hbooks₁.exists_lingering hopen₁ hheld ht
        obtain ⟨es, w', hrun, hactive⟩ := ih hbooks₂ hopen₂
        refine ⟨_, w', (hrun₁ _).trans ((hrun₂ es).trans hrun), ?_⟩
        rw [hactive, hactive₂, hactive₁]
        omega
  have hbooks := books_start hstart
  unfold Roster.start? at hstart
  split at hstart
  · cases hstart
    obtain ⟨es, w, hrun, hactive⟩ := hmore sessions hbooks ⟨rfl, ⟨rfl, rfl⟩, rfl⟩
    exact ⟨es, w, hrun, hactive.trans (Nat.zero_add _)⟩
  · cases hstart

end Workforce

end EchoLog

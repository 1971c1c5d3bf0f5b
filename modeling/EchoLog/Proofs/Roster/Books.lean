import EchoLog.Proofs.Roster.Moves
import Mathlib.Data.List.Nodup
/-!
# Nothing is lost between the acceptor and its workers

A worker slot is free, held by one worker, or held by the acceptor, and it is never two of these; a
registration stands for one worker, and a worker for one accepted connection.  `Workforce.Books` says so
of acceptor and roster together, in three parts that can be kept apart: the slots, the registry and the
workers.  Every move keeps the books (`Books.move`), in whatever order acceptor and workers move, and
whether a worker ends by itself or breaks off.

`Staffed` is what a reader of the books wants to know: no slot is lost, doubled or overrun, each accepted
connection got one worker, one registration and one slot, and when nobody is at work all of it is back.
-/

namespace EchoLog

/-! ## What tasks hold -/

/-- The permit of the slot that a guard gives back: one or none. -/
def Guard.permits : Guard → List Nat
  | .slot permit => [permit]
  | .session _ => []

/-- The registration that a guard ends: one or none. -/
def Guard.sessions : Guard → List Nat
  | .slot _ => []
  | .session id => [id]

/-- The permits that a task holds. -/
def TrackedTask.permits (t : TrackedTask) : List Nat :=
  t.guards.flatMap Guard.permits

/-- The registrations that a task holds. -/
def TrackedTask.sessions (t : TrackedTask) : List Nat :=
  t.guards.flatMap Guard.sessions

/-- A task works for the connection with a number: it holds a slot and the registration with that
number, and lets go of them, the slot first, only when it has ended. -/
def TrackedTask.WorksFor (t : TrackedTask) (k : Nat) : Prop :=
  ∃ permit, t.guards <:+ [.slot permit, .session k] ∧
    (t.ended = false → t.guards = [.slot permit, .session k])

theorem TrackedTask.WorksFor.letsGo {t : TrackedTask} {k : Nat} {g : Guard} {rest : List Guard}
    (h : t.WorksFor k) (hended : t.ended = true) (hguards : t.guards = g :: rest) :
    ({ t with guards := rest } : TrackedTask).WorksFor k := by
  obtain ⟨permit, hsuffix, -⟩ := h
  rw [hguards] at hsuffix
  refine ⟨permit, (List.suffix_cons g rest).trans hsuffix, ?_⟩
  intro hrunning
  exact absurd (hended.symm.trans hrunning) (by simp)

namespace Roster

/-- The permits that the tasks hold. -/
def workerPermits (r : Roster) : List Nat :=
  r.tasks.flatMap (·.permits)

/-- The registrations that the tasks hold. -/
def workerSessions (r : Roster) : List Nat :=
  r.tasks.flatMap (·.sessions)

variable {r r' : Roster} {slots first : Nat} {out : List Nat}

theorem workerPermits_of_eq (h : r'.tasks = r.tasks) : r'.workerPermits = r.workerPermits :=
  congrArg (List.flatMap TrackedTask.permits) h

theorem workerSessions_of_eq (h : r'.tasks = r.tasks) : r'.workerSessions = r.workerSessions :=
  congrArg (List.flatMap TrackedTask.sessions) h

/-- Giving a slot back leaves tasks and registrations alone. -/
theorem release_same (r : Roster) (permit : Nat) : (r.release permit).tasks = r.tasks ∧
    (r.release permit).sessions = r.sessions ∧ (r.release permit).nextTask = r.nextTask ∧
    (r.release permit).nextSession = r.nextSession := by
  unfold release
  split <;> exact ⟨rfl, rfl, rfl, rfl⟩

/-- Giving something back leaves the tasks alone and registers nothing. -/
theorem giveBack_same (r : Roster) (g : Guard) : (r.giveBack g).tasks = r.tasks ∧
    (r.giveBack g).nextTask = r.nextTask ∧ (r.giveBack g).sessions.Sublist r.sessions := by
  cases g with
  | slot permit =>
      obtain ⟨htasks, hsessions, hnext, -⟩ := r.release_same permit
      exact ⟨htasks, hnext, by rw [giveBack, hsessions]⟩
  | session id => exact ⟨rfl, rfl, List.filter_sublist⟩

/-- A task that ends lets go of nothing yet. -/
theorem finish_flatMap (r : Roster) (id : Nat) {held : TrackedTask → List Nat}
    (hheld : ∀ t : TrackedTask, held { t with ended := true } = held t) :
    (r.finish id).tasks.flatMap held = r.tasks.flatMap held := by
  rw [finish, setTask, List.flatMap_map]
  refine List.flatMap_congr fun t _ => ?_
  split
  · exact hheld t
  · rfl

/-- A task that holds nothing can be forgotten. -/
theorem Split.forget_flatMap {id : Nat} {t : TrackedTask} {before after : List TrackedTask}
    (h : r.Split id t before after) {held : TrackedTask → List Nat} (hnone : held t = []) :
    (r.forget id).tasks.flatMap held = r.tasks.flatMap held := by
  rw [h.flatMap, h.flatMap_forget, hnone, List.nil_append]

/-! ## Slots -/

/-- All slots are free but those of the permits that are out, each of which is out once. -/
structure Slots (slots : Nat) (out : List Nat) (r : Roster) : Prop where
  count : r.free + r.held.length = slots
  held : r.held.Perm out
  once : r.held.Nodup
  known : ∀ permit ∈ r.held, permit < r.nextPermit

theorem Slots.of_eq (h : r.Slots slots out) (hfree : r'.free = r.free) (hheld : r'.held = r.held)
    (hnext : r'.nextPermit = r.nextPermit) : r'.Slots slots out := by
  refine ⟨?_, ?_, ?_, ?_⟩
  · rw [hfree, hheld]
    exact h.count
  · rw [hheld]
    exact h.held
  · rw [hheld]
    exact h.once
  · rw [hheld, hnext]
    exact h.known

theorem Slots.perm (h : r.Slots slots out) {out' : List Nat} (hperm : out.Perm out') :
    r.Slots slots out' :=
  ⟨h.count, h.held.trans hperm, h.once, h.known⟩

theorem Slots.acquire (h : r.Slots slots out) {free : Nat} (hfree : r.free = free + 1) :
    ({ r with free := free, held := r.held ++ [r.nextPermit], nextPermit := r.nextPermit + 1 } :
      Roster).Slots slots (out ++ [r.nextPermit]) := by
  refine ⟨?_, h.held.append_right _, ?_, ?_⟩
  · have := h.count
    simp only [List.length_append, List.length_singleton]
    omega
  · refine List.nodup_append.2 ⟨h.once, List.pairwise_singleton .., ?_⟩
    intro a ha b hb hab
    have := h.known a ha
    rw [hab, List.mem_singleton.1 hb] at this
    exact Nat.lt_irrefl _ this
  · intro permit hp
    rcases List.mem_append.1 hp with hp | hp
    · exact Nat.lt_succ_of_lt (h.known permit hp)
    · rw [List.mem_singleton.1 hp]
      exact Nat.lt_succ_self _

theorem Slots.release {permit : Nat} (h : r.Slots slots (permit :: out)) :
    (r.release permit).Slots slots out := by
  have hmem : permit ∈ r.held := h.held.mem_iff.2 List.mem_cons_self
  have hheld : (r.held.erase permit).Perm out := by
    simpa only [List.erase_cons_head] using h.held.erase permit
  rw [Roster.release, if_pos hmem]
  refine ⟨?_, hheld, h.once.erase permit, ?_⟩
  · have hlength := List.length_erase_of_mem hmem
    have hpos := List.length_pos_of_mem hmem
    have := h.count
    simp only
    omega
  · exact fun p hp => h.known p (List.mem_of_mem_erase hp)

/-! ## Registrations -/

/-- The registry lists the registrations that are out, each of which belongs to a connection and is out
once; as many were made as connections were accepted. -/
structure Registry (connections : List (Endpoint × Nat)) (out : List Nat) (r : Roster) : Prop where
  ids : r.sessions.map (·.id) = out
  once : out.Nodup
  told : ∀ s ∈ r.sessions, connections[s.id]? = some (s.peer, s.acceptedAt)
  next : r.nextSession = connections.length

variable {connections : List (Endpoint × Nat)}

theorem Registry.of_eq (h : r.Registry connections out) (hsessions : r'.sessions = r.sessions)
    (hnext : r'.nextSession = r.nextSession) : r'.Registry connections out := by
  refine ⟨?_, h.once, ?_, hnext.trans h.next⟩
  · rw [hsessions]
    exact h.ids
  · rw [hsessions]
    exact h.told

theorem Registry.register (h : r.Registry connections out) (peer : Endpoint) (now : Nat) :
    (r.register peer now).2.Registry (connections ++ [(peer, now)]) (out ++ [r.nextSession]) := by
  have hfresh : ∀ i ∈ out, i < r.nextSession := by
    intro i hi
    rw [← h.ids] at hi
    obtain ⟨s, hs, rfl⟩ := List.mem_map.1 hi
    rw [h.next]
    exact (List.getElem?_eq_some_iff.1 (h.told s hs)).1
  refine ⟨?_, ?_, ?_, ?_⟩
  · rw [Roster.register, List.map_append, h.ids]
    rfl
  · refine List.nodup_append.2 ⟨h.once, List.pairwise_singleton .., ?_⟩
    intro a ha b hb hab
    have := hfresh a ha
    rw [hab, List.mem_singleton.1 hb] at this
    exact Nat.lt_irrefl _ this
  · intro s hs
    rcases List.mem_append.1 hs with hs | hs
    · have hold := h.told s hs
      rw [List.getElem?_append_left (List.getElem?_eq_some_iff.1 hold).1]
      exact hold
    · rw [List.mem_singleton.1 hs, h.next, List.getElem?_concat_length]
  · rw [Roster.register, List.length_append, List.length_singleton, h.next]

theorem Registry.deregister {before after : List Nat} {id : Nat}
    (h : r.Registry connections (before ++ id :: after)) :
    (r.deregister id).Registry connections (before ++ after) := by
  have honce := List.nodup_middle.1 h.once
  refine ⟨?_, (List.nodup_cons.1 honce).2, ?_, h.next⟩
  · have hkept : ∀ i ∈ before ++ after, decide (i ≠ id) = true := by
      intro i hi
      refine decide_eq_true ?_
      rintro rfl
      exact (List.nodup_cons.1 honce).1 hi
    have hfilter : (r.sessions.filter (·.id ≠ id)).map (·.id) =
        (before ++ id :: after).filter (· ≠ id) := by
      rw [← h.ids, List.filter_map]
      rfl
    rw [Roster.deregister, hfilter, List.filter_append, List.filter_cons_of_neg (by simp),
      ← List.filter_append]
    exact List.filter_eq_self.2 hkept
  · exact fun s hs => h.told s (List.mem_of_mem_filter hs)

/-! ## Workers -/

/-- Each tracked task works for one connection, the `k`-th being served by task `first + k`.  Only tasks
before those serve none, and hold nothing. -/
structure Workers (first : Nat) (connections : List (Endpoint × Nat)) (r : Roster) : Prop where
  once : (r.tasks.map (·.id)).Nodup
  each : ∀ t ∈ r.tasks, (t.id < first ∧ t.guards = []) ∨
    ∃ k, k < connections.length ∧ t.id = first + k ∧ t.WorksFor k
  next : r.nextTask = first + connections.length

theorem Workers.id_lt (h : r.Workers first connections) {t : TrackedTask} (ht : t ∈ r.tasks) :
    t.id < r.nextTask := by
  rw [h.next]
  rcases h.each t ht with ⟨hlt, -⟩ | ⟨k, hk, hid, -⟩ <;> omega

theorem Workers.of_eq (h : r.Workers first connections) (htasks : r'.tasks = r.tasks)
    (hnext : r'.nextTask = r.nextTask) : r'.Workers first connections := by
  refine ⟨?_, ?_, hnext.trans h.next⟩
  · rw [htasks]
    exact h.once
  · rw [htasks]
    exact h.each

/-- A worker more for a connection more. -/
theorem Workers.hire (h : r.Workers first connections) (connection : Endpoint × Nat) (permit : Nat)
    (htasks : r'.tasks =
      r.tasks ++ [⟨r.nextTask, [.slot permit, .session connections.length], false⟩])
    (hnext : r'.nextTask = r.nextTask + 1) : r'.Workers first (connections ++ [connection]) := by
  refine ⟨?_, ?_, ?_⟩
  · rw [htasks, List.map_append]
    refine List.nodup_append.2 ⟨h.once, List.pairwise_singleton .., ?_⟩
    intro a ha b hb hab
    obtain ⟨t, ht, rfl⟩ := List.mem_map.1 ha
    have := h.id_lt ht
    rw [hab, List.mem_singleton.1 hb] at this
    exact Nat.lt_irrefl _ this
  · rw [htasks]
    intro t ht
    rw [List.length_append, List.length_singleton]
    rcases List.mem_append.1 ht with ht | ht
    · rcases h.each t ht with hplain | ⟨k, hk, hid, hworks⟩
      · exact .inl hplain
      · exact .inr ⟨k, Nat.lt_succ_of_lt hk, hid, hworks⟩
    · rw [List.mem_singleton.1 ht]
      exact .inr ⟨connections.length, Nat.lt_succ_self _, h.next,
        permit, List.suffix_refl _, fun _ => rfl⟩
  · rw [hnext, h.next, List.length_append, List.length_singleton, Nat.add_assoc]

/-- A change of one task that leaves its id, and its work as far as it has one. -/
theorem Workers.setTask (h : r.Workers first connections) {id : Nat} {t : TrackedTask}
    (ht : r.task? id = some t) {f : TrackedTask → TrackedTask} (hid : ∀ t, (f t).id = t.id)
    (hplain : t.guards = [] → (f t).guards = []) (hworks : ∀ k, t.WorksFor k → (f t).WorksFor k) :
    (r.setTask id f).Workers first connections := by
  obtain ⟨before, after, hsplit⟩ := exists_split h.once ht
  refine ⟨?_, ?_, h.next⟩
  · rw [setTask_ids r id hid]
    exact h.once
  · intro u hu
    rcases hsplit.mem_setTask hu with rfl | hu
    · rw [hid]
      rcases h.each t hsplit.task_mem with ⟨hlt, hg⟩ | ⟨k, hk, hidk, hw⟩
      · exact .inl ⟨hlt, hplain hg⟩
      · exact .inr ⟨k, hk, hidk, hworks k hw⟩
    · exact h.each u hu

theorem Workers.forget (h : r.Workers first connections) (id : Nat) :
    (r.forget id).Workers first connections := by
  have hsub := r.forget_sublist id
  exact ⟨h.once.sublist (hsub.map _), fun t ht => h.each t (hsub.subset ht), h.next⟩

end Roster

/-! ## The books -/

/-- The connection that a step accepts. -/
def WorkStep.connection? : WorkStep → Option (Endpoint × Nat)
  | .accept peer now => some (peer, now)
  | _ => none

namespace Workforce

open Roster

/-- The connections that were accepted, in order. -/
def accepted (es : List WorkStep) : List (Endpoint × Nat) :=
  es.filterMap WorkStep.connection?

theorem accepted_concat (es : List WorkStep) (e : WorkStep) :
    accepted (es ++ [e]) = accepted es ++ e.connection?.toList := by
  rw [accepted, accepted, List.filterMap_append]
  cases h : e.connection? <;> simp [h]

/-- The permits that are out: those of the workers, and the one that the acceptor holds. -/
def permitsOut (w : Workforce) : List Nat :=
  w.roster.workerPermits ++ w.acceptor.permit?.toList

/-- The books of a workforce that has accepted some connections; `first` tasks were tracked before. -/
structure Books (slots first : Nat) (connections : List (Endpoint × Nat)) (w : Workforce) : Prop where
  slots : w.roster.Slots slots w.permitsOut
  registry : w.roster.Registry connections w.roster.workerSessions
  workers : w.roster.Workers first connections

variable {w w' : Workforce} {e : WorkStep} {slots first : Nat} {connections : List (Endpoint × Nat)}

/-- Nothing is out in the beginning. -/
theorem books_start {roster : Roster} (hstart : Roster.start? slots = some roster) :
    Books slots 0 [] { roster := roster } := by
  unfold Roster.start? at hstart
  split at hstart
  · cases hstart
    exact ⟨⟨rfl, .refl _, List.nodup_nil, by simp⟩, ⟨rfl, List.nodup_nil, by simp, rfl⟩,
      ⟨List.nodup_nil, by simp, rfl⟩⟩
  · cases hstart

/-- The acceptor leaves tasks and registrations alone. -/
theorem settleOn_same (w : Workforce) (a : Acceptor) :
    (w.settleOn a).roster.tasks = w.roster.tasks ∧
      (w.settleOn a).roster.nextTask = w.roster.nextTask ∧
      (w.settleOn a).roster.sessions = w.roster.sessions := by
  unfold settleOn
  split
  · obtain ⟨htasks, hsessions, hnext, -⟩ := w.roster.release_same _
    exact ⟨htasks, hnext, hsessions⟩
  · exact ⟨rfl, rfl, rfl⟩

/-- The acceptor gives back what it holds. -/
theorem Books.settleOn (h : Books slots first connections w) {a : Acceptor} (ha : a.permit? = none) :
    Books slots first connections (w.settleOn a) := by
  have hslots := h.slots
  unfold Workforce.settleOn
  split
  · rename_i permit hpermit
    rw [permitsOut, hpermit, Option.toList_some] at hslots
    have hrelease := (hslots.perm (List.perm_append_singleton permit _)).release
    obtain ⟨htasks, hsessions, hnextTask, hnextSession⟩ := w.roster.release_same permit
    refine ⟨?_, ?_, h.workers.of_eq htasks hnextTask⟩
    · rwa [permitsOut, ha, Option.toList_none, List.append_nil, workerPermits_of_eq htasks]
    · rw [workerSessions_of_eq htasks]
      exact h.registry.of_eq hsessions hnextSession
  · rename_i hpermit
    rw [permitsOut, hpermit, Option.toList_none] at hslots
    refine ⟨?_, h.registry, h.workers⟩
    rwa [permitsOut, ha, Option.toList_none]

/-- A worker that has ended gives its next guard back. -/
theorem Books.giveBack (h : Books slots first connections w) {id : Nat} {t : TrackedTask} {g : Guard}
    {rest : List Guard} (ht : w.roster.task? id = some t) (hended : t.ended = true)
    (hguards : t.guards = g :: rest) :
    Books slots first connections { w with
      roster := (w.roster.setTask id fun t => { t with guards := rest }).giveBack g } := by
  obtain ⟨before, after, hsplit⟩ := exists_split h.workers.once ht
  have hworkers : (w.roster.setTask id fun t => { t with guards := rest }).Workers first connections := by
    refine h.workers.setTask ht (fun _ => rfl) ?_ fun k hk => hk.letsGo hended hguards
    intro hnone
    rw [hnone] at hguards
    cases hguards
  have hpermits : w.roster.workerPermits = before.flatMap (·.permits) ++ (g.permits ++
      (rest.flatMap Guard.permits ++ after.flatMap (·.permits))) := by
    rw [workerPermits, hsplit.flatMap, TrackedTask.permits, hguards, List.flatMap_cons,
      List.append_assoc]
  have hsessions : w.roster.workerSessions = before.flatMap (·.sessions) ++ (g.sessions ++
      (rest.flatMap Guard.sessions ++ after.flatMap (·.sessions))) := by
    rw [workerSessions, hsplit.flatMap, TrackedTask.sessions, hguards, List.flatMap_cons,
      List.append_assoc]
  have hpermits' : (w.roster.setTask id fun t => { t with guards := rest }).workerPermits =
      before.flatMap (·.permits) ++ (rest.flatMap Guard.permits ++ after.flatMap (·.permits)) :=
    hsplit.flatMap_setTask _ _
  have hsessions' : (w.roster.setTask id fun t => { t with guards := rest }).workerSessions =
      before.flatMap (·.sessions) ++ (rest.flatMap Guard.sessions ++ after.flatMap (·.sessions)) :=
    hsplit.flatMap_setTask _ _
  have hslots : (w.roster.setTask id fun t => { t with guards := rest }).Slots slots _ :=
    h.slots.of_eq rfl rfl rfl
  have hregistry : (w.roster.setTask id fun t => { t with guards := rest }).Registry connections _ :=
    h.registry.of_eq rfl rfl
  rw [permitsOut, hpermits, List.append_assoc] at hslots
  rw [hsessions] at hregistry
  generalize w.roster.setTask id (fun t => { t with guards := rest }) = r at *
  cases g with
  | slot permit =>
      obtain ⟨htasks, hsame, hnextTask, hnextSession⟩ := r.release_same permit
      refine ⟨?_, ?_, hworkers.of_eq htasks hnextTask⟩
      · change (r.release permit).Slots slots ((r.release permit).workerPermits ++ _)
        rw [workerPermits_of_eq htasks, hpermits', List.append_assoc]
        rw [List.append_assoc] at hslots
        exact (hslots.perm List.perm_middle).release
      · change (r.release permit).Registry connections (r.release permit).workerSessions
        rw [workerSessions_of_eq htasks, hsessions']
        exact hregistry.of_eq hsame hnextSession
  | session i =>
      refine ⟨?_, ?_, hworkers.of_eq rfl rfl⟩
      · change (r.deregister i).Slots slots (r.workerPermits ++ _)
        rw [hpermits', List.append_assoc]
        exact hslots.of_eq rfl rfl rfl
      · change (r.deregister i).Registry connections r.workerSessions
        rw [hsessions']
        exact hregistry.deregister

/-- A worker that has nothing left to give back goes. -/
theorem Books.go (h : Books slots first connections w) {id : Nat} {t : TrackedTask}
    (ht : w.roster.task? id = some t) (hguards : t.guards = []) :
    Books slots first connections { w with roster := w.roster.forget id } := by
  obtain ⟨before, after, hsplit⟩ := exists_split h.workers.once ht
  have hpermits : (w.roster.forget id).workerPermits = w.roster.workerPermits :=
    hsplit.forget_flatMap (by rw [TrackedTask.permits, hguards, List.flatMap_nil])
  have hsessions : (w.roster.forget id).workerSessions = w.roster.workerSessions :=
    hsplit.forget_flatMap (by rw [TrackedTask.sessions, hguards, List.flatMap_nil])
  refine ⟨?_, ?_, h.workers.forget id⟩
  · rw [permitsOut, hpermits]
    exact h.slots.of_eq rfl rfl rfl
  · rw [hsessions]
    exact h.registry.of_eq rfl rfl

/-- A worker has ended. -/
theorem Books.finish (h : Books slots first connections w) {id : Nat} {t : TrackedTask}
    (ht : w.roster.task? id = some t) :
    Books slots first connections { w with roster := w.roster.finish id } := by
  refine ⟨?_, ?_, ?_⟩
  · rw [permitsOut, workerPermits, w.roster.finish_flatMap id fun _ => rfl]
    exact h.slots.of_eq rfl rfl rfl
  · rw [workerSessions, w.roster.finish_flatMap id fun _ => rfl]
    exact h.registry.of_eq rfl rfl
  · refine h.workers.setTask ht (fun _ => rfl) (fun hnone => hnone) ?_
    rintro k ⟨permit, hsuffix, -⟩
    exact ⟨permit, hsuffix, fun hrunning => absurd hrunning (by simp)⟩

/-- A connection is accepted: a new worker gets the slot that the acceptor held. -/
theorem Books.accept (h : Books slots first connections w) {permit : Nat}
    (hacceptor : w.acceptor = .awaitingPeer permit) (peer : Endpoint) (now : Nat) :
    Books slots first (connections ++ [(peer, now)])
      ⟨((w.roster.register peer now).2.spawn [.slot permit, .session w.roster.nextSession]).2,
        .looking⟩ := by
  have hslots := h.slots
  rw [permitsOut, hacceptor] at hslots
  refine ⟨?_, ?_, ?_⟩
  · rw [permitsOut, workerPermits, Roster.spawn, List.flatMap_append]
    exact (hslots.perm (.of_eq (List.append_nil _).symm)).of_eq rfl rfl rfl
  · rw [workerSessions, Roster.spawn, List.flatMap_append]
    exact (h.registry.register peer now).of_eq rfl rfl
  · refine h.workers.hire (peer, now) permit ?_ rfl
    rw [← h.registry.next]
    rfl

/-- A step that accepts nothing adds no connection. -/
theorem Books.none_more (h : Books slots first connections w) :
    Books slots first (connections ++ (none : Option (Endpoint × Nat)).toList) w := by
  rwa [Option.toList_none, List.append_nil]

/-- **Every move keeps the books**, which grow by the connection that it accepts, if it does. -/
theorem Books.move (h : Books slots first connections w) (hmove : Move w e w') :
    Books slots first (connections ++ e.connection?.toList) w' := by
  cases hmove with
  | look hacceptor =>
      refine Books.none_more ⟨?_, h.registry, h.workers⟩
      have hslots := h.slots
      rw [permitsOut, hacceptor] at hslots
      rw [permitsOut]
      dsimp only
      split <;> exact hslots
  | takeSlot hacceptor _ hfree =>
      refine Books.none_more ⟨?_, h.registry.of_eq rfl rfl, h.workers.of_eq rfl rfl⟩
      have hslots := h.slots
      rw [permitsOut, hacceptor] at hslots
      exact (hslots.perm (.of_eq (List.append_nil _))).acquire hfree
  | accept peer now hacceptor _ => exact h.accept hacceptor peer now
  | acceptFails cause _ _ =>
      refine (h.settleOn ?_).none_more
      split <;> rfl
  | leave _ _ => exact (h.settleOn rfl).none_more
  | abandon => exact (h.settleOn rfl).none_more
  | finish ht _ => exact (h.finish ht).none_more
  | giveBack ht hended hguards => exact (h.giveBack ht hended hguards).none_more
  | go ht _ hguards => exact (h.go ht hguards).none_more
  | requestStop =>
      exact Books.none_more
        ⟨h.slots.of_eq rfl rfl rfl, h.registry.of_eq rfl rfl, h.workers.of_eq rfl rfl⟩

/-- **Every run keeps the books.** -/
theorem books_run {roster : Roster} (hstart : Roster.start? slots = some roster) {es : List WorkStep}
    (hrun : ({ roster := roster } : Workforce).run? es = some w) :
    Books slots 0 (accepted es) w := by
  refine run_induction (P := fun es w => Books slots 0 (accepted es) w) ?_ (books_start hstart) hrun
  intro es w w' e hbooks hmove
  rw [accepted_concat]
  exact hbooks.move hmove

end Workforce

end EchoLog

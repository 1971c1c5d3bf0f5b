import EchoLog.Proofs.Service.Moves
import EchoLog.Proofs.SharedLog.Accounts
/-!
# The log of a service

What a service adds to the moves of its log: tasks join, everybody's token fires at once, and things are
reported.  The queue for the lock stays in order through all of it (`Handling.queue`), and a task that has
come to its end, or has its answer, stays as it is (`Handling.task?_of_rests`).
-/

namespace EchoLog

open SharedLog

/-! ## Tasks that rest -/

/-- A task of the service's own: a session or a timestamp writer. -/
def Task.isOwn : Task → Bool
  | .caller _ => false
  | _ => true

theorem Task.isOwn_of_kind {t t' : Task} (h : t'.kind = t.kind) : t'.isOwn = t.isOwn := by
  cases t <;> cases t' <;> first | rfl | cases h

/-- A task that has come to its end rests. -/
theorem rests_of_ending {t : Task} {r : Except Failure Unit} (hend : Service.ending? t = some r) :
    t.Rests := by
  refine ⟨?_, ?_⟩
  · cases t with
    | session s => cases hs : s.stage <;> simp_all [Task.request?, Service.ending?, Session.result?]
    | writer w => cases hs : w.stage <;> simp_all [Task.request?, Service.ending?]
    | caller c => cases hend
  · intro i cancelled e t' hown
    cases hown with
    | poll hwaits =>
        rw [Service.ending?, Session.result?_of_canLeave hwaits] at hend
        cases hend
    | receive hstage => simp [Service.ending?, Session.result?, hstage] at hend
    | frame hstage => simp [Service.ending?, Session.result?, hstage] at hend
    | send hstage => simp [Service.ending?, Session.result?, hstage] at hend
    | flush hstage => simp [Service.ending?, Session.result?, hstage] at hend
    | leave hleave =>
        cases t with
        | session s =>
            cases hs : s.stage <;> simp_all [Task.canLeave, Service.ending?, Session.result?]
        | writer w => cases hs : w.stage <;> simp_all [Task.canLeave, Service.ending?]
        | caller c => cases hleave
    | tick hstage => simp [Service.ending?, hstage] at hend

/-! ## Tasks that join -/

namespace SharedLog

variable {g : SharedLog} {i : Nat} {t u : Task} {token : Bool}

theorem task?_join_of_some (h : g.task? i = some u) : (g.join t token).task? i = some u := by
  obtain ⟨seat, hseat, rfl⟩ := Option.map_eq_some_iff.1 h
  rw [task?, join, List.getElem?_append_left (List.getElem?_eq_some_iff.1 hseat).1, hseat]
  rfl

theorem task?_join_new (g : SharedLog) (t : Task) (token : Bool) :
    (g.join t token).task? g.seats.length = some t := by
  rw [task?, join, List.getElem?_concat_length]
  rfl

/-- A task is the one that joined, or was there before. -/
theorem task?_join_cases (h : (g.join t token).task? i = some u) :
    (i = g.seats.length ∧ u = t) ∨ g.task? i = some u := by
  rcases Nat.lt_or_ge i g.seats.length with hlt | hge
  · rw [task?, join, List.getElem?_append_left hlt] at h
    exact .inr h
  · have hi : i = g.seats.length := by
      obtain ⟨seat, hseat, -⟩ := Option.map_eq_some_iff.1 h
      have hlt := (List.getElem?_eq_some_iff.1 hseat).1
      rw [join, List.length_append, List.length_singleton] at hlt
      omega
    subst hi
    rw [task?_join_new] at h
    exact .inl ⟨rfl, (Option.some.inj h).symm⟩

theorem task?_fired (g : SharedLog) (i : Nat) : g.fired.task? i = g.task? i := by
  rw [task?, task?, fired, List.getElem?_map, Option.map_map]
  rfl

theorem isCancelled_join_of_some (h : g.task? i = some u) :
    (g.join t token).isCancelled i = g.isCancelled i := by
  obtain ⟨seat, hseat, -⟩ := Option.map_eq_some_iff.1 h
  rw [isCancelled, isCancelled, join, List.getElem?_append_left (List.getElem?_eq_some_iff.1 hseat).1]

theorem isCancelled_join_new (g : SharedLog) (t : Task) (token : Bool) :
    (g.join t token).isCancelled g.seats.length = token := by
  rw [isCancelled, join, List.getElem?_concat_length]
  rfl

theorem isCancelled_fired (h : g.task? i = some u) : g.fired.isCancelled i = true := by
  obtain ⟨seat, hseat, -⟩ := Option.map_eq_some_iff.1 h
  rw [isCancelled, fired, List.getElem?_map, hseat]
  rfl

/-- Nothing has happened to a log but that tasks have joined, tokens fired or things been reported. -/
structure Grows (g g' : SharedLog) : Prop where
  disk : g'.disk = g.disk
  store : g'.store = g.store
  holder : g'.holder = g.holder
  waiting : g'.waiting = g.waiting
  task : ∀ i t, g.task? i = some t → g'.task? i = some t

theorem Grows.request? {g' : SharedLog} (h : g.Grows g') {r : Request} (hr : g.request? i = some r) :
    g'.request? i = some r := by
  obtain ⟨u, hu, hr⟩ := Option.bind_eq_some_iff.1 hr
  rw [SharedLog.request?, h.task i u hu]
  exact hr

/-- The queue stays in order. -/
theorem Grows.queue {g' : SharedLog} (h : g.Grows g') (hq : g.Queue) : g'.Queue := by
  refine ⟨?_, ?_, ?_, ?_⟩
  · rw [h.waiting]
    exact fun p hp => h.request? (hq.waiting p hp)
  · rw [h.holder]
    intro i w hw
    obtain ⟨r, hr, hserves⟩ := hq.holder i w hw
    exact ⟨r, h.request? hr, hserves⟩
  · rw [h.waiting]
    exact hq.once
  · rw [h.holder, h.waiting]
    exact hq.apart

end SharedLog

namespace Service

variable {s s' s₀ : Service} {e : ServiceEvent} {es : List ServiceEvent} {a : Annals}

/-- **What a step comes to for the log is a move of it, or the log only grows.** -/
theorem Handling.cases_log {g : SharedLog} (h : Handling s e g) :
    (∃ inner, e = .log inner ∧ SharedLog.Move s.log inner g) ∨ (e.log? = none ∧ s.log.Grows g) := by
  cases h with
  | moves _ hm => exact .inl ⟨_, rfl, hm⟩
  | reports _ he _ => exact .inr ⟨he, rfl, rfl, rfl, rfl, fun _ _ ht => ht⟩
  | seats _ hjoins =>
      refine .inr ⟨?_, rfl, rfl, rfl, rfl, fun _ _ ht => task?_join_of_some ht⟩
      cases hjoins with
      | remover _ _ he => rcases he with rfl | rfl <;> rfl
      | _ => rfl
  | fires _ hstop =>
      refine .inr ⟨?_, rfl, rfl, rfl, rfl, fun i _ ht => (task?_fired _ i).trans ht⟩
      cases e <;> first | rfl | cases hstop

/-- Where the log only grows, a task was there before, or joins where nobody was. -/
theorem Handling.joins_of_none {g : SharedLog} (h : Handling s e g) (he : e.log? = none) {i : Nat}
    {t : Task} (ht : g.task? i = some t) :
    s.log.task? i = some t ∨ (s.log.task? i = none ∧ ∃ token, s.Joins e t token) := by
  cases h with
  | moves _ _ => cases he
  | reports _ _ _ => exact .inl ht
  | seats _ hjoins =>
      rcases task?_join_cases ht with ⟨rfl, rfl⟩ | ht
      · refine .inr ⟨?_, _, hjoins⟩
        exact congrArg (Option.map _) (List.getElem?_eq_none (Nat.le_refl s.log.seats.length))
      · exact .inl ht
  | fires _ _ => exact .inl ((task?_fired _ i).symm.trans ht)

/-- **The queue for the lock stays in order.** -/
theorem Handling.queue {g : SharedLog} (h : Handling s e g) (hq : s.log.Queue) : g.Queue := by
  rcases h.cases_log with ⟨_, -, hm⟩ | ⟨-, hgrows⟩
  · exact hq.move hm
  · exact hgrows.queue hq

/-- **A task that rests stays as it is.** -/
theorem Handling.task?_of_rests {g : SharedLog} (h : Handling s e g) (hq : s.log.Queue) {i : Nat}
    {t : Task} (ht : s.log.task? i = some t) (hrests : t.Rests) : g.task? i = some t := by
  rcases h.cases_log with ⟨_, -, hm⟩ | ⟨-, hgrows⟩
  · exact hm.task?_of_rests hq ht hrests
  · exact hgrows.task i t ht

/-- A task is one that joined, or was there before as one of the same kind. -/
theorem Handling.task?_cases {g : SharedLog} (h : Handling s e g) {i : Nat} {t : Task}
    (ht : g.task? i = some t) :
    (i = s.log.seats.length ∧ ∃ token, s.Joins e t token) ∨
      ∃ u, s.log.task? i = some u ∧ t.kind = u.kind := by
  cases h with
  | moves _ hm =>
      have hkind := hm.kind i
      rw [ht, Option.map_some] at hkind
      obtain ⟨u, hu, hsame⟩ := Option.map_eq_some_iff.1 hkind.symm
      exact .inr ⟨u, hu, hsame.symm⟩
  | reports _ _ _ => exact .inr ⟨t, ht, rfl⟩
  | seats _ hjoins =>
      rcases task?_join_cases ht with ⟨rfl, rfl⟩ | ht
      · exact .inl ⟨rfl, _, hjoins⟩
      · exact .inr ⟨t, ht, rfl⟩
  | fires _ _ => exact .inr ⟨t, (task?_fired _ i).symm.trans ht, rfl⟩

end Service

end EchoLog

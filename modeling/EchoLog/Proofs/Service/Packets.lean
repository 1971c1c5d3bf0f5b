import EchoLog.Proofs.Service.Departure
import EchoLog.Proofs.SharedLog.Linear
import EchoLog.Proofs.SharedLog.Reframing
/-!
# What the log of a service is made of

Sessions join a running service, and so do callers that only read.  A task that joins has received nothing
and has nothing ready, so the accounts and the balance of all tasks stay in order (`Penned.grow`).  As
long as the log is kept and nobody else writes to it, it holds the packets of the sessions and the records
of the timestamp writer, whole and one after another, and nothing else (`Penned.filled`).
-/

namespace EchoLog

open SharedLog

namespace SharedLog

variable {g g' : SharedLog} {c : Chronicle} {e : Event} {i : Nat}

/-- Tasks that have joined are as they are in the beginning. -/
def Welcomes (g g' : SharedLog) : Prop :=
  ∀ i t, g'.task? i = some t → g.task? i = some t ∨ (g.task? i = none ∧ t.Starting)

/-- All that is known of what tasks received, had ready and committed. -/
structure Penned (g : SharedLog) (c : Chronicle) : Prop where
  queue : g.Queue
  accounts : g.Accounts c
  balanced : g.Balanced c
  recorded : g.Recorded c
  stamped : g.Stamped c
  /-- Where nobody is, nothing was received. -/
  unheard : ∀ i, g.task? i = none → share i c.received = []

theorem unheard_move (h : ∀ i, g.task? i = none → share i c.received = []) (hm : Move g e g') :
    ∀ i, g'.task? i = none → share i (c.note g e g').received = [] := by
  intro j hj
  cases hm with
  | @own i _ t t' more ht hown =>
      obtain ⟨hij, hj⟩ := task?_setTask_eq_none ht hj
      rw [Chronicle.note_own hown (task?_report_self ht more), share_append, h j hj,
        share_arrival_other hown hij]
      rfl
  | ask _ _ => exact h j hj
  | grant _ _ => exact h j hj
  | file _ _ => exact h j hj
  | release _ ht => exact h j (task?_setTask_eq_none ht hj).2
  | fire _ => exact h j ((task?_fire g _ j).symm.trans hj)
  | outside _ => exact h j hj

/-- **Every undisturbed move keeps it.** -/
theorem Penned.move (h : g.Penned c) (hkind : g.isUndisturbed e = true) (hm : Move g e g') :
    g'.Penned (c.note g e g') where
  queue := h.queue.move hm
  accounts := h.accounts.move h.queue hm
  balanced := h.balanced.move h.queue hm
  recorded := h.recorded.move h.queue h.accounts.request?_ne_remove hkind hm
  stamped := h.stamped.move hm
  unheard := unheard_move h.unheard hm

section Grow

variable (hgrows : g.Grows g') (hwelcomes : g.Welcomes g')

include hgrows in
theorem Grows.task?_eq_none (hi : g'.task? i = none) : g.task? i = none := by
  rw [Option.eq_none_iff_forall_ne_some]
  intro t ht
  cases hi.symm.trans (hgrows.task i t ht)

include hgrows hwelcomes

theorem Accounts.grow (h : g.Accounts c)
    (hunheard : ∀ i, g.task? i = none → share i c.received = []) : g'.Accounts c := by
  refine ⟨?_, ?_⟩
  · intro i t ht
    rcases hwelcomes i t ht with ht | ⟨hnone, hstarting⟩
    · exact h.task i t ht
    · rw [hunheard i hnone, h.nobody i hnone]
      exact hstarting.account
  · intro i hi
    exact h.nobody i (hgrows.task?_eq_none hi)

omit hwelcomes in
/-- A task that was there is owed what it was. -/
theorem sameFor_grow (hi : g.task? i ≠ none ∨ g'.task? i = none) : SameFor i g g' := by
  refine sameFor_of_holder ?_ hgrows.holder
  cases ht : g.task? i with
  | some t => exact hgrows.task i t ht
  | none =>
      rcases hi with hi | hi
      · exact absurd ht hi
      · exact hi

theorem Balanced.grow (h : g.Balanced c) (haccounts : g.Accounts c) : g'.Balanced c := by
  intro i
  by_cases hi : g.task? i ≠ none ∨ g'.task? i = none
  · exact h.same (sameFor_grow hgrows hi) rfl rfl
  · obtain ⟨hnone, hsome⟩ := not_or.1 hi
    rw [ne_eq, not_not] at hnone
    obtain ⟨t, ht⟩ := Option.ne_none_iff_exists'.1 hsome
    rcases hwelcomes i t ht with ht | ⟨-, hstarting⟩
    · cases hnone.symm.trans ht
    · obtain ⟨rest, hrest, -⟩ := h i
      rw [haccounts.nobody i hnone] at hrest
      obtain ⟨hlanded, -⟩ := List.append_eq_nil_iff.1 hrest.symm
      refine ⟨[], by rw [haccounts.nobody i hnone, hlanded]; rfl, .inr ?_⟩
      rw [owed, request?, ht]
      split
      · rfl
      · exact hstarting.ready.symm

omit hgrows in
theorem Stamped.grow (h : g.Stamped c) (haccounts : g.Accounts c) : g'.Stamped c := by
  intro i format hi
  obtain ⟨t, ht, hkind⟩ := Option.map_eq_some_iff.1 hi
  rcases hwelcomes i t ht with ht | ⟨hnone, -⟩
  · exact h i format (by rw [ht, Option.map_some, hkind])
  · intro r hr
    rw [haccounts.nobody i hnone] at hr
    cases hr

/-- **Tasks that join keep it.** -/
theorem Penned.grow (h : g.Penned c) : g'.Penned c where
  queue := hgrows.queue h.queue
  accounts := h.accounts.grow hgrows hwelcomes h.unheard
  balanced := h.balanced.grow hgrows hwelcomes h.accounts
  recorded := h.recorded.of_eq hgrows.disk hgrows.store hgrows.holder rfl rfl
  stamped := h.stamped.grow hwelcomes h.accounts
  unheard := fun i hi => h.unheard i (hgrows.task?_eq_none hi)

end Grow

/-- A log that is made of packets of sessions and records of timestamp writers. -/
structure Filled (g : SharedLog) (c : Chronicle) : Prop where
  /-- The file begins with all that was committed, and with the lock free there is nothing more in it. -/
  file : ∃ rest, g.disk.content? g.store.path = some (wholeLog c.commits ++ rest) ∧
    (g.holder = none → rest = [])
  /-- A commit is a packet within the limit of its session, or a record of a timestamp writer. -/
  commit : ∀ m ∈ c.commits,
    (∃ x, g.session? m.1 = some x ∧ IsLine m.2.bytes ∧ m.2.bytes.length ≤ x.framer.limit) ∨
      ∃ w, g.writer? m.1 = some w ∧ Timestamp.IsRecord w.format m.2.bytes
  /-- A session that keeps what follows a packet commits the first lines of what its peer has sent. -/
  input : ∀ i x, g.session? i = some x → x.framer.remainder = .keep →
    c.landed i <+: lines (c.input i)

/-- **What the log is made of.** -/
theorem Penned.filled (h : g.Penned c) : g.Filled c := by
  refine ⟨?_, ?_, ?_⟩
  · by_cases hfree : g.holder = none
    · exact ⟨[], by rw [List.append_nil]; exact (h.recorded.file_of_free hfree).1, fun _ => rfl⟩
    · obtain ⟨rest, hrest⟩ := h.recorded.file.exists_rest
      exact ⟨rest, hrest, fun hnone => absurd hnone hfree⟩
  · rintro ⟨i, m⟩ hm
    rcases h.accounts.commit_cases h.balanced h.stamped hm with ⟨limit, policy, hk, hline, hle⟩ |
      ⟨format, hk, hrecord⟩
    · obtain ⟨t, ht, hkind⟩ := Option.map_eq_some_iff.1 hk
      cases t with
      | session x =>
          obtain ⟨rfl, -⟩ := Task.Kind.session.inj hkind
          exact .inl ⟨x, session?_eq_some.2 ht, hline, hle⟩
      | _ => cases hkind
    · obtain ⟨t, ht, hkind⟩ := Option.map_eq_some_iff.1 hk
      cases t with
      | writer w =>
          obtain rfl := Task.Kind.writer.inj hkind
          exact .inr ⟨w, writer?_eq_some.2 ht, hrecord⟩
      | _ => cases hkind
  · intro i x hx hkeep
    have haccount := h.accounts.task i _ (session?_eq_some.1 hx)
    exact (h.balanced.landed_prefix i).trans (haccount.packets_first hkeep).1

end SharedLog

namespace Service

variable {s s' s₀ : Service} {e : ServiceEvent} {es : List ServiceEvent} {a : Annals}
  {settings : Settings} {directory : Location} {disk : Disk}

/-- Nobody from outside asks for more than to read. -/
def OnlyRead (es : List ServiceEvent) : Prop :=
  ∀ request, .call request ∈ es → request = .snapshot ∨ request = .size

/-- Whoever joins a service whose log is kept is as he is in the beginning. -/
theorem Joins.starting {t : Task} {token : Bool} (h : s.Joins e t token) (hm : Move s e s')
    (hkept : HasKept s') (hread : OnlyRead (es ++ [e])) : t.Starting := by
  cases h with
  | writer uptime now => exact .writer ..
  | session peer now _ => exact .session ..
  | outsider request =>
      exact .caller request (hread request (List.mem_append_right _ List.mem_cons_self))
  | remover hremove _ he =>
      rcases hkept with hkeep | hearly
      · rw [hm.settings, hremove] at hkeep
        cases hkeep
      · have hend : e.isEnd = true := by rcases he with rfl | rfl <;> rfl
        exact absurd (hm.of_isEnd hend).2 hearly

/-- **As long as the log is kept and nobody else writes to it, it is made of packets and records.** -/
theorem filled_of_run (hstart : ofListener settings directory disk = .started s₀)
    (hkind : s₀.Along isUndisturbed es = true) (hrun : s₀.run? es = some s) (hkept : HasKept s)
    (hread : OnlyRead es) : s.log.Filled (s₀.annals es).chronicle := by
  have hpenned : HasKept s → OnlyRead (s₀.annals es).events →
      s.log.Penned (s₀.annals es).chronicle := by
    refine run_induction (P := fun a s => HasKept s → OnlyRead a.events → s.log.Penned a.chronicle) ?_
      (fun _ _ => ?_) hkind hrun
    · intro a s s' e hkind h hm hkept hread
      have hpenned := h (hm.hasKept hkept) fun request hmem =>
        hread request (List.mem_append_left _ hmem)
      rcases hm.handling.cases_log with ⟨inner, rfl, hinner⟩ | ⟨hnone, hgrows⟩
      · exact hpenned.move hkind hinner
      · rw [Annals.note, hnone]
        refine hpenned.grow hgrows fun i t ht => ?_
        rcases hm.handling.joins_of_none hnone ht with ht | ⟨hfree, token, hjoins⟩
        · exact .inl ht
        · exact .inr ⟨hfree, hjoins.starting hm hkept hread⟩
    · have hrecorded := recorded_start hstart
      obtain ⟨store, fresh, roster, -, -, rfl⟩ := eq_of_started hstart
      refine ⟨queue_start fresh store [], ⟨?_, ?_⟩, ?_, hrecorded, ?_, ?_⟩
      · intro i t ht
        cases ht
      · exact fun _ _ => rfl
      · intro i
        exact ⟨[], rfl, .inr rfl⟩
      · intro i format hi
        cases hi
      · exact fun _ _ => rfl
  refine (hpenned hkept ?_).filled
  rw [show (s₀.annals es).events = es from annals_events hrun]
  exact hread

end Service

end EchoLog

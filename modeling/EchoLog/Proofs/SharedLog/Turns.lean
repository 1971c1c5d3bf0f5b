import EchoLog.Proofs.SharedLog.Queue
import Mathlib.Data.List.Basic
/-!
# Waiting for the lock is bounded

A task that has asked for the lock is answered after a number of steps of the lock that is known when
it asks (`SharedLog.turnsLeft`): those of the request in hand, and at most eight for each request that
waits in front of it and for its own.  Every step of the lock brings the answer nearer and no other
event moves it away (`Queue.turn`), whatever fails and whatever others do; and until the answer is
there, the lock can always take a step (`Queue.lock_can_move`).

Until then the task stands still: an append that has been asked for is neither given up nor changed
(`Move.task?_of_request`).  So in every run a request is pursued to its answer (`Pursues`).
-/

namespace EchoLog

/-- Whether an event is a step of the lock or of its holder. -/
def Event.isOfLock : Event → Bool
  | .grant => true
  | .file _ => true
  | .release => true
  | _ => false

namespace Work

theorem stepsLeft_ofRequest_le (store : Store) (r : Request) : (ofRequest store r).stepsLeft ≤ 6 := by
  cases r <;> simp [ofRequest, stepsLeft]

theorem stepsLeft_withHandle (f : Handle → Handle) (w : Work) :
    (w.withHandle f).stepsLeft = w.stepsLeft := by
  cases w <;> rfl

end Work

namespace SharedLog

variable {g g' : SharedLog} {e : Event} {i : Nat}

/-- The steps of the lock that the request in hand takes at most, the handing back counted. -/
def turnsInHand (g : SharedLog) : Nat :=
  match g.holder with
  | some (_, w) => w.stepsLeft + 1
  | none => 0

/-- How many steps of the lock a queued task has to wait for its answer at most. -/
def turnsLeft (g : SharedLog) (i : Nat) : Nat :=
  if g.holder.any (·.1 == i) then g.turnsInHand
  else g.turnsInHand + 8 * ((g.waiting.map (·.1)).idxOf i + 1)

theorem isQueued_iff :
    g.isQueued i = true ↔ (∃ w, g.holder = some (i, w)) ∨ i ∈ g.waiting.map (·.1) := by
  constructor
  · intro h
    by_contra hnot
    rw [not_or] at hnot
    have hfree : g.isQueued i = false := isQueued_eq_false.2 ⟨fun w hw => hnot.1 ⟨w, hw⟩, hnot.2⟩
    rw [hfree] at h
    cases h
  · intro h
    cases hfree : g.isQueued i with
    | true => rfl
    | false =>
        obtain ⟨hholder, hwaiting⟩ := isQueued_eq_false.1 hfree
        rcases h with ⟨w, hw⟩ | hi
        · exact absurd hw (hholder w)
        · exact absurd hi hwaiting

theorem turnsLeft_of_holder {w : Work} (h : g.holder = some (i, w)) :
    g.turnsLeft i = w.stepsLeft + 1 := by
  simp only [turnsLeft, turnsInHand, h, Option.any_some, beq_self_eq_true, if_true]

theorem turnsLeft_of_waiting (h : ∀ w, g.holder ≠ some (i, w)) :
    g.turnsLeft i = g.turnsInHand + 8 * ((g.waiting.map (·.1)).idxOf i + 1) := by
  have hother : g.holder.any (·.1 == i) = false := by
    rw [Option.any_eq_false]
    rintro ⟨k, w⟩ hk
    simp only [beq_eq_false_iff_ne, ne_eq]
    rintro rfl
    exact h w hk
  rw [turnsLeft, hother, if_neg (by simp)]

/-! ## One step of the lock -/

/-- Another handle to the file changes nothing for those who wait. -/
theorem turnsLeft_withHandle {f : Work → Work} (hf : ∀ w, (f w).stepsLeft = w.stepsLeft)
    (hholder : g'.holder = g.holder.map fun (k, w) => (k, f w)) (hwaiting : g'.waiting = g.waiting) :
    g'.isQueued i = g.isQueued i ∧ g'.turnsLeft i = g.turnsLeft i := by
  rw [turnsLeft, turnsLeft, isQueued, isQueued, turnsInHand, turnsInHand, hholder, hwaiting]
  cases g.holder with
  | none => exact ⟨rfl, rfl⟩
  | some p =>
      obtain ⟨k, w⟩ := p
      simp only [Option.map_some, Option.any_some, hf, and_self]

theorem turnsLeft_same (hholder : g'.holder = g.holder) (hwaiting : g'.waiting = g.waiting) :
    g'.isQueued i = g.isQueued i ∧ g'.turnsLeft i = g.turnsLeft i := by
  rw [turnsLeft, turnsLeft, isQueued, isQueued, turnsInHand, turnsInHand, hholder, hwaiting]
  exact ⟨rfl, rfl⟩

/-- Who asks later waits behind. -/
theorem turnsLeft_ask (hq : g.Queue) (hqueued : g.isQueued i = true) {more : List (Nat × Request)}
    (hholder : g'.holder = g.holder) (hwaiting : g'.waiting = g.waiting ++ more) :
    g'.isQueued i = true ∧ g'.turnsLeft i = g.turnsLeft i := by
  rcases isQueued_iff.1 hqueued with ⟨w, hw⟩ | hi
  · have hw' : g'.holder = some (i, w) := hholder.trans hw
    exact ⟨isQueued_iff.2 (.inl ⟨w, hw'⟩), by rw [turnsLeft_of_holder hw, turnsLeft_of_holder hw']⟩
  · have hother : ∀ w, g.holder ≠ some (i, w) := fun w hw => hq.apart i w hw hi
    refine ⟨isQueued_iff.2 (.inr ?_), ?_⟩
    · rw [hwaiting, List.map_append]
      exact List.mem_append_left _ hi
    · rw [turnsLeft_of_waiting hother, turnsLeft_of_waiting (by rw [hholder]; exact hother),
        turnsInHand, turnsInHand, hholder, hwaiting, List.map_append, List.idxOf_append_of_mem hi]

/-- The lock goes to the first that waits: a task moves up, or has the lock. -/
theorem turnsLeft_grant (hqueued : g.isQueued i = true) {k : Nat} {r : Request}
    {rest : List (Nat × Request)} (hnone : g.holder = none) (hw : g.waiting = (k, r) :: rest)
    (hw' : g'.holder = some (k, .ofRequest g.store r)) (hrest : g'.waiting = rest) :
    g'.isQueued i = true ∧ g'.turnsLeft i < g.turnsLeft i := by
  have hsteps := Work.stepsLeft_ofRequest_le g.store r
  have hi : i ∈ g.waiting.map (·.1) :=
    (isQueued_iff.1 hqueued).resolve_left fun ⟨w, hw⟩ => holder_ne_of_free hnone w hw
  rw [turnsLeft_of_waiting (holder_ne_of_free hnone), turnsInHand, hnone]
  by_cases hik : k = i
  · subst hik
    refine ⟨isQueued_iff.2 (.inl ⟨_, hw'⟩), ?_⟩
    rw [turnsLeft_of_holder hw']
    omega
  · rw [hw, List.map_cons] at hi ⊢
    have hi' := (List.mem_cons.1 hi).resolve_left (Ne.symm hik)
    refine ⟨isQueued_iff.2 (.inr (by rw [hrest]; exact hi')), ?_⟩
    rw [turnsLeft_of_waiting (holder_ne_of_ne hw' hik), turnsInHand, hw', hrest,
      List.idxOf_cons_ne _ hik]
    dsimp only
    omega

/-- A file step of the holder. -/
theorem turnsLeft_file (hqueued : g.isQueued i = true) {k : Nat} {w w' : Work}
    (hw : g.holder = some (k, w)) (hw' : g'.holder = some (k, w'))
    (hless : w'.stepsLeft < w.stepsLeft) (hwaiting : g'.waiting = g.waiting) :
    g'.isQueued i = true ∧ g'.turnsLeft i < g.turnsLeft i := by
  by_cases hik : k = i
  · subst hik
    refine ⟨isQueued_iff.2 (.inl ⟨_, hw'⟩), ?_⟩
    rw [turnsLeft_of_holder hw, turnsLeft_of_holder hw']
    omega
  · have hi : i ∈ g.waiting.map (·.1) :=
      (isQueued_iff.1 hqueued).resolve_left fun ⟨v, hv⟩ => holder_ne_of_ne hw hik v hv
    refine ⟨isQueued_iff.2 (.inr (by rw [hwaiting]; exact hi)), ?_⟩
    rw [turnsLeft_of_waiting (holder_ne_of_ne hw hik), turnsLeft_of_waiting (holder_ne_of_ne hw' hik),
      turnsInHand, turnsInHand, hw, hw', hwaiting]
    dsimp only
    omega

/-- Another task hands the lock back. -/
theorem turnsLeft_release (hqueued : g.isQueued i = true) {k : Nat} {w : Work} (hik : k ≠ i)
    (hw : g.holder = some (k, w)) (hw' : g'.holder = none) (hwaiting : g'.waiting = g.waiting) :
    g'.isQueued i = true ∧ g'.turnsLeft i < g.turnsLeft i := by
  have hi : i ∈ g.waiting.map (·.1) :=
    (isQueued_iff.1 hqueued).resolve_left fun ⟨v, hv⟩ => holder_ne_of_ne hw hik v hv
  refine ⟨isQueued_iff.2 (.inr (by rw [hwaiting]; exact hi)), ?_⟩
  rw [turnsLeft_of_waiting (holder_ne_of_ne hw hik), turnsLeft_of_waiting (holder_ne_of_free hw'),
    turnsInHand, turnsInHand, hw, hw', hwaiting]
  dsimp only
  omega

/-- The step that answers a task. -/
def Answers (g : SharedLog) (e : Event) (i : Nat) (a : Answer) : Prop :=
  e = .release ∧ g.holder = some (i, .finished a)

/-- A queued task goes on waiting: a step of the lock brings its answer nearer, and no other event moves
it away. -/
structure Waits (i : Nat) (g : SharedLog) (e : Event) (g' : SharedLog) : Prop where
  queued : g'.isQueued i = true
  turns : g'.turnsLeft i ≤ g.turnsLeft i
  nearer : e.isOfLock = true → g'.turnsLeft i < g.turnsLeft i

theorem waits_of_eq (he : e.isOfLock = false)
    (h : g'.isQueued i = true ∧ g'.turnsLeft i = g.turnsLeft i) : Waits i g e g' := by
  refine ⟨h.1, Nat.le_of_eq h.2, ?_⟩
  intro hlock
  rw [he] at hlock
  cases hlock

theorem waits_of_lt (h : g'.isQueued i = true ∧ g'.turnsLeft i < g.turnsLeft i) :
    Waits i g e g' :=
  ⟨h.1, Nat.le_of_lt h.2, fun _ => h.2⟩

/-- **A queued task gets its answer, or goes on waiting.** -/
theorem Queue.turn (hq : g.Queue) (hqueued : g.isQueued i = true) (hm : Move g e g') :
    (∃ a, g.Answers e i a) ∨ Waits i g e g' := by
  cases hm with
  | @own _ _ t t' more ht hown =>
      obtain ⟨hqueued', hturns⟩ := turnsLeft_same (g := g) (i := i) rfl rfl
      refine .inr (waits_of_eq ?_ ⟨hqueued'.trans hqueued, hturns⟩)
      cases hown <;> rfl
  | fire hi =>
      obtain ⟨hqueued', hturns⟩ := turnsLeft_same (g := g) (i := i) rfl rfl
      exact .inr (waits_of_eq rfl ⟨hqueued'.trans hqueued, hturns⟩)
  | outside change =>
      have hsame : (g.changed change).isQueued i = g.isQueued i ∧
          (g.changed change).turnsLeft i = g.turnsLeft i :=
        turnsLeft_withHandle
          (Work.stepsLeft_withHandle (·.keep g.disk (change.apply g.disk g.store.path))) rfl rfl
      exact .inr (waits_of_eq rfl ⟨hsame.1.trans hqueued, hsame.2⟩)
  | ask hr hfree => exact .inr (waits_of_eq rfl (turnsLeft_ask hq hqueued rfl rfl))
  | grant hnone hw => exact .inr (waits_of_lt (turnsLeft_grant hqueued hnone hw rfl rfl))
  | @file k w fault hw hmore =>
      have hless := Work.stepsLeft_step fault g.store g.disk hmore
      exact .inr (waits_of_lt (turnsLeft_file hqueued hw rfl hless rfl))
  | @release k a t hw ht =>
      by_cases hik : k = i
      · subst hik
        exact .inl ⟨a, rfl, hw⟩
      · exact .inr (waits_of_lt (turnsLeft_release hqueued hik hw rfl rfl))

/-- **Until a queued task is answered, the lock can take a step.** -/
theorem Queue.lock_can_move (hq : g.Queue) (hqueued : g.isQueued i = true) :
    ∃ e ∈ [Event.release, .grant, .file none], ∃ g', g.step? e = some g' := by
  cases hholder : g.holder with
  | none =>
      have hi : i ∈ g.waiting.map (·.1) :=
        (isQueued_iff.1 hqueued).resolve_left fun ⟨w, hw⟩ => holder_ne_of_free hholder w hw
      cases hw : g.waiting with
      | nil =>
          rw [hw] at hi
          cases hi
      | cons p rest =>
          refine ⟨.grant, by simp, ?_⟩
          simp only [step?, hholder, hw]
          exact ⟨_, rfl⟩
  | some p =>
      obtain ⟨k, w⟩ := p
      cases ha : w.answer? with
      | none =>
          refine ⟨.file none, by simp, ?_⟩
          simp only [step?, hholder, ha]
          exact ⟨_, rfl⟩
      | some a =>
          refine ⟨.release, by simp, ?_⟩
          obtain ⟨r, hr, -⟩ := hq.holder k w hholder
          obtain ⟨t, ht, -⟩ := Option.bind_eq_some_iff.1 hr
          simp only [step?, hholder, ha, ht, bind, Option.bind_some]
          exact ⟨_, rfl⟩

/-- **A task that asks for something stands still until it is answered.** -/
theorem Move.task?_of_request {r : Request} (hm : Move g e g') (hr : g.request? i = some r) :
    g'.task? i = g.task? i ∨ ∃ a t, g.Answers e i a ∧ g.task? i = some t ∧
      g'.task? i = some (t.answered a) := by
  cases hm with
  | own more ht hown => exact .inl (task?_setTask_other (ne_of_own ht hown hr))
  | ask => exact .inl rfl
  | grant => exact .inl rfl
  | file => exact .inl rfl
  | @release k a t hw ht =>
      by_cases hik : k = i
      · subst hik
        exact .inr ⟨a, t, ⟨rfl, hw⟩, ht, task?_setTask_self ht⟩
      · exact .inl (task?_setTask_other (Ne.symm hik))
  | fire => exact .inl (task?_fire g _ i)
  | outside => exact .inl rfl

/-! ## A run -/

/-- How a request that a task makes fares in a run: it is pursued to its answer. -/
inductive Pursues (i : Nat) (g : SharedLog) (es : List Event) (g' : SharedLog) : Prop where
  /-- The task has not asked for the lock yet, and can. -/
  | asking : g'.task? i = g.task? i → (∃ h, g'.step? (.ask i) = some h) → Pursues i g es g'
  /-- The task is queued, every step of the lock brings the answer nearer, and the lock can take one. -/
  | waiting : g'.task? i = g.task? i → g'.isQueued i = true →
      (g.isQueued i = true → g'.turnsLeft i + es.countP Event.isOfLock ≤ g.turnsLeft i) →
      (∃ e ∈ [Event.release, .grant, .file none], ∃ h, g'.step? e = some h) → Pursues i g es g'
  /-- The task has got its answer. -/
  | answered {before after : List Event} {h : SharedLog} {a : Answer} :
      es = before ++ .release :: after → g.run? before = some h → h.task? i = g.task? i →
      h.holder = some (i, .finished a) → Pursues i g es g'

theorem pursues_start (hq : g.Queue) {r : Request} (hr : g.request? i = some r) :
    Pursues i g [] g := by
  cases hqueued : g.isQueued i with
  | true => exact .waiting rfl hqueued (fun _ => Nat.le_refl _) (hq.lock_can_move hqueued)
  | false => exact .asking rfl ⟨_, step?_ask hr hqueued⟩

/-- One event more in front. -/
theorem Pursues.cons {g₁ : SharedLog} {es : List Event} (hq : g.Queue) (he : g.step? e = some g₁)
    (htask : g₁.task? i = g.task? i) (hnot : ∀ a, ¬ g.Answers e i a) (h : Pursues i g₁ es g') :
    Pursues i g (e :: es) g' := by
  cases h with
  | asking hsame hask => exact .asking (hsame.trans htask) hask
  | waiting hsame hqueued' hturns hmove =>
      refine .waiting (hsame.trans htask) hqueued' ?_ hmove
      intro hqueued
      have hwaits : Waits i g e g₁ :=
        (hq.turn hqueued (move_of_step? he)).resolve_left fun ⟨a, ha⟩ => hnot a ha
      have hrest := hturns hwaits.queued
      have hfirst := hwaits.turns
      rw [List.countP_cons]
      split
      · rename_i hlock
        have := hwaits.nearer hlock
        omega
      · omega
  | @answered before after h a hes hrun hsame hholder =>
      have hcons : e :: es = (e :: before) ++ .release :: after := by rw [hes, List.cons_append]
      refine .answered hcons ?_ (hsame.trans htask) hholder
      rw [run?, he]
      exact hrun

/-- **A request that was made is pursued to its answer.** -/
theorem pursues_of_run {es : List Event} (hq : g.Queue) {r : Request} (hr : g.request? i = some r)
    (hrun : g.run? es = some g') : Pursues i g es g' := by
  induction es generalizing g with
  | nil =>
      cases hrun
      exact pursues_start hq hr
  | cons e es ih =>
      obtain ⟨g₁, he, hrest⟩ := Option.bind_eq_some_iff.1 hrun
      have hm := move_of_step? he
      by_cases hanswer : ∃ a, g.Answers e i a
      · obtain ⟨a, rfl, hholder⟩ := hanswer
        have hfirst : Event.release :: es = [] ++ .release :: es := rfl
        exact .answered hfirst rfl rfl hholder
      · have htask : g₁.task? i = g.task? i := by
          rcases hm.task?_of_request hr with htask | ⟨a, t, ha, -⟩
          · exact htask
          · exact absurd ⟨a, ha⟩ hanswer
        have hr₁ : g₁.request? i = some r := by rw [request?, htask]; exact hr
        exact (ih (hq.move hm) hr₁ hrest).cons hq he htask fun a ha => hanswer ⟨a, ha⟩

end SharedLog

end EchoLog

import EchoLog.Proofs.SharedLog.Echoes
/-!
# What every undisturbed run keeps

A run is undisturbed as long as no other process changes the file and no rollback fails; whatever else
fails, and whenever tokens fire, the queue for the lock, the accounts of the sessions, the balance of
what is committed, the record of the file and the logs that sessions get back all stay in order.
`Steady` is these five in one, for tasks of every kind and sessions of either policy.
-/

namespace EchoLog

/-- A task as it is in the beginning.  Callers only read. -/
inductive Task.Starting : Task → Prop where
  | session (peer : Endpoint) (settings : SessionSettings) :
      Task.Starting (.session (.start peer settings))
  | writer (uptime now period : Nat) (format : String) :
      Task.Starting (.writer (.start uptime now period format))
  | caller (request : Request) : request = .snapshot ∨ request = .size →
      Task.Starting (.caller { request := request })

namespace Task.Starting

variable {t : Task}

/-- A timestamp writer starts by waiting, or does not start. -/
theorem stage_start (uptime now period : Nat) (format : String) :
    (∃ f, (Timestamp.Writer.start uptime now period format).stage = .ended (.error (.config f))) ∨
      (Timestamp.Writer.start uptime now period format).stage = .broken ∨
      (Timestamp.Writer.start uptime now period format).stage = .waiting := by
  unfold Timestamp.Writer.start
  dsimp only
  split
  · exact .inl ⟨_, rfl⟩
  · split
    · exact .inr (.inl rfl)
    · exact .inr (.inr rfl)

theorem account (h : t.Starting) : t.Account [] [] := by
  cases h with
  | session peer settings => exact Session.account_start peer settings
  | writer uptime now period format => exact trivial
  | caller request hr => exact ⟨hr, rfl⟩

theorem ready (h : t.Starting) : t.ready = [] := by
  cases h with
  | session peer settings => rfl
  | writer uptime now period format =>
      rcases stage_start uptime now period format with ⟨f, e⟩ | e | e <;>
        simp only [Task.ready, Task.request?, e, Option.bind_none, Option.toList_none]
  | caller request hr => rcases hr with rfl | rfl <;> rfl

theorem wasRefused (h : t.Starting) : t.wasRefused = false := by
  cases h with
  | session peer settings => rfl
  | writer uptime now period format =>
      rcases stage_start uptime now period format with ⟨f, e⟩ | e | e <;>
        simp only [Task.wasRefused, e]
  | caller request hr => rfl

end Task.Starting

namespace SharedLog

variable {g g' : SharedLog} {c : Chronicle} {e : Event}

/-- All that is kept along an undisturbed run. -/
structure Steady (g : SharedLog) (c : Chronicle) : Prop where
  queue : g.Queue
  accounts : g.Accounts c
  balanced : g.Balanced c
  recorded : g.Recorded c
  echoed : g.Echoed c

/-- **Every undisturbed move keeps it.** -/
theorem Steady.move (h : g.Steady c) (hkind : g.isUndisturbed e = true) (hm : Move g e g') :
    g'.Steady (c.note g e g') := by
  have hrecorded := h.recorded.move h.queue h.accounts.request?_ne_remove hkind hm
  exact
    { queue := h.queue.move hm
      accounts := h.accounts.move h.queue hm
      balanced := h.balanced.move h.queue hm
      recorded := hrecorded
      echoed := h.echoed.move h.queue h.recorded hrecorded hkind hm }

theorem starting_of_seats {disk : Disk} {store : Store} {seats : List Seat}
    (hseats : ∀ seat ∈ seats, seat.task.Starting) {i : Nat} {t : Task}
    (ht : task? { disk := disk, store := store, seats := seats } i = some t) : t.Starting := by
  obtain ⟨seat, hseat, rfl⟩ := Option.map_eq_some_iff.1 ht
  exact hseats seat (List.mem_of_getElem? hseat)

/-- It holds in the beginning. -/
theorem steady_start {disk : Disk} {store : Store} {seats : List Seat}
    (hfile : disk.content? store.path = some []) (hcounter : store.committed = 0)
    (hseats : ∀ seat ∈ seats, seat.task.Starting) :
    Steady { disk := disk, store := store, seats := seats } {} := by
  refine ⟨queue_start disk store seats, ?_, ?_, ?_, ?_⟩
  · exact ⟨fun i t ht => (starting_of_seats hseats ht).account, fun _ _ => rfl⟩
  · intro i
    refine ⟨[], rfl, .inr ?_⟩
    rw [owed, request?]
    cases ht : task? { disk := disk, store := store, seats := seats } i with
    | none => rfl
    | some t => exact (starting_of_seats hseats ht).ready.symm
  · exact ⟨.free hfile, hcounter, by simp [Told], by simp⟩
  · intro i t ht hs
    exact ⟨[], rfl, .inr rfl⟩

/-- With the lock free the file is made of the commits, and the counter is its length. -/
theorem Recorded.file_of_free (h : g.Recorded c) (hfree : g.holder = none) :
    g.disk.content? g.store.path = some (wholeLog c.commits) ∧
      g.store.committed = (wholeLog c.commits).length := by
  have hfile := h.file
  rw [hfree] at hfile
  cases hfile with
  | free hfile => exact ⟨hfile, h.counter⟩

/-- What was committed for a task was ready before. -/
theorem Balanced.landed_prefix (h : g.Balanced c) (i : Nat) : c.landed i <+: share i c.offered := by
  obtain ⟨rest, hrest, -⟩ := h i
  exact ⟨rest, hrest.symm⟩

end SharedLog

/-! ## Runs -/

namespace Traced

/-- A run of events of a kind that no state has a say in. -/
theorem along_of_forall {kind : Event → Bool} (g : SharedLog) {es : List Event}
    (h : ∀ e ∈ es, kind e = true) : SharedLog.Along (fun _ e => kind e) g es = true := by
  induction es generalizing g with
  | nil => rfl
  | cons e es ih =>
      obtain ⟨hfirst, hrest⟩ := List.forall_mem_cons.1 h
      rw [SharedLog.Along, hfirst, Bool.true_and]
      cases g.step? e with
      | none => rfl
      | some g' => exact ih g' hrest

theorem along_any (g : SharedLog) (es : List Event) : SharedLog.Along (fun _ _ => true) g es = true :=
  along_of_forall g fun _ _ => rfl

/-- What every move keeps, every run keeps. -/
theorem run_moves {P : SharedLog → Chronicle → Prop}
    (hmove : ∀ {g g' : SharedLog} {c : Chronicle} {e : Event}, P g c → SharedLog.Move g e g' →
      P g' (c.note g e g'))
    {t t' : Traced} {es : List Event} (h : P t.now t.past) (hrun : t.run? es = some t') :
    P t'.now t'.past :=
  run_induction (fun _ => hmove) h (along_any t.now es) hrun

/-- No run changes what a task is. -/
theorem kind_of_run {t t' : Traced} {es : List Event} (hrun : t.run? es = some t') (i : Nat) :
    (t'.now.task? i).map Task.kind = (t.now.task? i).map Task.kind :=
  run_moves (P := fun g _ => (g.task? i).map Task.kind = (t.now.task? i).map Task.kind)
    (fun h hm => (hm.kind i).trans h) rfl hrun

end Traced

/-- **Undisturbed runs on a log that was just created are steady.** -/
theorem Traced.steady_of_run {disk fresh : Disk} {path : Path} {sync : Bool} {store : Store}
    (hcreate : Store.create disk path sync = .ok (store, fresh)) {seats : List Seat}
    (hseats : ∀ seat ∈ seats, seat.task.Starting) {es : List Event} {t : Traced}
    (hkind : SharedLog.Along SharedLog.isUndisturbed
      { disk := fresh, store := store, seats := seats } es = true)
    (hrun : run? ⟨{ disk := fresh, store := store, seats := seats }, {}⟩ es = some t) :
    t.now.Steady t.past := by
  have hintact := History.intact_create hcreate
  have hstart := SharedLog.steady_start hintact.file hintact.counter hseats
  exact Traced.run_induction (P := SharedLog.Steady) (fun hmove h hm => h.move hmove hm) hstart
    hkind hrun

end EchoLog

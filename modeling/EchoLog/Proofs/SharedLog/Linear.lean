import EchoLog.Proofs.SharedLog.Steady
/-!
# A shared log is linear

Any number of sessions, timestamp writers and readers share a log that was just created.  Nobody else
touches the file and no file step fails.  Then, however the events interleave and whenever tokens fire,
the run looks as if each append and its echo happened in one piece (`Linear`): the log is made of whole
lines and records, in the order in which their tasks asked for the lock, and every log that a session
gets back is the log right after its own line.

The proof is one induction over runs.  What it carries (`Invariant`) are the queue, the accounts of the
sessions, the balance between what is ready and what is committed, the record of the file and of the
logs that were given back, and two facts that need calm: no task was ever refused anything, and appends
are committed in the order of the queue.
-/

namespace EchoLog

/-- A task as it is in the beginning.  Sessions keep what follows a packet, and callers only read. -/
inductive Task.Fresh : Task → Prop where
  | session (peer : Endpoint) (settings : SessionSettings) : settings.remainder = .keep →
      Task.Fresh (.session (.start peer settings))
  | writer (uptime now period : Nat) (format : String) :
      Task.Fresh (.writer (.start uptime now period format))
  | caller (request : Request) : request = .snapshot ∨ request = .size →
      Task.Fresh (.caller { request := request })

/-- The input of a session. -/
def Chronicle.input (c : Chronicle) (i : Nat) : Bytes :=
  (share i c.received).flatten

namespace SharedLog

variable {g g' : SharedLog} {c c' : Chronicle} {e : Event} {i j : Nat} {t : Task}

/-! ## Nobody is refused anything -/

/-- The store refuses nobody. -/
def Serene (g : SharedLog) : Prop :=
  ∀ i, ¬ g.Refused i

theorem serene_of_tasks (htask : ∀ i t, g.task? i = some t → t.wasRefused = false)
    (hholder : ∀ i w, g.holder = some (i, w) → w.isFailing = false) : g.Serene := by
  rintro i (⟨w, hw, hfail⟩ | ⟨t, ht, hrefused⟩)
  · rw [hholder i w hw] at hfail
    cases hfail
  · rw [htask i t ht] at hrefused
    cases hrefused

theorem Serene.task (h : g.Serene) (ht : g.task? i = some t) : t.wasRefused = false :=
  Bool.eq_false_iff.2 fun hrefused => h i (.inr ⟨t, ht, hrefused⟩)

theorem Serene.holder (h : g.Serene) {w : Work} (hw : g.holder = some (i, w)) : w.isFailing = false :=
  Bool.eq_false_iff.2 fun hfail => h i (.inl ⟨w, hw, hfail⟩)

/-- A task that was put in the place of another. -/
theorem Serene.setTask (h : g.Serene) {t' : Task} (ht : g.task? i = some t)
    (ht' : t'.wasRefused = false) :
    ∀ j u, (g.setTask i t').task? j = some u → u.wasRefused = false := by
  intro j u hu
  rcases task?_setTask_cases ht hu with ⟨-, rfl⟩ | ⟨-, hu⟩
  · exact ht'
  · exact h.task hu

theorem isFailing_ofRequest (store : Store) (r : Request) :
    (Work.ofRequest store r).isFailing = false := by
  cases r <;> rfl

/-- **Where no file step fails, nobody is refused anything.** -/
theorem Serene.move (h : g.Serene) (hkind : g.isFlawless e = true) (hm : Move g e g') :
    g'.Serene := by
  cases hm with
  | own more ht hown =>
      exact serene_of_tasks (h.setTask ht hown.wasRefused_after) fun _ _ hw => h.holder hw
  | ask hr hqueued => exact h
  | grant hnone hw =>
      refine serene_of_tasks (fun _ _ ht => h.task ht) ?_
      rintro j w ⟨⟩
      exact isFailing_ofRequest ..
  | file hw hmore =>
      refine serene_of_tasks (fun _ _ ht => h.task ht) ?_
      rintro j w ⟨⟩
      simpa only [isFlawless, hw, Option.all_some, Bool.not_eq_true'] using hkind
  | @release i answer t hw ht =>
      cases answer with
      | error f => cases h.holder hw
      | ok reply =>
          exact serene_of_tasks (h.setTask ht (Task.wasRefused_answered_ok t reply)) (by simp)
  | fire hi =>
      refine serene_of_tasks ?_ fun _ _ hw => h.holder hw
      intro j u hu
      rw [task?_fire] at hu
      exact h.task hu
  | outside change =>
      refine serene_of_tasks (fun _ _ ht => h.task ht) ?_
      intro j w hw
      obtain ⟨w', hw', rfl⟩ := holder_changed hw
      exact (Work.isFailing_withHandle _ w').trans (h.holder hw')

/-! ## Appends are committed in the order of the queue -/

/-- The append of the holder while it is not committed: one or none. -/
def inHand (g : SharedLog) : List (Nat × Bytes) :=
  match g.holder with
  | some (i, w) => w.bytes?.toList.map (i, ·)
  | none => []

/-- The appends that wait for the lock. -/
def waitingAppends (g : SharedLog) : List (Nat × Bytes) :=
  g.waiting.flatMap fun (i, r) => r.bytes?.toList.map (i, ·)

/-- The appends that asked for the lock are those committed, the one in hand and those that wait. -/
def Ordered (g : SharedLog) (c : Chronicle) : Prop :=
  c.queued = c.commits.map (fun (i, m) => (i, m.bytes)) ++ (g.inHand ++ g.waitingAppends)

theorem bytes?_ofRequest (store : Store) (r : Request) :
    (Work.ofRequest store r).bytes? = r.bytes? := by
  cases r <;> rfl

theorem bytes?_of_isPast {w : Work} (h : w.isPast = true) : w.bytes? = none := by
  cases w <;> first | rfl | cases h

theorem map_commits (i : Nat) (w w' : Work) (log : Bytes) :
    ((w.commits w' log).map (i, ·)).map (fun (i, m) => (i, m.bytes)) = (w.landing w').map (i, ·) := by
  rw [← Work.bytes_commits w w' log, List.map_map, List.map_map]
  rfl

theorem Ordered.of_eq (h : g.Ordered c) (hholder : g'.holder = g.holder)
    (hwaiting : g'.waiting = g.waiting) (hqueued : c'.queued = c.queued)
    (hcommits : c'.commits = c.commits) : g'.Ordered c' := by
  rw [Ordered, inHand, waitingAppends, hholder, hwaiting, hqueued, hcommits]
  exact h

/-- **Where no file step fails, the order of the queue is the order of the commits.** -/
theorem Ordered.move (h : g.Ordered c) (hkind : g.isCalm e = true) (hm : Move g e g') :
    g'.Ordered (c.note g e g') := by
  cases hm with
  | own more ht hown =>
      rw [Chronicle.note_own hown (task?_report_self ht more)]
      exact h.of_eq rfl rfl rfl rfl
  | @ask i r hr hqueued =>
      have hwanted : g.wanted i = r.bytes?.toList.map (i, ·) := by rw [wanted, hr, Option.bind_some]
      simp only [Ordered, Chronicle.note, inHand, waitingAppends, List.flatMap_append, hwanted,
        List.flatMap_cons, List.flatMap_nil, List.append_nil] at h ⊢
      rw [h]
      simp only [List.append_assoc]
  | @grant i r rest hnone hw =>
      simp only [Ordered, Chronicle.note, inHand, waitingAppends, hnone, hw, List.flatMap_cons,
        bytes?_ofRequest, List.nil_append] at h ⊢
      exact h
  | @file i w fault hw hmore =>
      have hcourse := Work.step_course fault g.store g.disk hmore
      simp only [isCalm, hw, Option.all_some, Bool.not_eq_true'] at hkind
      rw [hkind] at hcourse
      simp only [Ordered, Chronicle.note, inHand, waitingAppends, hw, committed, List.map_append,
        map_commits] at h ⊢
      rw [h]
      rcases hcourse.resolve_left (by simp) with ⟨hpast, -⟩ | ⟨bytes, hb, hb'⟩
      · rw [Work.landing_of_isPast hpast, bytes?_of_isPast hpast]
        simp only [Option.toList_none, List.map_nil, List.nil_append, List.append_assoc]
      · rw [Work.landing_of_not_isPast (Work.isWriting_of_bytes? hb').2.1, hb, hb', List.map_nil,
          List.append_nil]
  | @release i answer t hw ht =>
      simp only [Ordered, Chronicle.note, inHand, waitingAppends, hw, Work.bytes?, Option.toList_none,
        List.map_nil] at h ⊢
      exact h
  | fire hi => exact h.of_eq rfl rfl rfl rfl
  | outside change => cases hkind

/-! ## The invariant -/

/-- All that is kept along a calm run. -/
structure Invariant (g : SharedLog) (c : Chronicle) : Prop where
  queue : g.Queue
  accounts : g.Accounts c
  balanced : g.Balanced c
  recorded : g.Recorded c
  echoed : g.Echoed c
  serene : g.Serene
  ordered : g.Ordered c
  keeps : ∀ i limit policy, (g.task? i).map Task.kind = some (.session limit policy) → policy = .keep

theorem Invariant.steady (h : g.Invariant c) : g.Steady c :=
  ⟨h.queue, h.accounts, h.balanced, h.recorded, h.echoed⟩

theorem Invariant.move (h : g.Invariant c) (hkind : g.isCalm e = true) (hm : Move g e g') :
    g'.Invariant (c.note g e g') := by
  obtain ⟨hqueue, haccounts, hbalanced, hrecorded, hechoed⟩ :=
    h.steady.move (isUndisturbed_of_isCalm hkind) hm
  exact
    { queue := hqueue
      accounts := haccounts
      balanced := hbalanced
      recorded := hrecorded
      echoed := hechoed
      serene := h.serene.move (isFlawless_of_isCalm hkind) hm
      ordered := h.ordered.move hkind hm
      keeps := fun i limit policy hi => h.keeps i limit policy ((hm.kind i).symm.trans hi) }

end SharedLog

namespace Task.Fresh

variable {t : Task}

theorem starting (h : t.Fresh) : t.Starting := by
  cases h with
  | session peer settings hkeep => exact .session peer settings
  | writer uptime now period format => exact .writer uptime now period format
  | caller request hr => exact .caller request hr

theorem keeps (h : t.Fresh) {limit : Nat} {policy : Remainder}
    (hk : t.kind = .session limit policy) : policy = .keep := by
  cases h with
  | session peer settings hkeep =>
      cases hk
      exact hkeep
  | writer uptime now period format => cases hk
  | caller request hr => cases hk

end Task.Fresh

namespace SharedLog

variable {g : SharedLog} {c : Chronicle}

/-- **The invariant holds in the beginning.** -/
theorem invariant_start {store : Store} {disk : Disk} {seats : List Seat}
    (hfile : disk.content? store.path = some []) (hcounter : store.committed = 0)
    (hseats : ∀ seat ∈ seats, seat.task.Fresh) :
    Invariant { disk := disk, store := store, seats := seats } {} := by
  have hstarting : ∀ seat ∈ seats, seat.task.Starting := fun seat hseat => (hseats seat hseat).starting
  obtain ⟨hqueue, haccounts, hbalanced, hrecorded, hechoed⟩ :=
    steady_start hfile hcounter hstarting
  exact
    { queue := hqueue
      accounts := haccounts
      balanced := hbalanced
      recorded := hrecorded
      echoed := hechoed
      serene := serene_of_tasks (fun i t ht => (starting_of_seats hstarting ht).wasRefused) (by simp)
      ordered := rfl
      keeps := fun i limit policy hi => by
        obtain ⟨t, ht, hk⟩ := Option.map_eq_some_iff.1 hi
        obtain ⟨seat, hseat, rfl⟩ := Option.map_eq_some_iff.1 ht
        exact (hseats seat (List.mem_of_getElem? hseat)).keeps hk }

/-! ## What a run looks like -/

/-- A state and its chronicle, as if each append and its echo had happened in one piece. -/
structure Linear (g : SharedLog) (c : Chronicle) : Prop where
  /-- With the lock free the file is made of the commits, and the counter is its length. -/
  file : g.holder = none → g.disk.content? g.store.path = some (wholeLog c.commits) ∧
    g.store.committed = (wholeLog c.commits).length
  /-- With the lock free the commits, and then the appends that wait, are in the order of the queue. -/
  order : g.holder = none →
    c.queued = c.commits.map (fun (i, m) => (i, m.bytes)) ++ g.waitingAppends
  /-- The log right after a commit is made of the commits up to it. -/
  told : ∀ k m, c.commits[k]? = some m → m.2.log = wholeLog (c.commits.take (k + 1))
  /-- Only sessions and timestamp writers commit anything. -/
  owner : ∀ m ∈ c.commits, (∃ s, g.session? m.1 = some s) ∨ ∃ w, g.writer? m.1 = some w
  /-- A session commits lines of its input in their order, and by the time it waits for more, or knows
  that none will come, all of them. -/
  session : ∀ i s, g.session? i = some s → c.landed i <+: lines (c.input i) ∧
    (s.IsDrained → c.landed i = lines (c.input i))
  /-- A timestamp writer commits its records in their order. -/
  writer : ∀ i w, g.writer? i = some w → c.landed i <+: share i c.offered
  /-- A session gets the log right after its own commit, for one commit after the other. -/
  echo : ∀ i s, g.session? i = some s → ∀ (k : Nat) (log : Bytes),
    (share i c.returned)[k]? = some log →
    ∃ m : Commit, (share i c.commits)[k]? = some m ∧ m.log = log ∧ m.bytes <:+ log
  /-- Of any two logs that were given back one is a prefix of the other. -/
  comparable : ∀ l ∈ c.returned, ∀ m ∈ c.returned, l.2 <+: m.2 ∨ m.2 <+: l.2

namespace Invariant

theorem offered_eq (h : g.Invariant c) (i : Nat) : share i c.offered = c.landed i ++ g.owed i := by
  obtain ⟨rest, hrest, hor⟩ := h.balanced i
  rw [hrest, hor.resolve_left (h.serene i)]

theorem owner (h : g.Invariant c) {m : Nat × Commit} (hm : m ∈ c.commits) :
    (∃ s, g.session? m.1 = some s) ∨ ∃ w, g.writer? m.1 = some w := by
  have hlanded : m.2.bytes ∈ share m.1 c.offered := by
    rw [h.offered_eq]
    exact List.mem_append_left _ (List.mem_map_of_mem (mem_share.2 hm))
  cases ht : g.task? m.1 with
  | none =>
      rw [h.accounts.nobody m.1 ht] at hlanded
      cases hlanded
  | some t =>
      cases t with
      | session s => exact .inl ⟨s, session?_eq_some.2 ht⟩
      | writer w => exact .inr ⟨w, writer?_eq_some.2 ht⟩
      | caller d =>
          rw [(h.accounts.task m.1 _ ht).2] at hlanded
          cases hlanded

theorem session (h : g.Invariant c) {i : Nat} {s : Session} (hs : g.session? i = some s) :
    c.landed i <+: lines (c.input i) ∧ (s.IsDrained → c.landed i = lines (c.input i)) := by
  rw [session?_eq_some] at hs
  have hkeep : s.framer.remainder = .keep :=
    h.keeps i s.framer.limit s.framer.remainder (by rw [hs]; rfl)
  obtain ⟨hpre, hall⟩ := (h.accounts.task i _ hs).packets_first hkeep
  rw [h.offered_eq] at hpre hall
  refine ⟨(List.prefix_append ..).trans hpre, ?_⟩
  intro hdrained
  have hnone : g.request? i = none := by
    rw [request?, hs, Option.bind_some]
    rcases hdrained with hstage | ⟨n, hstage⟩ <;> simp only [Task.request?, hstage]
  rw [← show _ = lines (c.input i) from hall hdrained, owed_of_request?_none hnone, List.append_nil]

theorem bytes_suffix (h : g.Invariant c) {i : Nat} {m : Commit} (hm : (i, m) ∈ c.commits) :
    m.bytes <:+ m.log :=
  ⟨m.before, h.recorded.told.before_append hm⟩

theorem echo (h : g.Invariant c) {i : Nat} {s : Session} (hs : g.session? i = some s) {k : Nat}
    {log : Bytes} (hk : (share i c.returned)[k]? = some log) :
    ∃ m : Commit, (share i c.commits)[k]? = some m ∧ m.log = log ∧ m.bytes <:+ log := by
  obtain ⟨rest, hrest, -⟩ := h.echoed i _ (session?_eq_some.1 hs) rfl
  have hlog : (c.logs i)[k]? = some log := by
    rw [hrest, List.getElem?_append_left (List.getElem?_eq_some_iff.1 hk).1]
    exact hk
  rw [Chronicle.logs, List.getElem?_map, Option.map_eq_some_iff] at hlog
  obtain ⟨m, hm, rfl⟩ := hlog
  exact ⟨m, hm, rfl, h.bytes_suffix (mem_share.1 (List.mem_of_getElem? hm))⟩

/-- **What is carried along a calm run makes it linear.** -/
theorem linear (h : g.Invariant c) : g.Linear c where
  file := h.recorded.file_of_free
  order hfree := by
    have hordered := h.ordered
    rwa [Ordered, inHand, hfree, List.nil_append] at hordered
  told := h.recorded.told
  owner _ := h.owner
  session _ _ := h.session
  writer i _ _ := by
    rw [h.offered_eq]
    exact List.prefix_append ..
  echo _ _ hs _ _ := h.echo hs
  comparable l hl m hm :=
    List.prefix_or_prefix_of_prefix (h.recorded.returned l hl) (h.recorded.returned m hm)

end Invariant

end SharedLog

/-- What a run has done. -/
def SharedLog.chronicle (g : SharedLog) (es : List Event) : Chronicle :=
  ((Traced.run? ⟨g, {}⟩ es).map (·.past)).getD {}

open SharedLog

/-- **Every calm run on a log that was just created is linear.** -/
theorem calm_run_is_linear {disk fresh : Disk} {path : Path} {sync : Bool} {store : Store}
    (hcreate : Store.create disk path sync = .ok (store, fresh)) {seats : List Seat}
    (hseats : ∀ seat ∈ seats, seat.task.Fresh) {es : List Event} {g : SharedLog}
    (hcalm : Along isCalm { disk := fresh, store := store, seats := seats } es = true)
    (hrun : run? { disk := fresh, store := store, seats := seats } es = some g) :
    g.Linear (chronicle { disk := fresh, store := store, seats := seats } es) := by
  have hintact := History.intact_create hcreate
  have hstart := invariant_start hintact.file hintact.counter hseats
  obtain ⟨t, ht, rfl⟩ := Option.map_eq_some_iff.1 ((Traced.run?_now ⟨_, {}⟩ es).trans hrun)
  rw [chronicle, ht]
  exact (Traced.run_induction (P := Invariant) (fun hkind h hm => h.move hkind hm) hstart hcalm
    ht).linear

/-- Two sessions, a timestamp writer and a reader on a log that was just created. -/
def SharedLog.crowd : SharedLog where
  disk := { nodes := [(["data"], .file [])] }
  store := { path := ⟨[], "data"⟩ }
  seats :=
    [⟨.session (.start (.quad 127 0 0 1 1) {}), false⟩, ⟨.session (.start (.quad 127 0 0 1 2) {}), false⟩,
      ⟨.writer (.start 0 0 5 "%%"), false⟩, ⟨.caller ⟨.snapshot, none⟩, false⟩]

/-- Three appends that overlap; the token of the second session fires while it holds the lock. -/
def SharedLog.bustle : List Event :=
  [.receive 0 (.ok (utf8 "a\nb")), .frame 0, .ask 0, .receive 1 (.ok (utf8 "cc\n")), .grant, .frame 1,
    .file none, .ask 1, .file none, .tick 2 5 ⟨⟨0, 0⟩, .utc⟩, .ask 2, .file none, .ask 3, .file none,
    .release, .grant, .fire 1, .file none, .file none, .file none, .file none, .release, .leave 1,
    .grant, .file none, .file none, .file none, .release, .send 0 (.ok 2), .flush 0 (.ok ()), .frame 0]

/-- The theorem at three appends that overlap. -/
theorem bustle_is_linear : ∃ g, crowd.run? bustle = some g ∧
    g.content = utf8 "a\ncc\ntimestamp:%\n" ∧ g.Linear (crowd.chronicle bustle) := by
  have hcreate : Store.create {} ⟨[], "data"⟩ false = .ok (crowd.store, crowd.disk) := rfl
  have hseats : ∀ seat ∈ crowd.seats, seat.task.Fresh := by
    simp only [crowd, List.forall_mem_cons]
    exact ⟨.session _ _ rfl, .session _ _ rfl, .writer .., .caller _ (.inl rfl),
      List.forall_mem_nil _⟩
  have hcalm : Along isCalm crowd bustle = true := by decide +kernel
  have hcontent : (crowd.run? bustle).map content = some (utf8 "a\ncc\ntimestamp:%\n") := by
    decide +kernel
  obtain ⟨g, hrun, hlog⟩ := Option.map_eq_some_iff.1 hcontent
  exact ⟨g, hrun, hlog, calm_run_is_linear hcreate hseats hcalm hrun⟩

end EchoLog

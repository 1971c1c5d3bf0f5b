import EchoLog.Proofs.Roster.Books
/-!
# The ledger of a roster

Callers register sessions and drop registrations, take slots and give them back, hand tokens on and fire
them; tracked tasks hold registrations of their own and end, because the token fired or by breaking off.
All of that is a history of events, and the history alone tells which registrations were made
(`Roster.entries`), which of them were dropped (`Roster.Dropped`) and whether the token was fired
(`Roster.Fired`).  No roster occurs in these three.

`Roster.Ledger` says that a roster agrees with such an account: the registry lists the registrations that
were made and not dropped, in the order in which they were made, and the tracked tasks are those whose
registration was not dropped, one task a registration.  It is kept when a registration is made
(`Ledger.enter`) and when some are dropped, in whatever order (`Ledger.strike`): by a caller, by a task
that ends, or by all tasks at once.
-/

namespace EchoLog

/-! ## Histories -/

/-- Something that happens to a roster. -/
inductive RosterEvent where
  | asked (call : RosterCall)
  /-- A tracked task ends, whatever ended it, and gives everything back. -/
  | ended (task : Nat)
deriving DecidableEq, Repr

/-- Who drops a registration. -/
inductive Keeper where
  | caller
  | task (id : Nat)
deriving DecidableEq, Repr

/-- A registration as it was made. -/
structure Entry where
  peer : Endpoint
  acceptedAt : Nat
  keeper : Keeper
deriving DecidableEq, Repr

namespace RosterEvent

/-- Whether a task is tracked from this event on. -/
def tracks : RosterEvent → Bool
  | asked (.track _ _) => true
  | asked (.trackBroken _ _) => true
  | _ => false

/-- The registration that an event makes, when the next task to be tracked is `task`. -/
def entry? (task : Nat) : RosterEvent → Option Entry
  | asked (.register peer now) => some ⟨peer, now, .caller⟩
  | asked (.track peer now) => some ⟨peer, now, .task task⟩
  | asked (.trackBroken peer now) => some ⟨peer, now, .task task⟩
  | _ => none

end RosterEvent

namespace Roster

/-- The roster after an event. -/
def happen (r : Roster) : RosterEvent → Roster
  | .asked c => r.call c
  | .ended task => r.dismiss task

/-- The roster after a history. -/
def happens (r : Roster) (es : List RosterEvent) : Roster :=
  es.foldl happen r

/-- The registrations that a history makes, in order, when its first task is `task`. -/
def entriesFrom : Nat → List RosterEvent → List Entry
  | _, [] => []
  | task, e :: es => (e.entry? task).toList ++ entriesFrom (if e.tracks then task + 1 else task) es

/-- The registrations that were made, in order.  The id of a session is its place here. -/
def entries (es : List RosterEvent) : List Entry :=
  entriesFrom 0 es

/-- Who drops the registration with an id, if it was made. -/
def keeper? (made : List Entry) (session : Nat) : Option Keeper :=
  made[session]?.map (·.keeper)

/-- The token was fired, by a stop or through one of its clones. -/
def Fired (es : List RosterEvent) : Prop :=
  .asked .requestStop ∈ es ∨ .asked .cancel ∈ es

/-- An event drops a registration, given what happened before. -/
inductive Drops (before : List RosterEvent) : Nat → RosterEvent → Prop where
  /-- The caller drops what it registered. -/
  | given {session : Nat} : keeper? (entries before) session = some .caller →
      Drops before session (.asked (.deregister session))
  /-- The task that holds it ends. -/
  | ended {session task : Nat} : keeper? (entries before) session = some (.task task) →
      Drops before session (.ended task)
  /-- The tasks run, and the token has fired. -/
  | turned {session task : Nat} : keeper? (entries before) session = some (.task task) →
      Fired before → Drops before session (.asked .turn)
  /-- The tasks run, one that breaks off among them, and the token has fired. -/
  | swept {session task : Nat} (peer : Endpoint) (now : Nat) :
      keeper? (entries before) session = some (.task task) →
      Fired before → Drops before session (.asked (.trackBroken peer now))
  /-- The task that is tracked breaks off. -/
  | broken (peer : Endpoint) (now : Nat) :
      Drops before (entries before).length (.asked (.trackBroken peer now))

/-- A registration was dropped in the course of a history. -/
def Dropped (es : List RosterEvent) (session : Nat) : Prop :=
  ∃ before e after, es = before ++ e :: after ∧ Drops before session e

/-! ## Histories that grow -/

variable {es : List RosterEvent} {e : RosterEvent} {made : List Entry} {session task : Nat}

theorem happens_concat (r : Roster) (es : List RosterEvent) (e : RosterEvent) :
    r.happens (es ++ [e]) = (r.happens es).happen e :=
  List.foldl_concat ..

theorem happens_append (r : Roster) (es more : List RosterEvent) :
    r.happens (es ++ more) = (r.happens es).happens more :=
  List.foldl_append

/-- One event of a longer history is its last or one before. -/
theorem exists_split_concat {α : Type} (es : List α) (e : α) (P : List α → α → List α → Prop) :
    (∃ before x after, es ++ [e] = before ++ x :: after ∧ P before x after) ↔
      P es e [] ∨ ∃ before x after, es = before ++ x :: after ∧ P before x (after ++ [e]) := by
  constructor
  · rintro ⟨before, x, after, hsplit, hp⟩
    rcases List.eq_nil_or_concat' after with rfl | ⟨after, last, rfl⟩
    · obtain ⟨rfl, hx⟩ := List.append_inj' hsplit rfl
      obtain ⟨rfl, -⟩ := List.cons_eq_cons.1 hx
      exact .inl hp
    · rw [← List.cons_append, ← List.append_assoc] at hsplit
      obtain ⟨rfl, hlast⟩ := List.append_inj' hsplit rfl
      obtain ⟨rfl, -⟩ := List.cons_eq_cons.1 hlast
      exact .inr ⟨before, x, after, rfl, hp⟩
  · rintro (hp | ⟨before, x, after, rfl, hp⟩)
    · exact ⟨es, e, [], rfl, hp⟩
    · exact ⟨before, x, after ++ [e], List.append_assoc .., hp⟩

theorem dropped_concat :
    Dropped (es ++ [e]) session ↔ Dropped es session ∨ Drops es session e := by
  rw [Or.comm]
  exact exists_split_concat es e fun before x _ => Drops before session x

theorem fired_concat : Fired (es ++ [e]) ↔
    Fired es ∨ e = .asked .requestStop ∨ e = .asked .cancel := by
  simp only [Fired, List.mem_append, List.mem_singleton, @eq_comm _ _ e]
  tauto

theorem entriesFrom_concat (task : Nat) (es : List RosterEvent) (e : RosterEvent) :
    entriesFrom task (es ++ [e]) =
      entriesFrom task es ++ (e.entry? (task + es.countP (·.tracks))).toList := by
  induction es generalizing task with
  | nil => simp [entriesFrom]
  | cons f fs ih =>
      rw [List.cons_append, entriesFrom, ih, entriesFrom, List.append_assoc, List.countP_cons]
      cases f.tracks <;> simp [Nat.add_assoc, Nat.add_comm 1]

theorem entries_concat (es : List RosterEvent) (e : RosterEvent) :
    entries (es ++ [e]) = entries es ++ (e.entry? (es.countP (·.tracks))).toList := by
  rw [entries, entriesFrom_concat, Nat.zero_add]
  rfl

theorem lt_length_of_keeper? {k : Keeper} (h : keeper? made session = some k) :
    session < made.length := by
  obtain ⟨entry, hentry, -⟩ := Option.map_eq_some_iff.1 h
  exact (List.getElem?_eq_some_iff.1 hentry).1

theorem getElem?_concat_iff {α : Type} {l : List α} {a b : α} {i : Nat} :
    (l ++ [a])[i]? = some b ↔ l[i]? = some b ∨ (i = l.length ∧ a = b) := by
  rcases Nat.lt_trichotomy i l.length with hlt | rfl | hgt
  · rw [List.getElem?_append_left hlt]
    exact (or_iff_left fun h => Nat.ne_of_lt hlt h.1).symm
  · simp
  · have hnone : (l ++ [a])[i]? = none := by
      rw [List.getElem?_eq_none_iff, List.length_append]
      exact hgt
    rw [hnone, List.getElem?_eq_none (Nat.le_of_lt hgt)]
    simp [Nat.ne_of_gt hgt]

theorem keeper?_concat_iff {entry : Entry} {k : Keeper} : keeper? (made ++ [entry]) session = some k ↔
    keeper? made session = some k ∨ (session = made.length ∧ entry.keeper = k) := by
  simp only [keeper?, Option.map_eq_some_iff, getElem?_concat_iff, or_and_right, exists_or, and_assoc,
    exists_and_left, exists_eq_left']

/-! ## A roster that agrees -/

/-- The registry and the tasks are what an account of the registrations says: which were made, and which
were dropped. -/
structure Ledger (made : List Entry) (dropped : Nat → Prop) (r : Roster) : Prop where
  next : r.nextSession = made.length
  /-- The next task is a new one. -/
  known : ∀ k n, keeper? made k = some (.task n) → n < r.nextTask
  /-- No task holds two registrations. -/
  once : ∀ k k' n, keeper? made k = some (.task n) → keeper? made k' = some (.task n) → k = k'
  dropped_lt : ∀ k, dropped k → k < made.length
  inOrder : r.sessions.Pairwise fun s t => s.id < t.id
  session_iff : ∀ s, s ∈ r.sessions ↔
    (∃ k, made[s.id]? = some ⟨s.peer, s.acceptedAt, k⟩) ∧ ¬ dropped s.id
  task_iff : ∀ t, t ∈ r.tasks ↔
    ∃ k, keeper? made k = some (.task t.id) ∧ ¬ dropped k ∧ t = ⟨t.id, [.session k], false⟩

variable {r r' : Roster} {dropped : Nat → Prop}

theorem Ledger.congr (h : r.Ledger made dropped) {dropped' : Nat → Prop}
    (hsame : ∀ k, dropped' k ↔ dropped k) : r.Ledger made dropped' :=
  (funext fun k => propext (hsame k) : dropped' = dropped) ▸ h

theorem Ledger.of_eq (h : r.Ledger made dropped) (hsessions : r'.sessions = r.sessions)
    (hnext : r'.nextSession = r.nextSession) (htasks : r'.tasks = r.tasks)
    (hnextTask : r'.nextTask = r.nextTask) : r'.Ledger made dropped := by
  obtain ⟨next, known, once, lt, inOrder, sessions, tasks⟩ := h
  rw [← hnext] at next
  rw [← hnextTask] at known
  rw [← hsessions] at inOrder sessions
  rw [← htasks] at tasks
  exact ⟨next, known, once, lt, inOrder, sessions, tasks⟩

theorem eq_of_start? {slots : Nat} (hstart : start? slots = some r) : r = { free := slots } := by
  rw [start?, Option.ite_none_right_eq_some] at hstart
  exact (Option.some.inj hstart.2).symm

/-- An empty roster agrees with an account of nothing. -/
theorem ledger_start {slots : Nat} (hstart : start? slots = some r) : r.Ledger [] fun _ => False := by
  rw [eq_of_start? hstart]
  exact ⟨rfl, by simp [keeper?], by simp [keeper?], by simp, .nil, by simp, by simp [keeper?]⟩

/-- A registration is made, for the caller or for a new task. -/
theorem Ledger.enter (h : r.Ledger made dropped) (entry : Entry)
    (hsessions : r'.sessions = r.sessions ++ [⟨r.nextSession, entry.peer, entry.acceptedAt⟩])
    (hnext : r'.nextSession = r.nextSession + 1)
    (htasks : (entry.keeper = .caller ∧ r'.tasks = r.tasks ∧ r'.nextTask = r.nextTask) ∨
      (entry.keeper = .task r.nextTask ∧ r'.nextTask = r.nextTask + 1 ∧
        r'.tasks = r.tasks ++ [⟨r.nextTask, [.session r.nextSession], false⟩])) :
    r'.Ledger (made ++ [entry]) dropped := by
  have hfresh : ¬ dropped made.length := fun hd => Nat.lt_irrefl _ (h.dropped_lt _ hd)
  have hnew : ∀ n, entry.keeper = .task n → n = r.nextTask ∧ r'.nextTask = r.nextTask + 1 := by
    intro n hn
    rcases htasks with ⟨hcaller, -, -⟩ | ⟨htask, hcount, -⟩
    · rw [hcaller] at hn
      cases hn
    · rw [htask] at hn
      cases hn
      exact ⟨rfl, hcount⟩
  refine ⟨?_, ?_, ?_, ?_, ?_, ?_, ?_⟩
  · rw [hnext, h.next, List.length_append, List.length_singleton]
  · intro k n hk
    rcases keeper?_concat_iff.1 hk with hk | ⟨-, hk⟩
    · refine Nat.lt_of_lt_of_le (h.known k n hk) ?_
      rcases htasks with ⟨-, -, hcount⟩ | ⟨-, hcount, -⟩ <;> omega
    · obtain ⟨rfl, hcount⟩ := hnew n hk
      omega
  · intro k k' n hk hk'
    have hold : ∀ i, keeper? made i = some (.task n) → entry.keeper ≠ .task n := by
      intro i hi hn
      exact Nat.ne_of_lt (h.known i n hi) (hnew n hn).1
    rcases keeper?_concat_iff.1 hk with hk | ⟨hlast, hk⟩
    · rcases keeper?_concat_iff.1 hk' with hk' | ⟨-, hk'⟩
      · exact h.once k k' n hk hk'
      · exact absurd hk' (hold k hk)
    · rcases keeper?_concat_iff.1 hk' with hk' | ⟨hlast', -⟩
      · exact absurd hk (hold k' hk')
      · exact hlast.trans hlast'.symm
  · intro k hk
    rw [List.length_append]
    exact Nat.lt_add_right _ (h.dropped_lt k hk)
  · rw [hsessions]
    refine List.pairwise_append.2 ⟨h.inOrder, List.pairwise_singleton .., ?_⟩
    intro s hs t ht
    obtain ⟨⟨k, hk⟩, -⟩ := (h.session_iff s).1 hs
    rw [List.mem_singleton.1 ht, h.next]
    exact (List.getElem?_eq_some_iff.1 hk).1
  · intro s
    have hlast : (s.id = made.length ∧ ∃ k, entry = ⟨s.peer, s.acceptedAt, k⟩) ↔
        s = ⟨r.nextSession, entry.peer, entry.acceptedAt⟩ := by
      rw [h.next]
      constructor
      · rintro ⟨hid, k, rfl⟩
        rw [← hid]
      · rintro rfl
        exact ⟨rfl, entry.keeper, rfl⟩
    simp only [hsessions, List.mem_append, List.mem_singleton, h.session_iff, getElem?_concat_iff,
      exists_or, exists_and_left, hlast, or_and_right]
    refine or_congr_right (and_iff_left_of_imp ?_).symm
    rintro rfl
    rwa [h.next]
  · intro t
    rcases htasks with ⟨hcaller, htasks, -⟩ | ⟨htask, -, htasks⟩
    · simp only [htasks, h.task_iff, keeper?_concat_iff, hcaller, reduceCtorEq, and_false, or_false]
    · have hlast : t = ⟨r.nextTask, [.session r.nextSession], false⟩ ↔
          .task r.nextTask = Keeper.task t.id ∧ t = ⟨t.id, [.session made.length], false⟩ := by
        rw [← h.next]
        constructor
        · rintro rfl
          exact ⟨rfl, rfl⟩
        · rintro ⟨hid, ht⟩
          rw [Keeper.task.injEq] at hid
          rwa [hid]
      simp only [htasks, List.mem_append, List.mem_singleton, h.task_iff, keeper?_concat_iff, htask,
        or_and_right, exists_or, and_assoc, exists_eq_left, hfresh, not_false_eq_true, true_and, hlast]

/-! ## Registrations that are dropped -/

/-- Registrations are dropped, and tasks that held them go. -/
theorem Ledger.strike (h : r.Ledger made dropped) {gone : Nat → Prop}
    (hnext : r'.nextSession = r.nextSession) (hnextTask : r'.nextTask = r.nextTask)
    (hsublist : r'.sessions.Sublist r.sessions)
    (hgone : ∀ k, gone k → k < made.length)
    (hsessions : ∀ s ∈ r.sessions, s ∈ r'.sessions ↔ ¬ gone s.id)
    (htasks : ∀ t, t ∈ r'.tasks ↔
      t ∈ r.tasks ∧ ∀ k, keeper? made k = some (.task t.id) → ¬ gone k) :
    r'.Ledger made fun k => dropped k ∨ gone k := by
  refine ⟨hnext.trans h.next, ?_, h.once, ?_, h.inOrder.sublist hsublist, ?_, ?_⟩
  · rw [hnextTask]
    exact h.known
  · intro k hk
    exact hk.elim (h.dropped_lt k) (hgone k)
  · intro s
    rw [not_or, ← and_assoc, ← h.session_iff]
    constructor
    · intro hs
      have hold := hsublist.subset hs
      exact ⟨hold, (hsessions s hold).1 hs⟩
    · rintro ⟨hold, hkept⟩
      exact (hsessions s hold).2 hkept
  · intro t
    rw [htasks, h.task_iff]
    constructor
    · rintro ⟨⟨k, hk, hstands, ht⟩, hkept⟩
      exact ⟨k, hk, not_or.2 ⟨hstands, hkept k hk⟩, ht⟩
    · rintro ⟨k, hk, hstands, ht⟩
      refine ⟨⟨k, hk, fun hd => hstands (.inl hd), ht⟩, ?_⟩
      intro k' hk' hg
      rw [h.once k' k _ hk' hk] at hg
      exact hstands (.inr hg)

/-- The caller drops a registration that no task holds. -/
theorem Ledger.deregister (h : r.Ledger made dropped) (session : Nat) :
    (r.call (.deregister session)).Ledger made fun k =>
      dropped k ∨ (k = session ∧ keeper? made k = some .caller) := by
  have hkept : r.isKept session = true ↔
      ∃ n, keeper? made session = some (.task n) ∧ ¬ dropped session := by
    simp only [isKept, List.any_eq_true, List.contains_iff_mem, h.task_iff]
    constructor
    · rintro ⟨t, ⟨k, hk, hstands, ht⟩, hmem⟩
      rw [ht, List.mem_singleton, Guard.session.injEq] at hmem
      exact hmem ▸ ⟨t.id, hk, hstands⟩
    · rintro ⟨n, hn, hstands⟩
      exact ⟨⟨n, [.session session], false⟩, ⟨session, hn, hstands, rfl⟩, List.mem_singleton_self _⟩
  rw [call]
  split
  · rename_i hyes
    obtain ⟨n, hn, -⟩ := hkept.1 hyes
    refine h.congr fun k => or_iff_left ?_
    rintro ⟨rfl, hcaller⟩
    rw [hn] at hcaller
    cases hcaller
  · rename_i hno
    refine h.strike rfl rfl List.filter_sublist ?_ ?_ ?_
    · rintro k ⟨-, hk⟩
      exact lt_length_of_keeper? hk
    · intro s hs
      obtain ⟨⟨k, hk⟩, hstands⟩ := (h.session_iff s).1 hs
      have hkeeper : keeper? made s.id = some k := by rw [keeper?, hk, Option.map_some]
      rw [Roster.deregister, List.mem_filter, and_iff_right hs, decide_eq_true_iff, Ne, not_iff_not]
      refine (and_iff_left_of_imp ?_).symm
      rintro rfl
      cases k with
      | caller => exact hkeeper
      | task n => exact absurd (hkept.2 ⟨n, hkeeper, hstands⟩) hno
    · intro t
      refine (and_iff_left ?_).symm
      rintro k hk ⟨-, hcaller⟩
      rw [hk] at hcaller
      cases hcaller

/-- What a roster keeps beside its registry and its tasks. -/
def desk (r : Roster) : Roster :=
  { r with sessions := [], nextSession := 0, tasks := [] }

/-- A task that ends drops its registration and goes, and touches nothing else. -/
theorem Ledger.dismiss (h : r.Ledger made dropped) (task : Nat) :
    ((r.dismiss task).Ledger made fun k => dropped k ∨ keeper? made k = some (.task task)) ∧
      (r.dismiss task).desk = r.desk := by
  cases ht : r.task? task with
  | none =>
      rw [Roster.dismiss, ht]
      refine ⟨h.congr fun k => or_iff_left_of_imp ?_, rfl⟩
      intro hk
      by_contra hstands
      have hmem : ⟨task, [.session k], false⟩ ∈ r.tasks := (h.task_iff _).2 ⟨k, hk, hstands, rfl⟩
      exact absurd (List.find?_eq_none.1 ht _ hmem) (by simp)
  | some t =>
      have hid : t.id = task := of_decide_eq_true (List.find?_eq_some_iff_append.1 ht).1
      obtain ⟨k, hk, hstands, hguards⟩ := (h.task_iff t).1 (List.mem_of_find?_eq_some ht)
      rw [hid] at hk hguards
      have hgone : r.dismiss task = (r.deregister k).forget task := by
        rw [Roster.dismiss, ht, hguards]
        rfl
      have honly : ∀ i, keeper? made i = some (.task task) ↔ i = k := by
        intro i
        constructor
        · exact fun hi => h.once i k task hi hk
        · rintro rfl
          exact hk
      rw [hgone]
      refine ⟨h.strike rfl rfl List.filter_sublist ?_ ?_ ?_, rfl⟩
      · exact fun i hi => lt_length_of_keeper? hi
      · intro s hs
        show s ∈ r.sessions.filter (·.id ≠ k) ↔ _
        rw [List.mem_filter, and_iff_right hs, decide_eq_true_iff, honly]
      · intro u
        show u ∈ r.tasks.filter (·.id ≠ task) ↔ _
        rw [List.mem_filter, decide_eq_true_iff, and_congr_right_iff]
        intro hu
        obtain ⟨i, hi, -, -⟩ := (h.task_iff u).1 hu
        constructor
        · intro hother i hi hi'
          rw [hi] at hi'
          cases hi'
          exact hother rfl
        · rintro hother rfl
          exact hother i hi hi

theorem Ledger.dismissAll (h : r.Ledger made dropped) (tasks : List Nat) :
    ((tasks.foldl Roster.dismiss r).Ledger made fun k =>
      dropped k ∨ ∃ n ∈ tasks, keeper? made k = some (.task n)) ∧
      (tasks.foldl Roster.dismiss r).desk = r.desk := by
  induction tasks generalizing r dropped with
  | nil => exact ⟨h.congr (by simp), rfl⟩
  | cons n tasks ih =>
      obtain ⟨hfirst, hdesk⟩ := h.dismiss n
      obtain ⟨hrest, hdesk'⟩ := ih hfirst
      refine ⟨hrest.congr ?_, hdesk'.trans hdesk⟩
      simp [or_assoc]

/-- When the tasks run and the token has fired, all of them end. -/
theorem Ledger.turn (h : r.Ledger made dropped) :
    (r.turn.Ledger made fun k =>
      dropped k ∨ (r.cancelled = true ∧ ∃ n, keeper? made k = some (.task n))) ∧
      r.turn.desk = r.desk := by
  rw [Roster.turn]
  split
  · rename_i hfired
    obtain ⟨hall, hdesk⟩ := h.dismissAll (r.tasks.map (·.id))
    refine ⟨hall.congr ?_, hdesk⟩
    intro k
    by_cases hstands : dropped k
    · simp only [hstands, true_or]
    · simp only [hstands, false_or, hfired, true_and]
      refine exists_congr fun n => (and_iff_right_of_imp ?_).symm
      intro hk
      exact List.mem_map.2 ⟨_, (h.task_iff ⟨n, [.session k], false⟩).2 ⟨k, hk, hstands, rfl⟩, rfl⟩
  · rename_i hnot
    exact ⟨h.congr fun k => or_iff_left fun hk => hnot hk.1, rfl⟩

/-- A task is tracked, with a registration of its own. -/
theorem Ledger.track (h : r.Ledger made dropped) (peer : Endpoint) (now : Nat) :
    (r.track peer now).2.Ledger (made ++ [⟨peer, now, .task r.nextTask⟩]) dropped :=
  h.enter ⟨peer, now, .task r.nextTask⟩ rfl rfl (.inr ⟨rfl, rfl, rfl⟩)

/-- A task is tracked and breaks off, and the others run. -/
theorem Ledger.trackBroken (h : r.Ledger made dropped) (peer : Endpoint) (now : Nat) :
    ((r.call (.trackBroken peer now)).Ledger (made ++ [⟨peer, now, .task r.nextTask⟩]) fun k =>
      dropped k ∨ k = made.length ∨ (r.cancelled = true ∧ ∃ n, keeper? made k = some (.task n))) ∧
      (r.call (.trackBroken peer now)).desk = (r.track peer now).2.desk := by
  obtain ⟨hbroken, hdesk⟩ := (h.track peer now).dismiss r.nextTask
  obtain ⟨hturn, hdesk'⟩ := hbroken.turn
  have hcancelled : ((r.track peer now).2.dismiss r.nextTask).cancelled = r.cancelled :=
    (congrArg (fun r : Roster => r.cancelled) hdesk :)
  refine ⟨hturn.congr ?_, hdesk'.trans hdesk⟩
  intro k
  have hown : keeper? made k ≠ some (.task r.nextTask) :=
    fun hk => Nat.lt_irrefl _ (h.known k _ hk)
  simp only [hcancelled, keeper?_concat_iff, hown, false_or, and_true, exists_or, exists_and_left,
    Keeper.task.injEq, exists_eq', and_true]
  tauto

end Roster

end EchoLog

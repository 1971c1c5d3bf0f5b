import EchoLog.Proofs.Roster.Histories
import Mathlib.Data.Set.Card
/-!
# What a roster reports

Everything that somebody can read off a roster, told by the history of what was asked of it and of the
tasks that ended (`Roster.Reports`): how many sessions are registered and which, in which order the
remaining ones are listed and warned about, whether a slot can be taken and which are taken, what the two
flags and the token show, and when all tasks have gone.  It holds after every history
(`Roster.reports_follow_history`), so no order of drops and no task that breaks off unbalances anything.
A flag that is set and a token that has fired stay so.
-/

namespace EchoLog

namespace Roster

variable {es : List RosterEvent} {made : List Entry} {r r₀ : Roster} {dropped : Nat → Prop}

/-- A registration that was made and not dropped. -/
def Outstanding (es : List RosterEvent) (session : Nat) : Prop :=
  session < (entries es).length ∧ ¬ Dropped es session

/-- The clock never went back from one registration to a later one. -/
def InTime (made : List Entry) : Prop :=
  made.Pairwise fun a b => a.acceptedAt ≤ b.acceptedAt

/-- What is read off a roster that was `r₀` before a history. -/
structure Reports (slots : Nat) (r r₀ : Roster) (es : List RosterEvent) : Prop where
  active : r.active = {k | Outstanding es k}.ncard
  registered : ∀ k, k ∈ r.sessions.map (·.id) ↔ Outstanding es k
  told : ∀ s ∈ r.sessions, ∃ k, (entries es)[s.id]? = some ⟨s.peer, s.acceptedAt, k⟩
  distinct : (r.sessions.map (·.id)).Nodup
  /-- The next session gets an id that no session had. -/
  fresh : ∀ peer now, (r.register peer now).1 = (entries es).length
  listed : r.remaining.Perm r.sessions
  oldestFirst : r.remaining.Pairwise fun s t => s.acceptedAt ≤ t.acceptedAt
  inTurn : InTime (entries es) →
    r.remaining.Pairwise fun s t => s.acceptedAt ≠ t.acceptedAt → s.id < t.id
  /-- One warning for each session that remains, in the order of the list. -/
  warned : r.stragglers = r.remaining.map fun s => .straggler s.peer
  /-- A slot is free or held. -/
  count : r.free + r.held.length = slots
  held : ∀ permit, permit ∈ r.held ↔ r₀.HandedOut es permit
  heldOnce : r.held.Nodup
  /-- A slot can be taken exactly when one is free, stop or no stop. -/
  takable : r.acquire?.isSome = true ↔ r.held.length < slots
  stopping : r.stopping = true ↔ .asked .requestStop ∈ es
  cancelled : r.cancelled = true ↔ Fired es
  /-- All tasks have gone exactly when the tracker was closed and each of them has ended. -/
  drained : r.isDrained = true ↔
    .asked .close ∈ es ∧ ∀ k n, keeper? (entries es) k = some (.task n) → Dropped es k

/-! ## The registry -/

theorem Ledger.mem_ids (h : r.Ledger made dropped) (k : Nat) :
    k ∈ r.sessions.map (·.id) ↔ k < made.length ∧ ¬ dropped k := by
  rw [List.mem_map]
  constructor
  · rintro ⟨s, hs, rfl⟩
    obtain ⟨⟨keeper, hmade⟩, hstands⟩ := (h.session_iff s).1 hs
    exact ⟨(List.getElem?_eq_some_iff.1 hmade).1, hstands⟩
  · rintro ⟨hlt, hstands⟩
    refine ⟨⟨k, made[k].peer, made[k].acceptedAt⟩, (h.session_iff _).2 ⟨⟨made[k].keeper, ?_⟩, hstands⟩, rfl⟩
    exact List.getElem?_eq_getElem hlt

theorem Ledger.ids_nodup (h : r.Ledger made dropped) : (r.sessions.map (·.id)).Nodup := by
  refine List.pairwise_map.2 (h.inOrder.imp ?_)
  exact fun hlt => Nat.ne_of_lt hlt

theorem Ledger.active (h : r.Ledger made dropped) :
    r.active = {k | k < made.length ∧ ¬ dropped k}.ncard := by
  have hset : {k | k < made.length ∧ ¬ dropped k} = ↑(r.sessions.map (·.id)).toFinset := by
    ext k
    rw [Set.mem_ofPred_eq, ← h.mem_ids, Finset.mem_coe, List.mem_toFinset]
  rw [hset, Set.ncard_coe_finset, List.toFinset_card_of_nodup h.ids_nodup, List.length_map]
  rfl

/-! ## The list of the remaining sessions -/

theorem remaining_perm (r : Roster) : r.remaining.Perm r.sessions :=
  List.mergeSort_perm _ _

theorem remaining_oldestFirst (r : Roster) :
    r.remaining.Pairwise fun s t => s.acceptedAt ≤ t.acceptedAt := by
  have hsorted : r.remaining.Pairwise fun s t => decide (s.acceptedAt ≤ t.acceptedAt) = true := by
    refine List.pairwise_mergeSort ?_ ?_ _
    · intro a b c hab hbc
      exact decide_eq_true (Nat.le_trans (of_decide_eq_true hab) (of_decide_eq_true hbc))
    · intro a b
      rw [Bool.or_eq_true, decide_eq_true_iff, decide_eq_true_iff]
      exact Nat.le_total ..
  exact hsorted.imp of_decide_eq_true

/-- Sessions whose times differ are listed in the order in which they were registered. -/
theorem Ledger.inTurn (h : r.Ledger made dropped) (htime : InTime made) :
    r.remaining.Pairwise fun s t => s.acceptedAt ≠ t.acceptedAt → s.id < t.id := by
  refine r.remaining_oldestFirst.imp_of_mem ?_
  intro s t hs ht hle hne
  obtain ⟨⟨_, hs⟩, -⟩ := (h.session_iff s).1 (r.remaining_perm.subset hs)
  obtain ⟨⟨_, ht⟩, -⟩ := (h.session_iff t).1 (r.remaining_perm.subset ht)
  by_contra hnot
  rcases Nat.lt_or_eq_of_le (Nat.le_of_not_lt hnot) with hlt | heq
  · obtain ⟨hs', hs⟩ := List.getElem?_eq_some_iff.1 hs
    obtain ⟨ht', ht⟩ := List.getElem?_eq_some_iff.1 ht
    have hback := List.pairwise_iff_getElem.1 htime t.id s.id ht' hs' hlt
    rw [hs, ht] at hback
    exact hne (Nat.le_antisymm hle hback)
  · rw [heq, hs, Option.some.injEq, Entry.mk.injEq] at ht
    exact hne ht.2.1

/-! ## Everything together -/

theorem Ledger.tasks_eq_nil_iff (h : r.Ledger made dropped) :
    r.tasks = [] ↔ ∀ k n, keeper? made k = some (.task n) → dropped k := by
  rw [List.eq_nil_iff_forall_not_mem]
  constructor
  · intro hnone k n hk
    by_contra hstands
    exact hnone _ ((h.task_iff ⟨n, [.session k], false⟩).2 ⟨k, hk, hstands, rfl⟩)
  · intro hall t ht
    obtain ⟨k, hk, hstands, -⟩ := (h.task_iff t).1 ht
    exact hstands (hall k t.id hk)

theorem Slots.takable {slots : Nat} {out : List Nat} (h : r.Slots slots out) :
    r.acquire?.isSome = true ↔ r.held.length < slots := by
  have hcount := h.count
  rw [acquire?]
  split
  · rename_i hfree
    rw [hfree, Nat.zero_add] at hcount
    exact iff_of_false (by simp) (Nat.not_lt_of_le hcount.ge)
  · rename_i free hfree
    exact iff_of_true rfl (by omega)

/-- **What a roster reports is what happened.**  Whatever callers did and in whatever order, and however
tasks ended: sessions, slots, flags and token are those of the history; a stop fires the token; and
neither the stop flag nor the token ever goes back. -/
theorem reports_follow_history {slots : Nat} (hstart : start? slots = some r₀) (es : List RosterEvent) :
    (r₀.happens es).Reports slots r₀ es ∧
      ((r₀.happens es).stopping = true → (r₀.happens es).cancelled = true) ∧
      ∀ more, ((r₀.happens es).stopping = true → (r₀.happens (es ++ more)).stopping = true) ∧
        ((r₀.happens es).cancelled = true → (r₀.happens (es ++ more)).cancelled = true) := by
  have hall := ledger_happens hstart
  obtain ⟨hledger, hdesk, -⟩ := hall es
  refine ⟨?_, ?_, ?_⟩
  · refine ⟨hledger.active, hledger.mem_ids, fun s hs => ((hledger.session_iff s).1 hs).1,
      hledger.ids_nodup, fun _ _ => hledger.next, remaining_perm _, remaining_oldestFirst _,
      hledger.inTurn, rfl, hdesk.slots.count, hdesk.held, hdesk.slots.once, hdesk.slots.takable,
      hdesk.stopping, hdesk.cancelled, ?_⟩
    rw [isDrained, Bool.and_eq_true, hdesk.closed, List.isEmpty_iff, hledger.tasks_eq_nil_iff]
  · intro hstopping
    exact hdesk.cancelled.2 (.inl (hdesk.stopping.1 hstopping))
  · intro more
    obtain ⟨-, hlater, -⟩ := hall (es ++ more)
    rw [hdesk.stopping, hdesk.cancelled, hlater.stopping, hlater.cancelled]
    constructor
    · exact List.mem_append_left more
    · exact Or.imp (List.mem_append_left more) (List.mem_append_left more)

/-- Two callers and three tasks, one of which breaks off: the first caller drops its registration, the
token is fired through a clone, the first task ends, and only then a stop is requested. -/
def mixedHistory : List RosterEvent :=
  [.asked (.register (.quad 127 0 0 1 1) 10), .asked (.track (.quad 127 0 0 1 2) 20),
    .asked (.trackBroken (.quad 127 0 0 1 3) 20), .asked .acquire, .asked .acquire,
    .asked (.register (.quad 127 0 0 1 4) 30), .asked (.deregister 0), .asked (.release 0),
    .asked .cancel, .asked (.track (.quad 127 0 0 1 5) 40), .ended 0, .asked .requestStop,
    .asked .acquire, .asked .close]

/-- The theorem at that history: the second caller and the last task are left, and two of three slots
are held. -/
theorem mixed_history_reported : ∃ r, r = ({ free := 3 } : Roster).happens mixedHistory ∧
    r.Reports 3 { free := 3 } mixedHistory ∧ r.sessions.map (·.id) = [3, 4] ∧ r.held = [1, 2] ∧
    r.stopping = true ∧ r.cancelled = true ∧ r.isDrained = false ∧
    ∀ more, (r.happens more).stopping = true ∧ (r.happens more).cancelled = true := by
  have hstart : start? 3 = some { free := 3 } := rfl
  obtain ⟨hreports, hfires, hlater⟩ := reports_follow_history hstart mixedHistory
  have hstopping : (({ free := 3 } : Roster).happens mixedHistory).stopping = true := by decide
  refine ⟨_, rfl, hreports, by decide, by decide, hstopping, hfires hstopping, by decide, ?_⟩
  intro more
  rw [← happens_append]
  exact ⟨(hlater more).1 hstopping, (hlater more).2 (hfires hstopping)⟩

end Roster

end EchoLog

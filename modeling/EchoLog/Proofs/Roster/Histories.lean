import EchoLog.Proofs.Roster.Ledger
import Mathlib.Data.List.Induction
/-!
# Whole histories of a roster

The other books of a roster stand at its desk: the slots, the two flags and the token.  Events that
register sessions or end tasks leave the desk alone, so the two halves are kept apart.  `Roster.Desk` says
of the desk what `Roster.Ledger` says of registry and tasks, and every event keeps both
(`Roster.ledger_happens`).
-/

namespace EchoLog

namespace Roster

variable {es : List RosterEvent} {e : RosterEvent} {made : List Entry} {r r' : Roster}
  {dropped : Nat → Prop}

/-! ## Slots, flags and token -/

/-- A permit that was handed out in the course of a history and not given back since. -/
def HandedOut (r₀ : Roster) (es : List RosterEvent) (permit : Nat) : Prop :=
  ∃ before after, es = before ++ .asked .acquire :: after ∧
    (r₀.happens before).acquire?.map (·.1) = some permit ∧ .asked (.release permit) ∉ after

theorem handedOut_concat {r₀ : Roster} {permit : Nat} : r₀.HandedOut (es ++ [e]) permit ↔
    (e = .asked .acquire ∧ (r₀.happens es).acquire?.map (·.1) = some permit) ∨
      (r₀.HandedOut es permit ∧ e ≠ .asked (.release permit)) := by
  have hsplit := exists_split_concat es e fun before x after =>
    x = .asked .acquire ∧ (r₀.happens before).acquire?.map (·.1) = some permit ∧
      .asked (.release permit) ∉ after
  constructor
  · rintro ⟨before, after, hes, hpermit, hkept⟩
    rcases hsplit.1 ⟨before, _, after, hes, rfl, hpermit, hkept⟩ with
      ⟨he, hlast, -⟩ | ⟨before, x, after, rfl, rfl, hpermit, hkept⟩
    · exact .inl ⟨he, hlast⟩
    · rw [List.mem_append, List.mem_singleton, not_or] at hkept
      exact .inr ⟨⟨before, after, rfl, hpermit, hkept.1⟩, Ne.symm hkept.2⟩
  · rintro (⟨rfl, hpermit⟩ | ⟨⟨before, after, rfl, hpermit, hkept⟩, he⟩)
    · exact ⟨es, [], rfl, hpermit, List.not_mem_nil⟩
    · refine ⟨before, after ++ [e], List.append_assoc .., hpermit, ?_⟩
      rw [List.mem_append, List.mem_singleton, not_or]
      exact ⟨hkept, Ne.symm he⟩

/-- Slots, flags and token are what a history says. -/
structure Desk (slots : Nat) (r r₀ : Roster) (es : List RosterEvent) : Prop where
  slots : r.Slots slots r.held
  held : ∀ permit, permit ∈ r.held ↔ r₀.HandedOut es permit
  stopping : r.stopping = true ↔ .asked .requestStop ∈ es
  cancelled : r.cancelled = true ↔ Fired es
  closed : r.closed = true ↔ .asked .close ∈ es

variable {slots : Nat} {r₀ : Roster}

theorem desk_start (hstart : start? slots = some r) : r.Desk slots r [] := by
  have hnone : ∀ permit, ¬ r.HandedOut [] permit := by
    rintro permit ⟨before, after, hsplit, -⟩
    exact List.append_ne_nil_of_right_ne_nil before (List.cons_ne_nil _ after) hsplit.symm
  rw [eq_of_start? hstart] at hnone ⊢
  refine ⟨⟨rfl, .refl _, List.nodup_nil, by simp⟩, ?_, by simp, by simp [Fired], by simp⟩
  exact fun permit => iff_of_false List.not_mem_nil (hnone permit)

/-- The flags change with the calls that set them; what is said of the slots is left to show. -/
theorem Desk.concat (h : r.Desk slots r₀ es) (hslots : r'.Slots slots r'.held)
    (hheld : ∀ permit, permit ∈ r'.held ↔ r₀.HandedOut (es ++ [e]) permit)
    (hstopping : r'.stopping = true ↔ r.stopping = true ∨ e = .asked .requestStop)
    (hcancelled : r'.cancelled = true ↔
      r.cancelled = true ∨ e = .asked .requestStop ∨ e = .asked .cancel)
    (hclosed : r'.closed = true ↔ r.closed = true ∨ e = .asked .close) :
    r'.Desk slots r₀ (es ++ [e]) := by
  refine ⟨hslots, hheld, ?_, ?_, ?_⟩
  · rw [hstopping, h.stopping, List.mem_append, List.mem_singleton, eq_comm]
  · rw [hcancelled, h.cancelled, fired_concat]
  · rw [hclosed, h.closed, List.mem_append, List.mem_singleton, eq_comm]

/-- An event that leaves the slots as they are. -/
theorem Desk.concat_of_slots (h : r.Desk slots r₀ es) (hfree : r'.free = r.free)
    (hheld : r'.held = r.held) (hnext : r'.nextPermit = r.nextPermit)
    (hquiet : e ≠ .asked .acquire ∧ ∀ permit, e ≠ .asked (.release permit))
    (hstopping : r'.stopping = true ↔ r.stopping = true ∨ e = .asked .requestStop)
    (hcancelled : r'.cancelled = true ↔
      r.cancelled = true ∨ e = .asked .requestStop ∨ e = .asked .cancel)
    (hclosed : r'.closed = true ↔ r.closed = true ∨ e = .asked .close) :
    r'.Desk slots r₀ (es ++ [e]) := by
  refine h.concat ((h.slots.of_eq hfree hheld hnext).perm (.of_eq hheld.symm)) ?_ hstopping hcancelled
    hclosed
  intro permit
  rw [hheld, h.held, handedOut_concat, and_iff_left (hquiet.2 permit), or_iff_right]
  exact fun hlast => hquiet.1 hlast.1

/-- An event that nobody at the desk sees. -/
theorem Desk.concat_of_desk (h : r.Desk slots r₀ es) (hdesk : r'.desk = r.desk)
    (hcalls : ∀ c ∈ [RosterCall.requestStop, .cancel, .close, .acquire], e ≠ .asked c)
    (hrelease : ∀ permit, e ≠ .asked (.release permit)) : r'.Desk slots r₀ (es ++ [e]) := by
  simp only [List.forall_mem_cons, List.not_mem_nil, false_imp_iff, implies_true, and_true] at hcalls
  obtain ⟨hstop, hcancel, hclose, hacquire⟩ := hcalls
  have hfree : r'.free = r.free := (congrArg (fun r : Roster => r.free) hdesk :)
  have hheld : r'.held = r.held := (congrArg (fun r : Roster => r.held) hdesk :)
  have hnext : r'.nextPermit = r.nextPermit := (congrArg (fun r : Roster => r.nextPermit) hdesk :)
  have hstopping : r'.stopping = r.stopping := (congrArg (fun r : Roster => r.stopping) hdesk :)
  have hcancelled : r'.cancelled = r.cancelled := (congrArg (fun r : Roster => r.cancelled) hdesk :)
  have hclosed : r'.closed = r.closed := (congrArg (fun r : Roster => r.closed) hdesk :)
  refine h.concat_of_slots hfree hheld hnext ⟨hacquire, hrelease⟩ ?_ ?_ ?_
  · rw [hstopping, or_iff_left hstop]
  · rw [hcancelled, or_iff_left (not_or.2 ⟨hstop, hcancel⟩)]
  · rw [hclosed, or_iff_left hclose]

/-- A slot is asked for, and handed out if one is free. -/
theorem Desk.acquire (h : r.Desk slots r₀ es) (hr : r₀.happens es = r) :
    (r.call .acquire).Desk slots r₀ (es ++ [.asked .acquire]) := by
  have hheld : ∀ permit, r₀.HandedOut (es ++ [.asked .acquire]) permit ↔
      r.acquire?.map (·.1) = some permit ∨ permit ∈ r.held := by
    intro permit
    simp [handedOut_concat, hr, h.held]
  rw [call]
  rw [acquire?] at hheld ⊢
  split at hheld
  · refine h.concat h.slots ?_ (by simp) (by simp) (by simp)
    simpa using fun permit => (hheld permit).symm
  · rename_i free hfree
    refine h.concat (h.slots.acquire hfree) ?_ (by simp) (by simp) (by simp)
    intro permit
    simp [hheld, or_comm, eq_comm]

/-- A slot is given back. -/
theorem Desk.release (h : r.Desk slots r₀ es) (permit : Nat) :
    (r.release permit).Desk slots r₀ (es ++ [.asked (.release permit)]) := by
  have hheld : ∀ p, r₀.HandedOut (es ++ [.asked (.release permit)]) p ↔ p ∈ r.held ∧ p ≠ permit := by
    intro p
    simp [handedOut_concat, h.held, eq_comm]
  by_cases hmem : permit ∈ r.held
  · have hslots := (h.slots.perm (List.perm_cons_erase hmem)).release
    rw [Roster.release, if_pos hmem] at hslots ⊢
    refine h.concat hslots ?_ (by simp) (by simp) (by simp)
    intro p
    rw [hheld, h.slots.once.mem_erase_iff, and_comm]
  · rw [Roster.release, if_neg hmem]
    refine h.concat h.slots ?_ (by simp) (by simp) (by simp)
    intro p
    rw [hheld]
    refine (and_iff_left_of_imp ?_).symm
    rintro hp rfl
    exact hmem hp

/-- **Every event keeps slots, flags and token in agreement with the history.** -/
theorem Desk.happen (h : r.Desk slots r₀ es) (hledger : r.Ledger made dropped)
    (hr : r₀.happens es = r) (e : RosterEvent) : (r.happen e).Desk slots r₀ (es ++ [e]) := by
  have htrack : ∀ peer now, (r.track peer now).2.Desk slots r₀ es := by
    intro peer now
    exact ⟨h.slots.of_eq rfl rfl rfl, h.held, h.stopping, h.cancelled, h.closed⟩
  cases e with
  | ended task => exact h.concat_of_desk (hledger.dismiss task).2 (by simp) (by simp)
  | asked c =>
      cases c with
      | register peer now => exact h.concat_of_desk rfl (by simp) (by simp)
      | deregister session =>
          refine h.concat_of_desk ?_ (by simp) (by simp)
          rw [Roster.happen, call]
          split <;> rfl
      | requestStop =>
          exact h.concat_of_slots rfl rfl rfl (by simp) (iff_of_true rfl (.inr rfl))
            (iff_of_true rfl (.inr (.inl rfl))) (by simp [Roster.happen, call, requestStop, cancel])
      | cancel =>
          exact h.concat_of_slots rfl rfl rfl (by simp) (by simp [Roster.happen, call, cancel])
            (iff_of_true rfl (.inr (.inr rfl))) (by simp [Roster.happen, call, cancel])
      | close =>
          exact h.concat_of_slots rfl rfl rfl (by simp) (by simp [Roster.happen, call, close])
            (by simp [Roster.happen, call, close]) (iff_of_true rfl (.inr rfl))
      | acquire => exact h.acquire hr
      | release permit => exact h.release permit
      | track peer now => exact (htrack peer now).concat_of_desk rfl (by simp) (by simp)
      | trackBroken peer now =>
          exact (htrack peer now).concat_of_desk (hledger.trackBroken peer now).2 (by simp) (by simp)
      | turn => exact h.concat_of_desk hledger.turn.2 (by simp) (by simp)

/-! ## Whole histories -/

theorem nextTask_dismiss (r : Roster) (task : Nat) : (r.dismiss task).nextTask = r.nextTask := by
  have hguards : ∀ (gs : List Guard) (r : Roster), (gs.foldl giveBack r).nextTask = r.nextTask := by
    intro gs
    induction gs with
    | nil => exact fun r => rfl
    | cons g gs ih => exact fun r => (ih (r.giveBack g)).trans (r.giveBack_same g).2.1
  rw [Roster.dismiss]
  split
  · rfl
  · exact hguards _ r

theorem nextTask_turn (r : Roster) : r.turn.nextTask = r.nextTask := by
  have hall : ∀ (ids : List Nat) (r : Roster), (ids.foldl dismiss r).nextTask = r.nextTask := by
    intro ids
    induction ids with
    | nil => exact fun r => rfl
    | cons id ids ih => exact fun r => (ih (r.dismiss id)).trans (r.nextTask_dismiss id)
  rw [Roster.turn]
  split
  · exact hall _ r
  · rfl

/-- Tasks are numbered in the order in which they are tracked. -/
theorem nextTask_happen (r : Roster) (e : RosterEvent) :
    (r.happen e).nextTask = r.nextTask + if e.tracks then 1 else 0 := by
  cases e with
  | ended task => exact r.nextTask_dismiss task
  | asked c =>
      cases c with
      | deregister session =>
          rw [Roster.happen, call]
          split <;> rfl
      | acquire =>
          rw [Roster.happen, call, acquire?]
          split <;> rfl
      | release permit => exact (r.release_same permit).2.2.1
      | trackBroken peer now => exact (nextTask_turn _).trans (nextTask_dismiss _ _)
      | turn => exact r.nextTask_turn
      | register | requestStop | cancel | track | close => rfl

/-- **Every event keeps registry and tasks in agreement with the history.** -/
theorem Ledger.happen (h : r.Ledger (entries es) (Dropped es)) (hdesk : r.Desk slots r₀ es)
    (htask : r.nextTask = es.countP (·.tracks)) (e : RosterEvent) :
    (r.happen e).Ledger (entries (es ++ [e])) (Dropped (es ++ [e])) := by
  refine Ledger.congr ?_ fun k => dropped_concat
  have hquiet : ∀ {r' : Roster} {made : List Entry} {e : RosterEvent}, r'.Ledger made (Dropped es) →
      (∀ k, ¬ Drops es k e) → r'.Ledger made fun k => Dropped es k ∨ Drops es k e := by
    intro r' made e h hnone
    exact h.congr fun k => or_iff_left (hnone k)
  have hmade : ∀ {e : RosterEvent}, e.entry? r.nextTask = none → entries (es ++ [e]) = entries es := by
    intro e hnone
    rw [entries_concat, ← htask, hnone]
    exact List.append_nil _
  cases e with
  | ended task =>
      rw [hmade rfl]
      refine (h.dismiss task).1.congr fun k => or_congr_right ?_
      constructor
      · rintro ⟨⟩
        assumption
      · exact .ended
  | asked c =>
      cases c with
      | register peer now =>
          rw [entries_concat, ← htask]
          refine hquiet (h.enter ⟨peer, now, .caller⟩ rfl rfl (.inl ⟨rfl, rfl, rfl⟩)) ?_
          rintro k ⟨⟩
      | track peer now =>
          rw [entries_concat, ← htask]
          refine hquiet (h.track peer now) ?_
          rintro k ⟨⟩
      | trackBroken peer now =>
          rw [entries_concat, ← htask]
          refine (h.trackBroken peer now).1.congr fun k => or_congr_right ?_
          rw [hdesk.cancelled]
          constructor
          · rintro (_ | _ | _ | ⟨_, _, hkeeper, hfired⟩ | _)
            · exact .inr ⟨hfired, _, hkeeper⟩
            · exact .inl rfl
          · rintro (rfl | ⟨hfired, n, hkeeper⟩)
            · exact .broken peer now
            · exact .swept peer now hkeeper hfired
      | deregister session =>
          rw [hmade rfl]
          refine (h.deregister session).congr fun k => or_congr_right ?_
          constructor
          · rintro ⟨hkeeper⟩
            exact ⟨rfl, hkeeper⟩
          · rintro ⟨rfl, hkeeper⟩
            exact .given hkeeper
      | turn =>
          rw [hmade rfl]
          refine h.turn.1.congr fun k => or_congr_right ?_
          rw [hdesk.cancelled]
          constructor
          · rintro (_ | _ | ⟨hkeeper, hfired⟩)
            exact ⟨hfired, _, hkeeper⟩
          · rintro ⟨hfired, n, hkeeper⟩
            exact .turned hkeeper hfired
      | acquire =>
          rw [hmade rfl]
          refine hquiet ?_ (by rintro k ⟨⟩)
          show Ledger (entries es) _ (r.acquire?.elim r (·.2))
          rw [acquire?]
          split
          · exact h
          · exact h.of_eq rfl rfl rfl rfl
      | release permit =>
          rw [hmade rfl]
          obtain ⟨htasks, hsessions, hnextTask, hnext⟩ := r.release_same permit
          exact hquiet (h.of_eq hsessions hnext htasks hnextTask) (by rintro k ⟨⟩)
      | requestStop | cancel | close =>
          rw [hmade rfl]
          exact hquiet (h.of_eq rfl rfl rfl rfl) (by rintro k ⟨⟩)

/-- **A roster agrees with its history**, whatever happened to it. -/
theorem ledger_happens (hstart : start? slots = some r₀) (es : List RosterEvent) :
    (r₀.happens es).Ledger (entries es) (Dropped es) ∧ (r₀.happens es).Desk slots r₀ es ∧
      (r₀.happens es).nextTask = es.countP (·.tracks) := by
  induction es using List.reverseRecOn with
  | nil =>
      refine ⟨?_, desk_start hstart, ?_⟩
      · refine (ledger_start hstart).congr fun k => iff_of_false ?_ id
        rintro ⟨before, e, after, hsplit, -⟩
        exact List.append_ne_nil_of_right_ne_nil before (List.cons_ne_nil e after) hsplit.symm
      · rw [eq_of_start? hstart]
        rfl
  | append_singleton es e ih =>
      obtain ⟨hledger, hdesk, htask⟩ := ih
      rw [happens_concat]
      refine ⟨hledger.happen hdesk htask e, hdesk.happen hledger rfl e, ?_⟩
      rw [nextTask_happen, htask, List.countP_append, List.countP_singleton]

end Roster

end EchoLog

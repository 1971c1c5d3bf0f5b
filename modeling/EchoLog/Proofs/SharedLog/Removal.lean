import EchoLog.Proofs.Disk.Content
import EchoLog.Proofs.SharedLog.Accounts
/-!
# Removing the log

A caller that asks to have the log removed waits for the lock like anybody else, takes one file step and
has its answer (`Removing`).  When the answer is that the log is gone, no name leads to the file any more,
and it stays so as long as no other process puts one there: appending never creates a file
(`Gone.move`).
-/

namespace EchoLog

/-- Whether a file is missing: whoever looks for it is told that it is not there. -/
def Disk.isMissing (d : Disk) (p : Path) : Bool :=
  match d.findFile p with
  | .error cause => cause.kind = .notFound
  | .ok _ => false

theorem Disk.isMissing_clear {d : Disk} {p : Path} {place : Location} {node : Node}
    (h : d.findFile p = .ok (place, node)) : (d.clear place).isMissing p = true := by
  rw [isMissing, findFile_clear h]
  rfl

theorem Disk.findFile_of_isMissing {d : Disk} {p : Path} (h : d.isMissing p = true) :
    ∃ cause, d.findFile p = .error cause ∧ cause.kind = .notFound := by
  unfold isMissing at h
  split at h
  · rename_i cause hcause
    exact ⟨cause, hcause, of_decide_eq_true h⟩
  · cases h

namespace Work

/-- Whether work has the file open. -/
def isOpen : Work → Bool
  | .writing _ _ _ => true
  | .flushing _ _ _ => true
  | .syncing _ _ _ => true
  | .cutting _ _ => true
  | _ => false

/-- Whether work is about to remove the file. -/
def isUnlinking : Work → Bool
  | .unlinking => true
  | _ => false

variable {w : Work} {store : Store} {disk : Disk} {fault : Option Fault}

/-- Work that finds no file leaves everything as it is. -/
theorem step_of_unfound (fault : Option Fault) {cause : IoError}
    (hcause : disk.findFile store.path = .error cause) (hclosed : w.isOpen = false) :
    (w.step fault store disk).disk = disk ∧ (w.step fault store disk).store = store ∧
      (w.step fault store disk).work.isOpen = false := by
  cases w with
  | opening bytes echo =>
      cases fault with
      | some f => exact ⟨rfl, rfl, rfl⟩
      | none =>
          have hopen : disk.openToAppend store.path = .error cause := by
            rw [Disk.openToAppend, hcause]
            rfl
          simp only [step, hopen]
          exact ⟨trivial, trivial, rfl⟩
  | reading =>
      cases fault with
      | some f => exact ⟨rfl, rfl, rfl⟩
      | none =>
          have hread : disk.read store.path = .error cause := by rw [Disk.read, hcause]
          simp only [step, hread]
          exact ⟨trivial, trivial, rfl⟩
  | unlinking =>
      have hunlink : disk.unlink store.path = .error cause := by
        rw [Disk.unlink, hcause]
        rfl
      cases fault with
      | some f =>
          simp only [step]
          split <;> exact ⟨rfl, rfl, rfl⟩
      | none =>
          simp only [step, hunlink]
          split <;> exact ⟨rfl, rfl, rfl⟩
  | finished answer => exact ⟨rfl, rfl, rfl⟩
  | _ => cases hclosed

/-- One step and the removal has its answer. -/
theorem exists_answer_of_unlinking (fault : Option Fault) (store : Store) (disk : Disk) :
    ∃ answer, (unlinking.step fault store disk).work = .finished answer := by
  simp only [step]
  split
  · exact ⟨_, rfl⟩
  · split
    · exact ⟨_, rfl⟩
    · exact ⟨_, rfl⟩

/-- **When the answer is that the file is gone, it is**, unless a fault says so of a file that is
there. -/
theorem isMissing_of_unlinked {reply : Reply}
    (htrue : fault.all (fun f => f.error.kind ≠ .notFound || disk.isMissing store.path) = true)
    (h : (unlinking.step fault store disk).work = .finished (.ok reply)) :
    (unlinking.step fault store disk).disk.isMissing (unlinking.step fault store disk).store.path =
      true := by
  cases fault with
  | some f =>
      rw [Option.all_some, Bool.or_eq_true, decide_eq_true_eq] at htrue
      simp only [step] at h ⊢
      split at h
      · rename_i hkind
        rw [if_pos hkind]
        exact htrue.resolve_left (not_not_intro hkind)
      · cases h
  | none =>
      cases hfound : disk.findFile store.path with
      | ok found =>
          have hunlink : disk.unlink store.path = .ok (disk.clear found.1) := by
            rw [Disk.unlink, hfound]
            rfl
          simp only [step, hunlink]
          exact Disk.isMissing_clear hfound
      | error cause =>
          have hunlink : disk.unlink store.path = .error cause := by
            rw [Disk.unlink, hfound]
            rfl
          simp only [step, hunlink] at h ⊢
          split at h
          · rename_i hkind
            rw [if_pos hkind, Disk.isMissing, hfound]
            exact decide_eq_true hkind
          · cases h

/-- Work for a removal is the removal, or its answer. -/
theorem Serves.of_remove (h : w.Serves .remove) : w = .unlinking ∨ ∃ answer, w = .finished answer := by
  have hnot : ∀ (bytes : Bytes) (echo : Bool), Request.remove ≠ .write bytes echo := by
    intro bytes echo
    cases echo <;> simp [Request.write]
  cases w with
  | unlinking => exact .inl rfl
  | finished answer => exact .inr ⟨answer, rfl⟩
  | opening bytes echo => exact absurd h (hnot bytes echo)
  | writing file bytes echo => exact absurd h (hnot bytes echo)
  | flushing file bytes echo => exact absurd h (hnot bytes echo)
  | syncing file bytes echo => exact absurd h (hnot bytes echo)
  | cutting file cause =>
      obtain ⟨bytes, echo, h⟩ := h
      exact absurd h (hnot bytes echo)
  | reading => rcases h with h | ⟨bytes, h⟩ <;> cases h

theorem request_of_unlinking {r : Request} (h : w.Serves r) (hw : w.isUnlinking = true) :
    r = .remove := by
  cases w with
  | unlinking => exact h
  | _ => cases hw

end Work

/-- Callers do nothing by themselves. -/
theorem Task.Own.ne_caller {i : Nat} {cancelled : Bool} {e : Event} {t t' : Task}
    (h : Task.Own i cancelled e t t') (c : Caller) : t' ≠ .caller c := by
  cases h with
  | leave hleave =>
      cases t with
      | caller d => cases hleave
      | _ => simp [Task.leave]
  | _ => simp

namespace SharedLog

variable {g g' : SharedLog} {e : Event} {i seat n : Nat}

/-! ## A file that is gone -/

/-- Only whoever holds the lock changes the disk, and other processes do. -/
theorem Move.disk_cases (hm : Move g e g') : g'.disk = g.disk ∨ (∃ change, e = .outside change) ∨
      ∃ fault i w, e = .file fault ∧ g.holder = some (i, w) := by
  cases hm with
  | file hw _ => exact .inr (.inr ⟨_, _, _, rfl, hw⟩)
  | outside change => exact .inr (.inl ⟨change, rfl⟩)
  | _ => exact .inl rfl

/-- No name leads to the log file, and nobody has it open. -/
structure Gone (g : SharedLog) : Prop where
  missing : g.disk.isMissing g.store.path = true
  closed : ∀ i w, g.holder = some (i, w) → w.isOpen = false

/-- **Nobody who shares the log brings the file back.** -/
theorem Gone.move (h : g.Gone) (hinside : ∀ c, e ≠ .outside c) (hm : Move g e g') : g'.Gone := by
  cases hm with
  | own _ _ _ => exact ⟨h.missing, h.closed⟩
  | ask _ _ => exact ⟨h.missing, h.closed⟩
  | @grant i r rest _ _ =>
      refine ⟨h.missing, ?_⟩
      rintro j w ⟨⟩
      cases r <;> rfl
  | @file i w fault hw _ =>
      obtain ⟨cause, hcause, -⟩ := Disk.findFile_of_isMissing h.missing
      obtain ⟨hdisk, hstore, hopen⟩ := Work.step_of_unfound fault hcause (h.closed i w hw)
      refine ⟨?_, ?_⟩
      · rw [hdisk, hstore]
        exact h.missing
      · rintro j w' ⟨⟩
        exact hopen
  | release _ _ => exact ⟨h.missing, by simp⟩
  | fire _ => exact ⟨h.missing, h.closed⟩
  | outside c => exact absurd rfl (hinside c)

/-! ## Callers that have it removed -/

/-- A caller has a caller before it, with the same request, and the same answer unless it gets one now. -/
theorem Move.caller (hm : Move g e g') {c' : Caller} (h : g'.task? i = some (.caller c')) :
    ∃ c, g.task? i = some (.caller c) ∧ c.request = c'.request ∧ (c = c' ∨
      ∃ answer, g.holder = some (i, .finished answer) ∧ c'.answer = some answer) := by
  cases hm with
  | own more ht hown =>
      rcases task?_setTask_cases ht h with ⟨rfl, rfl⟩ | ⟨-, h⟩
      · exact absurd rfl (hown.ne_caller c')
      · exact ⟨c', h, rfl, .inl rfl⟩
  | ask _ _ => exact ⟨c', h, rfl, .inl rfl⟩
  | grant _ _ => exact ⟨c', h, rfl, .inl rfl⟩
  | file _ _ => exact ⟨c', h, rfl, .inl rfl⟩
  | @release j answer t hw ht =>
      rcases task?_setTask_cases ht h with ⟨rfl, hanswered⟩ | ⟨-, h⟩
      · cases t with
        | caller c =>
            cases hanswered
            exact ⟨c, ht, rfl, .inr ⟨answer, hw, rfl⟩⟩
        | _ => cases hanswered
      · exact ⟨c', h, rfl, .inl rfl⟩
  | fire _ => exact ⟨c', (task?_fire g _ i).symm.trans h, rfl, .inl rfl⟩
  | outside _ => exact ⟨c', h, rfl, .inl rfl⟩

/-- Who tries to remove the log file in an event, if somebody does. -/
def unlinker? (g : SharedLog) : Event → Option Nat
  | .file _ => (g.holder.filter (·.2.isUnlinking)).map (·.1)
  | _ => none

theorem holder_of_unlinker? (h : g.unlinker? e = some i) :
    ∃ w, g.holder = some (i, w) ∧ w.isUnlinking = true := by
  cases e with
  | file fault =>
      obtain ⟨⟨j, w⟩, hw, rfl⟩ := Option.map_eq_some_iff.1 h
      obtain ⟨hw, hunlinking⟩ := Option.filter_eq_some_iff.1 hw
      exact ⟨w, hw, hunlinking⟩
  | _ => cases h

/-- Whoever tries to remove the log file has asked for it. -/
theorem request?_of_unlinker? (hq : g.Queue) (h : g.unlinker? e = some i) :
    g.request? i = some .remove := by
  obtain ⟨w, hw, hunlinking⟩ := holder_of_unlinker? h
  obtain ⟨r, hr, hserves⟩ := hq.holder i w hw
  rw [hr, Work.request_of_unlinking hserves hunlinking]

/-- Events other than changes by other processes, and faults that say of a file that is there that it is
missing. -/
def isTruthful (g : SharedLog) : Event → Bool
  | .outside _ => false
  | .file fault => g.holder.all fun p => !p.2.isUnlinking ||
      fault.all fun f => f.error.kind ≠ .notFound || g.disk.isMissing g.store.path
  | _ => true

/-- An answer that the holder of the lock has or gives: either it is given, or it has come up just now,
in the step that removes the file. -/
theorem Move.answer_cases (hm : Move g e g') (hq : g.Queue) {c : Caller}
    (ht : g.task? i = some (.caller c)) (hr : c.request = .remove) {answer : Answer}
    (hw : g'.holder = some (i, .finished answer)) : g.holder = some (i, .finished answer) ∨
      ∃ fault, e = .file fault ∧ g.holder = some (i, .unlinking) ∧
        (Work.unlinking.step fault g.store g.disk).work = .finished answer ∧
        g'.store = (Work.unlinking.step fault g.store g.disk).store ∧
        g'.disk = (Work.unlinking.step fault g.store g.disk).disk := by
  have hrequest : ∀ {r}, g.request? i = some r → r = .remove := by
    intro r hr'
    rw [request?, ht, Option.bind_some, Task.request?, Option.ite_none_right_eq_some] at hr'
    exact (Option.some.inj hr'.2).symm.trans hr
  cases hm with
  | own _ _ _ => exact .inl hw
  | ask _ _ => exact .inl hw
  | @grant j r rest _ hwaiting =>
      have hrequested := hq.waiting (j, r) (hwaiting ▸ List.mem_cons_self)
      obtain ⟨rfl, hwork⟩ := Prod.mk.inj (Option.some.inj hw)
      cases hrequest hrequested
      cases hwork
  | @file j w fault hw' hmore =>
      obtain ⟨rfl, hwork⟩ := Prod.mk.inj (Option.some.inj hw)
      obtain ⟨r, hr', hserves⟩ := hq.holder j w hw'
      cases hrequest hr'
      rcases hserves.of_remove with rfl | ⟨earlier, rfl⟩
      · exact .inr ⟨fault, rfl, hw', hwork, rfl, rfl⟩
      · cases hmore
  | release _ _ => cases hw
  | fire _ => exact .inl hw
  | outside change =>
      obtain ⟨⟨j, w⟩, hw', hwork⟩ := Option.map_eq_some_iff.1 hw
      obtain ⟨rfl, hwork⟩ := Prod.mk.inj hwork
      cases w with
      | finished earlier =>
          cases hwork
          exact .inl hw'
      | _ => cases hwork

/-- If the caller at a place is told that the log is gone, it is told the truth. -/
def Cleared (g : SharedLog) (i : Nat) : Prop :=
  ∀ c reply, g.task? i = some (.caller c) → c.request = .remove →
    c.answer = some (.ok reply) ∨ g.holder = some (i, .finished (.ok reply)) → g.Gone

/-- **Every truthful move keeps it true.** -/
theorem Cleared.move (h : g.Cleared i) (hq : g.Queue) (hkind : g.isTruthful e = true)
    (hm : Move g e g') : g'.Cleared i := by
  have hinside : ∀ c, e ≠ .outside c := by
    rintro c rfl
    cases hkind
  intro c' reply ht' hr' htold
  obtain ⟨c, ht, hsame, hanswer⟩ := hm.caller ht'
  have hr := hsame.trans hr'
  rcases htold with htold | hw'
  · rcases hanswer with rfl | ⟨answer, hw, hanswer⟩
    · exact (h c reply ht hr (.inl htold)).move hinside hm
    · cases hanswer.symm.trans htold
      exact (h c reply ht hr (.inr hw)).move hinside hm
  · rcases hm.answer_cases hq ht hr hw' with hw | ⟨fault, rfl, hw, hwork, hstore, hdisk⟩
    · exact (h c reply ht hr (.inr hw)).move hinside hm
    · simp only [isTruthful, hw, Option.all_some, Work.isUnlinking, Bool.not_true,
        Bool.false_or] at hkind
      refine ⟨?_, ?_⟩
      · rw [hdisk, hstore]
        exact Work.isMissing_of_unlinked hkind hwork
      · rw [hw']
        rintro j w ⟨⟩
        rfl

/-- A caller that has the log removed: it has tried `n` times, once before it has its answer. -/
inductive Removing (g : SharedLog) (seat : Nat) (c : Caller) : Nat → Prop where
  | waiting : c.answer = none → (∀ w, g.holder ≠ some (seat, w)) → Removing g seat c 0
  | trying : c.answer = none → g.holder = some (seat, .unlinking) → Removing g seat c 0
  | tried {answer : Answer} : c.answer = none → g.holder = some (seat, .finished answer) →
      Removing g seat c 1
  | told {answer : Answer} : c.answer = some answer → Removing g seat c 1

/-- When it has its answer it has tried once. -/
theorem Removing.eq_one {c : Caller} (h : Removing g seat c n) {answer : Answer}
    (hanswer : c.answer = some answer) : n = 1 := by
  cases h with
  | waiting hnone _ => cases hnone.symm.trans hanswer
  | trying hnone _ => cases hnone.symm.trans hanswer
  | tried _ _ => rfl
  | told _ => rfl

/-- Before it has tried it is told nothing. -/
theorem Removing.cleared {c : Caller} (h : Removing g seat c 0) (ht : g.task? seat = some (.caller c)) :
    g.Cleared seat := by
  intro d reply hd _ htold
  cases ht.symm.trans hd
  cases h with
  | waiting hnone hfree =>
      rcases htold with htold | hw
      · cases hnone.symm.trans htold
      · exact absurd hw (hfree _)
  | trying hnone hw' =>
      rcases htold with htold | hw
      · cases hnone.symm.trans htold
      · cases hw'.symm.trans hw

/-- What it has done and knows is a matter of its own place. -/
theorem Removing.of_holder {c : Caller} (h : Removing g seat c n)
    (hholder : ∀ w, g'.holder = some (seat, w) ↔ g.holder = some (seat, w)) :
    Removing g' seat c n := by
  cases h with
  | waiting hnone hfree => exact .waiting hnone fun w hw => hfree w ((hholder w).1 hw)
  | trying hnone hw => exact .trying hnone ((hholder _).2 hw)
  | tried hnone hw => exact .tried hnone ((hholder _).2 hw)
  | told hanswer => exact .told hanswer

/-- An event in which a caller does not try. -/
theorem count_unlinker? (h : ∀ w, w.isUnlinking = true → g.holder ≠ some (i, w)) (e : Event) :
    (g.unlinker? e).toList.count i = 0 := by
  refine List.count_eq_zero.2 fun hi => ?_
  obtain ⟨w, hw, hunlinking⟩ := holder_of_unlinker? (Option.mem_toList.1 hi)
  exact h w hunlinking hw

/-- The step of a caller that has the lock for its removal. -/
theorem Removing.move_trying {c : Caller} (hm : Move g e g') (hnone : c.answer = none)
    (hw : g.holder = some (seat, .unlinking)) :
    Removing g' seat c ((g.unlinker? e).toList.count seat) := by
  cases hm with
  | own _ _ hown =>
      cases hown with
      | _ => exact .trying hnone hw
  | ask _ _ => exact .trying hnone hw
  | grant hfree _ => cases hfree.symm.trans hw
  | @file j w fault hw' _ =>
      cases hw.symm.trans hw'
      obtain ⟨answer, hanswer⟩ := Work.exists_answer_of_unlinking fault g.store g.disk
      have htries : g.unlinker? (.file fault) = some seat := by
        rw [unlinker?, hw]
        rfl
      rw [htries, Option.toList_some, List.count_singleton_self]
      exact .tried hnone (congrArg (fun w => some (seat, w)) hanswer)
  | release hw' _ => cases hw.symm.trans hw'
  | fire _ => exact .trying hnone hw
  | outside change =>
      refine .trying hnone ?_
      rw [changed, hw]
      rfl

/-- A move of others, or the lock going to the caller at last. -/
theorem Removing.move_waiting {c : Caller} (hm : Move g e g') (hq : g.Queue)
    (ht : g.task? seat = some (.caller c)) (hr : c.request = .remove) (hnone : c.answer = none)
    (hfree : ∀ w, g.holder ≠ some (seat, w)) : Removing g' seat c 0 := by
  cases hm with
  | own _ _ _ => exact .waiting hnone hfree
  | ask _ _ => exact .waiting hnone hfree
  | @grant j r rest hnobody hwaiting =>
      by_cases hj : j = seat
      · subst hj
        have hrequest := hq.waiting (j, r) (hwaiting ▸ List.mem_cons_self)
        rw [request?, ht, Option.bind_some, Task.request?, hnone, hr] at hrequest
        cases hrequest
        exact .trying hnone rfl
      · refine .waiting hnone ?_
        rintro w ⟨⟩
        exact hj rfl
  | @file j w fault hw _ =>
      refine .waiting hnone ?_
      rintro w' ⟨⟩
      exact hfree w hw
  | release _ _ => exact .waiting hnone (by simp)
  | fire _ => exact .waiting hnone hfree
  | outside change =>
      refine .waiting hnone ?_
      intro w hw
      obtain ⟨w', hw', -⟩ := holder_changed hw
      exact hfree w' hw'

/-- A caller that has tried keeps its answer in hand, or gets it. -/
theorem Removing.move_tried {c c' : Caller} (hm : Move g e g') (ht' : g'.task? seat = some (.caller c'))
    (hcases : c = c' ∨ ∃ answer, g.holder = some (seat, .finished answer) ∧ c'.answer = some answer)
    (hnone : c.answer = none) {answer : Answer} (hw : g.holder = some (seat, .finished answer)) :
    Removing g' seat c' 1 := by
  rcases hcases with rfl | ⟨told, -, htold⟩
  · cases hm with
    | own _ _ _ => exact .tried hnone hw
    | ask _ _ => exact .tried hnone hw
    | grant hfree _ => cases hfree.symm.trans hw
    | file hw' hmore =>
        cases hw.symm.trans hw'
        cases hmore
    | @release j given t hw' ht =>
        cases hw.symm.trans hw'
        have hself := (task?_setTask_self ht).symm.trans ht'
        cases t with
        | caller d =>
            cases hself
            cases hnone
        | _ => cases hself
    | fire _ => exact .tried hnone hw
    | outside change =>
        have hkept : (g.changed change).holder = some (seat, .finished answer) := by
          rw [changed, hw]
          rfl
        exact .tried hnone hkept
  · exact .told htold

/-- **Every move adds its attempt, if it is one.** -/
theorem Removing.move {c : Caller} (h : Removing g seat c n) (hq : g.Queue)
    (ht : g.task? seat = some (.caller c)) (hr : c.request = .remove) (hm : Move g e g') :
    ∃ c', g'.task? seat = some (.caller c') ∧ c'.request = .remove ∧
      Removing g' seat c' (n + (g.unlinker? e).toList.count seat) := by
  obtain ⟨c', ht', hr'⟩ : ∃ c', g'.task? seat = some (.caller c') ∧ c'.request = .remove := by
    have hkind := hm.kind seat
    rw [ht, Option.map_some] at hkind
    obtain ⟨t, ht', hkind⟩ := Option.map_eq_some_iff.1 hkind
    cases t with
    | caller c' => exact ⟨c', ht', (Task.Kind.caller.inj hkind).trans hr⟩
    | _ => cases hkind
  refine ⟨c', ht', hr', ?_⟩
  obtain ⟨d, hd, -, hcases⟩ := hm.caller ht'
  cases ht.symm.trans hd
  cases h with
  | waiting hnone hfree =>
      obtain rfl := hcases.resolve_right fun ⟨answer, hw, _⟩ => hfree _ hw
      rw [count_unlinker? fun w _ => hfree w]
      exact .move_waiting hm hq ht hr hnone hfree
  | trying hnone hw =>
      obtain rfl := hcases.resolve_right fun ⟨answer, hw', _⟩ => by cases hw.symm.trans hw'
      rw [Nat.zero_add]
      exact .move_trying hm hnone hw
  | tried hnone hw =>
      have hnever : ∀ w, w.isUnlinking = true → g.holder ≠ some (seat, w) := by
        intro w hunlinking hw'
        cases hw.symm.trans hw'
        cases hunlinking
      rw [count_unlinker? hnever]
      exact .move_tried hm ht' hcases hnone hw
  | told hanswer =>
      -- a caller that has its answer asks for nothing any more, so it does not hold the lock
      have hnever : ∀ w, w.isUnlinking = true → g.holder ≠ some (seat, w) := by
        intro w _ hw
        obtain ⟨r, hrequest, -⟩ := hq.holder seat w hw
        rw [request?, ht, Option.bind_some, Task.request?, hanswer] at hrequest
        cases hrequest
      rw [count_unlinker? hnever]
      rcases hcases with rfl | ⟨answer, -, hanswer'⟩
      · exact .told hanswer
      · exact .told hanswer'

end SharedLog

end EchoLog

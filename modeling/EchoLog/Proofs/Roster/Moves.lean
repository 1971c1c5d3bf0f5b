import EchoLog.Roster.Workforce
/-!
# The moves of a workforce

`Workforce.step?` says when a step can be taken and what it does.  `Workforce.Move` says the same as a
relation: one constructor for each way in which acceptor and roster take part, with what has to be true
before.  A task that is changed is one entry of a list, so each change is told by the entries in front
of it and behind it (`Roster.exists_split`).
-/

namespace EchoLog

/-! ## Tasks by their ids -/

namespace Roster

variable {r : Roster} {id : Nat} {t : TrackedTask}

/-- The task with an id, and what changing it and forgetting it come to. -/
structure Split (r : Roster) (id : Nat) (t : TrackedTask) (before after : List TrackedTask) : Prop where
  tasks : r.tasks = before ++ t :: after
  id_eq : t.id = id
  setTask : ∀ f, (r.setTask id f).tasks = before ++ f t :: after
  forget : (r.forget id).tasks = before ++ after

/-- **As long as no id is used twice, one entry of the tasks is the task with an id.** -/
theorem exists_split (honce : (r.tasks.map (·.id)).Nodup) (h : r.task? id = some t) :
    ∃ before after, r.Split id t before after := by
  obtain ⟨hid, before, after, htasks, hbefore⟩ := List.find?_eq_some_iff_append.1 h
  have hid : t.id = id := of_decide_eq_true hid
  have hbefore : ∀ u ∈ before, u.id ≠ id := by
    intro u hu
    simpa only [decide_not, Bool.not_eq_true', decide_eq_false_iff_not] using hbefore u hu
  rw [htasks, List.map_append, List.map_cons, List.nodup_append] at honce
  have hafter : ∀ u ∈ after, u.id ≠ id := by
    intro u hu hsame
    exact (List.nodup_cons.1 honce.2.1).1 (List.mem_map.2 ⟨u, hu, hsame.trans hid.symm⟩)
  refine ⟨before, after, htasks, hid, ?_, ?_⟩
  · intro f
    have hkept : ∀ l : List TrackedTask, (∀ u ∈ l, u.id ≠ id) →
        l.map (fun u => if u.id = id then f u else u) = l := by
      intro l hl
      exact (List.map_congr_left fun u hu => if_neg (hl u hu)).trans (List.map_id _)
    rw [Roster.setTask, htasks, List.map_append, List.map_cons, if_pos hid, hkept before hbefore,
      hkept after hafter]
  · have hkept : ∀ l : List TrackedTask, (∀ u ∈ l, u.id ≠ id) → l.filter (·.id ≠ id) = l := by
      intro l hl
      exact List.filter_eq_self.2 fun u hu => decide_eq_true (hl u hu)
    rw [Roster.forget, htasks, List.filter_append, List.filter_cons_of_neg (by simp [hid]),
      hkept before hbefore, hkept after hafter]

theorem Split.task_mem {before after : List TrackedTask} (h : r.Split id t before after) :
    t ∈ r.tasks := by
  rw [h.tasks]
  exact List.mem_append_right _ List.mem_cons_self

/-- What the tasks hold is what the one holds, between what the others hold. -/
theorem Split.flatMap {α : Type} {before after : List TrackedTask} (h : r.Split id t before after)
    (held : TrackedTask → List α) :
    r.tasks.flatMap held = before.flatMap held ++ (held t ++ after.flatMap held) := by
  rw [h.tasks, List.flatMap_append, List.flatMap_cons]

theorem Split.flatMap_setTask {α : Type} {before after : List TrackedTask}
    (h : r.Split id t before after) (f : TrackedTask → TrackedTask) (held : TrackedTask → List α) :
    (r.setTask id f).tasks.flatMap held =
      before.flatMap held ++ (held (f t) ++ after.flatMap held) := by
  rw [h.setTask, List.flatMap_append, List.flatMap_cons]

theorem Split.flatMap_forget {α : Type} {before after : List TrackedTask}
    (h : r.Split id t before after) (held : TrackedTask → List α) :
    (r.forget id).tasks.flatMap held = before.flatMap held ++ after.flatMap held := by
  rw [h.forget, List.flatMap_append]

/-- Apart from the one that is changed, the tasks stay. -/
theorem Split.mem_setTask {before after : List TrackedTask} (h : r.Split id t before after)
    {f : TrackedTask → TrackedTask} {u : TrackedTask} :
    u ∈ (r.setTask id f).tasks → u = f t ∨ u ∈ r.tasks := by
  rw [h.setTask, h.tasks]
  simp only [List.mem_append, List.mem_cons]
  rintro (hu | hu | hu)
  · exact .inr (.inl hu)
  · exact .inl hu
  · exact .inr (.inr (.inr hu))

/-- The tasks stay, apart from the one that is changed. -/
theorem Split.mem_or {before after : List TrackedTask} (h : r.Split id t before after) {u : TrackedTask}
    (hu : u ∈ r.tasks) :
    u = t ∨ ((∀ f, u ∈ (r.setTask id f).tasks) ∧ u ∈ (r.forget id).tasks) := by
  rw [h.tasks, List.mem_append, List.mem_cons] at hu
  rw [h.forget, List.mem_append]
  simp only [h.setTask, List.mem_append, List.mem_cons]
  rcases hu with hu | hu | hu
  · exact .inr ⟨fun _ => .inl hu, .inl hu⟩
  · exact .inl hu
  · exact .inr ⟨fun _ => .inr (.inr hu), .inr hu⟩

theorem forget_sublist (r : Roster) (id : Nat) : (r.forget id).tasks.Sublist r.tasks :=
  List.filter_sublist

theorem setTask_ids (r : Roster) (id : Nat) {f : TrackedTask → TrackedTask}
    (hf : ∀ t, (f t).id = t.id) : (r.setTask id f).tasks.map (·.id) = r.tasks.map (·.id) := by
  rw [setTask, List.map_map]
  refine List.map_congr_left fun t _ => ?_
  by_cases h : t.id = id
  · simp only [Function.comp, if_pos h, hf]
  · simp only [Function.comp, if_neg h]

end Roster

/-! ## Steps -/

/-- An acceptor that accepts no more. -/
def Acceptor.IsDone (a : Acceptor) : Prop :=
  (∃ result, a = .stopped result) ∨ a = .dropped

theorem Acceptor.IsDone.permit?_eq_none {a : Acceptor} (h : a.IsDone) : a.permit? = none := by
  rcases h with ⟨result, rfl⟩ | rfl <;> rfl

namespace Workforce

variable {w w' : Workforce} {e : WorkStep}

/-- Every way in which acceptor and roster take part in a step. -/
inductive Move (w : Workforce) : WorkStep → Workforce → Prop where
  | look : w.acceptor = .looking →
      Move w .look
        { w with acceptor := if w.roster.stopping then .stopped (.ok ()) else .awaitingSlot }
  | takeSlot {free : Nat} : w.acceptor = .awaitingSlot → w.roster.cancelled = false →
      w.roster.free = free + 1 →
      Move w .takeSlot
        { roster := { w.roster with
            free := free
            held := w.roster.held ++ [w.roster.nextPermit]
            nextPermit := w.roster.nextPermit + 1 }
          acceptor := .awaitingPeer w.roster.nextPermit }
  | accept {permit : Nat} (peer : Endpoint) (now : Nat) : w.acceptor = .awaitingPeer permit →
      w.roster.cancelled = false →
      Move w (.accept peer now)
        { roster := { w.roster with
            sessions := w.roster.sessions ++ [⟨w.roster.nextSession, peer, now⟩]
            nextSession := w.roster.nextSession + 1
            tasks := w.roster.tasks ++
              [⟨w.roster.nextTask, [.slot permit, .session w.roster.nextSession], false⟩]
            nextTask := w.roster.nextTask + 1 }
          acceptor := .looking }
  | acceptFails {permit : Nat} (cause : IoError) : w.acceptor = .awaitingPeer permit →
      w.roster.cancelled = false →
      Move w (.acceptFails cause)
        (w.settleOn
          (if cause.isTransient then .looking else .stopped (.error (.server (.accept cause)))))
  | leave : w.acceptor = .awaitingSlot ∨ (∃ permit, w.acceptor = .awaitingPeer permit) →
      w.roster.cancelled = true → Move w .leave (w.settleOn (.stopped (.ok ())))
  | abandon : Move w .abandon (w.settleOn .dropped)
  | finish {id : Nat} {t : TrackedTask} : w.roster.task? id = some t → t.ended = false →
      Move w (.finish id) { w with roster := w.roster.finish id }
  | giveBack {id : Nat} {t : TrackedTask} {g : Guard} {rest : List Guard} :
      w.roster.task? id = some t → t.ended = true → t.guards = g :: rest →
      Move w (.retire id)
        { w with roster := (w.roster.setTask id fun t => { t with guards := rest }).giveBack g }
  | go {id : Nat} {t : TrackedTask} : w.roster.task? id = some t → t.ended = true → t.guards = [] →
      Move w (.retire id) { w with roster := w.roster.forget id }
  | requestStop : Move w .requestStop { w with roster := w.roster.requestStop }

/-- **Every step is a move.** -/
theorem move_of_step? (h : w.step? e = some w') : Move w e w' := by
  cases e with
  | look =>
      simp only [step?] at h
      split at h
      · rename_i hacceptor
        cases h
        exact .look hacceptor
      · cases h
  | takeSlot =>
      simp only [step?, Roster.acquire?] at h
      split at h
      · rename_i hacceptor
        split at h
        · cases h
        · rename_i hfired
          split at h
          · cases h
          · rename_i free hfree
            cases h
            exact .takeSlot hacceptor (Bool.not_eq_true _ ▸ hfired) hfree
      · cases h
  | accept peer now =>
      simp only [step?] at h
      split at h
      · rename_i permit hacceptor
        split at h
        · cases h
        · rename_i hfired
          cases h
          exact .accept peer now hacceptor (Bool.not_eq_true _ ▸ hfired)
      · cases h
  | acceptFails cause =>
      simp only [step?] at h
      split at h
      · rename_i permit hacceptor
        split at h
        · cases h
        · rename_i hfired
          have hmove := Move.acceptFails (w := w) cause hacceptor (Bool.not_eq_true _ ▸ hfired)
          split at h
          · rename_i htransient
            cases h
            rwa [if_pos htransient] at hmove
          · rename_i htransient
            cases h
            rwa [if_neg htransient] at hmove
      · cases h
  | leave =>
      simp only [step?] at h
      split at h
      · rename_i hfired
        split at h
        · rename_i hacceptor
          cases h
          exact .leave (.inl hacceptor) hfired
        · rename_i permit hacceptor
          cases h
          exact .leave (.inr ⟨permit, hacceptor⟩) hfired
        · cases h
      · cases h
  | abandon =>
      cases h
      exact .abandon
  | finish id =>
      simp only [step?] at h
      split at h
      · rename_i t ht
        split at h
        · cases h
        · rename_i hended
          cases h
          exact .finish ht (Bool.not_eq_true _ ▸ hended)
      · cases h
  | retire id =>
      simp only [step?, Option.map_eq_some_iff, Roster.retire?, bind, Option.bind_eq_some_iff] at h
      obtain ⟨roster, ⟨t, ht, h⟩, rfl⟩ := h
      split at h
      · rename_i hended
        split at h
        · rename_i hguards
          cases h
          exact .go ht hended hguards
        · rename_i g rest hguards
          cases h
          exact .giveBack ht hended hguards
      · cases h
  | requestStop =>
      cases h
      exact .requestStop

/-- **What holds in the beginning and is kept by every move holds after every run.**  `P` may speak
about the steps that were taken. -/
theorem run_induction {P : List WorkStep → Workforce → Prop} {w₀ : Workforce}
    (hmove : ∀ {es : List WorkStep} {w w' : Workforce} {e : WorkStep}, P es w → Move w e w' →
      P (es ++ [e]) w') {es : List WorkStep} (h : P [] w₀) (hrun : w₀.run? es = some w) : P es w := by
  have hfrom : ∀ (es done : List WorkStep) (v : Workforce), P done v → v.run? es = some w →
      P (done ++ es) w := by
    intro es
    induction es with
    | nil =>
        intro done v hv hrun
        cases hrun
        rwa [List.append_nil]
    | cons e es ih =>
        intro done v hv hrun
        obtain ⟨u, hu, hrest⟩ := Option.bind_eq_some_iff.1 hrun
        rw [List.append_cons]
        exact ih _ u (hmove hv (move_of_step? hu)) hrest
  exact hfrom es [] w₀ h hrun

end Workforce

end EchoLog

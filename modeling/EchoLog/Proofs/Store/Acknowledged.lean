import EchoLog.Proofs.Store.Faults
import Mathlib.Data.List.Induction
/-!
# Acknowledged appends

An append is acknowledged when its caller was told that it succeeded.  Here rollbacks may fail too.
A failed rollback leaves part of an append in the file that is not counted, so the counter falls behind
the length of the file, and a later rollback that succeeds cuts more than it should: what was
acknowledged in between is cut off (`acknowledged_append_is_lost`).

This is the only way in which anything acknowledged is lost.  Every acknowledged append stays where it
was written as long as no rollback cuts the file below the end of one, and no longer
(`acknowledged_kept_iff`); and then the file holds all of them whole and in the order in which they
were committed (`Holds`).  Without a failed rollback the counter is never behind
(`Intact.not_cutsInto`).
-/

namespace EchoLog

/-! ## Contents that hold byte strings in order -/

/-- A content holds byte strings one after another, each in one piece, with anything in between. -/
def Holds : List Bytes → Bytes → Prop
  | [], _ => True
  | b :: bs, c => ∃ gap rest, c = gap ++ b ++ rest ∧ Holds bs rest

/-- An append stands where it was written. -/
def Landing.InPlace (content : Bytes) (l : Landing) : Prop :=
  l.bytes <+: content.drop l.start

/-- Where an append ends. -/
def Landing.stop (l : Landing) : Nat :=
  l.start + l.bytes.length

/-- An append with any bytes ends before the other one, with any bytes, begins. -/
def Landing.Before (l m : Landing) : Prop :=
  l.bytes ≠ [] → m.bytes ≠ [] → l.stop ≤ m.start

namespace Landing

variable {l : Landing} {c : Bytes}

theorem inPlace_of_nil (h : l.bytes = []) : l.InPlace c := by
  rw [InPlace, h]
  exact List.nil_prefix

theorem InPlace.append (h : l.InPlace c) (more : Bytes) : l.InPlace (c ++ more) := by
  rw [InPlace, List.drop_append]
  exact h.trans (List.prefix_append ..)

theorem InPlace.stop_le (h : l.InPlace c) (hb : l.bytes ≠ []) : l.stop ≤ c.length := by
  have := h.length_le
  rw [List.length_drop] at this
  have := List.length_pos_iff.2 hb
  unfold stop
  omega

/-- **Setting the length of a content leaves an append in place if it reaches no further.** -/
theorem InPlace.resized_iff (h : l.InPlace c) (hb : l.bytes ≠ []) (length : Nat) :
    l.InPlace (resized length c) ↔ l.stop ≤ length := by
  constructor
  · intro hr
    have := hr.stop_le hb
    rwa [length_resized] at this
  · intro hle
    unfold resized
    refine InPlace.append ?_ _
    rw [InPlace, List.drop_take]
    refine List.prefix_take_iff.2 ⟨h, ?_⟩
    unfold stop at hle
    omega

end Landing

/-- **Appends that stand in place, one before the other, are held in their order.** -/
theorem holds_drop {ls : List Landing} {c : Bytes} : ∀ (start : Nat),
    ls.Pairwise Landing.Before → (∀ l ∈ ls, l.InPlace c) →
    (∀ l ∈ ls, l.bytes ≠ [] → start ≤ l.start) → Holds (ls.map (·.bytes)) (c.drop start) := by
  induction ls with
  | nil => exact fun _ _ _ _ => trivial
  | cons l ls ih =>
      intro off hpair hin hoff
      obtain ⟨hbefore, hpair⟩ := List.pairwise_cons.1 hpair
      have hin' : ∀ m ∈ ls, m.InPlace c := fun m hm => hin m (List.mem_cons_of_mem _ hm)
      by_cases hb : l.bytes = []
      · refine ⟨[], c.drop off, ?_, ih off hpair hin' ?_⟩
        · show c.drop off = [] ++ l.bytes ++ c.drop off
          rw [hb]
          rfl
        · intro m hm
          exact hoff m (List.mem_cons_of_mem _ hm)
      · have hle := hoff l List.mem_cons_self hb
        obtain ⟨rest, hrest⟩ := hin l List.mem_cons_self
        refine ⟨(c.drop off).take (l.start - off), c.drop l.stop, ?_,
          ih l.stop hpair hin' fun m hm => hbefore m hm hb⟩
        have hafter : l.bytes ++ c.drop l.stop = c.drop l.start := by
          rw [Landing.stop, ← List.drop_drop, ← hrest, List.drop_left]
        rw [List.append_assoc, hafter]
        conv => lhs; rw [← List.take_append_drop (l.start - off) (c.drop off), List.drop_drop,
          Nat.add_sub_of_le hle]

/-! ## One call -/

/-- Whether a notice tells of a rollback that was done. -/
def Notice.isRollback : Notice → Bool
  | .cutBack _ _ => true
  | _ => false

namespace History

/-- The appends whose callers were told that they succeeded. -/
def acknowledged (s : History) : List Landing :=
  s.landed.filter (·.acknowledged)

/-- All acknowledged appends stand where they were written. -/
def Kept (s : History) : Prop :=
  ∀ l ∈ s.acknowledged, l.InPlace s.content

/-- A call that rolls back to a counter that is behind the end of an acknowledged append. -/
def CutsInto (s : History) (c : Call) : Prop :=
  (s.outcome c).notices.any Notice.isRollback = true ∧
    ∃ l ∈ s.acknowledged, l.bytes ≠ [] ∧ s.store.committed < l.stop

/-- What a call does to the content and to the acknowledged appends. -/
inductive Effect (s : History) (c : Call) : Prop where
  /-- Something may be added that nobody was told of. -/
  | added (more : Bytes) (content : (s.call c).content = s.content ++ more)
      (acknowledged : (s.call c).acknowledged = s.acknowledged)
      (rollback : (s.outcome c).notices.any Notice.isRollback = false)
  | acknowledged (bytes : Bytes) (content : (s.call c).content = s.content ++ bytes)
      (acknowledged :
        (s.call c).acknowledged = s.acknowledged ++ [⟨s.content.length, bytes, true⟩])
      (rollback : (s.outcome c).notices.any Notice.isRollback = false)
  | cut (more : Bytes)
      (content : (s.call c).content = resized s.store.committed (s.content ++ more))
      (acknowledged : (s.call c).acknowledged = s.acknowledged)
      (rollback : (s.outcome c).notices.any Notice.isRollback = true)

theorem acknowledged_call (s : History) (c : Call) :
    (s.call c).acknowledged = s.acknowledged ++ (s.landing c).filter (·.acknowledged) := by
  rw [acknowledged, call, List.filter_append]
  rfl

/-- **A call adds to the file, or rolls back**, whatever fails. -/
theorem effect (s : History) (c : Call) : s.Effect c := by
  have hack := s.acknowledged_call c
  cases hb : c.request.bytes? with
  | none =>
      have hcall := s.call_read c hb
      obtain ⟨-, -, hnotices⟩ := s.outcome_read c hb
      refine .added [] ?_ (by rw [hcall]) (by rw [hnotices]; rfl)
      rw [hcall, List.append_nil]
  | some bytes =>
      have hcall := s.call_write c hb
      obtain ⟨-, -, hnotices⟩ := s.outcome_write c hb
      rw [landing, hb] at hack
      cases hf : s.disk.content? s.store.path with
      | none =>
          obtain ⟨failure, hend⟩ :=
            Store.perform_append_missing s.store s.disk c.faults bytes hf
          replace hend : s.writeOutcome c bytes = _ := hend
          rw [hend] at hcall hnotices
          refine .added [] ?_ ?_ (by rw [hnotices]; rfl)
          · rw [List.append_nil, content, content, hcall]
          · simpa [hend, Except.toBool] using hack
      | some base =>
          have hbase : s.content = base := by rw [content, hf]; rfl
          have hend : AppendEnd s.store bytes base (s.writeOutcome c bytes) :=
            Store.perform_append s.store s.disk c.faults bytes hf
          generalize hw : s.writeOutcome c bytes = o at hend hcall hnotices
          simp only [hw] at hack
          cases hend with
          | committed hfile =>
              have hcontent : (s.call c).content = s.content ++ bytes := by
                rw [hbase, content, hcall, hfile]
                rfl
              generalize (s.outcome c).answer.toBool = told at hack
              cases told with
              | true =>
                  refine .acknowledged bytes hcontent ?_ (by rw [hnotices]; rfl)
                  simpa [Except.toBool] using hack
              | false =>
                  refine .added bytes hcontent ?_ (by rw [hnotices]; rfl)
                  simpa [Except.toBool] using hack
          | refused hfile =>
              refine .added [] ?_ (by simpa [Except.toBool] using hack) (by rw [hnotices]; rfl)
              rw [hbase, content, hcall, hfile, List.append_nil]
              rfl
          | cutBack n hfile =>
              refine .cut (bytes.take n) ?_ (by simpa [Except.toBool] using hack)
                (by rw [hnotices]; rfl)
              rw [hbase, content, hcall, hfile]
              rfl
          | notCutBack n hfile =>
              refine .added (bytes.take n) ?_ (by simpa [Except.toBool] using hack)
                (by rw [hnotices]; rfl)
              rw [hbase, content, hcall, hfile]
              rfl

/-- **One call keeps the acknowledged appends if and only if it does not cut into one.** -/
theorem Kept.call_iff {s : History} {c : Call} (h : s.Kept) : (s.call c).Kept ↔ ¬ s.CutsInto c := by
  unfold Kept CutsInto
  cases s.effect c with
  | added more hcontent hack hroll =>
      rw [hcontent, hack, hroll]
      refine ⟨by simp, ?_⟩
      intro _ l hl
      exact (h l hl).append more
  | acknowledged bytes hcontent hack hroll =>
      rw [hcontent, hack, hroll]
      refine ⟨by simp, ?_⟩
      intro _ l hl
      rcases List.mem_append.1 hl with hl | hl
      · exact (h l hl).append bytes
      · rw [List.mem_singleton.1 hl]
        exact ⟨[], (List.append_nil _).trans List.drop_left.symm⟩
  | cut more hcontent hack hroll =>
      rw [hcontent, hack]
      constructor
      · rintro hkept ⟨-, l, hl, hb, hlt⟩
        have hle := (((h l hl).append more).resized_iff hb s.store.committed).1 (hkept l hl)
        omega
      · intro hno l hl
        by_cases hb : l.bytes = []
        · exact Landing.inPlace_of_nil hb
        · have hle : l.stop ≤ s.store.committed := by
            by_contra hlt
            exact hno ⟨hroll, l, hl, hb, Nat.not_le.1 hlt⟩
          exact (((h l hl).append more).resized_iff hb s.store.committed).2 hle

/-- The acknowledged appends lie in the file one after another. -/
def InSequence (s : History) : Prop :=
  s.acknowledged.Pairwise Landing.Before

theorem InSequence.call {s : History} {c : Call} (h : s.InSequence) (hkept : s.Kept) :
    (s.call c).InSequence := by
  unfold InSequence
  cases s.effect c with
  | added more hcontent hack hroll => rw [hack]; exact h
  | acknowledged bytes hcontent hack hroll =>
      rw [hack]
      refine List.pairwise_append.2 ⟨h, List.pairwise_singleton .., ?_⟩
      intro l hl m hm hb _
      rw [List.mem_singleton.1 hm]
      exact (hkept l hl).stop_le hb
  | cut more hcontent hack hroll => rw [hack]; exact h

theorem Kept.holds {s : History} (h : s.Kept) (hseq : s.InSequence) :
    Holds (s.acknowledged.map (·.bytes)) s.content :=
  holds_drop 0 hseq h fun _ _ _ => Nat.zero_le _

/-- **On an intact log no rollback cuts into an acknowledged append.** -/
theorem Intact.not_cutsInto {s : History} {c : Call} (h : s.Intact) (hkept : s.Kept) :
    ¬ s.CutsInto c := by
  rintro ⟨-, l, hl, hb, hlt⟩
  have hstop := (hkept l hl).stop_le hb
  rw [content, h.file, Option.getD_some, ← h.counter] at hstop
  omega

/-! ## Whole histories -/

/-- All acknowledged appends stay where they were written, after every call. -/
def AlwaysKept (s : History) (calls : List Call) : Prop :=
  ∀ before, before <+: calls → (s.after before).Kept

/-- No call cuts into an acknowledged append. -/
def NeverCutsInto (s : History) (calls : List Call) : Prop :=
  ∀ before c, before ++ [c] <+: calls → ¬ (s.after before).CutsInto c

theorem after_concat (s : History) (calls : List Call) (c : Call) :
    s.after (calls ++ [c]) = (s.after calls).call c :=
  s.after_append calls [c]

/-- What holds before any call and is kept by each holds after every first part of the calls. -/
theorem calls_induction {calls : List Call} {P : List Call → Prop} (nil : P [])
    (call : ∀ before c, before ++ [c] <+: calls → P before → P (before ++ [c])) {before : List Call}
    (hpre : before <+: calls) : P before := by
  induction before using List.reverseRecOn with
  | nil => exact nil
  | append_singleton before c ih =>
      exact call before c hpre (ih ((List.prefix_append ..).trans hpre))

theorem AlwaysKept.neverCutsInto {s : History} {calls : List Call} (h : s.AlwaysKept calls) :
    s.NeverCutsInto calls := by
  intro before c hpre
  have hafter := h _ hpre
  rw [after_concat] at hafter
  exact (h before ((List.prefix_append ..).trans hpre)).call_iff.1 hafter

theorem NeverCutsInto.alwaysKept {s : History} {calls : List Call} (hs : s.Kept)
    (h : s.NeverCutsInto calls) : s.AlwaysKept calls := by
  intro before hpre
  refine calls_induction (P := fun before => (s.after before).Kept) hs ?_ hpre
  intro before c hpre hkept
  rw [after_concat]
  exact hkept.call_iff.2 (h before c hpre)

/-- **Without a failed rollback nothing acknowledged is lost.** -/
theorem Intact.alwaysKept {s : History} {calls : List Call} (h : s.Intact) (hs : s.Kept)
    (hroll : (s.after calls).RolledBack) : s.AlwaysKept calls := by
  intro before hpre
  refine calls_induction (P := fun before => (s.after before).Kept) hs ?_ hpre
  intro before c hpre hkept
  obtain ⟨rest, rfl⟩ := hpre
  rw [List.append_assoc, after_append] at hroll
  rw [after_concat]
  exact hkept.call_iff.2 ((h.after (rolledBack_of_after hroll)).not_cutsInto hkept)

theorem AlwaysKept.inSequence {s : History} {calls : List Call} (hs : s.InSequence)
    (h : s.AlwaysKept calls) : ∀ before, before <+: calls → (s.after before).InSequence := by
  intro before hpre
  refine calls_induction (P := fun before => (s.after before).InSequence) hs ?_ hpre
  intro before c hpre hseq
  rw [after_concat]
  exact hseq.call (h before ((List.prefix_append ..).trans hpre))

end History

/-- **When acknowledged appends are kept.**  From any store and disk, under any faults, rollbacks that
fail included: all acknowledged appends stay where they were written if and only if no call rolls back
to a counter that is behind the end of one; and while they do, the file holds all of them whole, in the
order in which they were committed. -/
theorem acknowledged_kept_iff (store : Store) (disk : Disk) (calls : List Call) :
    let s : History := { store := store, disk := disk }
    (s.AlwaysKept calls ↔ s.NeverCutsInto calls) ∧
      (s.NeverCutsInto calls → ∀ before, before <+: calls →
        Holds ((s.after before).acknowledged.map (·.bytes)) (s.after before).content) := by
  intro s
  have hkept : s.Kept := by
    intro l hl
    cases hl
  have hseq : s.InSequence := List.Pairwise.nil
  refine ⟨⟨fun h => h.neverCutsInto, fun h => h.alwaysKept hkept⟩, ?_⟩
  intro h before hpre
  have halways := h.alwaysKept hkept
  exact (halways before hpre).holds (halways.inSequence hseq before hpre)

/-- An append whose rollback fails, an append that succeeds, and an append that is rolled back. -/
def History.losing : List Call :=
  [⟨.append (utf8 "torn\n"),
      fun | .writing => some ⟨.noSpace, 2⟩ | .cutting => some ⟨.noSpace, 0⟩ | _ => none, nofun⟩,
    ⟨.append (utf8 "kept\n"), .none, nofun⟩,
    ⟨.append (utf8 "refused\n"), .only .writing ⟨.noSpace, 0⟩, nofun⟩]

/-- **An acknowledged append can be lost**, on a log that nobody else touches. -/
theorem acknowledged_append_is_lost :
    ¬ ∀ (disk fresh : Disk) (path : Path) (sync : Bool) (store : Store) (calls : List Call),
      Store.create disk path sync = .ok (store, fresh) →
        let s := History.after { store := store, disk := fresh } calls
        Holds (s.acknowledged.map (·.bytes)) s.content := by
  intro h
  have hheld : Holds ((History.created.after History.losing).acknowledged.map (·.bytes))
      (History.created.after History.losing).content :=
    h {} _ ⟨[], "data"⟩ false _ History.losing rfl
  have hacknowledged : (History.created.after History.losing).acknowledged.map (·.bytes) =
      [utf8 "kept\n"] := by decide +kernel
  have hcontent : (History.created.after History.losing).content = utf8 "tokep" := by decide +kernel
  rw [hacknowledged, hcontent] at hheld
  -- The newline of the acknowledged packet is gone.
  obtain ⟨gap, rest, hsplit, -⟩ := hheld
  have hmem : newline ∈ utf8 "tokep" := by
    rw [hsplit]
    exact List.mem_append_left _ (List.mem_append_right _ (by decide))
  revert hmem
  decide

end EchoLog

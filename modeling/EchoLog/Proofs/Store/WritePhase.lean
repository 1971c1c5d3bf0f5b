import EchoLog.Proofs.Disk.Content
import EchoLog.Store.Basic
/-!
# The write phase of an append

From its first file step to the moment when its bytes are counted, an append is in its write phase.
`WritePhase` says what the file holds at each step of it, in terms of what it held when the append
began (`base`); `WriteEnd` lists the four ways in which the phase ends, whatever fails:

| | the file | counted |
| :-- | :-- | :-- |
| committed | `base` and the bytes | yes |
| refused | `base` | no |
| cut back | `base` and what was stored, cut to the counter | no |
| not cut back | `base` and what was stored | no |

One step stays in the phase or ends it (`WritePhase.step`), so a whole run ends in one of the four
(`WritePhase.run`).  Everything about appends in the rest of the theory is read off that table.
-/

namespace EchoLog

/-- A content after its file was set to a length: cut, or filled with zero bytes. -/
def resized (length : Nat) (c : Bytes) : Bytes :=
  c.take length ++ List.replicate (length - c.length) 0

theorem resized_of_le {length : Nat} {c : Bytes} (h : length ≤ c.length) :
    resized length c = c.take length := by
  rw [resized, Nat.sub_eq_zero_of_le h, List.replicate_zero, List.append_nil]

theorem length_resized (length : Nat) (c : Bytes) : (resized length c).length = length := by
  rw [resized, List.length_append, List.length_take, List.length_replicate]
  omega

namespace Node

/-- An append adds a part of the bytes, and all of them when it does not fail. -/
theorem append_stored (limit : Option Nat) (bytes : Bytes) {node : Node} (h : node ≠ .directory) :
    (node.append limit bytes).1 ≠ .directory ∧
      ∃ n, (node.append limit bytes).1.stored = node.stored ++ bytes.take n ∧
        ((node.append limit bytes).2 = none → bytes.take n = bytes) := by
  cases node with
  | directory => exact absurd rfl h
  | full =>
      refine ⟨h, 0, by rw [List.take_zero]; rfl, ?_⟩
      intro he
      simp only [append] at he
      split at he
      · rename_i hempty
        rw [List.isEmpty_iff.1 hempty, List.take_nil]
      · cases he
  | file content =>
      cases limit with
      | none =>
          refine ⟨?_, bytes.length, by rw [List.take_length]; rfl, fun _ => List.take_length⟩
          intro hdir
          cases hdir
      | some most =>
          simp only [append]
          split
          · exact ⟨by simp, bytes.length, by rw [List.take_length]; rfl, fun _ => List.take_length⟩
          · exact ⟨by simp, _, rfl, by simp⟩

/-- Setting the length does so, or fails and leaves the content. -/
theorem resize_stored (limit : Option Nat) (length : Nat) {node : Node} (h : node ≠ .directory) :
    (node.resize limit length).1 ≠ .directory ∧
      (((node.resize limit length).2 = none ∧
          (node.resize limit length).1.stored = resized length node.stored) ∨
        ∃ error, (node.resize limit length).2 = some error ∧
          (node.resize limit length).1.stored = node.stored) := by
  cases node with
  | directory => exact absurd rfl h
  | full => exact ⟨h, .inr ⟨_, rfl, rfl⟩⟩
  | file content =>
      simp only [resize]
      split
      · rename_i hle
        exact ⟨by simp, .inl ⟨rfl, (resized_of_le hle).symm⟩⟩
      · rename_i hgt
        split
        · exact ⟨by simp, .inr ⟨_, rfl, rfl⟩⟩
        · refine ⟨by simp, .inl ⟨rfl, ?_⟩⟩
          show content ++ _ = resized length content
          rw [resized, List.take_of_length_le (Nat.le_of_lt (Nat.not_le.1 hgt))]

end Node

/-! ## How far work has come -/

namespace Work

/-- The bytes of an append that is still in its write phase and has not failed there. -/
def bytes? : Work → Option Bytes
  | .opening bytes _ => some bytes
  | .writing _ bytes _ => some bytes
  | .flushing _ bytes _ => some bytes
  | .syncing _ bytes _ => some bytes
  | _ => none

/-- Whether nothing is left to do but reading, or nothing at all, and nothing has failed. -/
def isPast : Work → Bool
  | .reading => true
  | .finished (.ok _) => true
  | _ => false

/-- Whether a file step has failed. -/
def isFailing : Work → Bool
  | .cutting _ _ => true
  | .finished (.error _) => true
  | _ => false

/-- An append in its write phase. -/
def IsWriting (w : Work) (bytes : Bytes) : Prop :=
  w.bytes? = some bytes ∧ w.isPast = false ∧ w.isFailing = false

variable {w : Work}

theorem isWriting_of_bytes? {bytes : Bytes} (h : w.bytes? = some bytes) : w.IsWriting bytes := by
  refine ⟨h, ?_⟩
  cases w <;> cases h <;> exact ⟨rfl, rfl⟩

theorem isPast_eq_false (h : w.isFailing = true) : w.isPast = false := by
  cases w with
  | finished answer => cases answer <;> first | rfl | cases h
  | _ => first | rfl | cases h

theorem isPast_withHandle (f : Handle → Handle) (w : Work) : (w.withHandle f).isPast = w.isPast := by
  cases w <;> rfl

theorem isFailing_withHandle (f : Handle → Handle) (w : Work) :
    (w.withHandle f).isFailing = w.isFailing := by
  cases w <;> rfl

/-- **What a file step makes of work**: a failure, the end of the write phase or the end, or the next
step of the same write phase. -/
theorem step_course (fault : Option Fault) (store : Store) (disk : Disk) (h : w.answer? = none) :
    (w.step fault store disk).work.isFailing = true ∨
      ((w.step fault store disk).work.isPast = true ∧ w.isFailing = false) ∨
      ∃ bytes, w.bytes? = some bytes ∧ (w.step fault store disk).work.bytes? = some bytes := by
  cases w with
  | opening bytes echo =>
      simp only [step]
      split
      · exact .inl rfl
      · split
        · exact .inl rfl
        · exact .inr (.inr ⟨bytes, rfl, rfl⟩)
  | writing file bytes echo =>
      simp only [step]
      split
      · exact .inl rfl
      · split
        · exact .inl rfl
        · exact .inr (.inr ⟨bytes, rfl, rfl⟩)
  | flushing file bytes echo =>
      simp only [step]
      split
      · exact .inl rfl
      · split
        · exact .inr (.inr ⟨bytes, rfl, rfl⟩)
        · exact .inr (.inl ⟨by cases echo <;> rfl, rfl⟩)
  | syncing file bytes echo =>
      simp only [step]
      split
      · exact .inl rfl
      · exact .inr (.inl ⟨by cases echo <;> rfl, rfl⟩)
  | cutting file cause =>
      simp only [step]
      split
      · exact .inl rfl
      · split <;> exact .inl rfl
  | reading =>
      simp only [step]
      split
      · exact .inl rfl
      · split
        · exact .inl rfl
        · exact .inr (.inl ⟨rfl, rfl⟩)
  | unlinking =>
      simp only [step]
      split
      · exact .inr (.inl ⟨rfl, rfl⟩)
      · split
        · exact .inr (.inl ⟨rfl, rfl⟩)
        · exact .inl rfl
  | finished answer => cases h

/-- Only a step that fails reports anything. -/
theorem notices_step (fault : Option Fault) (store : Store) (disk : Disk) (w : Work) :
    (w.step fault store disk).work.isFailing = true ∨ (w.step fault store disk).notices = [] := by
  cases w with
  | cutting file cause =>
      simp only [step]
      split
      · exact .inl rfl
      · split <;> exact .inl rfl
  | opening bytes echo => exact .inr (by simp only [step]; split <;> [rfl; split <;> rfl])
  | writing file bytes echo => exact .inr (by simp only [step]; split <;> [rfl; split <;> rfl])
  | flushing file bytes echo => exact .inr (by simp only [step]; split <;> [rfl; split <;> rfl])
  | syncing file bytes echo => exact .inr (by simp only [step]; split <;> rfl)
  | reading => exact .inr (by simp only [step]; split <;> [rfl; split <;> rfl])
  | unlinking => exact .inr (by simp only [step]; split <;> [rfl; split <;> rfl])
  | finished answer => exact .inr rfl

end Work

/-! ## The phase and its end -/

/-- Where an append stands in its write phase, and what the file holds there: `base` is what it held
when the append began. -/
inductive WritePhase (path : Path) (disk : Disk) (bytes : Bytes) (echo : Bool) (base : Bytes) :
    Work → Prop where
  | opening : disk.content? path = some base →
      WritePhase path disk bytes echo base (.opening bytes echo)
  | writing {file : Handle} : file.Opened disk path base →
      WritePhase path disk bytes echo base (.writing file bytes echo)
  | flushing {file : Handle} : file.Opened disk path (base ++ bytes) →
      WritePhase path disk bytes echo base (.flushing file bytes echo)
  | syncing {file : Handle} : file.Opened disk path (base ++ bytes) →
      WritePhase path disk bytes echo base (.syncing file bytes echo)
  | cutting {file : Handle} {cause : IoError} (n : Nat) :
      file.Opened disk path (base ++ bytes.take n) →
      WritePhase path disk bytes echo base (.cutting file cause)

/-- How a write phase ends. -/
inductive WriteEnd (store : Store) (bytes : Bytes) (echo : Bool) (base : Bytes) : Progress → Prop where
  | committed {disk : Disk} : disk.content? store.path = some (base ++ bytes) →
      WriteEnd store bytes echo base (Work.commit store disk bytes echo)
  | refused {disk : Disk} {cause : IoError} : disk.content? store.path = some base →
      WriteEnd store bytes echo base ⟨Work.failed cause, store, disk, []⟩
  | cutBack {disk : Disk} {cause : IoError} (n : Nat) :
      disk.content? store.path = some (resized store.committed (base ++ bytes.take n)) →
      WriteEnd store bytes echo base
        ⟨Work.failed cause, store, disk, [.cutBack cause store.committed]⟩
  | notCutBack {disk : Disk} {cause error : IoError} (n : Nat) :
      disk.content? store.path = some (base ++ bytes.take n) →
      WriteEnd store bytes echo base
        ⟨Work.failed cause, store, disk, [.notCutBack error store.committed]⟩

namespace WritePhase

variable {store : Store} {disk : Disk} {bytes : Bytes} {echo : Bool} {base : Bytes} {w : Work}

/-- A write phase is not over. -/
theorem answer?_eq_none {path : Path} (h : WritePhase path disk bytes echo base w) :
    w.answer? = none := by
  cases h <;> rfl

theorem isPast_eq_false {path : Path} (h : WritePhase path disk bytes echo base w) :
    w.isPast = false := by
  cases h <;> rfl

/-- It is a write phase for its bytes, until something fails. -/
theorem bytes?_or_isFailing {path : Path} (h : WritePhase path disk bytes echo base w) :
    w.bytes? = some bytes ∨ w.isFailing = true := by
  cases h <;> first | exact .inl rfl | exact .inr rfl

/-- The file begins with what was committed. -/
theorem exists_rest {path : Path} (h : WritePhase path disk bytes echo base w) :
    ∃ rest, disk.content? path = some (base ++ rest) := by
  cases h with
  | opening h => exact ⟨[], by rw [h, List.append_nil]⟩
  | writing h => exact ⟨[], by rw [h.content?, List.append_nil]⟩
  | flushing h => exact ⟨bytes, h.content?⟩
  | syncing h => exact ⟨bytes, h.content?⟩
  | cutting n h => exact ⟨bytes.take n, h.content?⟩

/-- What a progress has to be when the phase goes on or ends. -/
def Continues (store : Store) (bytes : Bytes) (echo : Bool) (base : Bytes) (p : Progress) : Prop :=
  (p.store = store ∧ p.notices = [] ∧ WritePhase store.path p.disk bytes echo base p.work) ∨
    WriteEnd store bytes echo base p

theorem step_opening (fault : Option Fault) (h : disk.content? store.path = some base) :
    Continues store bytes echo base ((Work.opening bytes echo).step fault store disk) := by
  cases fault with
  | some f => exact .inr (.refused h)
  | none =>
      obtain ⟨place, node, hf, hc⟩ := Disk.exists_of_content? h
      have hopen : disk.openToAppend store.path = .ok place := by rw [Disk.openToAppend, hf]; rfl
      simp only [Work.step, hopen]
      exact .inl ⟨rfl, rfl, .writing ⟨place, node, rfl, hf, hc⟩⟩

theorem step_writing (fault : Option Fault) {file : Handle}
    (h : file.Opened disk store.path base) :
    Continues store bytes echo base ((Work.writing file bytes echo).step fault store disk) := by
  cases fault with
  | some f =>
      obtain ⟨node, hdir, hc, hsame, -, hopened⟩ :=
        h.change (Node.append disk.limit (bytes.take f.stored))
      obtain ⟨hdir', n, hn, -⟩ := Node.append_stored disk.limit (bytes.take f.stored) hdir
      -- what is stored is a part of a part
      have hcut := hopened hdir'
      rw [hn, hc, List.take_take] at hcut
      simp only [Work.step]
      exact .inl ⟨rfl, rfl, .cutting _ (by rw [hsame]; exact hcut)⟩
  | none =>
      obtain ⟨node, hdir, hc, hsame, herror, hopened⟩ := h.change (Node.append disk.limit bytes)
      obtain ⟨hdir', n, hn, hall⟩ := Node.append_stored disk.limit bytes hdir
      have hcut := hopened hdir'
      rw [hn, hc] at hcut
      simp only [Work.step]
      split
      · rename_i file' disk' cause e
        rw [e] at hsame hcut
        cases hsame
        exact .inl ⟨rfl, rfl, .cutting n hcut⟩
      · rename_i file' disk' e
        rw [e] at hsame hcut herror
        rw [hall herror.symm] at hcut
        cases hsame
        exact .inl ⟨rfl, rfl, .flushing hcut⟩

/-- A failure after the write has stored all bytes: they are cut off next. -/
theorem cutting_all {path : Path} {file : Handle} {cause : IoError}
    (h : file.Opened disk path (base ++ bytes)) :
    WritePhase path disk bytes echo base (.cutting file cause) :=
  .cutting bytes.length (by rwa [List.take_length])

theorem step_flushing (fault : Option Fault) {file : Handle}
    (h : file.Opened disk store.path (base ++ bytes)) :
    Continues store bytes echo base ((Work.flushing file bytes echo).step fault store disk) := by
  cases fault with
  | some f => exact .inl ⟨rfl, rfl, cutting_all h⟩
  | none =>
      simp only [Work.step]
      split
      · exact .inl ⟨rfl, rfl, .syncing h⟩
      · exact .inr (.committed h.content?)

theorem step_syncing (fault : Option Fault) {file : Handle}
    (h : file.Opened disk store.path (base ++ bytes)) :
    Continues store bytes echo base ((Work.syncing file bytes echo).step fault store disk) := by
  simp only [Work.step]
  split
  · exact .inl ⟨rfl, rfl, cutting_all h⟩
  · exact .inr (.committed h.content?)

theorem step_cutting (fault : Option Fault) {file : Handle} {cause : IoError} (n : Nat)
    (h : file.Opened disk store.path (base ++ bytes.take n)) :
    Continues store bytes echo base ((Work.cutting file cause).step fault store disk) := by
  cases fault with
  | some f => exact .inr (.notCutBack n h.content?)
  | none =>
      obtain ⟨node, hdir, hc, -, herror, hopened⟩ :=
        h.change (Node.resize disk.limit store.committed)
      obtain ⟨hdir', hres⟩ := Node.resize_stored disk.limit store.committed hdir
      have hafter := hopened hdir'
      simp only [Work.step]
      split
      · rename_i file' disk' error e
        rw [e] at herror hafter
        rcases hres with ⟨hnone, -⟩ | ⟨-, -, hkept⟩
        · rw [hnone] at herror
          cases herror
        · rw [hkept, hc] at hafter
          exact .inr (.notCutBack n hafter.content?)
      · rename_i file' disk' e
        rw [e] at herror hafter
        rcases hres with ⟨-, hcut⟩ | ⟨error, herr, -⟩
        · rw [hcut, hc] at hafter
          exact .inr (.cutBack n hafter.content?)
        · rw [herr] at herror
          cases herror

/-- **One step of a write phase goes on or ends the phase**, under any fault. -/
theorem step (fault : Option Fault) (h : WritePhase store.path disk bytes echo base w) :
    Continues store bytes echo base (w.step fault store disk) := by
  cases h with
  | opening h => exact step_opening fault h
  | writing h => exact step_writing fault h
  | flushing h => exact step_flushing fault h
  | syncing h => exact step_syncing fault h
  | cutting n h => exact step_cutting fault n h

end WritePhase

/-! ## Whole requests -/

/-- A progress run to its end. -/
def Progress.finish (p : Progress) (faults : Faults) : Outcome :=
  let o := p.work.run faults p.store p.disk
  { o with notices := p.notices ++ o.notices }

namespace Work

theorem run_finished (faults : Faults) (store : Store) (disk : Disk) (answer : Answer) :
    (finished answer).run faults store disk = ⟨answer, store, disk, []⟩ := by
  rw [run]
  rfl

theorem run_step (faults : Faults) (store : Store) (disk : Disk) {w : Work}
    (h : w.answer? = none) :
    w.run faults store disk = (w.step (w.fileStep?.bind faults) store disk).finish faults := by
  rw [run]
  split
  · rename_i answer ha
    rw [h] at ha
    cases ha
  · rfl

end Work

/-- **A write phase that runs on ends in one of the four ways.** -/
theorem WritePhase.run {bytes : Bytes} {echo : Bool} {base : Bytes} (faults : Faults)
    {store : Store} {w : Work} : ∀ {disk : Disk}, WritePhase store.path disk bytes echo base w →
      ∃ p, WriteEnd store bytes echo base p ∧ w.run faults store disk = p.finish faults := by
  induction hn : w.stepsLeft using Nat.strong_induction_on generalizing w with
  | _ n ih =>
      intro disk h
      have hmore := h.answer?_eq_none
      rw [Work.run_step faults store disk hmore]
      rcases h.step (w.fileStep?.bind faults) with ⟨hstore, hnotices, hw⟩ | hend
      · -- `base` stays what the file held when the append began
        have hless := Work.stepsLeft_step (w.fileStep?.bind faults) store disk hmore
        obtain ⟨p, hp, hrun⟩ := ih _ (hn ▸ hless) rfl hw
        refine ⟨p, hp, ?_⟩
        rw [Progress.finish, hstore, hnotices, hrun]
        rfl
      · exact ⟨_, hend, rfl⟩

end EchoLog

import EchoLog.Proofs.Disk.Changes
import EchoLog.Proofs.SharedLog.Queue
/-!
# Where the log file is

In a run on a log that was just created the place of the log file can always be told, and whatever a
holder of the lock has open stands there, or has lost its place (`SharedLog.Housed`).  So a step of the
store changes what stands at the place, or takes it away, and it never brings a file that was not there:
it opens without creating, it writes to what it has opened, and a cut after a failure is a cut of the same
open file (`Work.At.step`).
-/

namespace EchoLog

open Disk

/-! ## Open files -/

section Files

variable {file : Handle} {disk : Disk} {p : Path}

/-- An open file stands at the place of a path, or has lost its place. -/
def Handle.At (p : Path) : Handle → Prop
  | .linked place => place = p.place
  | .orphan _ => True

theorem Handle.At.keep (h : file.At p) (before after : Disk) : (file.keep before after).At p := by
  cases file with
  | orphan node => trivial
  | linked place =>
      rw [Handle.keep]
      split
      · trivial
      · trivial
      · exact h

/-- A change of an open file brings none. -/
theorem Handle.At.change (h : file.At p) (hd : disk.Sited p) {f : Node → Node × Option IoError}
    (hf : ∀ node, (f node).1 = .directory ↔ node = .directory) :
    (file.change disk f).1.At p ∧ Fares p false false disk (file.change disk f).2.1 := by
  cases file with
  | orphan node => exact ⟨trivial, hd.fares⟩
  | linked place =>
      cases (h : place = p.place)
      rw [Handle.change]
      split
      · rename_i node hnode
        refine ⟨rfl, hd.put ?_, ?_⟩
        · intro hfile
          exact hd.reached node hnode fun hdirectory => hfile ((hf node).2 hdirectory)
        · rw [node?_put_self disk p.place_ne_nil]
          exact .changed hnode (hf node)
      · exact ⟨rfl, hd.fares⟩

end Files

namespace Work

variable {w : Work} {store : Store} {disk : Disk}

/-- The file that work has open. -/
def file? : Work → Option Handle
  | writing file _ _ => some file
  | flushing file _ _ => some file
  | syncing file _ _ => some file
  | cutting file _ => some file
  | _ => none

/-- The file that work has open stands at the place of a path, or has lost its place. -/
def At (p : Path) (w : Work) : Prop :=
  ∀ file, w.file? = some file → file.At p

theorem at_of_closed {p : Path} (h : w.file? = none) : w.At p := by
  intro file hfile
  cases h.symm.trans hfile

theorem at_of_open {p : Path} {file : Handle} (h : w.file? = some file) (hfile : file.At p) : w.At p := by
  intro other hother
  cases h.symm.trans hother
  exact hfile

theorem At.withHandle {p : Path} (h : w.At p) {f : Handle → Handle}
    (hf : ∀ file : Handle, file.At p → (f file).At p) : (w.withHandle f).At p := by
  cases w with
  | writing file bytes echo => exact at_of_open rfl (hf file (h file rfl))
  | flushing file bytes echo => exact at_of_open rfl (hf file (h file rfl))
  | syncing file bytes echo => exact at_of_open rfl (hf file (h file rfl))
  | cutting file cause => exact at_of_open rfl (hf file (h file rfl))
  | _ => exact at_of_closed rfl

theorem at_commit {p : Path} {bytes : Bytes} {echo : Bool} :
    (commit store disk bytes echo).work.At p := by
  cases echo <;> exact at_of_closed rfl

/-- **A step of whoever holds the lock brings no file**, and no directory either. -/
theorem At.step (h : w.At store.path) (hd : disk.Sited store.path) (fault : Option Fault) :
    (w.step fault store disk).work.At store.path ∧
      Fares store.path false false disk (w.step fault store disk).disk := by
  cases w with
  | opening bytes echo =>
      simp only [Work.step]
      split
      · exact ⟨at_of_closed rfl, hd.fares⟩
      · rcases hd.findFile with ⟨node, hfound, -, -⟩ | ⟨-, hfound | hfound⟩ <;>
          rw [Disk.openToAppend, hfound]
        · exact ⟨at_of_open rfl rfl, hd.fares⟩
        · exact ⟨at_of_closed rfl, hd.fares⟩
        · exact ⟨at_of_closed rfl, hd.fares⟩
  | writing file bytes echo =>
      have hchange := fun bytes =>
        (h file rfl).change hd (Node.append_eq_directory_iff disk.limit bytes)
      simp only [Work.step]
      split
      · rename_i f
        obtain ⟨hfile, hfares⟩ := hchange (bytes.take f.stored)
        exact ⟨at_of_open rfl hfile, hfares⟩
      · obtain ⟨hfile, hfares⟩ := hchange bytes
        split
        · rename_i heq
          rw [heq] at hfile hfares
          exact ⟨at_of_open rfl hfile, hfares⟩
        · rename_i heq
          rw [heq] at hfile hfares
          exact ⟨at_of_open rfl hfile, hfares⟩
  | flushing file bytes echo =>
      simp only [Work.step]
      split
      · exact ⟨at_of_open rfl (h file rfl), hd.fares⟩
      · split
        · exact ⟨at_of_open rfl (h file rfl), hd.fares⟩
        · exact ⟨at_commit, hd.fares⟩
  | syncing file bytes echo =>
      simp only [Work.step]
      split
      · exact ⟨at_of_open rfl (h file rfl), hd.fares⟩
      · exact ⟨at_commit, hd.fares⟩
  | cutting file cause =>
      simp only [Work.step]
      split
      · exact ⟨at_of_closed rfl, hd.fares⟩
      · obtain ⟨-, hfares⟩ :=
          (h file rfl).change hd (Node.resize_eq_directory_iff disk.limit store.committed)
        split
        · rename_i heq
          rw [heq] at hfares
          exact ⟨at_of_closed rfl, hfares⟩
        · rename_i heq
          rw [heq] at hfares
          exact ⟨at_of_closed rfl, hfares⟩
  | reading =>
      simp only [Work.step]
      split
      · exact ⟨at_of_closed rfl, hd.fares⟩
      · split <;> exact ⟨at_of_closed rfl, hd.fares⟩
  | unlinking =>
      cases fault with
      | some f =>
          simp only [Work.step]
          split <;> exact ⟨at_of_closed rfl, hd.fares⟩
      | none =>
          simp only [Work.step]
          rcases hd.findFile with ⟨node, hfound, -, -⟩ | ⟨-, hfound | hfound⟩ <;>
            rw [Disk.unlink, hfound]
          · exact ⟨at_of_closed rfl, hd.filter (fun l => l ≠ store.path.place) (by simp)⟩
          · simp only [Except.map]
            split <;> exact ⟨at_of_closed rfl, hd.fares⟩
          · simp only [Except.map]
            split <;> exact ⟨at_of_closed rfl, hd.fares⟩
  | finished answer => exact ⟨at_of_closed rfl, hd.fares⟩

theorem path_step (w : Work) (fault : Option Fault) (store : Store) (disk : Disk) :
    (w.step fault store disk).store.path = store.path := by
  cases w <;> simp only [Work.step]
  all_goals (repeat' split)
  all_goals rfl

end Work

/-- Whether another process brings the file back. -/
def Event.bringsFile : Event → Bool
  | .outside c => c.bringsFile
  | _ => false

/-- Whether another process puts a directory in the place of the file. -/
def Event.folds : Event → Bool
  | .outside c => c.folds
  | _ => false

namespace SharedLog

variable {g g' : SharedLog} {e : Event}

/-! ## The place of the log -/

/-- The queue is in order, the place of the log file can be told, and what the holder of the lock has
open stands there or nowhere. -/
structure Housed (g : SharedLog) : Prop where
  queue : g.Queue
  sited : g.disk.Sited g.store.path
  held : ∀ i w, g.holder = some (i, w) → w.At g.store.path

/-- **Every move keeps it so**, and only another process brings a file. -/
theorem Housed.move (h : g.Housed) (hm : Move g e g') :
    g'.Housed ∧ g'.store.path = g.store.path ∧
      Fares g.store.path e.bringsFile e.folds g.disk g'.disk := by
  have hqueue := h.queue.move hm
  cases hm with
  | own more ht hown => exact ⟨⟨hqueue, h.sited, h.held⟩, rfl, h.sited.fares⟩
  | ask _ _ => exact ⟨⟨hqueue, h.sited, h.held⟩, rfl, h.sited.fares⟩
  | @grant i r rest _ _ =>
      refine ⟨⟨hqueue, h.sited, ?_⟩, rfl, h.sited.fares⟩
      rintro j w ⟨⟩
      cases r <;> exact Work.at_of_closed rfl
  | @file i w fault hw _ =>
      obtain ⟨hopen, hfares⟩ := (h.held i w hw).step h.sited fault
      have hpath := w.path_step fault g.store g.disk
      refine ⟨⟨hqueue, ?_, ?_⟩, hpath, hfares⟩
      · rw [hpath]
        exact hfares.sited
      · rintro j w' ⟨⟩
        rw [hpath]
        exact hopen
  | release _ _ => exact ⟨⟨hqueue, h.sited, by simp⟩, rfl, h.sited.fares⟩
  | fire _ => exact ⟨⟨hqueue, h.sited, h.held⟩, rfl, h.sited.fares⟩
  | outside c =>
      have hfares := h.sited.apply c
      refine ⟨⟨hqueue, hfares.sited, ?_⟩, rfl, hfares⟩
      intro j w hw
      obtain ⟨v, hv, rfl⟩ := holder_changed hw
      exact (h.held j v hv).withHandle fun file hfile => hfile.keep _ _

/-- The log file was just created, and nothing has happened. -/
theorem housed_start {disk fresh : Disk} {path : Path} {sync : Bool} {store : Store}
    (hcreate : Store.create disk path sync = .ok (store, fresh)) (seats : List Seat) :
    Housed { disk := fresh, store := store, seats := seats } ∧
      fresh.node? store.path.place ≠ some .directory := by
  obtain ⟨hmade, rfl⟩ := Store.create_eq_ok_iff.1 hcreate
  obtain ⟨hsited, hfile⟩ := sited_create hmade
  exact ⟨⟨queue_start _ _ _, hsited, by simp⟩, hfile⟩

end SharedLog

end EchoLog
